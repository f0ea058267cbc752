import DreamWeaver.Events.Subscribers

/-! # Subscriptions to the event bus in memory

`InMemoryEventBus` of the backend (`api/src/infrastructure/events/InMemoryEventBus.ts`) and of the frontend
(`src/infrastructure/events/InMemoryEventBus.ts`). Like the bus with a table, both keep a `Set` of functions for each
type of event: a function is registered once, however often it is subscribed, and each of the functions that
`subscribe` has returned for it takes it out. `publish` takes the functions of the set at once and calls one after
the other; what they call meanwhile comes between the calls, and what they await is settled at any time. -/

namespace DreamWeaver.Events.Subscriptions

open Transitions

/-! ## The bus -/

/-- The two buses, which differ in a check of `publish`. -/
inductive BusVersion where
  | backend
  | frontend

/-- A call of `publish`: the handlers that it has still to call and those that it has called; of the latter, those
that are still running; and what became of the others, as `Promise.all` sees it. -/
structure Delivery (E : Type) where
  event : E
  waiting : List Handler
  called : List Handler := []
  running : List Handler := []
  results : List (Except JsError Unit) := []

/-- `InMemoryEventBus`, with the functions that `subscribe` has returned, each as what it closes over; the calls of
`publish`; and what was logged. -/
structure InMemoryEventBus (E : Type) where
  handlers : Text → Option (List Handler) := fun _ => none
  subscriptions : List (Text × Handler) := []
  deliveries : List (Delivery E) := []
  logged : List (E × JsError) := []

/-- What happens at the bus. -/
inductive BusCall (E : Type) where
  | subscribe (type : Text) (handler : Handler)
  /-- A function that `subscribe` has returned is called. -/
  | unsubscribe (k : ℕ)
  | publish (event : E)
  /-- A call of `publish` goes on to its next handler. -/
  | invoke (d : ℕ)
  /-- A running handler has returned or thrown, or what it returned has resolved or rejected. -/
  | settled (d i : ℕ) (result : Except JsError Unit)

/-- `handlers.add(handler)` -/
def addHandler (handler : Handler) (handlers : List Handler) : List Handler :=
  if handler ∈ handlers then handlers else handlers ++ [handler]

/-- `handlers.delete(handler)` -/
def deleteHandler (handler : Handler) (handlers : List Handler) : List Handler :=
  handlers.filter fun other => other ≠ handler

/-- The handlers that `publish` calls: `Array.from` of the set of the type. -/
def snapshot (version : BusVersion) (handlers : Option (List Handler)) : List Handler :=
  match version, handlers with
  | .backend, none => []
  | .backend, some typehandlers => typehandlers
  | .frontend, none => []
  | .frontend, some eventHandlers => if eventHandlers.length = 0 then [] else eventHandlers

/-- `try { await handler(event) } catch (error) { console.error(…) }`: what is logged, and what is left to
`Promise.all`. -/
def guarded {E : Type} (event : E) : Except JsError Unit → List (E × JsError) × Except JsError Unit
  | .ok _ => ([], .ok ())
  | .error error => ([(event, error)], .ok ())

/-- The promise of a call of `publish`: `await Promise.all(promises)`. -/
def Delivery.promise {E : Type} (delivery : Delivery E) : Option (Except JsError Unit) :=
  match delivery.results.find? fun result => !result.isOk with
  | some rejected => some rejected
  | none => if delivery.waiting = [] ∧ delivery.running = [] then some (.ok ()) else none

namespace InMemoryEventBus

variable {E : Type} (typeOf : E → Text) (version : BusVersion)

/-- The bus after a call, if it can happen. -/
def step (s : InMemoryEventBus E) : BusCall E → Option (InMemoryEventBus E)
  | .subscribe type handler =>
    some { s with
      handlers := Function.update s.handlers type (some (addHandler handler ((s.handlers type).getD [])))
      subscriptions := s.subscriptions ++ [(type, handler)] }
  | .unsubscribe k => s.subscriptions[k]?.map fun subscription =>
    -- the set that the function has closed over, which stays that of its type
    { s with
      handlers := Function.update s.handlers subscription.1
        ((s.handlers subscription.1).map (deleteHandler subscription.2)) }
  | .publish event =>
    some { s with
      deliveries := s.deliveries ++ [⟨event, snapshot version (s.handlers (typeOf event)), [], [], []⟩] }
  | .invoke d => do
    let delivery ← s.deliveries[d]?
    match delivery.waiting with
    | [] => none
    | handler :: waiting => some { s with
        deliveries := s.deliveries.set d { delivery with
          waiting := waiting
          called := delivery.called ++ [handler]
          running := delivery.running ++ [handler] } }
  | .settled d i result => do
    let delivery ← s.deliveries[d]?
    if i < delivery.running.length then some { s with
      deliveries := s.deliveries.set d { delivery with
        running := delivery.running.eraseIdx i
        results := delivery.results ++ [(guarded delivery.event result).2] }
      logged := s.logged ++ (guarded delivery.event result).1 }
    else none

/-! ## The law -/

/-- The subscriptions of calls, in their order. -/
def subscriptionsOf (calls : List (BusCall E)) : List (Text × Handler) :=
  calls.filterMap fun call => match call with
    | .subscribe type handler => some (type, handler)
    | _ => none

/-- The events that calls publish. -/
def published (calls : List (BusCall E)) : List E :=
  calls.filterMap fun call => match call with
    | .publish event => some event
    | _ => none

/-- A function is registered for a type after calls: it was subscribed, and no unsubscribe function of a subscription
of it to the type was called since. -/
def Registered (calls : List (BusCall E)) (type : Text) (handler : Handler) : Prop :=
  ∃ before after, calls = before ++ .subscribe type handler :: after ∧
    ∀ k, .unsubscribe k ∈ after → (subscriptionsOf calls)[k]? ≠ some (type, handler)

/-- **The subscription law** after calls. -/
structure SubscriptionLaw (calls : List (BusCall E)) (s : InMemoryEventBus E) : Prop where
  /-- Every publish has its delivery. -/
  published : s.deliveries.map Delivery.event = published calls
  /-- It calls the functions that were registered when it was made, each once, and no others. -/
  delivered : ∀ d delivery, s.deliveries[d]? = some delivery → ∃ before after,
    calls = before ++ .publish delivery.event :: after ∧ (InMemoryEventBus.published before).length = d ∧
      (delivery.called ++ delivery.waiting).Nodup ∧
      ∀ handler, handler ∈ delivery.called ++ delivery.waiting ↔ Registered before (typeOf delivery.event) handler
  /-- It goes on whatever its handlers do. -/
  proceeds : ∀ d delivery, s.deliveries[d]? = some delivery → delivery.waiting ≠ [] →
    (step typeOf version s (.invoke d)).isSome
  /-- It does not reject, and resolves when all handlers have been called and have settled. -/
  resolves : ∀ delivery ∈ s.deliveries, delivery.promise =
    if delivery.waiting = [] ∧ delivery.running = [] then some (.ok ()) else none
  /-- An unsubscribe function takes out the function of its subscription, for its type, and nothing else. -/
  cancels : ∀ k type handler, s.subscriptions[k]? = some (type, handler) → ∀ type' handler',
    Registered (calls ++ [.unsubscribe k]) type' handler' ↔
      Registered calls type' handler' ∧ (type', handler') ≠ (type, handler)

/-! ## Registrations -/

variable {typeOf} {version} {s s' : InMemoryEventBus E} {calls : List (BusCall E)} {type type' : Text}
  {handlers : Text → Option (List Handler)}
  {handler handler' : Handler} {call : BusCall E} {k : ℕ}

theorem mem_addHandler {entries : List Handler} :
    handler' ∈ addHandler handler entries ↔ handler' ∈ entries ∨ handler' = handler := by
  unfold addHandler
  split
  · exact ⟨.inl, fun h => h.elim id fun heq => heq ▸ ‹_›⟩
  · simp

theorem nodup_addHandler {entries : List Handler} (h : entries.Nodup) : (addHandler handler entries).Nodup := by
  unfold addHandler
  split
  · exact h
  · rename_i hnew
    exact List.nodup_append.mpr ⟨h, List.nodup_singleton _, fun a ha b hb => by
      obtain rfl := List.mem_singleton.mp hb
      exact fun heq => hnew (heq ▸ ha)⟩

theorem snapshot_eq (version : BusVersion) (entries : Option (List Handler)) :
    snapshot version entries = entries.getD [] := by
  cases version with
  | backend => cases entries <;> rfl
  | frontend =>
    cases entries with
    | none => rfl
    | some eventHandlers =>
      show (if eventHandlers.length = 0 then [] else eventHandlers) = eventHandlers
      split
      · rename_i hempty
        exact (List.length_eq_zero_iff.mp hempty).symm
      · rfl

/-- Every unsubscribe function that is called has been returned. -/
def Issued (calls : List (BusCall E)) : Prop := ∀ k, .unsubscribe k ∈ calls → k < (subscriptionsOf calls).length

/-- A call that is no subscription leaves the subscriptions as they are. -/
theorem subscriptionsOf_concat (calls : List (BusCall E)) (call : BusCall E) :
    subscriptionsOf (calls ++ [call]) = subscriptionsOf calls ++ subscriptionsOf [call] :=
  List.filterMap_append

/-- Subscriptions that have been made stay. -/
theorem getElem?_subscriptionsOf (hk : k < (subscriptionsOf calls).length) (call : BusCall E) :
    (subscriptionsOf (calls ++ [call]))[k]? = (subscriptionsOf calls)[k]? := by
  rw [subscriptionsOf_concat, List.getElem?_append_left hk]

/-- What a call does to a registration: a subscription makes it, the unsubscribe function of one ends it. -/
theorem registered_concat (hissued : Issued calls) : Registered (calls ++ [call]) type handler ↔
    call = .subscribe type handler ∨ Registered calls type handler ∧
      ∀ k, call = .unsubscribe k → (subscriptionsOf (calls ++ [call]))[k]? ≠ some (type, handler) := by
  constructor
  · rintro ⟨before, after, heq, hafter⟩
    rcases List.eq_nil_or_concat' after with rfl | ⟨after, last, rfl⟩
    · obtain ⟨-, hlast⟩ := List.append_inj' heq rfl
      exact .inl (List.cons.inj hlast).1
    · rw [← List.cons_append, ← List.append_assoc] at heq
      obtain ⟨rfl, hlast⟩ := List.append_inj' heq rfl
      obtain rfl : call = last := (List.cons.inj hlast).1
      refine .inr ⟨⟨before, after, rfl, fun k hk => ?_⟩, fun k hcall => ?_⟩
      · have hlt : k < (subscriptionsOf (before ++ .subscribe type handler :: after)).length :=
          hissued k (List.mem_append_right _ (List.mem_cons_of_mem _ hk))
        rw [← getElem?_subscriptionsOf hlt call]
        exact hafter k (List.mem_append_left _ hk)
      · exact hafter k (List.mem_append_right _ (hcall ▸ List.mem_singleton_self _))
  · rintro (rfl | ⟨⟨before, after, rfl, hafter⟩, hcall⟩)
    · exact ⟨calls, [], rfl, fun k hk => absurd hk List.not_mem_nil⟩
    · refine ⟨before, after ++ [call], by simp, fun k hk => ?_⟩
      rcases List.mem_append.mp hk with hold | hnew
      · have hlt : k < (subscriptionsOf (before ++ .subscribe type handler :: after)).length :=
          hissued k (List.mem_append_right _ (List.mem_cons_of_mem _ hold))
        rw [getElem?_subscriptionsOf hlt call]
        exact hafter k hold
      · exact hcall k (List.mem_singleton.mp hnew).symm

/-- The sets hold what is registered. -/
def HoldsRegistered (handlers : Text → Option (List Handler)) (calls : List (BusCall E)) : Prop :=
  ∀ type, ((handlers type).getD []).Nodup ∧ ∀ handler, handler ∈ (handlers type).getD [] ↔
    Registered calls type handler

/-- A delivery is that of a publish among the calls, and has called or will call what was registered then. -/
structure IsDelivery (typeOf : E → Text) (calls : List (BusCall E)) (d : ℕ) (delivery : Delivery E) : Prop where
  publishes : ∃ before after, calls = before ++ .publish delivery.event :: after ∧ (published before).length = d ∧
    (delivery.called ++ delivery.waiting).Nodup ∧
    ∀ handler, handler ∈ delivery.called ++ delivery.waiting ↔ Registered before (typeOf delivery.event) handler
  guarded : ∀ result ∈ delivery.results, result = .ok ()

/-- What holds of a bus after calls. -/
structure BusInvariant (typeOf : E → Text) (calls : List (BusCall E)) (s : InMemoryEventBus E) : Prop where
  subscriptions : s.subscriptions = subscriptionsOf calls
  issued : Issued calls
  registered : HoldsRegistered s.handlers calls
  published : s.deliveries.map Delivery.event = published calls
  deliveries : ∀ d delivery, s.deliveries[d]? = some delivery → IsDelivery typeOf calls d delivery

/-! ## What one call does -/

theorem IsDelivery.concat {d : ℕ} {delivery : Delivery E} (h : IsDelivery typeOf calls d delivery)
    (call : BusCall E) : IsDelivery typeOf (calls ++ [call]) d delivery := by
  obtain ⟨⟨before, after, rfl, hrest⟩, hguarded⟩ := h
  exact ⟨⟨before, after ++ [call], by simp, hrest⟩, hguarded⟩

theorem published_concat (calls : List (BusCall E)) (call : BusCall E) :
    published (calls ++ [call]) = published calls ++ published [call] :=
  List.filterMap_append

/-- A call that neither subscribes nor unsubscribes leaves what is registered. -/
theorem registered_concat_of_quiet (hissued : Issued calls) (hsub : ∀ type handler, call ≠ .subscribe type handler)
    (hunsub : ∀ k, call ≠ .unsubscribe k) :
    Registered (calls ++ [call]) type handler ↔ Registered calls type handler := by
  rw [registered_concat hissued]
  constructor
  · rintro (heq | ⟨h, -⟩)
    · exact absurd heq (hsub type handler)
    · exact h
  · exact fun h => .inr ⟨h, fun k heq => absurd heq (hunsub k)⟩

theorem Issued.concat (h : Issued calls) (hcall : ∀ k, call = .unsubscribe k → k < (subscriptionsOf calls).length) :
    Issued (calls ++ [call]) := by
  intro k hk
  have hlt : k < (subscriptionsOf calls).length := by
    rcases List.mem_append.mp hk with hold | hnew
    · exact h k hold
    · exact hcall k (List.mem_singleton.mp hnew).symm
  rw [subscriptionsOf_concat, List.length_append]
  omega

/-- A subscription puts its function into the set of its type. -/
theorem HoldsRegistered.subscribe (h : HoldsRegistered handlers calls) (hissued : Issued calls) :
    HoldsRegistered (Function.update handlers type (some (addHandler handler ((handlers type).getD []))))
      (calls ++ [.subscribe type handler]) := by
  intro type'
  by_cases htype : type' = type
  · subst htype
    rw [Function.update_self, Option.getD_some]
    refine ⟨nodup_addHandler (h type').1, fun handler' => ?_⟩
    rw [mem_addHandler, (h type').2, registered_concat hissued]
    constructor
    · rintro (hold | rfl)
      · exact .inr ⟨hold, nofun⟩
      · exact .inl rfl
    · rintro (heq | ⟨hold, -⟩)
      · exact .inr (BusCall.subscribe.inj heq).2.symm
      · exact .inl hold
  · rw [Function.update_of_ne htype]
    refine ⟨(h type').1, fun handler' => ?_⟩
    rw [(h type').2, registered_concat hissued]
    constructor
    · exact fun hold => .inr ⟨hold, nofun⟩
    · rintro (heq | ⟨hold, -⟩)
      · exact absurd (BusCall.subscribe.inj heq).1.symm htype
      · exact hold

/-- What the unsubscribe function of a subscription ends. -/
theorem registered_unsubscribe (hissued : Issued calls) (hk : (subscriptionsOf calls)[k]? = some (type, handler)) :
    Registered (calls ++ [.unsubscribe k]) type' handler' ↔
      Registered calls type' handler' ∧ (type', handler') ≠ (type, handler) := by
  have hlt : k < (subscriptionsOf calls).length := (List.getElem?_eq_some_iff.mp hk).1
  have hsame : (subscriptionsOf (calls ++ [.unsubscribe k]))[k]? = some (type, handler) := by
    rw [getElem?_subscriptionsOf hlt, hk]
  rw [registered_concat hissued]
  constructor
  · rintro (heq | ⟨hold, hother⟩)
    · cases heq
    · exact ⟨hold, fun heq => hother k rfl (heq ▸ hsame)⟩
  · rintro ⟨hold, hother⟩
    refine .inr ⟨hold, fun k' heq hsome => ?_⟩
    obtain rfl := BusCall.unsubscribe.inj heq
    exact hother (Option.some.inj (hsome.symm.trans hsame))

/-- The unsubscribe function of a subscription takes its function out of the set of its type. -/
theorem HoldsRegistered.unsubscribe (h : HoldsRegistered handlers calls) (hissued : Issued calls)
    (hk : (subscriptionsOf calls)[k]? = some (type, handler)) :
    HoldsRegistered (Function.update handlers type ((handlers type).map (deleteHandler handler)))
      (calls ++ [.unsubscribe k]) := by
  intro type'
  by_cases htype : type' = type
  · subst htype
    have hdelete : ((handlers type').map (deleteHandler handler)).getD [] =
        deleteHandler handler ((handlers type').getD []) := by
      cases handlers type' <;> rfl
    rw [Function.update_self, hdelete]
    refine ⟨(h type').1.filter _, fun handler' => ?_⟩
    rw [registered_unsubscribe hissued hk, ← (h type').2 handler']
    simp [deleteHandler]
  · rw [Function.update_of_ne htype]
    refine ⟨(h type').1, fun handler' => ?_⟩
    rw [registered_unsubscribe hissued hk, (h type').2 handler']
    simp [htype]

/-- A call that neither subscribes, unsubscribes nor publishes changes at most what a delivery has still to call. -/
theorem BusInvariant.deliver (h : BusInvariant typeOf calls s) {d : ℕ} {delivery delivery' : Delivery E}
    {logged : List (E × JsError)} (hd : s.deliveries[d]? = some delivery) (hevent : delivery'.event = delivery.event)
    (hcalled : delivery'.called ++ delivery'.waiting = delivery.called ++ delivery.waiting)
    (hguarded : ∀ result ∈ delivery'.results, result = .ok ()) (hsub : subscriptionsOf [call] = [])
    (hpublished : InMemoryEventBus.published [call] = []) (hunsub : ∀ k, call ≠ .unsubscribe k) :
    BusInvariant typeOf (calls ++ [call])
      { s with deliveries := s.deliveries.set d delivery', logged := logged } := by
  have hsub' : ∀ type handler, call ≠ .subscribe type handler := by
    rintro type handler rfl
    exact absurd hsub (List.cons_ne_nil _ _)
  refine ⟨?_, ?_, ?_, ?_, ?_⟩
  · rw [subscriptionsOf_concat, hsub, List.append_nil]
    exact h.subscriptions
  · exact h.issued.concat fun k hk => absurd hk (hunsub k)
  · intro type
    refine ⟨(h.registered type).1, fun handler => ?_⟩
    rw [registered_concat_of_quiet h.issued hsub' hunsub]
    exact (h.registered type).2 handler
  · rw [published_concat, hpublished, List.append_nil, ← h.published]
    apply List.ext_getElem?
    intro d'
    rw [List.getElem?_map, List.getElem?_map, List.getElem?_set]
    split
    · rename_i heq
      subst heq
      rw [hd, if_pos (List.getElem?_eq_some_iff.mp hd).1, Option.map_some, Option.map_some, hevent]
    · rfl
  · intro d' delivery₁ hd'
    rw [List.getElem?_set] at hd'
    split at hd'
    · rename_i heq
      subst heq
      rw [if_pos (List.getElem?_eq_some_iff.mp hd).1] at hd'
      obtain rfl := Option.some.inj hd'
      obtain ⟨before, after, rfl, hlength, honce, hregistered⟩ := (h.deliveries d delivery hd).publishes
      rw [← hevent, ← hcalled] at hregistered
      rw [← hcalled] at honce
      exact ⟨⟨before, after ++ [call], by simp [hevent], hlength, honce, hregistered⟩, hguarded⟩
    · exact (h.deliveries d' delivery₁ hd').concat _

/-- **One call keeps the invariant.** -/
theorem step_keeps (h : BusInvariant typeOf calls s) (hstep : step typeOf version s call = some s') :
    BusInvariant typeOf (calls ++ [call]) s' := by
  cases call with
  | subscribe type handler =>
    obtain rfl := Option.some.inj hstep
    refine ⟨?_, h.issued.concat (fun _ heq => nomatch heq), h.registered.subscribe h.issued, ?_, ?_⟩
    · rw [subscriptionsOf_concat, ← h.subscriptions]
      rfl
    · rw [published_concat, ← h.published]
      simp [published]
    · exact fun d delivery hd => (h.deliveries d delivery hd).concat _
  | unsubscribe k =>
    obtain ⟨⟨type, handler⟩, hk, rfl⟩ := Option.map_eq_some_iff.mp hstep
    rw [h.subscriptions] at hk
    refine ⟨?_, h.issued.concat ?_, h.registered.unsubscribe h.issued hk, ?_, ?_⟩
    · rw [subscriptionsOf_concat, ← h.subscriptions]
      exact (List.append_nil _).symm
    · intro k' heq
      obtain rfl := BusCall.unsubscribe.inj heq
      exact (List.getElem?_eq_some_iff.mp hk).1
    · rw [published_concat, ← h.published]
      simp [published]
    · exact fun d delivery hd => (h.deliveries d delivery hd).concat _
  | publish event =>
    obtain rfl := Option.some.inj hstep
    refine ⟨?_, h.issued.concat (fun _ heq => nomatch heq), fun type => ?_, ?_, fun d delivery hd => ?_⟩
    · rw [subscriptionsOf_concat, ← h.subscriptions]
      exact (List.append_nil _).symm
    · refine ⟨(h.registered type).1, fun handler => ?_⟩
      have hquiet : Registered (calls ++ [.publish event]) type handler ↔ Registered calls type handler :=
        registered_concat_of_quiet h.issued nofun nofun
      rw [hquiet]
      exact (h.registered type).2 handler
    · rw [published_concat, ← h.published, List.map_append]
      rfl
    · rw [List.getElem?_append] at hd
      split at hd
      · exact (h.deliveries d delivery hd).concat _
      · rw [List.getElem?_singleton] at hd
        split at hd
        · obtain rfl := Option.some.inj hd
          have hlength : s.deliveries.length = (InMemoryEventBus.published calls).length := by
            rw [← h.published, List.length_map]
          refine ⟨⟨calls, [], rfl, by omega, ?_, fun handler => ?_⟩, nofun⟩
          · rw [snapshot_eq]
            exact (h.registered _).1
          · rw [snapshot_eq]
            exact (h.registered _).2 handler
        · cases hd
  | invoke d =>
    obtain ⟨delivery, hd, hinvoke⟩ := Option.bind_eq_some_iff.mp hstep
    split at hinvoke
    · cases hinvoke
    · rename_i handler waiting hwaiting
      obtain rfl := Option.some.inj hinvoke
      refine h.deliver hd rfl ?_ (h.deliveries d delivery hd).guarded rfl rfl nofun
      rw [hwaiting, List.append_assoc]
      rfl
  | settled d i result =>
    obtain ⟨delivery, hd, hsettled⟩ := Option.bind_eq_some_iff.mp hstep
    split at hsettled
    · obtain rfl := Option.some.inj hsettled
      refine h.deliver hd rfl rfl (fun result' hresult => ?_) rfl rfl nofun
      rcases List.mem_append.mp hresult with hold | hnew
      · exact (h.deliveries d delivery hd).guarded _ hold
      · rw [List.mem_singleton.mp hnew]
        cases result <;> rfl
    · cases hsettled

/-! ## Every run -/

/-- A new bus has no subscriptions. -/
theorem invariant_new : BusInvariant typeOf [] ({} : InMemoryEventBus E) := by
  refine ⟨rfl, nofun, fun type => ⟨List.nodup_nil, fun handler => ⟨nofun, ?_⟩⟩, rfl, nofun⟩
  rintro ⟨before, after, heq, -⟩
  exact absurd heq.symm (List.append_ne_nil_of_right_ne_nil _ (List.cons_ne_nil _ _))

/-- `publish` catches what a handler throws: the promises that it awaits do not reject. -/
theorem promise_of_guarded {delivery : Delivery E} (h : ∀ result ∈ delivery.results, result = .ok ()) :
    delivery.promise = if delivery.waiting = [] ∧ delivery.running = [] then some (.ok ()) else none := by
  have hnone : (delivery.results.find? fun result => !result.isOk) = none := by
    rw [List.find?_eq_none]
    intro result hresult
    rw [h result hresult]
    exact Bool.false_ne_true
  rw [Delivery.promise, hnone]

/-- What the invariant says of a bus. -/
theorem BusInvariant.law (h : BusInvariant typeOf calls s) : SubscriptionLaw typeOf version calls s where
  published := h.published
  delivered d delivery hd := (h.deliveries d delivery hd).publishes
  proceeds d delivery hd hwaiting := by
    obtain ⟨handler, waiting, heq⟩ := List.exists_cons_of_ne_nil hwaiting
    simp [step, hd, heq]
  resolves delivery hdelivery := by
    obtain ⟨d, hd⟩ := List.mem_iff_getElem?.mp hdelivery
    exact promise_of_guarded (h.deliveries d delivery hd).guarded
  cancels k type handler hk type' handler' := by
    rw [h.subscriptions] at hk
    exact registered_unsubscribe h.issued hk

/-- The two buses do the same. -/
theorem step_backend_eq_frontend : step typeOf .backend (E := E) = step typeOf .frontend := by
  funext s call
  cases call with
  | publish event => simp only [step, snapshot_eq]
  | subscribe type handler => rfl
  | unsubscribe k => rfl
  | invoke d => rfl
  | settled d i result => rfl

/-- **Each publish invokes the registered functions once.** The two buses do the same; and after any calls, in any
order, also from handlers, the law of subscriptions holds: a publish calls the functions that were registered for its
type, each once, whatever they do, and does not reject; an unsubscribe function takes out its function for its type
and nothing else. -/
theorem subscription_law (E : Type) (typeOf : E → Text) : step typeOf .backend (E := E) = step typeOf .frontend ∧
    ∀ (version : BusVersion) (calls : List (BusCall E)) (s : InMemoryEventBus E),
      runFrom (step typeOf version) {} calls = some s → SubscriptionLaw typeOf version calls s := by
  refine ⟨step_backend_eq_frontend, fun version calls s hrun => BusInvariant.law ?_⟩
  have hkeep : ∀ (past : List (BusCall E)) s call s', BusInvariant typeOf past s → True →
      step typeOf version s call = some s' → BusInvariant typeOf (past ++ [call]) s' :=
    fun _ _ _ _ h _ hstep => step_keeps h hstep
  have hkept := run_outputs hkeep invariant_new along_true hrun
  rwa [outputs_eq_flatMap hrun, List.nil_append, List.flatMap_singleton'] at hkept

/-! ## Two subscriptions of one function -/

/-- A subscription stands after calls: its unsubscribe function was not called since. -/
def Stands (calls : List (BusCall E)) (type : Text) (handler : Handler) : Prop :=
  ∃ k, (subscriptionsOf calls)[k]? = some (type, handler) ∧ .unsubscribe k ∉ calls

/-- Two listeners share a function; the first is taken away, then a story is completed. -/
def sharedFunction : List (BusCall Text) :=
  [.subscribe (lit "STORY_COMPLETED") 1, .subscribe (lit "STORY_COMPLETED") 1, .unsubscribe 0]

/-- A function is subscribed twice to a type, the first subscription is cancelled and the second stands: what is
published then is not given to the function. -/
theorem second_subscription_lost : Stands sharedFunction (lit "STORY_COMPLETED") 1 ∧
    ∃ s, runFrom (step id .backend) {} (sharedFunction ++ [.publish (lit "STORY_COMPLETED")]) = some s ∧
      s.deliveries.map (fun delivery => (delivery.called, delivery.waiting, delivery.promise.map Except.isOk)) =
        [([], [], some true)] :=
  ⟨⟨1, rfl, by simp [sharedFunction]⟩, _, rfl, rfl⟩

end InMemoryEventBus

end DreamWeaver.Events.Subscriptions
