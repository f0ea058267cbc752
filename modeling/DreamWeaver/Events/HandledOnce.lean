import DreamWeaver.Events.Subscribers

/-! # Handlers are invoked once

The bus remembers the ids of the events that it has handled, up to 2000 of them; what it has forgotten it
handles again. It notifies its handlers after the `insert` of a full queue, and not at all if that
rejects. As long as no event comes back after its id was forgotten, no `insert` that a `publish` awaits
rejects, and no handler leaves while an event of its type is under way, every handler is invoked at most
once for an event, and exactly once if it was subscribed when the event was published. -/

namespace DreamWeaver.Events

open Transitions

/-! ## Sets of handlers -/

namespace HandlerSet

variable {handlers : HandlerSet} {x y : Handler} {i j p p' : ℕ}

/-- The handler is at a position. -/
def At (handlers : HandlerSet) (i : ℕ) (x : Handler) : Prop := handlers[i]? = some (some x)

/-- No handler is at two positions. -/
def Distinct (handlers : HandlerSet) : Prop := ∀ i j x, handlers.At i x → handlers.At j x → i = j

theorem exists_at_of_mem (h : some x ∈ handlers) : ∃ i, handlers.At i x := List.mem_iff_getElem?.mp h

/-- What is there stays there when a handler is added. -/
theorem At.add (h : handlers.At i x) : (handlers.add y).At i x := by
  unfold HandlerSet.add
  split
  · exact h
  · have hlt : i < handlers.length := (List.getElem?_eq_some_iff.mp h).1
    rw [At, List.getElem?_append_left hlt]
    exact h

theorem Distinct.add (h : handlers.Distinct) : (handlers.add x).Distinct := by
  unfold HandlerSet.add
  split
  · exact h
  · rename_i hx
    -- a position of the longer list is an old one, or it is the new handler's
    have hcases : ∀ i y, At (handlers ++ [some x]) i y →
        handlers.At i y ∨ (i = handlers.length ∧ y = x) := by
      intro i y hi
      by_cases hlt : i < handlers.length
      · left
        rwa [At, List.getElem?_append_left hlt] at hi
      · right
        rw [At, List.getElem?_append_right (not_lt.mp hlt)] at hi
        obtain ⟨hlast, heq⟩ := List.getElem?_eq_some_iff.mp hi
        rw [List.length_singleton] at hlast
        rw [List.getElem_singleton] at heq
        exact ⟨by omega, (Option.some.inj heq).symm⟩
    intro i j y hi hj
    rcases hcases i y hi with hold | ⟨hlast, rfl⟩
    · rcases hcases j y hj with hold' | ⟨-, rfl⟩
      · exact h i j y hold hold'
      · exact absurd (List.mem_of_getElem? hold) hx
    · rcases hcases j y hj with hold' | ⟨hlast', -⟩
      · exact absurd (List.mem_of_getElem? hold') hx
      · rw [hlast, hlast']

theorem At.of_delete (h : (handlers.delete y).At i x) : handlers.At i x := by
  rw [At, HandlerSet.delete, List.getElem?_map, Option.map_eq_some_iff] at h
  obtain ⟨entry, hentry, heq⟩ := h
  split at heq
  · cases heq
  · rw [At, hentry, heq]

theorem Distinct.delete (h : handlers.Distinct) : (handlers.delete x).Distinct :=
  fun i j y hi hj => h i j y hi.of_delete hj.of_delete

/-- The iteration stops at the first handler from its position on. -/
theorem next_eq_some (h : handlers.next p = some (x, p')) :
    p < p' ∧ handlers.At (p' - 1) x ∧ ∀ i y, p ≤ i → handlers.At i y → p' ≤ i + 1 := by
  fun_induction next handlers p generalizing p' with
  | case1 => cases h
  | case2 handler handlers =>
    obtain ⟨rfl, rfl⟩ := Prod.mk.inj (Option.some.inj h)
    exact ⟨Nat.one_pos, rfl, fun i y _ _ => Nat.le_add_left 1 i⟩
  | case3 handlers ih =>
    obtain ⟨⟨z, q⟩, hnext, heq⟩ := Option.map_eq_some_iff.mp h
    obtain ⟨rfl, rfl⟩ := Prod.mk.inj heq
    obtain ⟨hlt, hat, hfirst⟩ := ih hnext
    refine ⟨Nat.succ_pos q, ?_, fun i y _ hi => ?_⟩
    · obtain ⟨k, rfl⟩ : ∃ k, q = k + 1 := ⟨q - 1, by omega⟩
      exact hat
    · cases i with
      | zero => cases hi
      | succ i => exact Nat.succ_le_succ (hfirst i y (Nat.zero_le i) hi)
  | case4 entry handlers p ih =>
    obtain ⟨⟨z, q⟩, hnext, heq⟩ := Option.map_eq_some_iff.mp h
    obtain ⟨rfl, rfl⟩ := Prod.mk.inj heq
    obtain ⟨hlt, hat, hfirst⟩ := ih hnext
    refine ⟨Nat.succ_lt_succ hlt, ?_, fun i y hle hi => ?_⟩
    · obtain ⟨k, rfl⟩ : ∃ k, q = k + 1 := ⟨q - 1, by omega⟩
      exact hat
    · cases i with
      | zero => omega
      | succ i => exact Nat.succ_le_succ (hfirst i y (Nat.le_of_succ_le_succ hle) hi)

/-- The iteration ends when no handler is left. -/
theorem next_eq_none (h : handlers.next p = none) (hle : p ≤ i) : ¬ handlers.At i x := by
  fun_induction next handlers p generalizing i with
  | case1 => exact fun hi => nomatch hi
  | case2 => cases h
  | case3 handlers ih =>
    cases i with
    | zero => exact fun hi => nomatch hi
    | succ i => exact ih (Option.map_eq_none_iff.mp h) (Nat.zero_le i)
  | case4 entry handlers p ih =>
    cases i with
    | zero => omega
    | succ i => exact ih (Option.map_eq_none_iff.mp h) (Nat.le_of_succ_le_succ hle)

end HandlerSet

namespace NotifyingBus

variable {s s' : NotifyingBus} {event : DomainEvent} {x : Handler} {p : ℕ} {parseDate : DateParser}

/-! ## What is under way -/

/-- How often a handler was invoked for the event with an id. -/
def invocations (s : NotifyingBus) (x : Handler) (id : Text) : ℕ :=
  s.invoked.countP fun e => e.1 = x && e.2.id = id

/-- The events whose handlers are still to be notified: those whose `publish` awaits an `insert`, and
those whose notification awaits a handler. -/
def underWay (s : NotifyingBus) : List DomainEvent :=
  s.inserting.filterMap Prod.snd ++ s.notifying.map Prod.fst

theorem mem_underWay_of_notifying (h : (event, p) ∈ s.notifying) : event ∈ s.underWay := by
  rw [underWay, List.mem_append, List.mem_map]
  exact Or.inr ⟨(event, p), h, rfl⟩

theorem mem_underWay_of_inserting (h : some event ∈ s.inserting.map Prod.snd) :
    event ∈ s.underWay := by
  obtain ⟨batch, hbatch, hsnd⟩ := List.mem_map.mp h
  rw [underWay, List.mem_append, List.mem_filterMap]
  exact Or.inl ⟨batch, hbatch, hsnd⟩

/-- The event with an id is under way, or a handler was invoked for it. -/
def Handled (s : NotifyingBus) (id : Text) : Prop :=
  id ∈ s.underWay.map DomainEvent.id ∨ ∃ x, 0 < s.invocations x id

/-- **The condition on what happens**: an event that is not remembered was not handled before, and its
date is valid; no `insert` that a `publish` awaits is rejected; and no handler leaves while an event of
its type is under way. -/
def Proper (s : NotifyingBus) : BusAction → Prop
  | .publish event => event.id ∈ s.bus.processedEventIds ∨
      ¬ s.Handled event.id ∧ event.timestamp.isSome = true
  | .echo row => row.id ∈ s.bus.processedEventIds ∨ ¬ s.Handled row.id
  | .answer k reply => reply = .rejected → ∀ batch ∈ s.inserting[k]?, batch.2 = none
  | .unsubscribe type _ => ∀ event ∈ s.underWay, event.type ≠ type
  | _ => True

/-- **The invariant**: no event is under way twice; no handler was invoked twice for an event, none for
an event that awaits its `insert`, and for an event that is being notified only those before its
position. -/
structure Sound (s : NotifyingBus) : Prop where
  distinct : ∀ type, (s.handlers type).Distinct
  working : (s.underWay.map DomainEvent.id).Nodup
  once : ∀ x id, s.invocations x id ≤ 1
  waiting : ∀ event, some event ∈ s.inserting.map Prod.snd → ∀ x, s.invocations x event.id = 0
  notified : ∀ event p, (event, p) ∈ s.notifying → ∀ x, 0 < s.invocations x event.id →
    ∃ i, i < p ∧ (s.handlers event.type).At i x

/-- A notification goes on with the first handler from its position on, or ends. -/
theorem notify_cases (s : NotifyingBus) (event : DomainEvent) (p : ℕ) :
    (s.notify event p = s ∧ ∀ i x, p ≤ i → ¬ (s.handlers event.type).At i x) ∨
      ∃ x p', s.notify event p = { s with
          notifying := s.notifying ++ [(event, p')]
          invoked := s.invoked ++ [(x, event)] } ∧
        p < p' ∧ (s.handlers event.type).At (p' - 1) x ∧
          ∀ i y, p ≤ i → (s.handlers event.type).At i y → p' ≤ i + 1 := by
  unfold notify
  cases hnext : (s.handlers event.type).next p with
  | none => exact Or.inl ⟨rfl, fun i x hle => HandlerSet.next_eq_none hnext hle⟩
  | some e =>
    obtain ⟨x, p'⟩ := e
    exact Or.inr ⟨x, p', rfl, HandlerSet.next_eq_some hnext⟩

/-- **What `publish` does**: nothing for a remembered id; else it fails for an invalid date, awaits an
`insert`, or notifies. -/
theorem publish_cases (s : NotifyingBus) (event : DomainEvent) :
    (event.id ∈ s.bus.processedEventIds ∧ s.publish event = s) ∨
      event.id ∉ s.bus.processedEventIds ∧ ∃ bus,
        (event.timestamp = none ∧ s.publish event = { s with bus := bus }) ∨
        (∃ batch, s.publish event =
          { s with bus := bus, inserting := s.inserting ++ [(batch, some event)] }) ∨
        s.publish event = ({ s with bus := bus } : NotifyingBus).notify event 0 := by
  unfold publish
  split
  · rename_i hknown
    exact Or.inl ⟨hknown, rfl⟩
  · rename_i hforgotten
    refine Or.inr ⟨hforgotten, ?_⟩
    rw [DomainEvent.toRow]
    cases event.timestamp with
    | none => exact ⟨_, Or.inl ⟨rfl, rfl⟩⟩
    | some timestamp =>
      rw [Option.map_some]
      dsimp only
      split
      · exact ⟨_, Or.inr (Or.inl ⟨_, rfl⟩)⟩
      · exact ⟨_, Or.inr (Or.inr rfl)⟩

/-- One more invocation is one of its handler for its event. -/
theorem invocations_concat (invoked : List (Handler × DomainEvent)) (x y : Handler)
    (event : DomainEvent) (id : Text) :
    (invoked ++ [(x, event)]).countP (fun e => e.1 = y && e.2.id = id) =
      invoked.countP (fun e => e.1 = y && e.2.id = id) +
        if x = y ∧ event.id = id then 1 else 0 := by
  rw [List.countP_append, List.countP_singleton]
  simp only [Bool.and_eq_true, decide_eq_true_eq]

/-- **Notifying keeps the invariant**, for an event that is not under way otherwise, of which only
handlers before the position were invoked. -/
theorem Sound.notify (h : s.Sound) (hnew : event.id ∉ s.underWay.map DomainEvent.id)
    (hbefore : ∀ x, 0 < s.invocations x event.id → ∃ i, i < p ∧ (s.handlers event.type).At i x) :
    (s.notify event p).Sound := by
  rcases notify_cases s event p with ⟨heq, -⟩ | ⟨x, p', heq, hlt, hat, hfirst⟩
  · rw [heq]
    exact h
  · rw [heq]
    have hcount : ∀ y id, ({ s with
        notifying := s.notifying ++ [(event, p')]
        invoked := s.invoked ++ [(x, event)] } : NotifyingBus).invocations y id =
          s.invocations y id + if x = y ∧ event.id = id then 1 else 0 :=
      fun y id => invocations_concat s.invoked x y event id
    -- the handler was not invoked for the event before, being at its position only
    have hzero : s.invocations x event.id = 0 := by
      by_contra hne
      obtain ⟨i, hi, hiat⟩ := hbefore x (Nat.pos_of_ne_zero hne)
      have hsame := h.distinct event.type i (p' - 1) x hiat hat
      omega
    have hother : ∀ e ∈ s.underWay, ¬ event.id = e.id := by
      intro e he heq
      apply hnew
      rw [heq]
      exact List.mem_map_of_mem he
    refine ⟨h.distinct, ?_, ?_, ?_, ?_⟩
    · have hperm : (s.inserting.filterMap Prod.snd ++
          (s.notifying ++ [(event, p')]).map Prod.fst).Perm (event :: s.underWay) := by
        rw [List.map_append, ← List.append_assoc]
        exact List.perm_append_singleton event s.underWay
      refine (hperm.map DomainEvent.id).nodup_iff.mpr ?_
      rw [List.map_cons, List.nodup_cons]
      exact ⟨hnew, h.working⟩
    · intro y id
      rw [hcount]
      split
      · rename_i hboth
        rw [← hboth.1, ← hboth.2, hzero]
      · exact h.once y id
    · intro e he y
      rw [hcount, h.waiting e he y, if_neg]
      rintro ⟨-, hid⟩
      exact hother e (mem_underWay_of_inserting he) hid
    · intro e q hmem y hpos
      rw [hcount] at hpos
      rcases List.mem_append.mp hmem with hmem | hmem
      · have hne := hother e (mem_underWay_of_notifying hmem)
        rw [if_neg fun hboth => hne hboth.2] at hpos
        exact h.notified e q hmem y hpos
      · obtain ⟨rfl, rfl⟩ := Prod.mk.inj (List.mem_singleton.mp hmem)
        by_cases hxy : x = y
        · subst hxy
          exact ⟨q - 1, by omega, hat⟩
        · rw [if_neg fun hboth => hxy hboth.1] at hpos
          obtain ⟨i, hi, hiat⟩ := hbefore y hpos
          exact ⟨i, by omega, hiat⟩

/-- What the notification of an event leaves alone. -/
theorem notify_frame (s : NotifyingBus) (event : DomainEvent) (p : ℕ) :
    (s.notify event p).inserting = s.inserting ∧ (s.notify event p).handlers = s.handlers ∧
      (∀ n ∈ s.notifying, n ∈ (s.notify event p).notifying) ∧
        ∀ x id, s.invocations x id ≤ (s.notify event p).invocations x id := by
  rcases notify_cases s event p with ⟨heq, -⟩ | ⟨x, p', heq, -⟩
  · rw [heq]
    exact ⟨rfl, rfl, fun _ h => h, fun _ _ => le_rfl⟩
  · rw [heq]
    refine ⟨rfl, rfl, fun n h => List.mem_append_left _ h, fun y id => ?_⟩
    exact (Nat.le_add_right _ _).trans_eq (invocations_concat s.invoked x y event id).symm

/-! ## Steps keep the invariant -/

/-- An event of which nothing is under way, and no handler was invoked. -/
theorem Sound.notifyNew (h : s.Sound) (hnew : ¬ s.Handled event.id) : (s.notify event 0).Sound :=
  h.notify (fun hmem => hnew (Or.inl hmem)) fun x hpos => absurd (Or.inr ⟨x, hpos⟩) hnew

/-- The bus itself does not matter to the invariant. -/
theorem Sound.withBus (h : s.Sound) (bus : SupabaseEventBus) :
    ({ s with bus := bus } : NotifyingBus).Sound :=
  ⟨h.distinct, h.working, h.once, h.waiting, h.notified⟩

/-- An event of which nothing is under way awaits an `insert`. -/
theorem Sound.insertNew (h : s.Sound) (hnew : ¬ s.Handled event.id) (batch : List EventRow) :
    ({ s with inserting := s.inserting ++ [(batch, some event)] } : NotifyingBus).Sound := by
  refine ⟨h.distinct, ?_, h.once, ?_, h.notified⟩
  · have hperm : ((s.inserting ++ [(batch, some event)]).filterMap Prod.snd ++
        s.notifying.map Prod.fst).Perm (event :: s.underWay) := by
      rw [List.filterMap_append, List.append_assoc]
      exact List.perm_middle
    refine (hperm.map DomainEvent.id).nodup_iff.mpr ?_
    rw [List.map_cons, List.nodup_cons]
    exact ⟨fun hmem => hnew (Or.inl hmem), h.working⟩
  · intro e he x
    rw [List.map_append, List.mem_append] at he
    rcases he with he | he
    · exact h.waiting e he x
    · obtain rfl := Option.some.inj (List.mem_singleton.mp he)
      by_contra hne
      exact hnew (Or.inr ⟨x, Nat.pos_of_ne_zero hne⟩)

theorem Sound.publish (h : s.Sound) (hproper : s.Proper (.publish event)) :
    (s.publish event).Sound := by
  rcases publish_cases s event with ⟨-, heq⟩ | ⟨hforgotten, bus, hcases⟩
  · rw [heq]
    exact h
  · obtain ⟨hnew, -⟩ := hproper.resolve_left hforgotten
    rcases hcases with ⟨-, heq⟩ | ⟨batch, heq⟩ | heq
    · rw [heq]
      exact h.withBus bus
    · rw [heq]
      exact (h.insertNew hnew batch).withBus bus
    · rw [heq]
      exact (h.withBus bus).notifyNew hnew

theorem Sound.echo (h : s.Sound) {row : EventRow} (hproper : s.Proper (.echo row)) :
    (s.echo parseDate row).Sound := by
  unfold NotifyingBus.echo
  split
  · exact h
  · rename_i hforgotten
    exact (h.withBus _).notifyNew (hproper.resolve_left fun hmem => hforgotten (Or.inr hmem))

theorem Sound.timer (h : s.Sound) : s.timer.Sound := by
  unfold NotifyingBus.timer
  split
  · exact h.withBus _
  · rename_i row queue hqueue
    refine ⟨h.distinct, ?_, h.once, ?_, h.notified⟩
    · have hsame : (s.inserting ++ [(row :: queue, none)]).filterMap Prod.snd =
          s.inserting.filterMap Prod.snd := by
        rw [List.filterMap_append]
        exact List.append_nil _
      rw [underWay, hsame]
      exact h.working
    · intro e he x
      rw [List.map_append, List.mem_append] at he
      rcases he with he | he
      · exact h.waiting e he x
      · cases List.mem_singleton.mp he

/-- A batch that is answered is taken away. -/
theorem Sound.eraseInserting (h : s.Sound) (k : ℕ) :
    ({ s with inserting := s.inserting.eraseIdx k } : NotifyingBus).Sound := by
  have hsub := List.eraseIdx_sublist s.inserting k
  refine ⟨h.distinct, ?_, h.once, ?_, h.notified⟩
  · exact h.working.sublist (((hsub.filterMap _).append_right _).map _)
  · intro e he x
    exact h.waiting e ((hsub.map _).subset he) x

/-- The event whose `insert` is answered is under way in no other place. -/
theorem Sound.notMem_eraseInserting (h : s.Sound) {k : ℕ} {batch : List EventRow}
    (hk : s.inserting[k]? = some (batch, some event)) :
    event.id ∉ ({ s with inserting := s.inserting.eraseIdx k } : NotifyingBus).underWay.map
      DomainEvent.id := by
  obtain ⟨hlt, hget⟩ := List.getElem?_eq_some_iff.mp hk
  have hperm := (List.getElem_cons_eraseIdx_perm hlt).filterMap Prod.snd
  rw [hget, List.filterMap_cons] at hperm
  have hall := ((hperm.append_right (s.notifying.map Prod.fst)).map DomainEvent.id).nodup_iff.mpr
    h.working
  rw [List.cons_append, List.map_cons, List.nodup_cons] at hall
  exact hall.1

theorem Sound.answered (h : s.Sound) {k : ℕ} {batch : List EventRow × Option DomainEvent}
    (hk : s.inserting[k]? = some batch) (reply : InsertReply) :
    (s.answered k batch.2 reply).Sound := by
  obtain ⟨rows, waiting⟩ := batch
  have hrest := h.eraseInserting k
  unfold NotifyingBus.answered
  cases waiting with
  | none => exact hrest
  | some event =>
    have hmem : some event ∈ s.inserting.map Prod.snd :=
      List.mem_map.mpr ⟨_, List.mem_of_getElem? hk, rfl⟩
    have hnotified := hrest.notify (p := 0) (h.notMem_eraseInserting hk)
      fun x hpos => absurd (h.waiting event hmem x) hpos.ne'
    cases reply with
    | rejected => exact hrest
    | inserted => exact hnotified
    | failed => exact hnotified

/-- A notification that goes on was taken away, and comes back with a later position. -/
theorem Sound.handled (h : s.Sound) {k : ℕ} (hk : s.notifying[k]? = some (event, p)) :
    (({ s with notifying := s.notifying.eraseIdx k } : NotifyingBus).notify event p).Sound := by
  obtain ⟨hlt, hget⟩ := List.getElem?_eq_some_iff.mp hk
  have hsub := List.eraseIdx_sublist s.notifying k
  have hperm := ((List.getElem_cons_eraseIdx_perm hlt).map Prod.fst).append_left
    (s.inserting.filterMap Prod.snd)
  rw [hget, List.map_cons] at hperm
  have hall := ((List.perm_middle.symm.trans hperm).map DomainEvent.id).nodup_iff.mpr h.working
  rw [List.map_cons, List.nodup_cons] at hall
  have hrest : ({ s with notifying := s.notifying.eraseIdx k } : NotifyingBus).Sound :=
    ⟨h.distinct, hall.2, h.once, h.waiting, fun e q hmem => h.notified e q (hsub.subset hmem)⟩
  exact hrest.notify hall.1 (h.notified event p (List.mem_of_getElem? hk))

/-- **Every step keeps the invariant.** -/
theorem Sound.step (h : s.Sound) {a : BusAction} (hproper : s.Proper a)
    (hstep : s.step parseDate a = some s') : s'.Sound := by
  cases a with
  | subscribe type x =>
    obtain rfl := Option.some.inj hstep
    refine ⟨fun t => ?_, h.working, h.once, h.waiting, fun e p hmem y hpos => ?_⟩
    · dsimp only
      by_cases ht : t = type
      · subst ht
        rw [Function.update_self]
        exact (h.distinct t).add
      · rw [Function.update_of_ne ht]
        exact h.distinct t
    · obtain ⟨i, hi, hat⟩ := h.notified e p hmem y hpos
      refine ⟨i, hi, ?_⟩
      dsimp only
      by_cases ht : e.type = type
      · rw [ht] at hat ⊢
        rw [Function.update_self]
        exact hat.add
      · rw [Function.update_of_ne ht]
        exact hat
  | unsubscribe type x =>
    obtain rfl := Option.some.inj hstep
    refine ⟨fun t => ?_, h.working, h.once, h.waiting, fun e p hmem y hpos => ?_⟩
    · dsimp only
      by_cases ht : t = type
      · subst ht
        rw [Function.update_self]
        exact (h.distinct t).delete
      · rw [Function.update_of_ne ht]
        exact h.distinct t
    · have ht : e.type ≠ type := hproper e (mem_underWay_of_notifying hmem)
      obtain ⟨i, hi, hat⟩ := h.notified e p hmem y hpos
      refine ⟨i, hi, ?_⟩
      dsimp only
      rw [Function.update_of_ne ht]
      exact hat
  | publish event =>
    obtain rfl := Option.some.inj hstep
    exact h.publish hproper
  | timer =>
    rw [NotifyingBus.step] at hstep
    split at hstep
    · obtain rfl := Option.some.inj hstep
      exact h.timer
    · cases hstep
  | answer k reply =>
    obtain ⟨batch, hk, rfl⟩ := Option.map_eq_some_iff.mp hstep
    exact h.answered hk reply
  | echo row =>
    obtain rfl := Option.some.inj hstep
    exact h.echo hproper
  | handled k =>
    obtain ⟨⟨event, p⟩, hk, rfl⟩ := Option.map_eq_some_iff.mp hstep
    exact h.handled hk

/-! ## What is promised to a handler -/

/-- **The promise** to a handler that was subscribed when an event was published: it was invoked for it
once, or the event is under way and the handler's turn is to come. -/
def Promised (s : NotifyingBus) (x : Handler) (event : DomainEvent) : Prop :=
  s.invocations x event.id = 1 ∨
    (some event ∈ s.inserting.map Prod.snd ∧ ∃ i, (s.handlers event.type).At i x) ∨
      ∃ p, (event, p) ∈ s.notifying ∧ ∃ i, p ≤ i ∧ (s.handlers event.type).At i x

/-- A notification keeps the promise to every handler from its position on. -/
theorem Promised.ofNotify {i : ℕ} (hsound : (s.notify event p).Sound) (hle : p ≤ i)
    (hat : (s.handlers event.type).At i x) : (s.notify event p).Promised x event := by
  rcases notify_cases s event p with ⟨-, hnone⟩ | ⟨y, p', heq, hlt, hat', hfirst⟩
  · exact absurd hat (hnone i x hle)
  · have hbehind := hfirst i x hle hat
    by_cases hi : i + 1 = p'
    · left
      obtain rfl : y = x := by
        rw [← hi, Nat.add_sub_cancel, HandlerSet.At, hat] at hat'
        exact (Option.some.inj (Option.some.inj hat')).symm
      refine le_antisymm (hsound.once y event.id) ?_
      rw [heq]
      have hcount := invocations_concat s.invoked y y event event.id
      rw [if_pos ⟨rfl, rfl⟩] at hcount
      exact (Nat.le_add_left 1 _).trans_eq hcount.symm
    · right
      right
      rw [heq]
      exact ⟨p', List.mem_append_right _ List.mem_cons_self, i, by omega, hat⟩

/-- What only adds to what is under way keeps every promise. -/
theorem Promised.mono (h : s.Promised x event) (hsound : s'.Sound)
    (hhandlers : s'.handlers = s.handlers)
    (hinserting : some event ∈ s.inserting.map Prod.snd → some event ∈ s'.inserting.map Prod.snd)
    (hnotifying : ∀ n ∈ s.notifying, n ∈ s'.notifying)
    (hinvoked : ∀ id, s.invocations x id ≤ s'.invocations x id) : s'.Promised x event := by
  rcases h with hone | ⟨hmem, hat⟩ | ⟨p, hmem, hat⟩
  · left
    have hle := hinvoked event.id
    rw [hone] at hle
    exact le_antisymm (hsound.once x event.id) hle
  · right
    left
    rw [hhandlers]
    exact ⟨hinserting hmem, hat⟩
  · right
    right
    rw [hhandlers]
    exact ⟨p, hnotifying _ hmem, hat⟩

/-- Notifying another event keeps every promise. -/
theorem Promised.notify {other : DomainEvent} (h : s.Promised x event)
    (hsound : (s.notify other p).Sound) : (s.notify other p).Promised x event := by
  obtain ⟨hinserting, hhandlers, hnotifying, hinvoked⟩ := notify_frame s other p
  refine h.mono hsound hhandlers (fun he => ?_) hnotifying fun id => hinvoked x id
  rw [hinserting]
  exact he

/-- One entry of a list is the one at a position, or it stays when that is taken away. -/
theorem mem_eraseIdx_or {α : Type} {l : List α} {k : ℕ} {a b : α} (hk : l[k]? = some a)
    (h : b ∈ l) : b = a ∨ b ∈ l.eraseIdx k := by
  obtain ⟨hlt, hget⟩ := List.getElem?_eq_some_iff.mp hk
  have hmem := (List.getElem_cons_eraseIdx_perm hlt).mem_iff.mpr h
  rw [hget] at hmem
  exact List.mem_cons.mp hmem

theorem Promised.answered (h : s.Promised x event) (hsound : s.Sound) {k : ℕ}
    {batch : List EventRow × Option DomainEvent} (hk : s.inserting[k]? = some batch)
    {reply : InsertReply} (hproper : reply = .rejected → batch.2 = none) :
    (s.answered k batch.2 reply).Promised x event := by
  have hsound' := hsound.answered hk reply
  obtain ⟨rows, waiting⟩ := batch
  have herase : some event ≠ waiting → some event ∈ s.inserting.map Prod.snd →
      some event ∈ (s.inserting.eraseIdx k).map Prod.snd := by
    intro hne he
    obtain ⟨batch, hbatch, heq⟩ := List.mem_map.mp he
    rcases mem_eraseIdx_or hk hbatch with rfl | hmem
    · exact absurd heq.symm hne
    · exact List.mem_map.mpr ⟨batch, hmem, heq⟩
  cases waiting with
  | none => exact h.mono hsound' rfl (herase (by simp)) (fun _ hn => hn) fun _ => le_rfl
  | some other =>
    have hnotify : s.answered k (some other) reply =
        ({ s with inserting := s.inserting.eraseIdx k } : NotifyingBus).notify other 0 := by
      cases reply with
      | rejected => exact absurd (hproper rfl) (by simp)
      | inserted => rfl
      | failed => rfl
    have hrest := hsound.eraseInserting k
    rw [hnotify] at hsound' ⊢
    by_cases hother : event = other
    · subst hother
      rcases h with hone | ⟨-, i, hat⟩ | hnotifying
      · exact Promised.notify (Or.inl hone) hsound'
      · exact Promised.ofNotify hsound' (Nat.zero_le i) hat
      · exact Promised.notify (Or.inr (Or.inr hnotifying)) hsound'
    · have hne : some event ≠ some other := fun heq => hother (Option.some.inj heq)
      have hstill := h.mono hrest rfl (herase hne) (fun _ hn => hn) fun _ => le_rfl
      exact hstill.notify hsound'

theorem Promised.handled {other : DomainEvent} (h : s.Promised x event) (hsound : s.Sound) {k : ℕ}
    (hk : s.notifying[k]? = some (other, p)) :
    (({ s with notifying := s.notifying.eraseIdx k } : NotifyingBus).notify other p).Promised x
      event := by
  have hsound' := hsound.handled hk
  rcases h with hone | hinserting | ⟨q, hmem, i, hle, hat⟩
  · exact Promised.notify (Or.inl hone) hsound'
  · exact Promised.notify (Or.inr (Or.inl hinserting)) hsound'
  · rcases mem_eraseIdx_or hk hmem with heq | hstill
    · obtain ⟨rfl, rfl⟩ := Prod.mk.inj heq
      exact Promised.ofNotify hsound' hle hat
    · exact Promised.notify (Or.inr (Or.inr ⟨q, hstill, i, hle, hat⟩)) hsound'

theorem Promised.publish {other : DomainEvent} (h : s.Promised x event)
    (hsound : (s.publish other).Sound) : (s.publish other).Promised x event := by
  rcases publish_cases s other with ⟨-, heq⟩ | ⟨-, bus, ⟨-, heq⟩ | ⟨batch, heq⟩ | heq⟩
  · rw [heq]
    exact h
  · rw [heq]
    exact h
  · rw [heq] at hsound ⊢
    refine h.mono hsound rfl (fun he => ?_) (fun _ hn => hn) fun _ => le_rfl
    rw [List.map_append]
    exact List.mem_append_left _ he
  · rw [heq] at hsound ⊢
    exact Promised.notify h hsound

/-- Subscribing and leaving changes the promises of no event of another type. -/
theorem Promised.withHandlers {handlers : Text → HandlerSet} (h : s.Promised x event)
    (hsame : event ∈ s.underWay → ∀ i, (s.handlers event.type).At i x →
      (handlers event.type).At i x) :
    ({ s with handlers := handlers } : NotifyingBus).Promised x event := by
  rcases h with hone | ⟨hmem, i, hat⟩ | ⟨p, hmem, i, hle, hat⟩
  · exact Or.inl hone
  · exact Or.inr (Or.inl ⟨hmem, i, hsame (mem_underWay_of_inserting hmem) i hat⟩)
  · exact Or.inr (Or.inr ⟨p, hmem, i, hle, hsame (mem_underWay_of_notifying hmem) i hat⟩)

/-- **Every step keeps every promise.** -/
theorem Promised.step (h : s.Promised x event) (hsound : s.Sound) {a : BusAction}
    (hproper : s.Proper a) (hstep : s.step parseDate a = some s') : s'.Promised x event := by
  have hsound' := hsound.step hproper hstep
  cases a with
  | subscribe type y =>
    obtain rfl := Option.some.inj hstep
    refine h.withHandlers fun _ i hat => ?_
    by_cases ht : event.type = type
    · rw [ht] at hat ⊢
      rw [Function.update_self]
      exact hat.add
    · rw [Function.update_of_ne ht]
      exact hat
  | unsubscribe type y =>
    obtain rfl := Option.some.inj hstep
    refine h.withHandlers fun hunder i hat => ?_
    rw [Function.update_of_ne (hproper event hunder)]
    exact hat
  | publish other =>
    obtain rfl := Option.some.inj hstep
    exact h.publish hsound'
  | timer =>
    rw [NotifyingBus.step] at hstep
    split at hstep
    · obtain rfl := Option.some.inj hstep
      unfold NotifyingBus.timer at hsound' ⊢
      split at hsound'
      · exact h
      · refine h.mono hsound' rfl (fun he => ?_) (fun _ hn => hn) fun _ => le_rfl
        rw [List.map_append]
        exact List.mem_append_left _ he
    · cases hstep
  | answer k reply =>
    obtain ⟨batch, hk, rfl⟩ := Option.map_eq_some_iff.mp hstep
    exact h.answered hsound hk fun hrejected => hproper hrejected batch hk
  | echo row =>
    obtain rfl := Option.some.inj hstep
    unfold NotifyingBus.echo at hsound' ⊢
    split at hsound'
    · rename_i hknown
      rw [if_pos hknown]
      exact h
    · rename_i hforgotten
      rw [if_neg hforgotten]
      exact Promised.notify h hsound'
  | handled k =>
    obtain ⟨⟨other, p⟩, hk, rfl⟩ := Option.map_eq_some_iff.mp hstep
    exact h.handled hsound hk

/-- **Publishing makes the promise**, to every handler that is subscribed. -/
theorem Promised.ofPublish (hsound : s.Sound) (hproper : s.Proper (.publish event))
    (hnew : event.id ∉ s.bus.processedEventIds) (hx : some x ∈ s.handlers event.type) :
    (s.publish event).Promised x event := by
  have hsound' := hsound.publish hproper
  obtain ⟨i, hat⟩ := HandlerSet.exists_at_of_mem hx
  obtain ⟨-, hdate⟩ := hproper.resolve_left hnew
  rcases publish_cases s event with ⟨hknown, -⟩ | ⟨-, bus, ⟨hnone, -⟩ | ⟨batch, heq⟩ | heq⟩
  · exact absurd hknown hnew
  · rw [hnone] at hdate
    cases hdate
  · rw [heq]
    refine Or.inr (Or.inl ⟨?_, i, hat⟩)
    rw [List.map_append]
    exact List.mem_append_right _ List.mem_cons_self
  · rw [heq] at hsound' ⊢
    exact Promised.ofNotify hsound' (Nat.zero_le i) hat

/-! ## What is under way ends -/

/-- How many handlers the notifications have before them, at most. -/
def remaining (s : NotifyingBus) : ℕ :=
  (s.notifying.map fun n => (s.handlers n.1.type).length - n.2 + 1).sum

/-- A notification that goes on has fewer handlers before it. -/
theorem remaining_notify (s : NotifyingBus) (event : DomainEvent) (p : ℕ) :
    (s.notify event p).remaining <
      s.remaining + ((s.handlers event.type).length - p + 1) := by
  rcases notify_cases s event p with ⟨heq, -⟩ | ⟨x, p', heq, hlt, hat, -⟩
  · rw [heq]
    omega
  · have hlen : p' - 1 < (s.handlers event.type).length := (List.getElem?_eq_some_iff.mp hat).1
    rw [heq, remaining, remaining]
    simp only [List.map_append, List.sum_append, List.map_cons, List.map_nil, List.sum_cons,
      List.sum_nil]
    omega

/-- The notifications can go on until none is under way. -/
theorem exists_notified (parseDate : DateParser) (s : NotifyingBus) :
    ∃ more s', runFrom (NotifyingBus.step parseDate) s more = some s' ∧
      Along (NotifyingBus.step parseDate) Proper s more ∧ s'.notifying = [] ∧
        s'.inserting = s.inserting := by
  induction hn : s.remaining using Nat.strong_induction_on generalizing s with
  | _ n ih =>
    cases hnotifying : s.notifying with
    | nil => exact ⟨[], s, rfl, trivial, hnotifying, rfl⟩
    | cons n rest =>
      obtain ⟨event, p⟩ := n
      let s₁ := ({ s with notifying := rest } : NotifyingBus).notify event p
      have hstep : s.step parseDate (.handled 0) = some s₁ := by
        rw [NotifyingBus.step, hnotifying]
        rfl
      have hless : s₁.remaining < n := by
        have hsum : s.remaining = ({ s with notifying := rest } : NotifyingBus).remaining +
            ((s.handlers event.type).length - p + 1) := by
          unfold remaining
          rw [hnotifying, List.map_cons, List.sum_cons, Nat.add_comm]
        rw [← hn, hsum]
        exact remaining_notify { s with notifying := rest } event p
      obtain ⟨more, s', hrun, hproper, hdone, hinserting⟩ := ih s₁.remaining hless s₁ rfl
      refine ⟨.handled 0 :: more, s', ?_, ⟨trivial, fun s₂ h₂ => ?_⟩, hdone, ?_⟩
      · rw [runFrom_cons, hstep]
        exact hrun
      · obtain rfl := Option.some.inj (hstep.symm.trans h₂)
        exact hproper
      · rw [hinserting]
        exact (notify_frame _ event p).1

/-- **What is under way can end**: the inserts are answered, and the handlers resolve. -/
theorem exists_settled (parseDate : DateParser) (s : NotifyingBus) :
    ∃ more s', runFrom (NotifyingBus.step parseDate) s more = some s' ∧
      Along (NotifyingBus.step parseDate) Proper s more ∧ s'.underWay = [] := by
  induction hn : s.inserting.length generalizing s with
  | zero =>
    obtain ⟨more, s', hrun, hproper, hdone, hinserting⟩ := exists_notified parseDate s
    refine ⟨more, s', hrun, hproper, ?_⟩
    rw [underWay, hdone, hinserting, List.length_eq_zero_iff.mp hn]
    rfl
  | succ n ih =>
    obtain ⟨batch, rest, hinserting⟩ := List.exists_cons_of_length_eq_add_one hn
    let s₁ := s.answered 0 batch.2 .inserted
    have hstep : s.step parseDate (.answer 0 .inserted) = some s₁ := by
      rw [NotifyingBus.step, hinserting]
      rfl
    have hlength : s₁.inserting.length = n := by
      have hrest : s₁.inserting = rest := by
        have herase : s.inserting.eraseIdx 0 = rest := by rw [hinserting]; rfl
        unfold s₁ answered
        cases batch.2 with
        | none => exact herase
        | some event => exact (notify_frame _ event 0).1.trans herase
      rw [hinserting, List.length_cons] at hn
      rw [hrest]
      exact Nat.succ.inj hn
    obtain ⟨more, s', hrun, hproper, hsettled⟩ := ih s₁ hlength
    refine ⟨.answer 0 .inserted :: more, s', ?_, ⟨(fun h => nomatch h), fun s₂ h₂ => ?_⟩, hsettled⟩
    · rw [runFrom_cons, hstep]
      exact hrun
    · obtain rfl := Option.some.inj (hstep.symm.trans h₂)
      exact hproper

end NotifyingBus

/-! ## Runs -/

/-- **What the bus promises**: every handler is invoked at most once for an event; if it was subscribed
when the event was first published, it was invoked exactly once as soon as the event is not under way any
more; and what is under way can end. -/
structure HandledOnce (parseDate : DateParser) (actions : List BusAction) (s : NotifyingBus) :
    Prop where
  atMostOnce : ∀ x id, s.invocations x id ≤ 1
  exactlyOnce : ∀ before event after s₁ x, actions = before ++ .publish event :: after →
    runFrom (NotifyingBus.step parseDate) {} before = some s₁ →
    event.id ∉ s₁.bus.processedEventIds → some x ∈ s₁.handlers event.type →
    event ∉ s.underWay → s.invocations x event.id = 1
  settles : ∃ more s', runFrom (NotifyingBus.step parseDate) s more = some s' ∧ s'.underWay = [] ∧
    Along (NotifyingBus.step parseDate) NotifyingBus.Proper s more

theorem NotifyingBus.sound_initial : ({} : NotifyingBus).Sound where
  distinct _ _ _ _ hi := nomatch hi
  working := List.nodup_nil
  once _ _ := Nat.zero_le 1
  waiting _ h := nomatch h
  notified _ _ h := nomatch h

/-- **Handlers are invoked once**, in every run whose actions meet the condition. -/
theorem handled_once {parseDate : DateParser} {actions : List BusAction} {s : NotifyingBus}
    (hrun : runFrom (NotifyingBus.step parseDate) {} actions = some s)
    (hproper : Along (NotifyingBus.step parseDate) NotifyingBus.Proper {} actions) :
    HandledOnce parseDate actions s where
  atMostOnce := (run_invariant (fun _ _ _ h hok hstep => h.step hok hstep)
    NotifyingBus.sound_initial hproper hrun).once
  exactlyOnce before event after s₁ x hactions hbefore hnew hx := by
    subst hactions
    obtain ⟨s₂, hbefore₂, hrest⟩ := runFrom_append hrun
    obtain rfl : s₁ = s₂ := Option.some.inj (hbefore.symm.trans hbefore₂)
    obtain ⟨hproper₁, hproper₂⟩ := hproper.split
    obtain ⟨hpublish, hproper₃⟩ := hproper₂ s₁ hbefore
    have hsound₁ := run_invariant (fun _ _ _ h hok hstep => NotifyingBus.Sound.step h hok hstep)
      NotifyingBus.sound_initial hproper₁ hbefore
    rw [runFrom_cons, NotifyingBus.step, Option.bind_some] at hrest
    -- the promise is made by `publish` and kept from there on
    have hkept := run_invariant
      (I := fun s => s.Sound ∧ s.Promised x event)
      (fun _ _ _ h hok hstep => ⟨h.1.step hok hstep, h.2.step h.1 hok hstep⟩)
      ⟨hsound₁.publish hpublish, .ofPublish hsound₁ hpublish hnew hx⟩ (hproper₃ _ rfl) hrest
    intro hdone
    rcases hkept.2 with hone | ⟨hmem, -⟩ | ⟨p, hmem, -⟩
    · exact hone
    · exact absurd (NotifyingBus.mem_underWay_of_inserting hmem) hdone
    · exact absurd (NotifyingBus.mem_underWay_of_notifying hmem) hdone
  settles := by
    obtain ⟨more, s', hrun', hproper', hsettled⟩ := NotifyingBus.exists_settled parseDate s
    exact ⟨more, s', hrun', hsettled, hproper'⟩

/-- An event with an id, at the beginning of time. -/
def namedEvent (id : Text) : DomainEvent where
  id := id
  requestId := lit "request-1"
  traceId := none
  type := lit "SLEEP_CUE_DETECTED"
  payload := .null
  timestamp := some ⟨0, Time.inRange_zero⟩

/-- A handler is subscribed, and an event is published and comes back from the table. -/
def publishedAndEchoed : List BusAction :=
  [.subscribe (lit "SLEEP_CUE_DETECTED") 7, .publish (namedEvent (lit "e1")), .handled 0, .timer,
    .answer 0 .inserted, .echo ⟨lit "e1", none, lit "request-1", none, lit "SLEEP_CUE_DETECTED",
      .null, lit "1970-01-01T00:00:00.000Z"⟩]

theorem handled_once_publishedAndEchoed : ∃ s,
    runFrom (NotifyingBus.step parseIso) {} publishedAndEchoed = some s ∧
      HandledOnce parseIso publishedAndEchoed s ∧ s.invocations 7 (lit "e1") = 1 := by
  refine ⟨_, rfl, handled_once rfl ⟨trivial, fun s₁ h₁ => ?_⟩, by decide +kernel⟩
  obtain rfl := Option.some.inj h₁
  refine ⟨Or.inr ⟨?_, rfl⟩, fun s₂ h₂ => ?_⟩
  · rintro (hmem | ⟨x, hpos⟩)
    · cases hmem
    · exact absurd hpos (lt_irrefl 0)
  obtain rfl := Option.some.inj h₂
  refine ⟨trivial, fun s₃ h₃ => ⟨trivial, fun s₄ h₄ => ⟨(fun h => nomatch h), fun s₅ h₅ => ?_⟩⟩⟩
  obtain rfl := Option.some.inj h₃
  obtain rfl := Option.some.inj h₄
  obtain rfl := Option.some.inj h₅
  exact ⟨Or.inl (by decide +kernel), fun _ _ => trivial⟩

/-- A handler is subscribed, and 24 events are published and handled. -/
def almostFull : List BusAction :=
  .subscribe (lit "SLEEP_CUE_DETECTED") 7 ::
    (List.range 24).flatMap fun n => [.publish (namedEvent (showNat n)), .handled 0]

/-- One more event is published, and the insert of the batch that it fills rejects. -/
def fullBatch : List BusAction :=
  almostFull ++ [.publish (namedEvent (lit "last")), .answer 0 .rejected]

/-- The event that fills the batch is not under way any more, and its handler was never invoked. -/
theorem fullBatch_not_handled : ∃ s,
    runFrom (NotifyingBus.step parseIso) {} fullBatch = some s ∧
      s.underWay.length = 0 ∧ s.invocations 7 (showNat 23) = 1 ∧ s.invocations 7 (lit "last") = 0 ∧
        ¬ HandledOnce parseIso fullBatch s := by
  have hbefore : (runFrom (NotifyingBus.step parseIso) {} almostFull).isSome = true := by
    decide +kernel
  have hall : (runFrom (NotifyingBus.step parseIso) {} fullBatch).isSome = true := by
    decide +kernel
  have hnew : (lit "last") ∉ ((runFrom (NotifyingBus.step parseIso) {} almostFull).get
      hbefore).bus.processedEventIds := by decide +kernel +revert
  have hx : some 7 ∈ ((runFrom (NotifyingBus.step parseIso) {} almostFull).get
      hbefore).handlers (lit "SLEEP_CUE_DETECTED") := by decide +kernel +revert
  have hdone : ((runFrom (NotifyingBus.step parseIso) {} fullBatch).get hall).underWay.length = 0 := by
    decide +kernel +revert
  have hzero : ((runFrom (NotifyingBus.step parseIso) {} fullBatch).get hall).invocations 7
      (lit "last") = 0 := by decide +kernel +revert
  refine ⟨_, (Option.some_get hall).symm, hdone, by decide +kernel +revert, hzero, fun h => ?_⟩
  have hone := h.exactlyOnce almostFull (namedEvent (lit "last")) [.answer 0 .rejected] _ 7 rfl
    (Option.some_get hbefore).symm hnew hx (by rw [List.length_eq_zero_iff.mp hdone]; simp)
  rw [show (namedEvent (lit "last")).id = lit "last" from rfl, hzero] at hone
  exact absurd hone (by decide)

end DreamWeaver.Events
