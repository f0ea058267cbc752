import DreamWeaver.Foundations.JsData
import DreamWeaver.Foundations.JsonWriter
import DreamWeaver.Foundations.Transitions

/-! # The events sockets

`InMemoryEventBus` (`api/src/infrastructure/events/InMemoryEventBus.ts`) and the connections of the events
server (`api/src/index.ts`). A connection subscribes one closure to three types of events, and its closure
takes it off again. `publish` calls all handlers that are there before it awaits anything, so that a run
is a list of connections, closures and publications, and of what other parts of the program subscribe. -/

namespace DreamWeaver.Events

open Transitions

/-! ## Events -/

/-- An event: an object whose type is a string. -/
structure BusEvent where
  fields : Record JsData
  type : Text
  typed : fields.get? (lit "type") = some (.str type)

/-- `payloadUserId`, if it is a string. -/
def BusEvent.payloadUserId (event : BusEvent) : Option Text :=
  match event.fields.get? (lit "payload") with
  | some (.obj payload) =>
    match Record.get? payload (lit "userId") with
    | some (.str userId) => some userId
    | _ => none
  | _ => none

/-- `JSON.stringify({ event })` -/
def BusEvent.frame (event : BusEvent) : Text :=
  stringify (.obj (fieldsToJson [(lit "event", .obj event.fields)]))

/-! ## The bus -/

/-- A handler: the closure `send` of a connection, or one of another part of the program. -/
inductive SocketHandler where
  | send (connection : ℕ)
  | other (id : ℕ)
  deriving DecidableEq

/-- The fields of `InMemoryEventBus`: for each type its `Set` of handlers, in the order of insertion. -/
abbrev InMemoryEventBus := Text → List SocketHandler

namespace InMemoryEventBus

/-- `subscribe` -/
def subscribe (bus : InMemoryEventBus) (type : Text) (handler : SocketHandler) : InMemoryEventBus :=
  Function.update bus type (if handler ∈ bus type then bus type else bus type ++ [handler])

/-- The function that `subscribe` returns. -/
def unsubscribe (bus : InMemoryEventBus) (type : Text) (handler : SocketHandler) : InMemoryEventBus :=
  Function.update bus type ((bus type).filter (· ≠ handler))

end InMemoryEventBus

/-! ## The server -/

/-- The types that a connection subscribes to. -/
def streamedTypes : List Text :=
  [lit "SLEEP_CUE_DETECTED", lit "STORY_BEAT_COMPLETED", lit "STORY_CHUNK_GENERATED"]

/-- A connection of the server. -/
structure EventSocket where
  userId : Text
  isOpen : Bool
  deriving DecidableEq

/-- The bus, and the connections in the order in which they were made. -/
structure EventServer where
  bus : InMemoryEventBus := fun _ => []
  sockets : List EventSocket := []

/-- What happens to the server. -/
inductive EventAction where
  | connect (userId : Text)
  | close (connection : ℕ)
  | publish (event : BusEvent)
  /-- Another part of the program subscribes a handler. -/
  | subscribe (type : Text) (id : ℕ)
  | unsubscribe (type : Text) (id : ℕ)

/-- `send`: the frame that the closure of a connection sends for an event. -/
def send (userId : Text) (event : BusEvent) : Option Text :=
  if userId = [] ∨ event.payloadUserId ≠ some userId then none else some event.frame

namespace EventServer

/-- The connection subscribes to the three types. -/
def connect (s : EventServer) (userId : Text) : EventServer where
  bus := streamedTypes.foldl (fun bus type => bus.subscribe type (.send s.sockets.length)) s.bus
  sockets := s.sockets ++ [⟨userId, true⟩]

/-- The connection is closed. -/
def close (s : EventServer) (connection : ℕ) (userId : Text) : EventServer where
  bus := streamedTypes.foldl (fun bus type => bus.unsubscribe type (.send connection)) s.bus
  sockets := s.sockets.set connection ⟨userId, false⟩

/-- The server after an action, if it can happen: the upgrade of a connection has found a user id that is
not empty, and a connection is closed once. -/
def step (s : EventServer) : EventAction → Option EventServer
  | .connect userId => if userId = [] then none else some (s.connect userId)
  | .close connection =>
    match s.sockets[connection]? with
    | some ⟨userId, true⟩ => some (s.close connection userId)
    | _ => none
  | .publish _ => some s
  | .subscribe type id => some { s with bus := s.bus.subscribe type (.other id) }
  | .unsubscribe type id => some { s with bus := s.bus.unsubscribe type (.other id) }

/-- What a handler sends, and on which connection. -/
def handle (s : EventServer) (event : BusEvent) : SocketHandler → Option (ℕ × Text)
  | .send connection => s.sockets[connection]?.bind fun socket =>
      (send socket.userId event).map fun frame => (connection, frame)
  | .other _ => none

/-- The frames that an action sends: `publish` calls the handlers of the type. -/
def sent (s : EventServer) : EventAction → List (ℕ × Text)
  | .publish event => (s.bus event.type).filterMap (s.handle event)
  | _ => []

end EventServer

/-! ## What a client should be sent -/

/-- The number of connections that actions make. -/
def connections (actions : List EventAction) : ℕ :=
  actions.countP fun a => match a with
    | .connect _ => true
    | _ => false

/-- The frames of a connection. -/
def framesTo (connection : ℕ) (frames : List (ℕ × Text)) : List Text :=
  frames.filterMap fun frame => if frame.1 = connection then some frame.2 else none

/-- The frame that a client of a user should be sent when an action publishes an event of one of the three
types for this user. -/
def frameFor (userId : Text) : EventAction → Option Text
  | .publish event =>
    if event.type ∈ streamedTypes ∧ event.payloadUserId = some userId then some event.frame else none
  | _ => none

/-- An action closes a connection. -/
def closes (connection : ℕ) : EventAction → Bool
  | .close c => c = connection
  | _ => false

/-- The actions until a connection is closed. -/
def untilClosed (connection : ℕ) (actions : List EventAction) : List EventAction :=
  actions.takeWhile fun a => !closes connection a

/-- **Event streams**: what a run of the server, with the frames that it sent and the handlers that are
there at its end, should be. -/
structure Streams (actions : List EventAction) (frames : List (ℕ × Text)) (bus : InMemoryEventBus) :
    Prop where
  /-- A client is sent the events of its user, once and in their order, between its connection and its
  closure, and nothing else. -/
  delivered : ∀ before userId after, actions = before ++ .connect userId :: after →
    framesTo (connections before) frames =
      (untilClosed (connections before) after).filterMap (frameFor userId)
  /-- Nothing is sent on connections that were not made. -/
  only : ∀ connection, connections actions ≤ connection → framesTo connection frames = []
  /-- After its closure none of the handlers of a client is subscribed. -/
  unsubscribed : ∀ before connection after, actions = before ++ .close connection :: after →
    ∀ type, .send connection ∉ bus type

/-! ## Subscriptions -/

namespace InMemoryEventBus

variable {bus : InMemoryEventBus} {type other : Text} {handler h : SocketHandler} {types : List Text}

theorem mem_subscribe :
    h ∈ bus.subscribe type handler other ↔ (h = handler ∧ other = type) ∨ h ∈ bus other := by
  rw [subscribe]
  by_cases htype : other = type
  · subst htype
    rw [Function.update_self]
    by_cases hmem : handler ∈ bus other
    · rw [if_pos hmem]
      constructor
      · exact Or.inr
      · rintro (⟨rfl, -⟩ | hold)
        · exact hmem
        · exact hold
    · rw [if_neg hmem, List.mem_append, List.mem_singleton]
      tauto
  · rw [Function.update_of_ne htype]
    tauto

theorem mem_unsubscribe :
    h ∈ bus.unsubscribe type handler other ↔ h ∈ bus other ∧ ¬ (h = handler ∧ other = type) := by
  rw [unsubscribe]
  by_cases htype : other = type
  · subst htype
    rw [Function.update_self, List.mem_filter, decide_eq_true_iff]
    tauto
  · rw [Function.update_of_ne htype]
    tauto

theorem nodup_subscribe (hnodup : ∀ t, (bus t).Nodup) (t : Text) :
    (bus.subscribe type handler t).Nodup := by
  rw [subscribe]
  by_cases htype : t = type
  · subst htype
    rw [Function.update_self]
    split
    · exact hnodup t
    · rename_i hnot
      rw [List.nodup_append]
      refine ⟨hnodup t, List.nodup_singleton _, fun a ha b hb hab => hnot ?_⟩
      rw [← List.mem_singleton.mp hb, ← hab]
      exact ha
  · rw [Function.update_of_ne htype]
    exact hnodup t

theorem nodup_unsubscribe (hnodup : ∀ t, (bus t).Nodup) (t : Text) :
    (bus.unsubscribe type handler t).Nodup := by
  rw [unsubscribe]
  by_cases htype : t = type
  · subst htype
    rw [Function.update_self]
    exact (hnodup t).filter _
  · rw [Function.update_of_ne htype]
    exact hnodup t

/-- A handler that is subscribed to several types. -/
theorem mem_subscribe_all : h ∈ types.foldl (fun bus type => bus.subscribe type handler) bus other ↔
    (h = handler ∧ other ∈ types) ∨ h ∈ bus other := by
  induction types generalizing bus with
  | nil => simp
  | cons type types ih =>
    rw [List.foldl_cons, ih, mem_subscribe, List.mem_cons]
    tauto

/-- A handler that is taken off several types. -/
theorem mem_unsubscribe_all : h ∈ types.foldl (fun bus type => bus.unsubscribe type handler) bus other ↔
    h ∈ bus other ∧ ¬ (h = handler ∧ other ∈ types) := by
  induction types generalizing bus with
  | nil => simp
  | cons type types ih =>
    rw [List.foldl_cons, ih, mem_unsubscribe, List.mem_cons]
    tauto

theorem nodup_subscribe_all (hnodup : ∀ t, (bus t).Nodup) (t : Text) :
    (types.foldl (fun bus type => bus.subscribe type handler) bus t).Nodup := by
  induction types generalizing bus with
  | nil => exact hnodup t
  | cons type types ih => exact ih fun t => nodup_subscribe hnodup t

theorem nodup_unsubscribe_all (hnodup : ∀ t, (bus t).Nodup) (t : Text) :
    (types.foldl (fun bus type => bus.unsubscribe type handler) bus t).Nodup := by
  induction types generalizing bus with
  | nil => exact hnodup t
  | cons type types ih => exact ih fun t => nodup_unsubscribe hnodup t

end InMemoryEventBus

/-! ## One step -/

namespace EventServer

/-- The connection is open. -/
def IsOpen (s : EventServer) (connection : ℕ) : Prop :=
  ∃ userId, s.sockets[connection]? = some ⟨userId, true⟩

/-- **The invariant**: the closures of the open connections are in the sets of the three types, once and
in no others. -/
structure Kept (s : EventServer) : Prop where
  distinct : ∀ type, (s.bus type).Nodup
  mem_bus : ∀ c type, .send c ∈ s.bus type ↔ type ∈ streamedTypes ∧ s.IsOpen c
  named : ∀ socket ∈ s.sockets, socket.userId ≠ []

variable {s s' : EventServer} {a : EventAction} {c : ℕ} {userId : Text}

/-- What an action does to the connections. -/
theorem step_cases : s.step a = some s' →
    match a with
    | .connect userId => userId ≠ [] ∧ s' = s.connect userId
    | .close connection => ∃ userId, s.sockets[connection]? = some ⟨userId, true⟩ ∧
        s' = s.close connection userId
    | .publish _ => s' = s
    | .subscribe type id => s' = { s with bus := s.bus.subscribe type (.other id) }
    | .unsubscribe type id => s' = { s with bus := s.bus.unsubscribe type (.other id) } := by
  intro h
  unfold step at h
  cases a with
  | connect userId =>
    by_cases hempty : userId = []
    · simp [hempty] at h
    · simp only [hempty, if_false, Option.some.injEq] at h
      exact ⟨hempty, h.symm⟩
  | close connection =>
    dsimp only at h
    split at h
    · rename_i userId hsocket
      exact ⟨userId, hsocket, (Option.some.inj h).symm⟩
    · cases h
  | publish event => exact (Option.some.inj h).symm
  | subscribe type id => exact (Option.some.inj h).symm
  | unsubscribe type id => exact (Option.some.inj h).symm

theorem isOpen_connect : (s.connect userId).IsOpen c ↔ c = s.sockets.length ∨ s.IsOpen c := by
  rw [IsOpen, connect, IsOpen]
  rcases lt_trichotomy c s.sockets.length with hlt | rfl | hgt
  · rw [List.getElem?_append_left hlt]
    constructor
    · exact Or.inr
    · exact fun h => h.resolve_left hlt.ne
  · rw [List.getElem?_concat_length]
    exact ⟨fun _ => Or.inl rfl, fun _ => ⟨userId, rfl⟩⟩
  · rw [List.getElem?_eq_none (by simp; omega), List.getElem?_eq_none hgt.le]
    constructor
    · rintro ⟨_, h⟩
      cases h
    · rintro (h | ⟨_, h⟩)
      · omega
      · cases h

theorem isOpen_close {c' : ℕ} : (s.close c userId).IsOpen c' ↔ s.IsOpen c' ∧ c' ≠ c := by
  rw [IsOpen, close, IsOpen, List.getElem?_set]
  by_cases hc : c' = c
  · subst hc
    rw [if_pos rfl]
    constructor
    · rintro ⟨user, h⟩
      split at h <;> cases h
    · exact fun h => absurd rfl h.2
  · rw [if_neg (Ne.symm hc)]
    exact ⟨fun h => ⟨h, hc⟩, fun h => h.1⟩

/-- **One action** keeps the subscriptions. -/
theorem Kept.step (h : Kept s) (hstep : s.step a = some s') : Kept s' := by
  have hcases := step_cases hstep
  cases a with
  | connect userId =>
    obtain ⟨hname, rfl⟩ := hcases
    refine ⟨fun t => InMemoryEventBus.nodup_subscribe_all h.distinct t, fun c type => ?_,
      fun socket hsocket => ?_⟩
    · rw [connect, InMemoryEventBus.mem_subscribe_all, h.mem_bus, ← connect, isOpen_connect,
        SocketHandler.send.injEq]
      tauto
    · rcases List.mem_append.mp hsocket with hold | hnew
      · exact h.named socket hold
      · rw [List.mem_singleton.mp hnew]
        exact hname
  | close connection =>
    obtain ⟨userId, hopen, rfl⟩ := hcases
    refine ⟨fun t => InMemoryEventBus.nodup_unsubscribe_all h.distinct t, fun c type => ?_,
      fun socket hsocket => ?_⟩
    · rw [close, InMemoryEventBus.mem_unsubscribe_all, h.mem_bus, ← close, isOpen_close,
        SocketHandler.send.injEq]
      tauto
    · rcases List.mem_or_eq_of_mem_set hsocket with hold | rfl
      · exact h.named socket hold
      · have hname := h.named _ (List.mem_of_getElem? hopen)
        exact hname
  | publish event =>
    obtain rfl := hcases
    exact h
  | subscribe type id =>
    obtain rfl := hcases
    refine ⟨fun t => InMemoryEventBus.nodup_subscribe h.distinct t, fun c t => ?_, h.named⟩
    rw [InMemoryEventBus.mem_subscribe, h.mem_bus]
    simp [IsOpen]
  | unsubscribe type id =>
    obtain rfl := hcases
    refine ⟨fun t => InMemoryEventBus.nodup_unsubscribe h.distinct t, fun c t => ?_, h.named⟩
    rw [InMemoryEventBus.mem_unsubscribe, h.mem_bus]
    simp [IsOpen]

/-- What a handler that is in a list once contributes alone. -/
theorem filterMap_of_nodup {α β : Type} [DecidableEq α] {f : α → Option β} {l : List α} {a : α}
    (hnodup : l.Nodup) (hother : ∀ b ∈ l, b ≠ a → f b = none) :
    l.filterMap f = if a ∈ l then (f a).toList else [] := by
  induction l with
  | nil => rfl
  | cons b l ih =>
    obtain ⟨hnot, hrest⟩ := List.nodup_cons.mp hnodup
    have htail := ih hrest fun x hx => hother x (List.mem_cons_of_mem b hx)
    by_cases hb : b = a
    · subst hb
      rw [if_neg hnot] at htail
      rw [if_pos List.mem_cons_self, List.filterMap_cons, htail]
      cases f b <;> rfl
    · rw [List.filterMap_cons_none (hother b List.mem_cons_self hb), htail]
      have hmem : a ∈ b :: l ↔ a ∈ l := by
        rw [List.mem_cons]
        exact ⟨fun h => h.resolve_left (Ne.symm hb), Or.inr⟩
      simp only [hmem]

/-- A publication sends on a connection what its closure sends, if that is subscribed. -/
theorem framesTo_publish (h : Kept s) (event : BusEvent) :
    framesTo c (s.sent (.publish event)) = if .send c ∈ s.bus event.type then
      (s.sockets[c]?.bind fun socket => send socket.userId event).toList else [] := by
  rw [framesTo, sent, List.filterMap_filterMap, filterMap_of_nodup (a := .send c) (h.distinct _)]
  · congr 2
    rw [handle, Option.bind_assoc]
    congr 1
    funext socket
    cases send socket.userId event <;> simp
  · intro handler _ hne
    cases handler with
    | other id => rfl
    | send connection =>
      have hc : connection ≠ c := fun hc => hne (hc ▸ rfl)
      rw [handle]
      cases s.sockets[connection]? with
      | none => rfl
      | some socket =>
        rw [Option.bind_some]
        cases send socket.userId event with
        | none => rfl
        | some frame => exact if_neg hc

/-- **What an action sends** on an open connection is what its client should be sent. -/
theorem framesTo_sent (h : Kept s) (hopen : s.sockets[c]? = some ⟨userId, true⟩) :
    framesTo c (s.sent a) = (frameFor userId a).toList := by
  cases a with
  | publish event =>
    rw [framesTo_publish h, hopen, Option.bind_some, send, frameFor]
    have hmem : .send c ∈ s.bus event.type ↔ event.type ∈ streamedTypes :=
      (h.mem_bus c event.type).trans ⟨fun hboth => hboth.1, fun htype => ⟨htype, userId, hopen⟩⟩
    have hname : userId ≠ [] := h.named _ (List.mem_of_getElem? hopen)
    by_cases htype : event.type ∈ streamedTypes
    · rw [if_pos (hmem.mpr htype)]
      by_cases huser : event.payloadUserId = some userId
      · rw [if_neg (by simp [hname, huser]), if_pos ⟨htype, huser⟩]
      · rw [if_pos (Or.inr huser), if_neg fun hboth => huser hboth.2]
    · rw [if_neg fun hsend => htype (hmem.mp hsend), if_neg fun hboth => htype hboth.1]
      rfl
  | _ => rfl

/-- Nothing is sent on a connection that is not open. -/
theorem framesTo_sent_of_not_isOpen (h : Kept s) (hnot : ¬ s.IsOpen c) :
    framesTo c (s.sent a) = [] := by
  cases a with
  | publish event =>
    rw [framesTo_publish h, if_neg]
    exact fun hmem => hnot ((h.mem_bus c event.type).mp hmem).2
  | _ => rfl

/-- A connection that is open stays so, until it is closed. -/
theorem sockets_of_open (hstep : s.step a = some s') (hopen : s.sockets[c]? = some ⟨userId, true⟩) :
    s'.sockets[c]? = some ⟨userId, !closes c a⟩ := by
  have hcases := step_cases hstep
  have hlt : c < s.sockets.length := (List.getElem?_eq_some_iff.mp hopen).1
  cases a with
  | connect user =>
    obtain ⟨-, rfl⟩ := hcases
    rw [connect, List.getElem?_append_left hlt]
    exact hopen
  | close connection =>
    obtain ⟨user, hsocket, rfl⟩ := hcases
    rw [close, List.getElem?_set, closes]
    by_cases hc : connection = c
    · subst hc
      rw [hopen, Option.some_inj] at hsocket
      cases hsocket
      simp [hlt]
    · simp [hc, hopen]
  | _ =>
    obtain rfl := hcases
    exact hopen

/-- A connection that was closed stays so. -/
theorem sockets_of_closed (hstep : s.step a = some s') (hclosed : s.sockets[c]? = some ⟨userId, false⟩) :
    s'.sockets[c]? = some ⟨userId, false⟩ := by
  have hcases := step_cases hstep
  have hlt : c < s.sockets.length := (List.getElem?_eq_some_iff.mp hclosed).1
  cases a with
  | connect user =>
    obtain ⟨-, rfl⟩ := hcases
    rw [connect, List.getElem?_append_left hlt]
    exact hclosed
  | close connection =>
    obtain ⟨user, hsocket, rfl⟩ := hcases
    have hc : connection ≠ c := by
      rintro rfl
      rw [hclosed] at hsocket
      cases hsocket
    rw [close, List.getElem?_set, if_neg hc]
    exact hclosed
  | _ =>
    obtain rfl := hcases
    exact hclosed

/-- Connections are numbered in the order in which they are made. -/
theorem length_step (hstep : s.step a = some s') :
    s'.sockets.length = s.sockets.length + connections [a] := by
  have hcases := step_cases hstep
  cases a with
  | connect user =>
    obtain ⟨-, rfl⟩ := hcases
    simp [connect, connections]
  | close connection =>
    obtain ⟨user, -, rfl⟩ := hcases
    simp [close, connections]
  | _ =>
    obtain rfl := hcases
    rfl

/-! ## Runs -/

variable {actions before after : List EventAction}

theorem framesTo_append {frames frames' : List (ℕ × Text)} :
    framesTo c (frames ++ frames') = framesTo c frames ++ framesTo c frames' := List.filterMap_append

/-- Nothing is sent on a connection that was closed. -/
theorem framesTo_of_closed (h : Kept s) (hclosed : s.sockets[c]? = some ⟨userId, false⟩)
    (hrun : runFrom step s actions = some s') :
    framesTo c (outputs step sent s actions) = [] ∧ s'.sockets[c]? = some ⟨userId, false⟩ := by
  induction actions generalizing s with
  | nil =>
    obtain rfl := Option.some.inj hrun
    exact ⟨rfl, hclosed⟩
  | cons a actions ih =>
    rw [runFrom_cons, Option.bind_eq_some_iff] at hrun
    obtain ⟨s₁, hstep, hrest⟩ := hrun
    obtain ⟨hframes, hfinal⟩ := ih (h.step hstep) (sockets_of_closed hstep hclosed) hrest
    have hnot : ¬ s.IsOpen c := by
      rintro ⟨user, hopen⟩
      rw [hclosed] at hopen
      cases hopen
    rw [outputs, hstep, Option.elim_some, framesTo_append, hframes, framesTo_sent_of_not_isOpen h hnot]
    exact ⟨rfl, hfinal⟩

/-- **An open connection** is sent what its client should be sent until it is closed. -/
theorem framesTo_of_open (h : Kept s) (hopen : s.sockets[c]? = some ⟨userId, true⟩)
    (hrun : runFrom step s actions = some s') :
    framesTo c (outputs step sent s actions) = (untilClosed c actions).filterMap (frameFor userId) := by
  induction actions generalizing s with
  | nil => rfl
  | cons a actions ih =>
    rw [runFrom_cons, Option.bind_eq_some_iff] at hrun
    obtain ⟨s₁, hstep, hrest⟩ := hrun
    have hsocket := sockets_of_open hstep hopen
    rw [outputs, hstep, Option.elim_some, framesTo_append, framesTo_sent h hopen, untilClosed,
      List.takeWhile_cons]
    cases hcloses : closes c a with
    | true =>
      rw [hcloses] at hsocket
      rw [(framesTo_of_closed (h.step hstep) hsocket hrest).1]
      cases a with
      | close connection => rfl
      | _ => cases hcloses
    | false =>
      rw [hcloses] at hsocket
      rw [ih (h.step hstep) hsocket hrest, untilClosed]
      cases hframe : frameFor userId a <;> simp [hframe]

/-- Nothing is sent on a connection that is not made yet. -/
theorem framesTo_of_fresh (h : Kept s) (hfresh : s.sockets.length + connections actions ≤ c)
    (hrun : runFrom step s actions = some s') : framesTo c (outputs step sent s actions) = [] := by
  induction actions generalizing s with
  | nil => rfl
  | cons a actions ih =>
    rw [runFrom_cons, Option.bind_eq_some_iff] at hrun
    obtain ⟨s₁, hstep, hrest⟩ := hrun
    have hcount : connections (a :: actions) = connections [a] + connections actions := by
      rw [connections, connections, connections, ← List.countP_append, List.singleton_append]
    have hnot : ¬ s.IsOpen c := by
      rintro ⟨user, hopen⟩
      have hlt := (List.getElem?_eq_some_iff.mp hopen).1
      omega
    have hlength := length_step hstep
    rw [outputs, hstep, Option.elim_some, framesTo_append, framesTo_sent_of_not_isOpen h hnot,
      ih (h.step hstep) (by omega) hrest]
    rfl

/-- The number of connections after a run. -/
theorem length_of_run (hrun : runFrom step s actions = some s') :
    s'.sockets.length = s.sockets.length + connections actions := by
  induction actions generalizing s with
  | nil =>
    obtain rfl := Option.some.inj hrun
    rfl
  | cons a actions ih =>
    rw [runFrom_cons, Option.bind_eq_some_iff] at hrun
    obtain ⟨s₁, hstep, hrest⟩ := hrun
    have hcount : connections (a :: actions) = connections [a] + connections actions := by
      rw [connections, connections, connections, ← List.countP_append, List.singleton_append]
    rw [ih hrest, length_step hstep, hcount]
    omega

theorem Kept.start : Kept {} where
  distinct _ := List.nodup_nil
  mem_bus c type := by simp [IsOpen]
  named _ h := (nomatch h)

theorem Kept.run (h : Kept s) (hrun : runFrom EventServer.step s actions = some s') :
    Kept s' :=
  run_invariant (fun _ _ _ hkept _ hstep => Kept.step hkept hstep) h along_true hrun

end EventServer

/-- **Event streams**: in every run of connections, closures and publications, the client of a user is
sent the events of the three types for this user that are published while it is connected, once each and
in their order, and nothing else; and when it is closed its handlers are gone. -/
theorem event_streams {actions : List EventAction} {s : EventServer}
    (hrun : runFrom EventServer.step {} actions = some s) :
    Streams actions (outputs EventServer.step EventServer.sent {} actions) s.bus where
  delivered before userId after heq := by
    subst heq
    obtain ⟨s₁, hbefore, hrest⟩ := runFrom_append hrun
    rw [runFrom_cons, Option.bind_eq_some_iff] at hrest
    obtain ⟨s₂, hconnect, hafter⟩ := hrest
    have hkept := EventServer.Kept.start.run hbefore
    have hlength := EventServer.length_of_run hbefore
    rw [List.length_nil, Nat.zero_add] at hlength
    obtain ⟨-, rfl⟩ := EventServer.step_cases hconnect
    have hopen : (s₁.connect userId).sockets[connections before]? = some ⟨userId, true⟩ := by
      rw [← hlength, EventServer.connect, List.getElem?_concat_length]
    rw [outputs_append hbefore, EventServer.framesTo_append,
      EventServer.framesTo_of_fresh EventServer.Kept.start (by simp) hbefore, List.nil_append, outputs,
      hconnect, Option.elim_some]
    exact EventServer.framesTo_of_open (hkept.step hconnect) hopen hafter
  only connection hle := by
    refine EventServer.framesTo_of_fresh EventServer.Kept.start ?_ hrun
    rwa [List.length_nil, Nat.zero_add]
  unsubscribed before connection after heq type hmem := by
    subst heq
    obtain ⟨s₁, hbefore, hrest⟩ := runFrom_append hrun
    rw [runFrom_cons, Option.bind_eq_some_iff] at hrest
    obtain ⟨s₂, hclose, hafter⟩ := hrest
    have hkept := EventServer.Kept.start.run hbefore
    obtain ⟨userId, hopen, -⟩ := EventServer.step_cases hclose
    have hclosed := EventServer.sockets_of_open hclose hopen
    rw [closes, decide_eq_true rfl] at hclosed
    obtain ⟨-, hfinal⟩ := EventServer.framesTo_of_closed (hkept.step hclose) hclosed hafter
    obtain ⟨-, user, hstill⟩ := ((EventServer.Kept.start.run hrun).mem_bus connection type).mp hmem
    rw [hfinal] at hstill
    cases hstill

/-- A beat of the story of ana. -/
def anaBeat : BusEvent where
  fields := [(lit "id", .str (lit "e1")), (lit "type", .str (lit "STORY_BEAT_COMPLETED")),
    (lit "payload", .obj [(lit "userId", .str (lit "ana"))])]
  type := lit "STORY_BEAT_COMPLETED"
  typed := rfl

/-- Clients of ana and of ben are connected when beats of ana's story are published. -/
def evening : List EventAction :=
  [.publish anaBeat, .connect (lit "ana"), .connect (lit "ben"), .publish anaBeat, .publish anaBeat,
    .close 0, .publish anaBeat]

theorem event_streams_evening :
    (∃ s : EventServer, Streams evening (outputs EventServer.step EventServer.sent {} evening) s.bus) ∧
      outputs EventServer.step EventServer.sent {} evening = [(0, anaBeat.frame), (0, anaBeat.frame)] := by
  have hruns : (runFrom EventServer.step {} evening).isSome = true := by decide +kernel
  obtain ⟨s, hs⟩ := Option.isSome_iff_exists.mp hruns
  refine ⟨⟨s, event_streams hs⟩, ?_⟩
  decide +kernel

end DreamWeaver.Events
