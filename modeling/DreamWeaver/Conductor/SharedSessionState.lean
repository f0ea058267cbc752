import DreamWeaver.Conductor.SessionState
import DreamWeaver.Sessions.SessionState

/-! # States that are shared

`InMemorySessionState` (`api/src/infrastructure/adapters/InMemorySessionState.ts`) with the references
that the language gives it: `get` returns the object that the map holds, so that a caller who assigns
to it changes the stored state, and `set` stores a shallow copy, which has a new identity and the same
`context` object. A snapshot in a history is a `structuredClone` and shares nothing, and the array of
a history changes only in the `set` that replaces its object. The operations of
`BedtimeConductorAgent` run here one after the other, each as reads, assignments to the object it
holds, and calls of `set`. -/

namespace DreamWeaver.Conductor

/-- Where an object is. -/
abbrev Address := ℕ

/-- A stored state: its fields, the address of its `context` and its history. -/
structure SessionObject where
  fields : SessionFields
  contextAt : Address
  history : Option (List SessionState)

/-- The objects of the process, and the map from session ids to them. Addresses from `fresh` on have
not been used. -/
structure SharedStore where
  objects : Address → SessionObject
  contexts : Address → SessionContext
  store : Text → Option Address
  fresh : Address
  used : ∀ sessionId a, store sessionId = some a → a < fresh

namespace SharedStore

variable (m : SharedStore) (sessionId : Text) (a : Address) (f : SessionState → SessionState)

/-- What the object at an address shows. -/
def contents : SessionState where
  toSessionFields := (m.objects a).fields
  context := m.contexts (m.objects a).contextAt

/-- What `get` shows of a session. -/
def session : Option SessionState := (m.store sessionId).map m.contents

/-- Assignments through a reference: to the fields of the object and to the entries of its
`context`. -/
def mutate : SharedStore where
  objects := Function.update m.objects a
    { m.objects a with fields := (f (m.contents a)).toSessionFields }
  contexts := Function.update m.contexts (m.objects a).contextAt (f (m.contents a)).context
  store := m.store
  fresh := m.fresh
  used := m.used

/-- The map with a new object, and the objects changed below it. -/
def storeNew (objects : Address → SessionObject) (contexts : Address → SessionContext)
    (object : SessionObject) : SharedStore where
  objects := Function.update objects m.fresh object
  contexts := contexts
  store := Function.update m.store sessionId (some m.fresh)
  fresh := m.fresh + 1
  used other b h := by
    by_cases heq : other = sessionId
    · subst heq
      rw [Function.update_self, Option.some_inj] at h
      exact h ▸ Nat.lt_succ_self _
    · rw [Function.update_of_ne heq] at h
      exact (m.used other b h).trans (Nat.lt_succ_self _)

/-- The history without its oldest snapshot when it is full: `history.shift()`, in place. -/
def shifted (history : List SessionState) : List SessionState :=
  if 10 ≤ history.length then history.drop 1 else history

/-- `set`: the map gets a shallow copy of the object at `a`, with the snapshot of the previous one
at the end of the history. -/
def set : SharedStore :=
  match m.store sessionId with
  | none => m.storeNew sessionId m.objects m.contexts (m.objects a)
  | some previous =>
    let history := shifted ((m.objects previous).history.getD [])
    m.storeNew sessionId
      (Function.update m.objects previous
        { m.objects previous with
          history := (m.objects previous).history.map shifted })
      m.contexts
      { m.objects a with history := some (history ++ [m.contents previous]) }

/-- An object literal, which nothing else refers to. -/
def alloc (state : SessionState) : Address × SharedStore :=
  (m.fresh, {
    objects := Function.update m.objects m.fresh ⟨state.toSessionFields, m.fresh, none⟩
    contexts := Function.update m.contexts m.fresh state.context
    store := m.store
    fresh := m.fresh + 1
    used := fun other b h => (m.used other b h).trans (Nat.lt_succ_self _) })

/-- `rollback` -/
def rollback (steps : ℕ) : SharedStore :=
  match m.store sessionId with
  | none => m
  | some current =>
    let history := (m.objects current).history.getD []
    if history.isEmpty then m
    else
      match Sessions.popSteps steps none history with
      | (none, _) => m
      | (some snapshot, rest) =>
        m.storeNew sessionId m.objects (Function.update m.contexts m.fresh snapshot.context)
          ⟨snapshot.toSessionFields, m.fresh, some rest⟩

/-! ## The operations of the conductor -/

/-- `_getOrInitState`: the object that the operation holds from then on. -/
def getOrInitState (userId : Text) : Address × SharedStore :=
  match m.store sessionId with
  | none =>
    let (a, m) := m.alloc (initialState sessionId userId)
    (a, m.set sessionId a)
  | some a =>
    match unlistedGoal (m.contents a) with
    | none => (a, m)
    | some _ => (a, (m.mutate a listGoal).set sessionId a)

/-- `setGoal` -/
def setGoal (userId : Text) (goal : ActiveGoalProps) : SharedStore :=
  let (a, m) := m.getOrInitState sessionId userId
  (m.mutate a (withGoal goal)).set sessionId a

/-- `handleStoryBeat` -/
def handleStoryBeat (userId : Text) (beatIndex totalBeats : JsNumber) (now : Time) : SharedStore :=
  let (a, m) := m.getOrInitState sessionId userId
  match beatGoal (m.contents a) with
  | none => m
  | some goal => (m.mutate a (withBeat (beatProgress beatIndex totalBeats) now goal)).set sessionId a

/-- `handleSleepCueDetected`; `tracked` says whether the calls of `trackOutcome` resolve. -/
def handleSleepCueDetected (userId : Text) (hasMemory tracked : Bool) : SharedStore :=
  if sessionId = [] ∨ userId = [] then m
  else
    let (a, m) := m.getOrInitState sessionId userId
    if (suggestedTheme (m.contents a)).isNone || !hasMemory then m
    else
      let m := m.mutate a fallingAsleep
      if tracked then (m.mutate a withoutTheme).set sessionId a else m

/-- `processTurn`; `suggestion` is the theme that the thought of the turn suggests, if it gets that
far. -/
def processTurn (userId message : Text) (hasMemory tracked : Bool) (suggestion : Option Text) :
    SharedStore :=
  let (a, m) := m.getOrInitState sessionId userId
  let verdict := turnVerdict hasMemory message (m.contents a)
  if verdict.isSome && !tracked then m
  else
    let m := (m.mutate a (withTurn verdict)).set sessionId a
    match suggestion with
    | none => m
    | some theme =>
      let (a, m) := m.getOrInitState sessionId userId
      (m.mutate a (withTheme theme)).set sessionId a

/-! ## What the operations do to a session -/

variable {m sessionId a f}

/-- Through a reference one sees one's assignments. -/
@[simp] theorem contents_mutate : (m.mutate a f).contents a = f (m.contents a) := by
  rw [contents, mutate]
  dsimp only
  rw [Function.update_self]
  dsimp only
  rw [Function.update_self]

/-- The fields of another object are not changed. -/
theorem fields_mutate_of_ne {b : Address} (h : b ≠ a) :
    ((m.mutate a f).contents b).toSessionFields = (m.contents b).toSessionFields := by
  rw [contents, mutate]
  dsimp only
  rw [Function.update_of_ne h]
  rfl

@[simp] theorem store_mutate : (m.mutate a f).store = m.store := rfl

/-- A new object shows what it was made of. -/
theorem session_storeNew {objects : Address → SessionObject} {contexts : Address → SessionContext}
    {object : SessionObject} : (m.storeNew sessionId objects contexts object).session sessionId =
      some { toSessionFields := object.fields, context := contexts object.contextAt } := by
  rw [session, storeNew]
  dsimp only
  rw [Function.update_self, Option.map_some, contents]
  dsimp only
  rw [Function.update_self]

/-- `set` stores what the object shows. -/
@[simp] theorem session_set : (m.set sessionId a).session sessionId = some (m.contents a) := by
  rw [set]
  cases m.store sessionId with
  | none => exact session_storeNew
  | some previous => exact session_storeNew

/-- The address under which `set` stores a session is a new one. -/
theorem store_set : (m.set sessionId a).store sessionId = some m.fresh := by
  rw [set]
  cases m.store sessionId with
  | none => exact Function.update_self ..
  | some previous => exact Function.update_self ..

/-- One step back leads to the last snapshot. -/
theorem session_rollback {current : Address} {rest : List SessionState} {snapshot : SessionState}
    (hstore : m.store sessionId = some current)
    (hhistory : (m.objects current).history = some (rest ++ [snapshot])) :
    (m.rollback sessionId 1).session sessionId = some snapshot := by
  rw [rollback, hstore]
  dsimp only
  rw [hhistory, Option.getD_some, if_neg (by simp), Sessions.popSteps, List.getLast?_concat,
    List.dropLast_concat]
  dsimp only [Sessions.popSteps]
  rw [session_storeNew, Function.update_self]

/-- `set` puts what the map showed just before it at the end of the history. -/
theorem history_set {state : SessionState} (h : m.session sessionId = some state) :
    ∃ rest, ((m.set sessionId a).objects m.fresh).history = some (rest ++ [state]) := by
  obtain ⟨previous, hprevious, rfl⟩ := Option.map_eq_some_iff.mp h
  rw [set, hprevious]
  refine ⟨shifted ((m.objects previous).history.getD []), ?_⟩
  dsimp only [storeNew]
  rw [Function.update_self]

/-- **What a rollback undoes**: after `set`, one step back leads to what the map showed just before
it, assignments through references included. -/
theorem session_rollback_set {state : SessionState} (h : m.session sessionId = some state) :
    ((m.set sessionId a).rollback sessionId 1).session sessionId = some state := by
  obtain ⟨rest, hrest⟩ := @history_set m sessionId a state h
  exact session_rollback store_set hrest

end SharedStore

end DreamWeaver.Conductor
