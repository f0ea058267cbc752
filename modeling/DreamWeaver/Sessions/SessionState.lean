import DreamWeaver.Foundations.JsData
import Mathlib.Logic.Function.Basic

/-! # Session states

The data of `SessionStatePort` (`api/src/application/ports/SessionStatePort.ts`). The adapters copy
a state entry by entry and look into it only for its `userId` and its `history`, so a snapshot is the
record of its entries, with the facts that the type of a state gives: the `userId` is a string, and a
snapshot has no history of its own. `InMemorySessionState` is the adapter that keeps the states in a
map (`api/src/infrastructure/adapters/InMemorySessionState.ts`), here with value semantics: a state
that a caller was given is a copy. -/

namespace DreamWeaver.Sessions

/-- `SessionStateSnapshot`: the entries of a state other than its history. -/
structure SessionStateSnapshot where
  fields : Record JsData
  nodup : fields.keys.Nodup
  userId : Text
  userId_eq : fields.get? (lit "userId") = some (.str userId)
  no_history : fields.get? (lit "history") = none

/-- `SessionState`: a snapshot and the snapshots before it, the oldest first. -/
structure SessionState extends SessionStateSnapshot where
  history : Option (List SessionStateSnapshot)

/-- The entries that a patch cannot have. -/
def unpatchable : List Text := [lit "sessionId", lit "userId", lit "updatedAt", lit "history"]

/-- `SessionStatePatch`: some of the other entries. -/
structure SessionStatePatch where
  fields : Record JsData
  nodup : fields.keys.Nodup
  allowed : ∀ key ∈ unpatchable, fields.get? key = none

namespace SessionStateSnapshot

/-- `{ ...state, updatedAt: new Date() }` -/
def touched (s : SessionStateSnapshot) (now : Time) : SessionStateSnapshot where
  fields := s.fields.spread [(lit "updatedAt", .date (some now))]
  nodup := Record.nodup_spread s.nodup Record.nodup_singleton
  userId := s.userId
  userId_eq := by
    rw [Record.get?_spread_singleton, if_neg (by decide)]
    exact s.userId_eq
  no_history := by
    rw [Record.get?_spread_singleton, if_neg (by decide)]
    exact s.no_history

/-- `{ ...current, ...partial }` -/
def patched (s : SessionStateSnapshot) (p : SessionStatePatch) : SessionStateSnapshot where
  fields := s.fields.spread p.fields
  nodup := Record.nodup_spread s.nodup p.nodup
  userId := s.userId
  userId_eq := by
    rw [Record.get?_spread, p.allowed _ (by simp [unpatchable]), Option.none_or]
    exact s.userId_eq
  no_history := by
    rw [Record.get?_spread, p.allowed _ (by simp [unpatchable]), Option.none_or]
    exact s.no_history

variable (s : SessionStateSnapshot) (now : Time) (p : SessionStatePatch) {key : Text}

/-- Touching a state changes its `updatedAt` only. -/
theorem get?_touched (hkey : key ≠ lit "updatedAt") :
    (s.touched now).fields.get? key = s.fields.get? key := by
  rw [touched, Record.get?_spread_singleton, if_neg hkey]

/-- A patch counts where it has an entry. -/
@[simp] theorem get?_patched :
    (s.patched p).fields.get? key = (p.fields.get? key).or (s.fields.get? key) :=
  Record.get?_spread

end SessionStateSnapshot

/-- A call of `SessionStatePort`. -/
inductive SessionOp where
  | get (sessionId : Text)
  | set (sessionId : Text) (state : SessionState)
  | patch (sessionId : Text) (partialState : SessionStatePatch)
  | rollback (sessionId : Text) (steps : ℕ)
  | delete (sessionId : Text)

/-- The session of a call. -/
def SessionOp.sessionId : SessionOp → Text
  | .get sessionId => sessionId
  | .set sessionId _ => sessionId
  | .patch sessionId _ => sessionId
  | .rollback sessionId _ => sessionId
  | .delete sessionId => sessionId

/-- The last of the snapshots that `steps` rounds of popping take from a history, and what is left of
it: `targetSnapshot` and `history` after the loop of `rollback`. -/
def popSteps {α : Type} : ℕ → Option α → List α → Option α × List α
  | 0, target, history => (target, history)
  | steps + 1, _, history =>
    match history.getLast? with
    | none => (none, history)
    | some snapshot => popSteps steps (some snapshot) history.dropLast

namespace InMemorySessionState

/-- `store: Map<string, SessionState>` -/
abbrev Store := Text → Option SessionState

/-- `get` -/
def get (store : Store) (sessionId : Text) : Option SessionState := store sessionId

/-- `set`: the previous state joins the history, which keeps at most its last ten snapshots. -/
def set (store : Store) (now : Time) (sessionId : Text) (state : SessionState) : Store :=
  match store sessionId with
  | none =>
    Function.update store sessionId (some { state.touched now with history := state.history })
  | some previous =>
    let history := previous.history.getD []
    let kept := if 10 ≤ history.length then history.drop 1 else history
    Function.update store sessionId
      (some { state.touched now with history := some (kept ++ [previous.toSessionStateSnapshot]) })

/-- `patch` -/
def patch (store : Store) (now : Time) (sessionId : Text) (partialState : SessionStatePatch) :
    Except JsError Unit × Store :=
  match store sessionId with
  | none =>
    (.error ⟨lit "Error", lit "Session " ++ sessionId ++ lit " not found for patching"⟩, store)
  | some current =>
    (.ok (), set store now sessionId
      { current.patched partialState with history := current.history })

/-- `rollback`: nothing happens without a history, or when it has fewer snapshots than `steps`. -/
def rollback (store : Store) (now : Time) (sessionId : Text) (steps : ℕ) : Store :=
  match store sessionId with
  | none => store
  | some current =>
    if (current.history.getD []).isEmpty then store
    else
      match popSteps steps none (current.history.getD []) with
      | (none, _) => store
      | (some snapshot, history) =>
        Function.update store sessionId (some { snapshot.touched now with history := some history })

/-- `delete` -/
def delete (store : Store) (sessionId : Text) : Store := Function.update store sessionId none

/-- The store after a call. -/
def perform (store : Store) (now : Time) : SessionOp → Store
  | .get _ => store
  | .set sessionId state => set store now sessionId state
  | .patch sessionId partialState => (patch store now sessionId partialState).2
  | .rollback sessionId steps => rollback store now sessionId steps
  | .delete sessionId => delete store sessionId

end InMemorySessionState

end DreamWeaver.Sessions
