import DreamWeaver.Conductor.SessionRoutes
import DreamWeaver.Foundations.Interleaving

/-! # Lost updates

Operations on sessions interleave at their awaits: each reads a state, awaits other things, and stores
what it holds with its assignments. As long as the session is still what the operation holds when it
stores it, the sessions are what the updates make of them one after the other; an operation that stores
a state that is no longer there takes the updates in between back. -/

namespace DreamWeaver.Conductor

open Proc

/-! ## Updates -/

/-- What a call of the port means for a session. -/
inductive Update where
  | start (state : SessionState)
  | change (change : Change)
  | toolCall (toolCallId : Text)
  deriving DecidableEq

/-- The session after an update of the session before it. -/
def Update.apply : Update → Option SessionState → Option SessionState
  | .start state, session => session.or (some state)
  | .change c, session => session.map c.apply
  | .toolCall toolCallId, session => session.map fun state =>
      { state with context := recordToolCall toolCallId state.context }

/-- The session after updates, one after the other. -/
def replay (session : Option SessionState) (updates : List Update) : Option SessionState :=
  updates.foldl (fun session update => update.apply session) session

/-- An effect with its reply. -/
abbrev SessionEvent := Event SessionEffect SessionEffect.Reply

/-- The update that an event makes, and its session. -/
def updateOf : SessionEvent → Option (Text × Update)
  | ⟨.setSession sessionId (.literal state), .ok _⟩ => some (sessionId, .start state)
  | ⟨.setSession sessionId (.changed _ change), .ok _⟩ => some (sessionId, .change change)
  | ⟨.patchContext sessionId _ toolCallId, .ok _⟩ => some (sessionId, .toolCall toolCallId)
  | _ => none

/-- The update that an event makes to a session. -/
def updateTo (sessionId : Text) (event : SessionEvent) : Option Update :=
  (updateOf event).bind fun update => if update.1 = sessionId then some update.2 else none

theorem updateTo_eq_some_iff {sessionId : Text} {event : SessionEvent} {update : Update} :
    updateTo sessionId event = some update ↔ updateOf event = some (sessionId, update) := by
  rw [updateTo, Option.bind_eq_some_iff]
  constructor
  · rintro ⟨⟨s, u⟩, hupdate, hif⟩
    by_cases hs : s = sessionId
    · rw [if_pos hs, Option.some_inj] at hif
      rw [hupdate, ← hs, ← hif]
    · rw [if_neg hs] at hif
      cases hif
  · intro h
    exact ⟨(sessionId, update), h, if_pos rfl⟩

variable {ι : Type}

/-- The updates of a session, in the order of a log. -/
def updatesOf (sessionId : Text) (log : List (ι × SessionEvent)) : List Update :=
  log.filterMap fun entry => updateTo sessionId entry.2

theorem replay_append (session : Option SessionState) (before after : List Update) :
    replay session (before ++ after) = replay (replay session before) after :=
  List.foldl_append

theorem updatesOf_concat (sessionId : Text) (log : List (ι × SessionEvent)) (i : ι)
    (event : SessionEvent) : updatesOf sessionId (log ++ [(i, event)]) =
      updatesOf sessionId log ++ (updateTo sessionId event).toList := by
  rw [updatesOf, List.filterMap_append, ← updatesOf]
  dsimp only [List.filterMap]
  cases updateTo sessionId event <;> rfl

/-- **The condition of a step**: what is stored was made from the state that is there. -/
def Fresh (sessions : SessionMap) : SessionEffect → Prop
  | .setSession sessionId (.literal _) => sessions sessionId = none
  | .setSession sessionId (.changed held _) => sessions sessionId = some held
  | .patchContext sessionId held _ => sessions sessionId = some held
  | _ => True

instance (sessions : SessionMap) (effect : SessionEffect) : Decidable (Fresh sessions effect) :=
  match effect with
  | .setSession sessionId (.literal _) => inferInstanceAs (Decidable (sessions sessionId = none))
  | .setSession sessionId (.changed held _) =>
    inferInstanceAs (Decidable (sessions sessionId = some held))
  | .patchContext sessionId held _ => inferInstanceAs (Decidable (sessions sessionId = some held))
  | .getSession _ | .trackOutcome _ _ _ | .trackPreferencePair _ _ _ | .retrieve _ _ _
  | .storeMemory _ _ _ | .generateAgentThought _ _ | .saveTrace _ | .createSessionConfig _ _ _
  | .issueTicket _ | .executeTool _ => inferInstanceAs (Decidable True)

variable {sessions sessions' : SessionMap} {sessionId : Text}

/-- A step that meets the condition makes its update, and changes no other session. -/
theorem apply_of_fresh {effect : SessionEffect} {reply : Except JsError effect.Reply}
    (h : sessionEnv sessions effect reply sessions') (hfresh : Fresh sessions effect) :
    sessions' sessionId = match updateTo sessionId ⟨effect, reply⟩ with
      | none => sessions sessionId
      | some update => update.apply (sessions sessionId) := by
  cases effect with
  | getSession s =>
    rw [h.1]
    rfl
  | setSession s write =>
    cases reply with
    | error e =>
      rw [show sessions' = sessions from h]
      cases write <;> rfl
    | ok _ =>
      rw [show sessions' = Function.update sessions s (some write.state) from h]
      by_cases hs : s = sessionId
      · subst hs
        rw [Function.update_self]
        cases write with
        | literal state =>
          rw [updateTo, updateOf, Option.bind_some, if_pos rfl]
          rw [show sessions s = none from hfresh]
          rfl
        | changed held c =>
          rw [updateTo, updateOf, Option.bind_some, if_pos rfl]
          rw [show sessions s = some held from hfresh]
          rfl
      · rw [Function.update_of_ne (Ne.symm hs)]
        cases write with
        | literal state => rw [updateTo, updateOf, Option.bind_some, if_neg hs]
        | changed held c => rw [updateTo, updateOf, Option.bind_some, if_neg hs]
  | patchContext s held toolCallId =>
    cases reply with
    | error e =>
      rw [show sessions' = sessions from h]
      rfl
    | ok _ =>
      obtain ⟨current, hcurrent, hsessions'⟩ := h
      have hheld : current = held :=
        Option.some.inj (hcurrent.symm.trans (show sessions s = some held from hfresh))
      rw [hsessions', updateTo, updateOf, Option.bind_some]
      by_cases hs : s = sessionId
      · subst hs
        rw [Function.update_self, if_pos rfl]
        dsimp only
        rw [hcurrent, hheld]
        rfl
      · rw [Function.update_of_ne (Ne.symm hs), if_neg hs]
  | _ =>
    rw [show sessions' = sessions from h]
    rfl

variable [DecidableEq ι] {α : Type} {c c' : Pool ι SessionMap SessionEffect SessionEffect.Reply α}
  {log : List (ι × SessionEvent)}

/-- **Nothing is lost**: after a run whose steps meet the condition, every session is what its updates
make of it, one after the other. -/
theorem replay_of_runs (h : Runs sessionEnv Fresh c log c') (sessionId : Text) :
    c'.state sessionId = replay (c.state sessionId) (updatesOf sessionId log) := by
  induction h with
  | start => rfl
  | @step log c₁ i effect next reply s' _ _ hreply hfresh ih =>
    dsimp only
    rw [apply_of_fresh hreply hfresh, updatesOf_concat, replay_append, ← ih]
    cases updateTo sessionId ⟨effect, reply⟩ <;> rfl

end DreamWeaver.Conductor
