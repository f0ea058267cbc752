import DreamWeaver.Conductor.InteractionCounters

/-! # What a call does with a suggested theme

A call that reads the session has read the theme that was suggested last. A turn with a verdict on it and a sleep
cue settle it: they credit it in the memory, once or twice, and then take it away. The others hold it in the state
that they have read, and write it back. Every operation of the agent goes through these stages, whatever the replies
to what it awaits. -/

namespace DreamWeaver.Conductor

open Proc

/-! ## Stages -/

/-- What a call has to do with the theme of its session: it has not read the session yet; or it has read a theme
that it settles, with the number of credits it has given; or the theme is in a state that it holds. -/
inductive CreditStage where
  | fresh
  | settling (theme : Text) (credits : ℕ)
  | holding (theme : Option Text)
  deriving DecidableEq

/-- `lastSuggestedTheme` of a session. -/
def themeOf (session : Option SessionState) : Option Text := session.bind fun state => state.lastSuggestedTheme

/-- The theme that an operation credits when it reads a session. -/
def ConductorOperation.toCredit (agent : BedtimeConductorAgent) (session : Option SessionState) :
    ConductorOperation → Option Text
  | .processTurn userMessage _ s u =>
    if (turnVerdict agent.hasMemory userMessage (startedFrom s u session)).isSome then session.bind suggestedTheme
    else none
  | .handleSleepCueDetected _ _ => if agent.hasMemory then session.bind suggestedTheme else none
  | _ => none

/-- The number of credits that an operation gives to a theme. -/
def ConductorOperation.weight : ConductorOperation → ℕ
  | .processTurn _ _ _ _ => 1
  | .handleSleepCueDetected _ _ => 2
  | _ => 0

/-- What an operation says about a theme that it credits. -/
def ConductorOperation.sign : ConductorOperation → Option Bool
  | .processTurn userMessage _ _ _ => themeVerdict userMessage
  | .handleSleepCueDetected _ _ => some true
  | _ => none

/-- The change takes the theme away. -/
def Change.clearsTheme : Change → Bool
  | .sleep => true
  | .turn verdict => verdict.isSome
  | _ => false

namespace CreditStage

/-- The theme that a call has read. -/
def theme : CreditStage → Option Text
  | .fresh => none
  | .settling theme _ => some theme
  | .holding theme => theme

/-- The call settles a theme. -/
def isSettling : CreditStage → Bool
  | .settling _ _ => true
  | _ => false

/-- The stage after the session was read. -/
def afterRead (agent : BedtimeConductorAgent) (op : ConductorOperation) (session : Option SessionState) :
    CreditStage → CreditStage
  | .fresh => match op.toCredit agent session with
    | some theme => .settling theme 0
    | none => .holding (themeOf session)
  | _ => .holding (themeOf session)

/-- The stage after a credit. -/
def credited : CreditStage → CreditStage
  | .settling theme credits => .settling theme (credits + 1)
  | stage => stage

/-- The stage after a credit or a write that has failed: the call gives up. -/
def failed : CreditStage → CreditStage
  | .settling theme _ => .holding (some theme)
  | stage => stage

/-- The stage after a change was written. -/
def afterChange (stage : CreditStage) : Change → CreditStage
  | .theme theme => .holding (some theme)
  | change => if change.clearsTheme then .holding none else stage

/-- The stage after a write. -/
def afterWrite (stage : CreditStage) : SessionWrite → CreditStage
  | .literal _ => .holding none
  | .changed _ change => stage.afterChange change

/-- The stage after an event of the call. -/
def next (agent : BedtimeConductorAgent) (op : ConductorOperation) (stage : CreditStage) : AgentEvent → CreditStage
  | ⟨.session (.getSession _), .ok session⟩ => stage.afterRead agent op session
  | ⟨.session (.setSession _ write), .ok _⟩ => stage.afterWrite write
  | ⟨.session (.setSession _ _), .error _⟩ => stage.failed
  | ⟨.session (.trackOutcome _ _ _), .ok _⟩ => stage.credited
  | ⟨.session (.trackOutcome _ _ _), .error _⟩ => stage.failed
  | _ => stage

end CreditStage

/-- **What a call awaits at a stage**: it writes its own session, a state with the theme that it has read; it
credits the theme that it settles, as often as it should, and then takes it away. -/
def AllowedAt (op : ConductorOperation) (stage : CreditStage) : AgentEffect → Prop
  | .session (.getSession s) => s = op.sessionId ∧ stage.isSettling = false
  | .session (.setSession s (.literal state)) =>
    s = op.sessionId ∧ state.lastSuggestedTheme = none ∧ stage = .holding none
  | .session (.setSession s (.changed held change)) =>
    s = op.sessionId ∧ held.lastSuggestedTheme = stage.theme ∧
      if change.clearsTheme then ∃ theme, stage = .settling theme op.weight
      else (∀ theme, change = .theme theme → stage.isSettling = false) ∧
        ∀ theme credits, stage = .settling theme credits → credits = 0
  | .startSession s held _ => s = op.sessionId ∧ stage = .holding held.lastSuggestedTheme
  | .session (.trackOutcome theme positive _) =>
    ∃ credits < op.weight, stage = .settling theme credits ∧ op.sign = some positive
  | .session (.patchContext _ _ _) => False
  | _ => True

/-! ## The texts of the operations -/

variable {agent : BedtimeConductorAgent} {op : ConductorOperation} {stage : CreditStage} {s u : Text}

/-- What is allowed of the effects on sessions. -/
def SessionAllowedAt (op : ConductorOperation) (stage : CreditStage) (effect : SessionEffect) : Prop :=
  AllowedAt op stage (.session effect)

/-- The stage after an event on sessions. -/
def CreditStage.nextOf (agent : BedtimeConductorAgent) (op : ConductorOperation) (stage : CreditStage)
    (event : SessionEvent) : CreditStage := stage.next agent op ⟨.session event.effect, event.reply⟩

/-- A procedure on sessions that awaits what is allowed, stage by stage. -/
abbrev KeepsStages {α : Type} (agent : BedtimeConductorAgent) (op : ConductorOperation) (p : SessionProc α)
    (Q : Except JsError α → CreditStage → Prop) (stage : CreditStage) : Prop :=
  p.Upholds (follows (CreditStage.nextOf agent op)) (SessionAllowedAt op) Q stage

/-- The theme that an operation credits is the one that it reads. -/
theorem themeOf_of_toCredit {session : Option SessionState} {theme : Text}
    (h : op.toCredit agent session = some theme) : themeOf session = some theme := by
  have hsuggested : session.bind suggestedTheme = some theme := by
    cases op with
    | processTurn userMessage context sessionId userId => exact (Option.ite_none_right_eq_some.mp h).2
    | handleSleepCueDetected sessionId userId => exact (Option.ite_none_right_eq_some.mp h).2
    | _ => cases h
  obtain ⟨state, rfl, htheme⟩ := Option.bind_eq_some_iff.mp hsuggested
  exact (Option.filter_eq_some_iff.mp htheme).1

/-- A session that is not there has no theme to credit. -/
theorem toCredit_none : op.toCredit agent none = none := by
  cases hcredit : op.toCredit agent none with
  | none => rfl
  | some theme => cases themeOf_of_toCredit hcredit

theorem afterRead_none : stage.afterRead agent op none = .holding none := by
  cases stage with
  | fresh => rw [CreditStage.afterRead, toCredit_none]; rfl
  | settling theme credits => rfl
  | holding theme => rfl

/-- After a reading, the theme is the one that was read. -/
theorem theme_afterRead (stage : CreditStage) (session : Option SessionState) :
    (stage.afterRead agent op session).theme = themeOf session := by
  cases stage with
  | fresh =>
    rw [CreditStage.afterRead]
    cases hcredit : op.toCredit agent session with
    | none => rfl
    | some theme => exact (themeOf_of_toCredit hcredit).symm
  | settling theme credits => rfl
  | holding theme => rfl

/-- Nothing has been credited yet when a session has been read. -/
theorem credits_afterRead {session : Option SessionState} {theme : Text} {credits : ℕ}
    (h : stage.afterRead agent op session = .settling theme credits) : credits = 0 := by
  cases stage with
  | fresh =>
    rw [CreditStage.afterRead] at h
    split at h
    · cases h
      rfl
    · cases h
  | settling theme' credits' => cases h
  | holding theme' => cases h

theorem lastSuggestedTheme_listGoal (state : SessionState) :
    (listGoal state).lastSuggestedTheme = state.lastSuggestedTheme := by
  unfold listGoal
  cases unlistedGoal state <;> rfl

theorem lastSuggestedTheme_startedFrom (s u : Text) (session : Option SessionState) :
    (startedFrom s u session).lastSuggestedTheme = themeOf session := by
  cases session with
  | none => rfl
  | some state => exact lastSuggestedTheme_listGoal state

theorem isSettling_failed (stage : CreditStage) : stage.failed.isSettling = false := by cases stage <;> rfl

/-- What a reading leaves: the state of the session, or a new one, and the stage after it; or an error. -/
def StateRead (agent : BedtimeConductorAgent) (op : ConductorOperation) (s u : Text) (stage : CreditStage) :
    Except JsError SessionState → CreditStage → Prop
  | .ok state, stage' => ∃ session, state = startedFrom s u session ∧ stage' = stage.afterRead agent op session
  | .error _, stage' => stage'.isSettling = false

/-- An operation begins with a reading. -/
theorem keepsStages_getOrInitState (hs : s = op.sessionId) (hstage : stage.isSettling = false) :
    KeepsStages agent op (getOrInitState s u) (StateRead agent op s u stage) stage := by
  refine Upholds.bind (upholds_perform ⟨hs, hstage⟩ fun reply stage₁ hnext => ?_)
  cases reply with
  | error e =>
    obtain rfl : stage₁ = stage := hnext
    exact hstage
  | ok session =>
    obtain rfl : stage₁ = stage.afterRead agent op session := hnext
    cases session with
    | none =>
      refine Upholds.bind (upholds_perform ⟨hs, rfl, afterRead_none⟩ fun reply stage₂ hnext => ?_)
      cases reply with
      | error e =>
        obtain rfl : stage₂ = (stage.afterRead agent op none).failed := hnext
        exact isSettling_failed _
      | ok _ =>
        obtain rfl : stage₂ = .holding none := hnext
        exact ⟨none, rfl, afterRead_none.symm⟩
    | some held =>
      dsimp only
      cases hgoal : unlistedGoal held with
      | none => exact ⟨some held, by rw [startedFrom, listGoal, hgoal], rfl⟩
      | some goal =>
        have hallowed : SessionAllowedAt op (stage.afterRead agent op (some held))
            (.setSession s (.changed held .listGoal)) :=
          ⟨hs, (theme_afterRead stage (some held)).symm, (fun _ h => by cases h), fun _ _ h => credits_afterRead h⟩
        refine Upholds.bind (upholds_perform hallowed fun reply stage₂ hnext => ?_)
        cases reply with
        | error e =>
          obtain rfl : stage₂ = (stage.afterRead agent op (some held)).failed := hnext
          exact isSettling_failed _
        | ok _ =>
          obtain rfl : stage₂ = stage.afterRead agent op (some held) := hnext
          exact ⟨some held, rfl, rfl⟩

/-- What leaves the stage of a call as it is. -/
def AgentEffect.isQuiet : AgentEffect → Bool
  | .session (.getSession _) => false
  | .session (.setSession _ _) => false
  | .session (.patchContext _ _ _) => false
  | .session (.trackOutcome _ _ _) => false
  | .startSession _ _ _ => false
  | _ => true

/-- At any stage a call may do what is quiet. -/
theorem quiet_allowed {event : AgentEvent} (h : event.effect.isQuiet = true) :
    AllowedAt op stage event.effect ∧ stage.next agent op event = stage := by
  obtain ⟨effect, reply⟩ := event
  cases effect with
  | session effect =>
    cases effect with
    | getSession s => cases h
    | setSession s write => cases h
    | patchContext s held toolCallId => cases h
    | trackOutcome theme positive userId => cases h
    | _ => exact ⟨trivial, rfl⟩
  | startSession s held now => cases h
  | _ => exact ⟨trivial, rfl⟩

theorem keepsStages_quiet {α : Type} {p : SessionProc α}
    (h : p.Only fun event => (AgentEffect.session event.effect).isQuiet = true) :
    KeepsStages agent op p (fun _ stage' => stage' = stage) stage := by
  refine Only.upholds_follows h fun event hquiet => ?_
  exact @quiet_allowed agent op stage ⟨.session event.effect, event.reply⟩ hquiet

/-- A write of the state that the call holds. -/
theorem keepsStages_changed {held : SessionState} {change : Change}
    (hallowed : SessionAllowedAt op stage (.setSession s (.changed held change))) :
    KeepsStages agent op (setSession s (.changed held change)) (fun r stage' => match r with
      | .ok _ => stage' = stage.afterChange change
      | .error _ => stage'.isSettling = false) stage := by
  refine upholds_perform hallowed fun reply stage' hnext => ?_
  cases reply with
  | error e =>
    obtain rfl : stage' = stage.failed := hnext
    exact isSettling_failed stage
  | ok _ => exact hnext

/-- A theme that is settled gets one credit more. -/
theorem keepsStages_trackOutcome {theme : Text} {credits : ℕ} {positive : Bool} (hcredits : credits < op.weight)
    (hsign : op.sign = some positive) :
    KeepsStages agent op (trackOutcome theme positive u) (fun r stage' => match r with
      | .ok _ => stage' = .settling theme (credits + 1)
      | .error _ => stage'.isSettling = false) (.settling theme credits) := by
  refine upholds_perform ⟨credits, hcredits, rfl, hsign⟩ fun reply stage' hnext => ?_
  cases reply with
  | error e =>
    obtain rfl : stage' = .holding (some theme) := hnext
    rfl
  | ok _ => exact hnext

/-! ## Turns -/

/-- The call settles nothing any more. -/
abbrev Settled {α : Type} (_ : Except JsError α) (stage : CreditStage) : Prop := stage.isSettling = false

/-- A theme is suggested by a call that settles none. -/
theorem keepsStages_suggest {rejected suggestion : Option Text} {theme₀ : Option Text} (hs : s = op.sessionId) :
    KeepsStages agent op (agent.suggest s u rejected suggestion) Settled (.holding theme₀) := by
  cases suggestion with
  | none => exact upholds_pure rfl
  | some theme =>
    refine Upholds.bind ((keepsStages_getOrInitState hs rfl).imp fun r stage₁ hread => ?_)
    cases r with
    | error e => exact hread
    | ok state =>
      obtain ⟨session, rfl, rfl⟩ := hread
      have hallowed : SessionAllowedAt op (.holding (themeOf session))
          (.setSession s (.changed (startedFrom s u session) (.theme theme))) :=
        ⟨hs, lastSuggestedTheme_startedFrom s u session, fun _ _ => rfl, fun _ _ h => (nomatch h)⟩
      refine Upholds.bind ((keepsStages_changed hallowed).imp fun r stage₂ hwritten => ?_)
      cases r with
      | error e => exact hwritten
      | ok _ =>
        obtain rfl : stage₂ = .holding (some theme) := hwritten
        refine (keepsStages_quiet ?_).imp fun r stage₃ hsame => hsame ▸ rfl
        cases rejected with
        | none => exact only_pure
        | some rejectedTheme =>
          rw [BedtimeConductorAgent.trackPreference]
          split
          · exact only_perform fun _ => rfl
          · exact only_pure

/-- After its first write a turn settles nothing any more. -/
theorem keepsStages_think {traceId : Option Text} {observation : Observation} {breach : Option JsError}
    {rejected theme₀ : Option Text} (hs : s = op.sessionId) :
    KeepsStages agent op (agent.think s u traceId observation breach rejected) Settled (.holding theme₀) := by
  cases breach with
  | some error => exact upholds_done rfl
  | none =>
    have hthought : KeepsStages agent op (perform (SessionEffect.generateAgentThought observation traceId))
        (fun _ stage' => stage' = .holding theme₀) (.holding theme₀) := keepsStages_quiet (only_perform fun _ => rfl)
    refine Upholds.bind (hthought.imp fun r stage₁ hsame => ?_)
    subst hsame
    cases r with
    | error e => rfl
    | ok thought =>
      have hsave : KeepsStages agent op (agent.saveTrace thought) (fun _ stage' => stage' = .holding theme₀)
          (.holding theme₀) := by
        refine keepsStages_quiet ?_
        rw [BedtimeConductorAgent.saveTrace]
        split
        · exact Only.catchWith (only_perform fun _ => rfl) fun _ => only_pure
        · exact only_pure
      refine Upholds.bind (hsave.imp fun r stage₂ hsame => ?_)
      subst hsame
      cases r with
      | error e => rfl
      | ok _ =>
        refine Upholds.bind ((keepsStages_suggest hs).imp fun r stage₃ hsettled => ?_)
        cases r with
        | error e => exact hsettled
        | ok _ => exact upholds_pure hsettled

/-- A turn with a verdict has read a theme. -/
theorem exists_theme_of_turnVerdict {hasMemory positive : Bool} {message : Text} {session : Option SessionState}
    (h : turnVerdict hasMemory message (startedFrom s u session) = some positive) :
    ∃ theme, session.bind suggestedTheme = some theme ∧ themeOf session = some theme ∧
      themeVerdict message = some positive := by
  obtain ⟨hpending, hverdict⟩ := Option.ite_none_right_eq_some.mp h
  obtain ⟨theme, htheme⟩ := Option.isSome_iff_exists.mp (Bool.and_eq_true_iff.mp hpending).2
  cases session with
  | none => cases htheme
  | some state =>
    rw [startedFrom, suggestedTheme_listGoal] at htheme
    exact ⟨theme, htheme, (Option.filter_eq_some_iff.mp htheme).1, hverdict⟩

/-- What a turn does after its first write. -/
theorem keepsStages_afterTurn {message : Text} {traceId : Option Text} {state : SessionState}
    {breach : Option JsError} {rejected theme₀ : Option Text} (hs : s = op.sessionId) :
    KeepsStages agent op (agent.recallMemories u s message >>= fun memoryContext => catchWith
      (agent.think s u traceId (BedtimeConductorAgent.observe state message memoryContext) breach rejected)
        fun error => pure (safeResult error)) Settled (.holding theme₀) := by
  have hrecall : KeepsStages agent op (agent.recallMemories u s message)
      (fun _ stage' => stage' = .holding theme₀) (.holding theme₀) := by
    refine keepsStages_quiet ?_
    rw [BedtimeConductorAgent.recallMemories]
    split
    · exact only_perform fun _ => rfl
    · exact only_pure
  refine Upholds.bind (hrecall.imp fun r stage₁ hsame => ?_)
  subst hsame
  cases r with
  | error e => rfl
  | ok memoryContext =>
    refine Upholds.catchWith ((keepsStages_think hs).imp fun r stage₂ hsettled => ?_)
    cases r with
    | error e => exact upholds_pure hsettled
    | ok result => exact hsettled

/-- **A turn** credits the theme that it has read, if it has a verdict on it, and takes it away. -/
theorem keepsStages_processTurn {message : Text} {traceId : Option Text} {context : AgentContext} :
    KeepsStages agent (.processTurn message context s u) (agent.processTurn u s message traceId) Settled
      .fresh := by
  refine Upholds.bind ((keepsStages_getOrInitState (s := s) rfl rfl).imp fun r stage₁ hread => ?_)
  cases r with
  | error e => exact hread
  | ok state =>
    obtain ⟨session, rfl, rfl⟩ := hread
    have hheld := lastSuggestedTheme_startedFrom s u session
    dsimp only [BedtimeConductorAgent.turn]
    cases hverdict : turnVerdict agent.hasMemory message (startedFrom s u session) with
    | none =>
      have hstage : CreditStage.fresh.afterRead agent (.processTurn message context s u) session =
          .holding (themeOf session) := by
        rw [CreditStage.afterRead, ConductorOperation.toCredit, hverdict, Option.isSome_none,
          if_neg Bool.false_ne_true]
      rw [hstage]
      have hallowed : SessionAllowedAt (.processTurn message context s u) (.holding (themeOf session))
          (.setSession s (.changed (startedFrom s u session) (.turn none))) :=
        ⟨rfl, hheld, fun _ h => (nomatch h), fun _ _ h => (nomatch h)⟩
      refine Upholds.bind (upholds_pure ?_)
      refine Upholds.bind ((keepsStages_changed hallowed).imp fun r stage₂ hwritten => ?_)
      cases r with
      | error e => exact hwritten
      | ok _ =>
        obtain rfl : stage₂ = .holding (themeOf session) := hwritten
        exact keepsStages_afterTurn rfl
    | some positive =>
      obtain ⟨theme, hsuggested, htheme, hsign⟩ := exists_theme_of_turnVerdict hverdict
      have hstage : CreditStage.fresh.afterRead agent (.processTurn message context s u) session =
          .settling theme 0 := by
        rw [CreditStage.afterRead, ConductorOperation.toCredit, hverdict, Option.isSome_some, if_pos rfl,
          hsuggested]
      rw [hstage, hheld, htheme, Option.getD_some]
      have hallowed : SessionAllowedAt (.processTurn message context s u) (.settling theme 1)
          (.setSession s (.changed (startedFrom s u session) (.turn (some positive)))) :=
        ⟨rfl, hheld.trans htheme, theme, rfl⟩
      have hcredit : KeepsStages agent (.processTurn message context s u) (trackOutcome theme positive u) _
          (.settling theme 0) := keepsStages_trackOutcome Nat.one_pos hsign
      refine Upholds.bind (hcredit.imp fun r stage₂ hcredited => ?_)
      cases r with
      | error e => exact hcredited
      | ok _ =>
        obtain rfl : stage₂ = .settling theme 1 := hcredited
        refine Upholds.bind ((keepsStages_changed hallowed).imp fun r stage₃ hwritten => ?_)
        cases r with
        | error e => exact hwritten
        | ok _ =>
          obtain rfl : stage₃ = .holding none := hwritten
          exact keepsStages_afterTurn rfl

/-- **A sleep cue** credits the theme that it has read twice, and takes it away. -/
theorem keepsStages_handleSleepCueDetected :
    KeepsStages agent (.handleSleepCueDetected s u) (handleSleepCueDetected agent.hasMemory s u) Settled .fresh := by
  unfold handleSleepCueDetected
  split
  · exact upholds_pure rfl
  · refine Upholds.bind ((keepsStages_getOrInitState (s := s) rfl rfl).imp fun r stage₁ hread => ?_)
    cases r with
    | error e => exact hread
    | ok state =>
      obtain ⟨session, rfl, rfl⟩ := hread
      have hpending : suggestedTheme (startedFrom s u session) = session.bind suggestedTheme := by
        cases session with
        | none => rfl
        | some state => exact suggestedTheme_listGoal state
      have hstage : CreditStage.fresh.afterRead agent (.handleSleepCueDetected s u) session =
          match if agent.hasMemory then session.bind suggestedTheme else none with
          | some theme => .settling theme 0
          | none => .holding (themeOf session) := rfl
      dsimp only
      rw [hpending]
      cases hsuggested : session.bind suggestedTheme with
      | none =>
        rw [hsuggested, ite_self] at hstage
        exact upholds_pure (hstage ▸ rfl)
      | some theme =>
        rw [hsuggested] at hstage
        dsimp only
        split
        · rename_i hmemory
          rw [if_pos hmemory] at hstage
          have hcredit : (ConductorOperation.handleSleepCueDetected s u).toCredit agent session = some theme := by
            rw [ConductorOperation.toCredit, if_pos hmemory, hsuggested]
          have hallowed : SessionAllowedAt (.handleSleepCueDetected s u) (.settling theme 2)
              (.setSession s (.changed (startedFrom s u session) .sleep)) :=
            ⟨rfl, (lastSuggestedTheme_startedFrom s u session).trans (themeOf_of_toCredit hcredit), theme, rfl⟩
          rw [hstage]
          refine Upholds.bind ((keepsStages_trackOutcome Nat.two_pos rfl).imp fun r stage₂ hcredited => ?_)
          cases r with
          | error e => exact hcredited
          | ok _ =>
            obtain rfl : stage₂ = .settling theme 1 := hcredited
            refine Upholds.bind ((keepsStages_trackOutcome Nat.one_lt_two rfl).imp fun r stage₃ hcredited => ?_)
            cases r with
            | error e => exact hcredited
            | ok _ =>
              obtain rfl : stage₃ = .settling theme 2 := hcredited
              refine (keepsStages_changed hallowed).imp fun r stage₄ hwritten => ?_
              cases r with
              | error e => exact hwritten
              | ok _ =>
                obtain rfl : stage₄ = .holding none := hwritten
                rfl
        · rename_i hmemory
          rw [if_neg hmemory] at hstage
          exact upholds_pure (hstage ▸ rfl)

/-! ## The other operations -/

/-- An operation that credits nothing holds what it has read. -/
theorem afterRead_of_weight (h : op.weight = 0) (hstage : stage.isSettling = false)
    (session : Option SessionState) : stage.afterRead agent op session = .holding (themeOf session) := by
  cases stage with
  | settling theme credits => rfl
  | holding theme => rfl
  | fresh =>
    cases op with
    | processTurn userMessage context sessionId userId => cases h
    | handleSleepCueDetected sessionId userId => cases h
    | _ => rfl

theorem keepsStages_setGoal {goal : ActiveGoalProps} (hs : s = op.sessionId) (hweight : op.weight = 0) :
    KeepsStages agent op (setGoal s u goal) Settled .fresh := by
  refine Upholds.bind ((keepsStages_getOrInitState hs rfl).imp fun r stage₁ hread => ?_)
  cases r with
  | error e => exact hread
  | ok state =>
    obtain ⟨session, rfl, rfl⟩ := hread
    rw [afterRead_of_weight hweight rfl]
    have hallowed : SessionAllowedAt op (.holding (themeOf session))
        (.setSession s (.changed (startedFrom s u session) (.goal goal))) :=
      ⟨hs, lastSuggestedTheme_startedFrom s u session, fun _ h => (nomatch h), fun _ _ h => (nomatch h)⟩
    refine (keepsStages_changed hallowed).imp fun r stage₂ hwritten => ?_
    cases r with
    | error e => exact hwritten
    | ok _ =>
      obtain rfl : stage₂ = .holding (themeOf session) := hwritten
      rfl

theorem keepsStages_handleStoryBeat {beatIndex totalBeats : JsNumber} {now : Time} (hs : s = op.sessionId)
    (hweight : op.weight = 0) :
    KeepsStages agent op (handleStoryBeat s u beatIndex totalBeats now) Settled .fresh := by
  refine Upholds.bind ((keepsStages_getOrInitState hs rfl).imp fun r stage₁ hread => ?_)
  cases r with
  | error e => exact hread
  | ok state =>
    obtain ⟨session, rfl, rfl⟩ := hread
    rw [afterRead_of_weight hweight rfl]
    dsimp only
    cases beatGoal (startedFrom s u session) with
    | none => exact upholds_pure rfl
    | some goal =>
      have hallowed : SessionAllowedAt op (.holding (themeOf session)) (.setSession s
          (.changed (startedFrom s u session) (.beat (beatProgress beatIndex totalBeats) now))) :=
        ⟨hs, lastSuggestedTheme_startedFrom s u session, fun _ h => (nomatch h), fun _ _ h => (nomatch h)⟩
      refine (keepsStages_changed hallowed).imp fun r stage₂ hwritten => ?_
      cases r with
      | error e => exact hwritten
      | ok _ =>
        obtain rfl : stage₂ = .holding (themeOf session) := hwritten
        rfl

/-! ## Conducting a session -/

variable {coerced : Json → Except JsError Bool}

/-- A procedure of the agent that awaits what is allowed, stage by stage. -/
abbrev AgentKeepsStages {α : Type} (agent : BedtimeConductorAgent) (op : ConductorOperation) (p : AgentProc α)
    (Q : Except JsError α → CreditStage → Prop) (stage : CreditStage) : Prop :=
  p.Upholds (follows (CreditStage.next agent op)) (AllowedAt op) Q stage

theorem agentKeepsStages_onSessions {α : Type} {p : SessionProc α} {Q : Except JsError α → CreditStage → Prop}
    (h : KeepsStages agent op p Q stage) : AgentKeepsStages agent op (onSessions p) Q stage := Upholds.embed h

theorem agentKeepsStages_quiet {α : Type} {p : AgentProc α} (h : p.Only fun event => event.effect.isQuiet = true) :
    AgentKeepsStages agent op p (fun _ stage' => stage' = stage) stage :=
  Only.upholds_follows h fun _ hquiet => quiet_allowed hquiet

/-- An attempt stores the theme in the state that it reads just before. -/
theorem agentKeepsStages_attempt {session : StorySession} {vars : LoopState} (hs : session.sessionId = op.sessionId)
    (hweight : op.weight = 0) (hstage : stage.isSettling = false) :
    AgentKeepsStages agent op (session.attempt vars) Settled stage := by
  have hreason : AgentKeepsStages agent op (session.reason vars.state) (fun _ stage' => stage' = stage) stage := by
    refine agentKeepsStages_quiet ?_
    refine Only.bind (only_perform fun _ => rfl) fun raw => ?_
    refine Only.bind only_done fun proposed => Only.bind only_done fun step => ?_
    refine Only.bind ?_ fun _ => only_pure
    unfold StorySession.saveTrace
    split
    · exact Only.catchWith (only_perform fun _ => rfl) fun _ => only_pure
    · exact only_pure
  refine Upholds.settle (hreason.imp fun r stage₁ hsame => ?_)
  subst hsame
  cases r with
  | error e => exact upholds_pure hstage
  | ok step =>
    refine Upholds.settle ((agentKeepsStages_onSessions (keepsStages_getOrInitState hs hstage)).imp
      fun r stage₂ hread => ?_)
    cases r with
    | error e => exact upholds_pure hread
    | ok state =>
      obtain ⟨found, rfl, rfl⟩ := hread
      rw [afterRead_of_weight hweight hstage]
      have hallowed : SessionAllowedAt op (.holding (themeOf found)) (.setSession session.sessionId
          (.changed (startedFrom session.sessionId session.userId found) (.theme session.config.theme))) :=
        ⟨hs, lastSuggestedTheme_startedFrom _ _ found, fun _ _ => rfl, fun _ _ h => (nomatch h)⟩
      refine Upholds.settle ((agentKeepsStages_onSessions (keepsStages_changed hallowed)).imp
        fun r stage₃ hwritten => ?_)
      cases r with
      | error e => exact upholds_pure hwritten
      | ok _ =>
        obtain rfl : stage₃ = .holding (some session.config.theme) := hwritten
        exact upholds_pure rfl

theorem agentKeepsStages_recover {error : JsError} {vars : LoopState} :
    AgentKeepsStages agent op (StorySession.recover error vars) (fun _ stage' => stage' = stage) stage := by
  unfold StorySession.recover
  refine Upholds.settle ((agentKeepsStages_quiet (only_perform fun _ => rfl)).imp fun r stage₁ hsame => ?_)
  cases r with
  | error e => exact upholds_pure hsame
  | ok plan =>
    dsimp only
    split
    · exact upholds_pure hsame
    · exact upholds_pure hsame
    · exact upholds_pure hsame
    all_goals
      split
      · exact upholds_pure hsame
      · refine Upholds.settle ((agentKeepsStages_quiet (only_perform fun _ => rfl)).imp
          fun r stage₂ hsame' => ?_)
        cases r with
        | error e => exact upholds_pure (hsame'.trans hsame)
        | ok _ => exact upholds_pure (hsame'.trans hsame)

/-- The loop settles nothing. -/
theorem agentKeepsStages_loop {session : StorySession} (hs : session.sessionId = op.sessionId)
    (hweight : op.weight = 0) (left : ℕ) (vars : LoopState) (hstage : stage.isSettling = false) :
    AgentKeepsStages agent op (session.loop left vars) Settled stage := by
  induction left generalizing vars stage with
  | zero => exact upholds_pure hstage
  | succ left ih =>
    unfold StorySession.loop
    refine Upholds.bind ((agentKeepsStages_attempt hs hweight hstage).imp fun r stage₁ hsettled => ?_)
    rcases r with e | result | ⟨error, state⟩
    · exact hsettled
    · exact upholds_pure hsettled
    · refine Upholds.bind (agentKeepsStages_recover.imp fun r stage₂ hsame => ?_)
      subst hsame
      rcases r with e | ⟨_ | _ | _, cost⟩
      · exact hsettled
      · exact ih _ hsettled
      · exact upholds_pure hsettled
      · exact upholds_pure hsettled

theorem agentKeepsStages_conductStorySession {now startTime : Time} {config : SessionConfig}
    {context : AgentContext} (hs : context.sessionFor now = op.sessionId) (hweight : op.weight = 0) :
    AgentKeepsStages agent op (conductStorySession agent coerced now startTime config context) Settled .fresh := by
  unfold conductStorySession
  split
  · refine Upholds.bind ((agentKeepsStages_onSessions (keepsStages_getOrInitState hs rfl)).imp
      fun r stage₁ hread => ?_)
    cases r with
    | error e => exact hread
    | ok held =>
      obtain ⟨found, rfl, rfl⟩ := hread
      rw [afterRead_of_weight hweight rfl]
      have hstart : AgentKeepsStages agent op (startSession (context.sessionFor now) startTime
          (startedFrom (context.sessionFor now) context.userFor found))
          (fun _ stage' => stage' = .holding (themeOf found)) (.holding (themeOf found)) := by
        unfold startSession
        split
        · exact upholds_pure rfl
        · have hallowed : AllowedAt op (.holding (themeOf found)) (.startSession (context.sessionFor now)
              (startedFrom (context.sessionFor now) context.userFor found) startTime) :=
            ⟨hs, by rw [lastSuggestedTheme_startedFrom]⟩
          refine Upholds.bind (upholds_perform hallowed fun reply stage₂ hnext => ?_)
          cases reply with
          | error e => exact hnext
          | ok _ => exact upholds_pure hnext
      refine Upholds.bind (hstart.imp fun r stage₂ hsame => ?_)
      subst hsame
      cases r with
      | error e => rfl
      | ok state =>
        have hgather : AgentKeepsStages agent op (gatherMemories agent config.theme context.userFor
            (context.sessionFor now)) (fun _ stage' => stage' = .holding (themeOf found))
            (.holding (themeOf found)) := by
          refine agentKeepsStages_quiet ?_
          unfold gatherMemories
          split
          · refine Only.bind (Only.catchWith ?_ fun _ => only_pure) fun preferences => ?_
            · exact Only.bind (only_perform fun _ => rfl) fun _ => only_pure
            · exact Only.bind (only_perform fun _ => rfl) fun _ => only_pure
          · exact only_pure
        refine Upholds.bind (hgather.imp fun r stage₃ hsame => ?_)
        subst hsame
        cases r with
        | error e => rfl
        | ok memoryContext => exact agentKeepsStages_loop hs hweight _ _ rfl
  · exact upholds_done rfl

/-- A result that nobody waits for. -/
theorem agentKeepsStages_discard {α : Type} {p : AgentProc α} (h : AgentKeepsStages agent op p Settled stage) :
    AgentKeepsStages agent op (p >>= fun _ => pure ()) Settled stage := by
  refine Upholds.bind (h.imp fun r stage' hsettled => ?_)
  cases r with
  | error e => exact hsettled
  | ok a => exact upholds_pure hsettled

/-- **What every operation does with the theme of its session**, stage by stage. -/
theorem task_keepsStages (agent : BedtimeConductorAgent) (coerced : Json → Except JsError Bool)
    (op : ConductorOperation) : AgentKeepsStages agent op (op.task agent coerced) Settled .fresh := by
  cases op with
  | conductStorySession now startTime config context =>
    exact agentKeepsStages_discard (agentKeepsStages_conductStorySession rfl rfl)
  | processTurn userMessage context s u =>
    unfold ConductorOperation.task
    dsimp only
    split
    · exact agentKeepsStages_discard (agentKeepsStages_onSessions keepsStages_processTurn)
    · exact upholds_done rfl
  | setGoal s u type minutes now suffix => exact agentKeepsStages_onSessions (keepsStages_setGoal rfl rfl)
  | handleStoryBeat s u beatIndex totalBeats now =>
    exact agentKeepsStages_onSessions (keepsStages_handleStoryBeat rfl rfl)
  | handleSleepCueDetected s u => exact agentKeepsStages_onSessions keepsStages_handleSleepCueDetected

end DreamWeaver.Conductor
