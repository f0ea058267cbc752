import DreamWeaver.Conductor.ConductStorySession
import DreamWeaver.Conductor.NoLostUpdate
import DreamWeaver.Foundations.Sequence

/-! # The operations of the agent, one after the other

All operations of `BedtimeConductorAgent`, with the sessions they change. What a step of an operation can
be is said once (`Admits`), and every operation keeps to it when no other runs in between
(`task_upholds`): it writes no session but its own, what it writes is made from the state that is stored,
and the change is the one that its arguments and that state give. -/

namespace DreamWeaver.Conductor

open Proc

/-! ## Operations -/

/-- A call of the agent. `now` and `startTime` are what the clock says, and `suffix` is what the random
characters of a goal are. -/
inductive ConductorOperation where
  | conductStorySession (now startTime : Time) (config : SessionConfig) (context : AgentContext)
  | processTurn (userMessage : Text) (context : AgentContext) (sessionId userId : Text)
  | setGoal (sessionId userId : Text) (type : GoalType) (minutes : JsNumber) (now : Time) (suffix : Text)
  | handleStoryBeat (sessionId userId : Text) (beatIndex totalBeats : JsNumber) (now : Time)
  | handleSleepCueDetected (sessionId userId : Text)

/-- The context of a turn: `AgentContext & { sessionId: string, userId: string }`. -/
def turnContext (context : AgentContext) (sessionId userId : Text) : AgentContext :=
  { context with sessionId := some sessionId, userId := some userId }

namespace ConductorOperation

/-- The session that an operation works on. -/
def sessionId : ConductorOperation → Text
  | .conductStorySession now _ _ context => context.sessionFor now
  | .processTurn _ _ sessionId _ => sessionId
  | .setGoal sessionId _ _ _ _ _ => sessionId
  | .handleStoryBeat sessionId _ _ _ _ => sessionId
  | .handleSleepCueDetected sessionId _ => sessionId

/-- The procedure of an operation, without its result. -/
def task (agent : BedtimeConductorAgent) (coerced : Json → Except JsError Bool) :
    ConductorOperation → AgentProc Unit
  | .conductStorySession now startTime config context => do
    let _ ← Conductor.conductStorySession agent coerced now startTime config context
    pure ()
  | .processTurn userMessage context sessionId userId =>
    if (turnContext context sessionId userId).isValid then do
      let _ ← onSessions (agent.processTurn userId sessionId userMessage context.traceId)
      pure ()
    else throw schemaError
  | .setGoal sessionId userId type minutes now suffix =>
    onSessions (Conductor.setGoal sessionId userId
      (ActiveGoal.createNew agent.showOther now suffix { type := type, targetMinutes := minutes }))
  | .handleStoryBeat sessionId userId beatIndex totalBeats now =>
    onSessions (Conductor.handleStoryBeat sessionId userId beatIndex totalBeats now)
  | .handleSleepCueDetected sessionId userId =>
    onSessions (Conductor.handleSleepCueDetected agent.hasMemory sessionId userId)

end ConductorOperation

/-! ## The sessions -/

/-- The replies to the effects of the agent, and what the port holds afterwards. The model, the memory,
the traces and the resilience engine may reply anything. -/
def agentEnv : Env SessionMap AgentEffect AgentEffect.Reply := fun sessions effect =>
  match effect with
  | .session e => fun reply sessions' => sessionEnv sessions e reply sessions'
  | .startSession sessionId held now => fun reply sessions' =>
    match reply with
    | .ok _ => sessions' = Function.update sessions sessionId (some (withStart now held))
    | .error _ => sessions' = sessions
  | _ => fun _ sessions' => sessions' = sessions

/-- The replies where every call succeeds: with one thought about a turn, one about a story, and one plan
of the resilience engine. -/
def agentSucceeding (thought : Thought) (raw : Option Json) (plan : CorrectionPlan) :
    (effect : AgentEffect) → SessionMap → Except JsError effect.Reply × SessionMap
  | .session effect, sessions => succeeding thought .null effect sessions
  | .startSession sessionId held now, sessions =>
    (.ok (), Function.update sessions sessionId (some (withStart now held)))
  | .getThemeStats _, sessions => (.ok [], sessions)
  | .retrievePreferences _ _ _, sessions => (.ok [], sessions)
  | .think _ _, sessions => (.ok raw, sessions)
  | .saveStoryTrace _, sessions => (.ok (), sessions)
  | .assessFailure _, sessions => (.ok plan, sessions)
  | .pause _, sessions => (.ok (), sessions)

theorem agentEnv_succeeding (thought : Thought) (raw : Option Json) (plan : CorrectionPlan)
    (effect : AgentEffect) (sessions : SessionMap) : agentEnv sessions effect
      (agentSucceeding thought raw plan effect sessions).1
      (agentSucceeding thought raw plan effect sessions).2 := by
  cases effect with
  | session effect => exact sessionEnv_succeeding thought .null effect sessions
  | _ => rfl

/-- A call of the agent. -/
abbrev AgentCall := Call ConductorOperation SessionMap AgentEffect AgentEffect.Reply Unit

/-- The plan to give up. -/
def givingUp : CorrectionPlan := ⟨.abort, none, .finite 0⟩

/-- The calls of operations on an empty store, where every effect succeeds, with one thought about the
turns and none about the stories. -/
def callsOf (agent : BedtimeConductorAgent) (thought : Thought) (ops : List ConductorOperation) :
    List AgentCall × SessionMap :=
  recordCalls (ConductorOperation.task agent fun _ => .ok false) (agentSucceeding thought none givingUp) ops []
    fun _ => none

theorem sequence_callsOf (agent : BedtimeConductorAgent) (thought : Thought) (ops : List ConductorOperation) :
    Sequence agentEnv (ConductorOperation.task agent fun _ => .ok false) (fun _ => none)
      (callsOf agent thought ops).1 (callsOf agent thought ops).2 :=
  sequence_recordCalls (agentEnv_succeeding thought none givingUp) ops .start

/-- A user. -/
def ana : Text := lit "0e8c5a4e-7b1d-4c3a-9f2e-1a2b3c4d5e6f"

/-- A turn of that user. -/
def turnOf (userMessage : String) : ConductorOperation := .processTurn (lit userMessage) {} (lit "evening") ana

/-- A conductor with a memory. -/
def rememberingConductor : BedtimeConductorAgent := { plainConductor with hasMemory := true }

/-- A thought that suggests a theme. -/
def suggesting : Thought := { restful with action := lit "SUGGEST", theme := some (lit "ocean") }

/-! ## What a step can be -/

/-- The change of an operation, made to the state that it holds; `before` is the session when the
operation was called. -/
def Makes (agent : BedtimeConductorAgent) (op : ConductorOperation) (before : Option SessionState)
    (held : SessionState) : Change → Prop
  | .listGoal => True
  | .goal goal =>
    match op with
    | .setGoal _ _ type minutes now suffix =>
      goal = ActiveGoal.createNew agent.showOther now suffix { type := type, targetMinutes := minutes }
    | _ => False
  | .beat progress _ =>
    match op with
    | .handleStoryBeat _ _ beatIndex totalBeats _ =>
      progress = beatProgress beatIndex totalBeats ∧ (beatGoal held).isSome = true
    | _ => False
  | .sleep =>
    match op with
    | .handleSleepCueDetected _ _ => True
    | _ => False
  | .turn verdict =>
    match op with
    | .processTurn userMessage _ sessionId userId =>
      verdict = turnVerdict agent.hasMemory userMessage (startedFrom sessionId userId before)
    | _ => False
  | .theme theme =>
    match op with
    | .conductStorySession _ _ config _ => theme = config.theme
    | .processTurn _ _ _ _ => True
    | _ => False

/-- **What a step of an operation can be**, in view of the session when it was called. -/
def Admits (agent : BedtimeConductorAgent) (op : ConductorOperation) (before : Option SessionState)
    (sessions : SessionMap) : AgentEffect → Prop
  | .session (.setSession s (.literal state)) =>
    s = op.sessionId ∧ sessions s = none ∧ ∃ u, state = initialState s u
  | .session (.setSession s (.changed held change)) =>
    s = op.sessionId ∧ sessions s = some held ∧ Makes agent op before held change
  | .session (.patchContext _ _ _) => False
  | .startSession s held _ => s = op.sessionId ∧ sessions s = some held
  | _ => True

/-- A step on sessions, among those of the operations on sessions. -/
def SessionAdmits (agent : BedtimeConductorAgent) (op : ConductorOperation) (before : Option SessionState)
    (sessions : SessionMap) (effect : SessionEffect) : Prop :=
  Admits agent op before sessions (.session effect)

variable {agent : BedtimeConductorAgent} {op : ConductorOperation} {before : Option SessionState}
  {sessions : SessionMap} {s u : Text} {held : SessionState}

/-! ## The rules for the parts -/

section Upholds

/-- A write of the state that is stored stores what the change makes of it. -/
theorem upholds_changed {change : Change} (hs : s = op.sessionId) (hheld : sessions s = some held)
    (hmakes : Makes agent op before held change) :
    (setSession s (.changed held change)).Upholds sessionEnv (SessionAdmits agent op before)
      (fun r sessions' => r = .ok () → sessions' s = some (change.apply held)) sessions := by
  refine upholds_perform ⟨hs, hheld, hmakes⟩ fun reply sessions' hreply => ?_
  cases reply with
  | error e => exact fun h => nomatch h
  | ok _ =>
    rw [show sessions' = _ from hreply]
    exact fun _ => Function.update_self ..

/-- The operation starts with the stored state, its goal listed, or with a new one. -/
theorem upholds_getOrInitState (hs : s = op.sessionId) :
    (getOrInitState s u).Upholds sessionEnv (SessionAdmits agent op before)
      (fun r sessions' => ∀ state, r = .ok state →
        state = startedFrom s u (sessions s) ∧ sessions' s = some state) sessions := by
  refine Upholds.bind (upholds_perform trivial fun reply sessions' hreply => ?_)
  cases reply with
  | error e => exact fun _ h => nomatch h
  | ok found =>
    obtain ⟨rfl, hfound⟩ := hreply
    obtain rfl := hfound found rfl
    cases hsession : sessions' s with
    | none =>
      refine Upholds.bind (upholds_perform ⟨hs, hsession, u, rfl⟩ fun reply sessions hreply => ?_)
      cases reply with
      | error e => exact fun _ h => nomatch h
      | ok _ =>
        rw [show sessions = _ from hreply]
        rintro state ⟨⟩
        exact ⟨rfl, Function.update_self ..⟩
    | some held =>
      dsimp only
      cases hgoal : unlistedGoal held with
      | none =>
        rintro state ⟨⟩
        rw [startedFrom, listGoal, hgoal]
        exact ⟨rfl, hsession⟩
      | some goal =>
        have hlist : Makes agent op before held .listGoal := trivial
        refine Upholds.bind ((upholds_changed hs hsession hlist).imp fun r sessions hheld => ?_)
        cases r with
        | error e => exact fun _ h => nomatch h
        | ok _ =>
          rintro state ⟨⟩
          exact ⟨rfl, hheld rfl⟩

theorem upholds_trackOutcome {theme : Text} {positive : Bool} :
    (trackOutcome theme positive u).Upholds sessionEnv (SessionAdmits agent op before)
      (fun _ sessions' => sessions' = sessions) sessions :=
  upholds_perform trivial fun _ _ hreply => hreply

theorem upholds_trackVerdict {theme : Text} {verdict : Option Bool} :
    (BedtimeConductorAgent.trackVerdict u theme verdict).Upholds sessionEnv
      (SessionAdmits agent op before) (fun _ sessions' => sessions' = sessions) sessions := by
  cases verdict with
  | none => exact upholds_pure rfl
  | some positive => exact upholds_trackOutcome

/-- A theme is stored in the state that is read just before. -/
theorem upholds_suggest {rejected suggestion : Option Text} (hs : s = op.sessionId)
    (htheme : ∀ held theme, Makes agent op before held (.theme theme)) :
    (agent.suggest s u rejected suggestion).Upholds sessionEnv (SessionAdmits agent op before)
      (fun _ _ => True) sessions := by
  cases suggestion with
  | none => exact upholds_pure trivial
  | some theme =>
    refine Upholds.bind ((upholds_getOrInitState hs).imp fun r sessions hheld => ?_)
    cases r with
    | error e => trivial
    | ok state =>
      refine Upholds.bind ((upholds_changed hs (hheld state rfl).2 (htheme state theme)).imp
        fun r sessions _ => ?_)
      cases r with
      | error e => trivial
      | ok _ =>
        refine Only.upholds ?_
        cases rejected with
        | none => exact only_pure
        | some rejectedTheme =>
          rw [BedtimeConductorAgent.trackPreference]
          split
          · exact only_perform fun _ _ => trivial
          · exact only_pure

/-- What comes after the first `set` of a turn stores a theme at most. -/
theorem upholds_think {traceId : Option Text} {observation : Observation} {breach : Option JsError}
    {rejected : Option Text} (hs : s = op.sessionId)
    (htheme : ∀ held theme, Makes agent op before held (.theme theme)) :
    (agent.think s u traceId observation breach rejected).Upholds sessionEnv
      (SessionAdmits agent op before) (fun _ _ => True) sessions := by
  cases breach with
  | some error => exact upholds_done trivial
  | none =>
    refine Upholds.bind (upholds_perform trivial fun reply sessions _ => ?_)
    cases reply with
    | error e => trivial
    | ok thought =>
      have hsave : (agent.saveTrace thought).Upholds sessionEnv (SessionAdmits agent op before)
          (fun _ _ => True) sessions := by
        refine Only.upholds ?_
        rw [BedtimeConductorAgent.saveTrace]
        split
        · exact Only.catchWith (only_perform fun _ _ => trivial) fun _ => only_pure
        · exact only_pure
      refine Upholds.bind (hsave.imp fun r sessions _ => ?_)
      cases r with
      | error e => trivial
      | ok _ =>
        refine Upholds.bind ((upholds_suggest hs htheme).imp fun r sessions _ => ?_)
        cases r with
        | error e => trivial
        | ok _ => exact upholds_pure trivial

/-! ## The operations -/

theorem upholds_setGoal {goal : ActiveGoalProps} (hs : s = op.sessionId)
    (hgoal : ∀ held, Makes agent op before held (.goal goal)) :
    (setGoal s u goal).Upholds sessionEnv (SessionAdmits agent op before) (fun _ _ => True) sessions := by
  refine Upholds.bind ((upholds_getOrInitState hs).imp fun r sessions hheld => ?_)
  cases r with
  | error e => trivial
  | ok state => exact (upholds_changed hs (hheld state rfl).2 (hgoal state)).imp fun _ _ _ => trivial

theorem upholds_handleStoryBeat {beatIndex totalBeats : JsNumber} {now : Time} (hs : s = op.sessionId)
    (hbeat : ∀ held, (beatGoal held).isSome = true →
      Makes agent op before held (.beat (beatProgress beatIndex totalBeats) now)) :
    (handleStoryBeat s u beatIndex totalBeats now).Upholds sessionEnv (SessionAdmits agent op before)
      (fun _ _ => True) sessions := by
  refine Upholds.bind ((upholds_getOrInitState hs).imp fun r sessions hheld => ?_)
  cases r with
  | error e => trivial
  | ok state =>
    dsimp only
    cases hgoal : beatGoal state with
    | none => exact upholds_pure trivial
    | some goal =>
      have hsome : (beatGoal state).isSome = true := by rw [hgoal, Option.isSome_some]
      exact (upholds_changed hs (hheld state rfl).2 (hbeat state hsome)).imp fun _ _ _ => trivial

theorem upholds_handleSleepCueDetected (hs : s = op.sessionId)
    (hsleep : ∀ held, Makes agent op before held .sleep) :
    (handleSleepCueDetected agent.hasMemory s u).Upholds sessionEnv (SessionAdmits agent op before)
      (fun _ _ => True) sessions := by
  unfold handleSleepCueDetected
  split
  · exact upholds_pure trivial
  · refine Upholds.bind ((upholds_getOrInitState hs).imp fun r sessions hheld => ?_)
    cases r with
    | error e => trivial
    | ok state =>
      dsimp only
      cases suggestedTheme state with
      | none => exact upholds_pure trivial
      | some theme =>
        dsimp only
        split
        · refine Upholds.bind (upholds_trackOutcome.imp ?_)
          rintro (e | _) _ rfl
          · trivial
          · refine Upholds.bind (upholds_trackOutcome.imp ?_)
            rintro (e | _) _ rfl
            · trivial
            · exact (upholds_changed hs (hheld state rfl).2 (hsleep state)).imp fun _ _ _ => trivial
        · exact upholds_pure trivial

theorem upholds_processTurn {message : Text} {traceId : Option Text} (hs : s = op.sessionId)
    (hturn : ∀ held, Makes agent op before held
      (.turn (turnVerdict agent.hasMemory message (startedFrom s u (sessions s)))))
    (htheme : ∀ held theme, Makes agent op before held (.theme theme)) :
    (agent.processTurn u s message traceId).Upholds sessionEnv (SessionAdmits agent op before)
      (fun _ _ => True) sessions := by
  refine Upholds.bind ((upholds_getOrInitState hs).imp fun r sessions₁ hheld => ?_)
  cases r with
  | error e => trivial
  | ok state =>
    obtain ⟨hstate, hstored⟩ := hheld state rfl
    refine Upholds.bind (upholds_trackVerdict.imp ?_)
    rintro (e | _) _ rfl
    · trivial
    · have hmakes := hturn state
      rw [← hstate] at hmakes
      refine Upholds.bind ((upholds_changed hs hstored hmakes).imp fun r sessions _ => ?_)
      cases r with
      | error e => trivial
      | ok _ =>
        have hrecall : (agent.recallMemories u s message).Upholds sessionEnv
            (SessionAdmits agent op before) (fun _ _ => True) sessions := by
          refine Only.upholds ?_
          rw [BedtimeConductorAgent.recallMemories]
          split
          · exact only_perform fun _ _ => trivial
          · exact only_pure
        refine Upholds.bind (hrecall.imp fun r sessions _ => ?_)
        cases r with
        | error e => trivial
        | ok memoryContext =>
          refine Upholds.catchWith ((upholds_think hs htheme).imp fun r sessions _ => ?_)
          cases r with
          | error e => exact upholds_pure trivial
          | ok result => trivial

/-! ## Conducting a session -/

variable {coerced : Json → Except JsError Bool}

/-- What an operation on sessions upholds, it upholds among those of the agent. -/
theorem upholds_onSessions {α : Type} {p : SessionProc α} {Q : Except JsError α → SessionMap → Prop}
    (h : p.Upholds sessionEnv (SessionAdmits agent op before) Q sessions) :
    (onSessions p).Upholds agentEnv (Admits agent op before) Q sessions := Upholds.embed h

theorem upholds_startSession {now : Time} (hs : s = op.sessionId) (hheld : sessions s = some held) :
    (startSession s now held).Upholds agentEnv (Admits agent op before) (fun _ _ => True) sessions := by
  unfold startSession
  split
  · exact upholds_pure trivial
  · refine Upholds.bind (upholds_perform ⟨hs, hheld⟩ fun reply sessions _ => ?_)
    cases reply with
    | error e => trivial
    | ok _ => exact upholds_pure trivial

theorem upholds_gatherMemories {theme : Text} : (gatherMemories agent theme u s).Upholds agentEnv
    (Admits agent op before) (fun _ _ => True) sessions := by
  refine Only.upholds ?_
  unfold gatherMemories
  split
  · refine Only.bind (Only.catchWith ?_ fun _ => only_pure) fun preferences => ?_
    · exact Only.bind (only_perform fun _ _ => trivial) fun _ => only_pure
    · exact Only.bind (only_perform fun _ _ => trivial) fun _ => only_pure
  · exact only_pure

/-- An attempt stores the theme in the state that it reads just before. -/
theorem upholds_attempt {session : StorySession} {vars : LoopState} (hs : session.sessionId = op.sessionId)
    (htheme : ∀ held, Makes agent op before held (.theme session.config.theme)) :
    (session.attempt vars).Upholds agentEnv (Admits agent op before) (fun _ _ => True) sessions := by
  have hreason : (session.reason vars.state).Upholds agentEnv (Admits agent op before)
      (fun _ _ => True) sessions := by
    refine Only.upholds ?_
    refine Only.bind (only_perform fun _ _ => trivial) fun raw => ?_
    refine Only.bind only_done fun proposed => Only.bind only_done fun step => ?_
    refine Only.bind ?_ fun _ => only_pure
    unfold StorySession.saveTrace
    split
    · exact Only.catchWith (only_perform fun _ _ => trivial) fun _ => only_pure
    · exact only_pure
  refine Upholds.settle (hreason.imp fun r sessions _ => ?_)
  cases r with
  | error e => exact upholds_pure trivial
  | ok step =>
    refine Upholds.settle ((upholds_onSessions (upholds_getOrInitState hs)).imp
      fun r sessions hheld => ?_)
    cases r with
    | error e => exact upholds_pure trivial
    | ok state =>
      refine Upholds.settle ((upholds_onSessions (upholds_changed hs (hheld state rfl).2
        (htheme state))).imp fun r sessions _ => ?_)
      cases r with
      | error e => exact upholds_pure trivial
      | ok _ => exact upholds_pure trivial

theorem upholds_recover {error : JsError} {vars : LoopState} : (StorySession.recover error vars).Upholds
    agentEnv (Admits agent op before) (fun _ _ => True) sessions := by
  unfold StorySession.recover
  refine Upholds.settle (upholds_perform trivial fun reply sessions _ => ?_)
  cases reply with
  | error e => exact upholds_pure trivial
  | ok plan =>
    dsimp only
    split
    · exact upholds_pure trivial
    · exact upholds_pure trivial
    · exact upholds_pure trivial
    all_goals
      split
      · exact upholds_pure trivial
      · refine Upholds.settle (upholds_perform trivial fun reply sessions _ => ?_)
        cases reply with
        | error e => exact upholds_pure trivial
        | ok _ => exact upholds_pure trivial

theorem upholds_loop {session : StorySession} (hs : session.sessionId = op.sessionId)
    (htheme : ∀ held, Makes agent op before held (.theme session.config.theme)) (left : ℕ)
    (vars : LoopState) : (session.loop left vars).Upholds agentEnv (Admits agent op before)
      (fun _ _ => True) sessions := by
  induction left generalizing vars sessions with
  | zero => exact upholds_pure trivial
  | succ left ih =>
    unfold StorySession.loop
    refine Upholds.bind ((upholds_attempt hs htheme).imp fun r sessions _ => ?_)
    rcases r with e | result | ⟨error, state⟩
    · trivial
    · exact upholds_pure trivial
    · refine Upholds.bind (upholds_recover.imp fun r sessions _ => ?_)
      rcases r with e | ⟨_ | _ | _, cost⟩
      · trivial
      · exact ih _
      · exact upholds_pure trivial
      · exact upholds_pure trivial

theorem upholds_conductStorySession {now startTime : Time} {config : SessionConfig}
    {context : AgentContext} (hs : context.sessionFor now = op.sessionId)
    (htheme : ∀ held, Makes agent op before held (.theme config.theme)) :
    (conductStorySession agent coerced now startTime config context).Upholds agentEnv
      (Admits agent op before) (fun _ _ => True) sessions := by
  unfold conductStorySession
  split
  · refine Upholds.bind ((upholds_onSessions (upholds_getOrInitState hs)).imp
      fun r sessions hheld => ?_)
    cases r with
    | error e => trivial
    | ok held =>
      refine Upholds.bind ((upholds_startSession hs (hheld held rfl).2).imp fun r sessions _ => ?_)
      cases r with
      | error e => trivial
      | ok state =>
        refine Upholds.bind (upholds_gatherMemories.imp fun r sessions _ => ?_)
        cases r with
        | error e => trivial
        | ok memoryContext => exact upholds_loop hs htheme _ _
  · exact upholds_done trivial

/-- A result that nobody waits for. -/
theorem upholds_discard {α : Type} {p : AgentProc α}
    (h : p.Upholds agentEnv (Admits agent op before) (fun _ _ => True) sessions) :
    (p >>= fun _ => pure ()).Upholds agentEnv (Admits agent op before) (fun _ _ => True) sessions := by
  refine Upholds.bind (h.imp fun r sessions _ => ?_)
  cases r with
  | error e => trivial
  | ok a => exact upholds_pure trivial

/-- **What an operation does on its own**: every step is one that it can take. -/
theorem task_upholds (agent : BedtimeConductorAgent) (coerced : Json → Except JsError Bool)
    (op : ConductorOperation) (sessions : SessionMap) : (op.task agent coerced).Upholds agentEnv
      (Admits agent op (sessions op.sessionId)) (fun _ _ => True) sessions := by
  cases op with
  | conductStorySession now startTime config context =>
    exact upholds_discard (upholds_conductStorySession rfl fun _ => rfl)
  | processTurn userMessage context s u =>
    unfold ConductorOperation.task
    dsimp only
    split
    · exact upholds_discard (upholds_onSessions (upholds_processTurn rfl (fun _ => rfl)
        fun _ _ => trivial))
    · exact upholds_done trivial
  | setGoal s u type minutes now suffix =>
    exact upholds_onSessions (upholds_setGoal rfl fun _ => rfl)
  | handleStoryBeat s u beatIndex totalBeats now =>
    exact upholds_onSessions (upholds_handleStoryBeat rfl fun _ hsome => ⟨rfl, hsome⟩)
  | handleSleepCueDetected s u =>
    exact upholds_onSessions (upholds_handleSleepCueDetected rfl fun _ => trivial)

end Upholds

end DreamWeaver.Conductor
