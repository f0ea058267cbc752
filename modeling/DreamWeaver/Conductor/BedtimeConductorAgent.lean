import DreamWeaver.Conductor.SessionState
import DreamWeaver.Foundations.Process

/-! # The conductor

The operations of `BedtimeConductorAgent` (`api/src/domain/agents/BedtimeConductorAgent.ts`) on the
sessions behind a `SessionStatePort`, with an effect for everything that they await. The port has
value semantics, as the Redis adapter has, which production requires: `get` gives the caller a state of
its own, and `set` stores the whole state that the caller holds. A call of `set` is written as what it
stores: a new state, or a state that the operation holds, with what it has assigned to it. -/

namespace DreamWeaver.Conductor

/-! ## Effects -/

/-- What an operation assigns to the state it holds before it calls `set`. -/
inductive Change where
  | listGoal
  | goal (goal : ActiveGoalProps)
  | beat (progress : JsNumber) (now : Time)
  | sleep
  | turn (verdict : Option Bool)
  | theme (theme : Text)
  deriving DecidableEq

/-- The state with the assignments. -/
def Change.apply : Change → SessionState → SessionState
  | .listGoal, state => Conductor.listGoal state
  | .goal newGoal, state => withGoal newGoal state
  | .beat progress now, state =>
    match beatGoal state with
    | none => state
    | some current => withBeat progress now current state
  | .sleep, state => withoutTheme (fallingAsleep state)
  | .turn verdict, state => withTurn verdict state
  | .theme suggested, state => withTheme suggested state

/-- The state that a call of `set` stores. -/
inductive SessionWrite where
  /-- An object literal. -/
  | literal (state : SessionState)
  /-- The state that the operation holds, after its assignments. -/
  | changed (held : SessionState) (change : Change)
  deriving DecidableEq

/-- The stored state. -/
def SessionWrite.state : SessionWrite → SessionState
  | .literal state => state
  | .changed held change => change.apply held

/-- The fields of `formatAgentObservation` that a turn gives. -/
structure Observation where
  userMessage : Text
  activeGoal : Option Text
  memoryContext : Text
  deriving DecidableEq

/-- What the conductor reads of an `AgentThought`; `reply` and `theme` are the parameters of these
names, if they are strings. -/
structure Thought where
  goalsConsidered : Option (List Text)
  conflictsIdentified : Option Text
  tradeOffMade : Option Text
  thought : Text
  action : Text
  confidence : Option JsNumber
  reply : Option Text
  theme : Option Text

/-- `ToolCallRequest`; `arguments` are checked by the tool. -/
structure ToolCallRequest where
  userId : Text
  sessionId : Text
  toolName : Text
  arguments : Json
  toolCallId : Option Text
  traceId : Option Text

/-- What the operations and the routes on sessions await. -/
inductive SessionEffect where
  | getSession (sessionId : Text)
  | setSession (sessionId : Text) (write : SessionWrite)
  /-- `patch` of the `context`, with the tool call recorded in the one that the caller holds. -/
  | patchContext (sessionId : Text) (held : SessionState) (toolCallId : Text)
  | trackOutcome (theme : Text) (positive : Bool) (userId : Text)
  | trackPreferencePair (preferred rejected userId : Text)
  | retrieve (message userId sessionId : Text)
  | storeMemory (content userId sessionId : Text)
  | generateAgentThought (observation : Observation) (traceId : Option Text)
  | saveTrace (thought : Thought)
  | createSessionConfig (userId : Text) (childName : Option Text) (childAge : Option ℕ)
  | issueTicket (userId : Text)
  | executeTool (request : ToolCallRequest)

/-- The values that effects resolve with. -/
abbrev SessionEffect.Reply : SessionEffect → Type
  | .getSession _ => Option SessionState
  | .retrieve _ _ _ => Text
  | .generateAgentThought _ _ => Thought
  | .createSessionConfig _ _ _ => Json
  | .issueTicket _ => Text
  | .executeTool _ => Json
  | _ => Unit

/-- A procedure of the operations and the routes on sessions. -/
abbrev SessionProc := Proc SessionEffect SessionEffect.Reply

/-- `sessionState.get` -/
def getSession (sessionId : Text) : SessionProc (Option SessionState) :=
  Proc.perform (SessionEffect.getSession sessionId)

/-- `sessionState.set` -/
def setSession (sessionId : Text) (write : SessionWrite) : SessionProc Unit :=
  Proc.perform (SessionEffect.setSession sessionId write)

/-- `memory.trackOutcome` -/
def trackOutcome (theme : Text) (positive : Bool) (userId : Text) : SessionProc Unit :=
  Proc.perform (SessionEffect.trackOutcome theme positive userId)

/-! ## Starting an operation -/

/-- `_getOrInitState` -/
def getOrInitState (sessionId userId : Text) : SessionProc SessionState := do
  match ← getSession sessionId with
  | none =>
    setSession sessionId (.literal (initialState sessionId userId))
    pure (initialState sessionId userId)
  | some state =>
    match unlistedGoal state with
    | none => pure state
    | some _ =>
      setSession sessionId (.changed state .listGoal)
      pure (listGoal state)

/-! ## Goals, beats and sleep -/

/-- `setGoal`, with the goal that `ActiveGoal.createNew` has made of its arguments. -/
def setGoal (sessionId userId : Text) (goal : ActiveGoalProps) : SessionProc Unit := do
  let state ← getOrInitState sessionId userId
  setSession sessionId (.changed state (.goal goal))

/-- `handleStoryBeat` -/
def handleStoryBeat (sessionId userId : Text) (beatIndex totalBeats : JsNumber) (now : Time) :
    SessionProc Unit := do
  let state ← getOrInitState sessionId userId
  match beatGoal state with
  | none => pure ()
  | some _ => setSession sessionId (.changed state (.beat (beatProgress beatIndex totalBeats) now))

/-- `handleSleepCueDetected` -/
def handleSleepCueDetected (hasMemory : Bool) (sessionId userId : Text) : SessionProc Unit := do
  if sessionId = [] ∨ userId = [] then pure ()
  else
    let state ← getOrInitState sessionId userId
    match suggestedTheme state with
    | none => pure ()
    | some theme =>
      if hasMemory then
        trackOutcome theme true userId
        trackOutcome theme true userId
        setSession sessionId (.changed state .sleep)
      else pure ()

/-! ## Turns -/

/-- The settings of a `BedtimeConductorAgent`: which of its optional collaborators it has, and how a
number that is not an integer is written. -/
structure BedtimeConductorAgent where
  hasMemory : Bool
  hasTraceRepository : Bool
  hasQualityGate : Bool
  showOther : ℚ → Text

/-- The name of a goal type. -/
def GoalType.text : GoalType → Text
  | .childAsleep => lit "CHILD_ASLEEP"
  | .storyCompleted => lit "STORY_COMPLETED"
  | .relaxationAchieved => lit "RELAXATION_ACHIEVED"

/-- `1.0 - (currentInterventions / currentInteractions)` -/
def unattendedRate (interactions interventions : JsNumber) : JsNumber :=
  (JsNumber.finite 1).add (.mul (.finite (-1)) (interventions.div interactions))

/-- `0 < x` -/
def isPositive : JsNumber → Bool
  | .finite x => 0 < x
  | .posInfinity => true
  | _ => false

/-- What `checkMetric` throws for a rate below the critical threshold of the `UCR` metric. -/
def checkUnattendedRate (showOther : ℚ → Text) (interactions interventions : JsNumber) :
    Option JsError :=
  let rate := unattendedRate interactions interventions
  if isPositive interactions && rate.lt (double (7 / 10)) then
    some ⟨lit "QualityGateError", lit "Quality Gate Breach: UCR = " ++
      numberToString showOther rate ++ lit " (Threshold: 0.7)"⟩
  else none

/-- `ReasoningTrace`, without its timestamp. -/
structure ReasoningTrace where
  goalsConsidered : List Text
  conflictDetected : Bool
  conflictsIdentified : Option Text
  tradeOffMade : Option Text
  thought : Text
  action : Text
  confidence : JsNumber
  failure : Option Text

/-- The result of `processTurn`. -/
structure TurnResult where
  reply : Text
  trace : List ReasoningTrace

/-- `value || default` for a number. -/
def orNumber (value : Option JsNumber) (default : JsNumber) : JsNumber :=
  match value with
  | none => default
  | some x => if x = .nan ∨ x = .finite 0 then default else x

/-- The trace of a thought. -/
def traceOf (thought : Thought) : ReasoningTrace where
  goalsConsidered := thought.goalsConsidered.getD [lit "RELAXATION", lit "BONDING"]
  conflictDetected := thought.conflictsIdentified.any fun text => !text.isEmpty
  conflictsIdentified := thought.conflictsIdentified.filter fun text => !text.isEmpty
  tradeOffMade := thought.tradeOffMade.filter fun text => !text.isEmpty
  thought := thought.thought
  action := thought.action
  confidence := orNumber thought.confidence (.finite (double (9 / 10)))
  failure := none

/-- The reply of a thought: `(reply || thought.thought) || "I'm here."`. -/
def replyOf (thought : Thought) : Text :=
  orText thought.reply (orText (some thought.thought) (lit "I'm here."))

/-- The emergency reply. -/
def safeResult (error : JsError) : TurnResult where
  reply := lit "I'm having trouble thinking right now, but I'm here. Let's just relax."
  trace := [{
    goalsConsidered := [lit "SAFETY", lit "RECOVERY"]
    conflictDetected := true
    conflictsIdentified := none
    tradeOffMade := none
    thought := lit "Critical System Failure (Outer Catch): " ++ error.name ++ lit ": " ++
      error.message ++ lit ". Engaging Emergency Safe Mode."
    action := lit "SAFE_MODE"
    confidence := .finite 1
    failure := some (lit "CRITICAL_SYSTEM_FAILURE") }]

/-- The theme that a thought suggests: `thought.action === 'SUGGEST'` and a theme of its own. -/
def Thought.suggestion (thought : Thought) : Option Text :=
  if thought.action = lit "SUGGEST" then thought.theme else none

namespace BedtimeConductorAgent

variable (agent : BedtimeConductorAgent)

/-- `trackOutcome` for a verdict on the suggested theme. -/
def trackVerdict (userId theme : Text) : Option Bool → SessionProc Unit
  | some positive => trackOutcome theme positive userId
  | none => pure ()

/-- The memories that a turn recalls. -/
def recallMemories (userId sessionId message : Text) : SessionProc Text :=
  if agent.hasMemory then Proc.perform (SessionEffect.retrieve message userId sessionId) else pure []

/-- `traceRepository.save(trace).catch(…)` -/
def saveTrace (thought : Thought) : SessionProc Unit :=
  if agent.hasTraceRepository then
    Proc.catchWith (Proc.perform (SessionEffect.saveTrace thought)) fun _ => pure ()
  else pure ()

/-- The pairwise preference of a theme over the one that was rejected. -/
def trackPreference (userId theme : Text) : Option Text → SessionProc Unit
  | some rejectedTheme =>
    if agent.hasMemory then
      Proc.perform (SessionEffect.trackPreferencePair theme rejectedTheme userId)
    else pure ()
  | none => pure ()

/-- What a turn does with the theme that a thought suggests. -/
def suggest (sessionId userId : Text) (rejected : Option Text) : Option Text → SessionProc Unit
  | some theme => do
    let state ← getOrInitState sessionId userId
    setSession sessionId (.changed state (.theme theme))
    agent.trackPreference userId theme rejected
  | none => pure ()

/-- The part of `processTurn` inside `try`. -/
def think (sessionId userId : Text) (traceId : Option Text) (observation : Observation)
    (breach : Option JsError) (rejected : Option Text) : SessionProc TurnResult :=
  match breach with
  | some error => Proc.throw error
  | none => do
    let thought ← Proc.perform (SessionEffect.generateAgentThought observation traceId)
    agent.saveTrace thought
    agent.suggest sessionId userId rejected thought.suggestion
    pure ⟨replyOf thought, [traceOf thought]⟩

/-- The observation of a turn. -/
def observe (state : SessionState) (message memoryContext : Text) : Observation where
  userMessage := message
  activeGoal := (hydrateActiveGoal state).map fun goal =>
    goal.type.text ++ lit " (" ++ goal.description ++ lit ")"
  memoryContext := orText (some memoryContext) (lit "None")

/-- The breach of the quality gate in a turn, if there is a gate. -/
def checkTurn (verdict : Option Bool) (state : SessionState) : Option JsError :=
  if agent.hasQualityGate then
    checkUnattendedRate agent.showOther (currentInteractions state)
      (currentInterventions verdict state)
  else none

/-- What `processTurn` does with the state that it holds. -/
def turn (userId sessionId message : Text) (traceId : Option Text) (state : SessionState) :
    SessionProc TurnResult := do
  let theme := state.lastSuggestedTheme.getD []
  let verdict := turnVerdict agent.hasMemory message state
  trackVerdict userId theme verdict
  setSession sessionId (.changed state (.turn verdict))
  let memoryContext ← agent.recallMemories userId sessionId message
  let rejected := if verdict = some false then some theme else none
  Proc.catchWith
    (agent.think sessionId userId traceId (observe state message memoryContext)
      (agent.checkTurn verdict state) rejected)
    fun error => pure (safeResult error)

/-- `processTurn`, with a context that its schema accepts. A breach of the latency metric, which
depends on the time that the thought took, is a failure of `generateAgentThought` here. -/
def processTurn (userId sessionId message : Text) (traceId : Option Text) :
    SessionProc TurnResult := do
  let state ← getOrInitState sessionId userId
  agent.turn userId sessionId message traceId state

end BedtimeConductorAgent

/-- A conductor without optional collaborators. -/
def plainConductor : BedtimeConductorAgent where
  hasMemory := false
  hasTraceRepository := false
  hasQualityGate := false
  showOther _ := []

end DreamWeaver.Conductor
