import DreamWeaver.Conductor.ActiveGoal
import DreamWeaver.Foundations.Regex

/-! # The state of a session, and what the conductor changes in it

A session as the agents see it: the fields of `SessionState`
(`api/src/application/ports/SessionStatePort.ts`) and the entries of its `context` that the program
uses. `lastMomentTimestamp`, which no operation here reads, and `updatedAt` and `history`, which
belong to the stores, are left out. The functions of this module are the assignments that
`BedtimeConductorAgent` (`api/src/domain/agents/BedtimeConductorAgent.ts`) makes to the state that it
holds before it calls `set`. -/

namespace DreamWeaver.Conductor

/-! ## Phases -/

/-- `SessionPhase` -/
inductive SessionPhase where
  | idle
  | onboarding
  | storytelling
  | reflection
  | windDown
  | asleep
  deriving DecidableEq

/-- The signals of `AtomOfThoughtEngine.transition`. -/
inductive PhaseSignal where
  | start
  | storyStart
  | storyEnd
  | sleepDetected
  | wakeUp
  deriving DecidableEq

/-- `AtomOfThoughtEngine.transition` -/
def transition : SessionPhase → PhaseSignal → SessionPhase
  | .idle, signal => if signal = .start then .onboarding else .idle
  | .onboarding, signal => if signal = .storyStart then .storytelling else .onboarding
  | .storytelling, .sleepDetected => .asleep
  | .storytelling, .storyEnd => .reflection
  | .storytelling, _ => .storytelling
  | .reflection, .sleepDetected => .asleep
  | .reflection, _ => .windDown
  | .windDown, signal => if signal = .sleepDetected then .asleep else .windDown
  | .asleep, signal => if signal = .wakeUp then .idle else .asleep

/-! ## States -/

/-- `activeIntent` -/
inductive ActiveIntent where
  | listen
  | interrupt
  | idle
  deriving DecidableEq

/-- The entries of `context`. -/
structure SessionContext where
  interactions : Option JsNumber := none
  interventions : Option JsNumber := none
  processedToolCallIds : Option (List Text) := none
  traceId : Option Text := none
  deriving DecidableEq

/-- The fields of a state other than its `context`, which is an object of its own. -/
structure SessionFields where
  sessionId : Text
  userId : Text
  phase : SessionPhase
  activeIntent : ActiveIntent
  emotionalTone : JsNumber
  activeGoal : Option ActiveGoalProps := none
  activeGoals : Option (List ActiveGoalProps) := none
  sessionStartTime : Option Time := none
  lastSuggestedTheme : Option Text := none
  deriving DecidableEq

/-- `SessionState` -/
structure SessionState extends SessionFields where
  context : SessionContext
  deriving DecidableEq

/-- The state that `_getOrInitState` starts a session with. -/
def initialState (sessionId userId : Text) : SessionState where
  sessionId := sessionId
  userId := userId
  phase := .idle
  activeIntent := .idle
  emotionalTone := .finite (1 / 2)
  context := {}

/-! ## Goals -/

/-- `!state.activeGoals && state.activeGoal`: the goal that `_getOrInitState` makes a list of. -/
def unlistedGoal (state : SessionState) : Option ActiveGoalProps :=
  match state.activeGoals with
  | none => state.activeGoal
  | some _ => none

/-- `state.activeGoals = [state.activeGoal]`, where `_getOrInitState` does it. -/
def listGoal (state : SessionState) : SessionState :=
  match unlistedGoal state with
  | none => state
  | some goal => { state with activeGoals := some [goal] }

/-- The goal of `_hydrateActiveGoalHelper`: `state.activeGoals?.[0] ?? state.activeGoal`. -/
def hydrateActiveGoal (state : SessionState) : Option ActiveGoalProps :=
  ((state.activeGoals.getD []).head?).or state.activeGoal

/-- What `setGoal` assigns. -/
def withGoal (goal : ActiveGoalProps) (state : SessionState) : SessionState :=
  let existing := match state.activeGoals with
    | some goals => goals
    | none => state.activeGoal.toList
  { state with
    activeGoals := some ((goal :: existing).take 5)
    activeGoal := some goal }

/-- `Math.round(((beatIndex + 1) / totalBeats) * 100)` -/
def beatProgress (beatIndex totalBeats : JsNumber) : JsNumber :=
  (((beatIndex.add (.finite 1)).div totalBeats).mul (.finite 100)).round

/-- The goal after a beat. -/
def updatedGoal (progress : JsNumber) (now : Time) (goal : ActiveGoalProps) : ActiveGoalProps :=
  let updated := ActiveGoal.updateProgress goal progress
  if progress.atLeast 100 then ActiveGoal.markAchieved updated now else updated

/-- The goal that `handleStoryBeat` works on, if it does not return at once. -/
def beatGoal (state : SessionState) : Option ActiveGoalProps :=
  (hydrateActiveGoal state).filter fun goal => goal.status = .active

/-- `stack.length > 0 ? stack : undefined` -/
def orUndefined : List ActiveGoalProps → Option (List ActiveGoalProps)
  | [] => none
  | goal :: stack => some (goal :: stack)

/-- What `handleStoryBeat` assigns when it has a goal. -/
def withBeat (progress : JsNumber) (now : Time) (goal : ActiveGoalProps) (state : SessionState) :
    SessionState :=
  let stack := updatedGoal progress now goal :: (state.activeGoals.getD []).tail
  let stack := if progress.atLeast 100 then stack.tail else stack
  { state with
    activeGoals := orUndefined stack
    activeGoal := stack.head? }

/-! ## Themes -/

/-- The theme that was suggested last, unless it is empty. -/
def suggestedTheme (state : SessionState) : Option Text :=
  state.lastSuggestedTheme.filter fun theme => !theme.isEmpty

/-- What `handleSleepCueDetected` assigns before it attributes the success to the theme. -/
def fallingAsleep (state : SessionState) : SessionState :=
  if state.sessionStartTime.isSome then
    { state with phase := transition state.phase .sleepDetected }
  else state

/-- `state.lastSuggestedTheme = undefined` -/
def withoutTheme (state : SessionState) : SessionState := { state with lastSuggestedTheme := none }

/-- `state.lastSuggestedTheme = theme` -/
def withTheme (theme : Text) (state : SessionState) : SessionState :=
  { state with lastSuggestedTheme := some theme }

/-- `/\b(no|hate|dislike|stop|bad|don't)\b/` -/
def rejection : Regex :=
  Regex.seqs [.boundary,
    Regex.alts [Regex.exactly "no", Regex.exactly "hate", Regex.exactly "dislike",
      Regex.exactly "stop", Regex.exactly "bad", Regex.exactly "don't"],
    .boundary]

/-- `/\b(yes|love|like|good|great|ok|okay)\b/` -/
def approval : Regex :=
  Regex.seqs [.boundary,
    Regex.alts [Regex.exactly "yes", Regex.exactly "love", Regex.exactly "like",
      Regex.exactly "good", Regex.exactly "great", Regex.exactly "ok", Regex.exactly "okay"],
    .boundary]

/-- What a message says about the suggested theme: `some false` rejects it, `some true` approves. -/
def themeVerdict (message : Text) : Option Bool :=
  let lower := toLowerCase message
  if Regex.test rejection lower then some false
  else if Regex.test approval lower then some true
  else none

/-- The verdict of a turn, if there is a theme and a memory to tell it. -/
def turnVerdict (hasMemory : Bool) (message : Text) (state : SessionState) : Option Bool :=
  if hasMemory && (suggestedTheme state).isSome then themeVerdict message else none

/-! ## Counters -/

/-- `currentInteractions` -/
def currentInteractions (state : SessionState) : JsNumber :=
  (JsNumber.orZero state.context.interactions).add (.finite 1)

/-- `currentInterventions`: negative feedback is an intervention. -/
def currentInterventions (verdict : Option Bool) (state : SessionState) : JsNumber :=
  let interventions := JsNumber.orZero state.context.interventions
  if verdict = some false then interventions.add (.finite 1) else interventions

/-- What `processTurn` assigns before its first `set`. -/
def withTurn (verdict : Option Bool) (state : SessionState) : SessionState :=
  { state with
    lastSuggestedTheme := if verdict.isSome then none else state.lastSuggestedTheme
    context := { state.context with
      interactions := some (currentInteractions state)
      interventions := some (currentInterventions verdict state) } }

end DreamWeaver.Conductor
