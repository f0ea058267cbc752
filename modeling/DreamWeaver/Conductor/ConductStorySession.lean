import DreamWeaver.Conductor.AtomOfThoughtEngine
import DreamWeaver.Conductor.BedtimeConductorAgent
import DreamWeaver.Foundations.Embedding
import DreamWeaver.Stories.StoryEntity

/-! # Conducting a story session

`conductStorySession` of `BedtimeConductorAgent` (`api/src/domain/agents/BedtimeConductorAgent.ts`): it
starts the session, asks the model up to three times which story to tell, and asks a resilience engine
after every failure how to go on. The effects are those of the other operations and a few more. The
prompts are functions of the record that an effect carries. -/

namespace DreamWeaver.Conductor

open Proc

/-! ## Inputs -/

/-- `duration` -/
inductive StoryDuration where
  | short
  | medium
  | long
  deriving DecidableEq

/-- `SessionConfig` -/
structure SessionConfig where
  theme : Text
  duration : Option StoryDuration := none
  style : Option Text := none
  childName : Option Text := none
  childAge : Option JsNumber := none
  deriving DecidableEq

/-- `SessionConfigSchema` -/
def SessionConfig.isValid (config : SessionConfig) : Bool :=
  !config.theme.isEmpty && config.childAge.all fun age => age.atLeast 0 && !age.exceeds 18

/-- `currentMood` -/
inductive Mood where
  | energetic
  | calm
  | tired
  | fussy
  deriving DecidableEq

/-- What the conductor reads of an `AmbientContext`. -/
structure AmbientContext where
  timeOfDay : Text
  weatherCondition : Text
  deriving DecidableEq

/-- What the conductor reads of an `AgentContext`. -/
structure AgentContext where
  childName : Option Text := none
  childAge : Option JsNumber := none
  currentMood : Option Mood := none
  userId : Option Text := none
  sessionId : Option Text := none
  traceId : Option Text := none
  envContext : Option AmbientContext := none
  deriving DecidableEq

/-- `AgentContextSchema` -/
def AgentContext.isValid (context : AgentContext) : Bool :=
  context.childAge.all (· ≠ .nan) && context.userId.all Stories.isUuid

/-- What `parse` throws. -/
def schemaError : JsError := ⟨lit "ZodError", lit "Invalid input"⟩

/-- What the observation of a session is formatted from. -/
structure StoryObservation where
  theme : Text
  childName : Option Text
  childAge : Option JsNumber
  currentMood : Option Mood
  activeGoal : Option Text
  envContext : Text
  memoryContext : Text

/-! ## Traces -/

/-- `resilience_meta` -/
structure ResilienceMeta where
  failureEncountered : Text
  correctionAttempted : Bool
  recoveryCostUsd : Option JsNumber

/-- The trace of a session, without its timestamp; what comes from a thought can be any value. -/
structure StoryTrace where
  goalsConsidered : Option Json
  conflictDetected : Bool
  conflictsIdentified : Option Json
  tradeOffMade : Option Json
  thought : Option Json
  action : Option Json
  confidence : Option Json
  resilienceMeta : Option ResilienceMeta

/-- The trace of an arbitrated thought. -/
def storyTraceOf (step : ThoughtStep) : StoryTrace where
  goalsConsidered := step.goalsConsidered
  conflictDetected := isTruthy step.conflictsIdentified
  conflictsIdentified := step.conflictsIdentified.filter Json.truthy
  tradeOffMade := step.tradeOffMade.filter Json.truthy
  thought := step.thought
  action := step.action
  confidence := step.confidence
  resilienceMeta := none

/-- `ConductSessionResult` -/
structure ConductSessionResult where
  refinedRequest : SessionConfig
  reasoningTrace : List StoryTrace
  contextualNotes : Option Text

/-- `String(error)` -/
def JsError.toText (error : JsError) : Text :=
  if error.name.isEmpty then error.message
  else if error.message.isEmpty then error.name
  else error.name ++ lit ": " ++ error.message

/-! ## Resilience -/

/-- The types of failures that the conductor reports. -/
inductive FailureType where
  | qualityBreach
  | unknown
  deriving DecidableEq

/-- `ResilienceEvent`; its context is the message of the error. -/
structure ResilienceEvent where
  type : FailureType
  error : Text
  attempt : ℕ
  costSoFar : JsNumber

/-- The actions of a `CorrectionPlan`. -/
inductive ResilienceAction where
  | retry
  | selfCorrect
  | fallback
  | abort
  | degradeService
  deriving DecidableEq

/-- What the conductor reads of a `CorrectionPlan`. -/
structure CorrectionPlan where
  action : ResilienceAction
  parameters : Option (Record Json)
  estimatedCost : JsNumber

/-- A value, if it is a number. -/
def Json.number? : Json → Option JsNumber
  | .num x => some x
  | _ => none

/-- `backoffMs`, else `timeoutMs`, if they are numbers. -/
def backoffOf (parameters : Record Json) : Option JsNumber :=
  ((parameters.get? (lit "backoffMs")).bind Json.number?).or
    ((parameters.get? (lit "timeoutMs")).bind Json.number?)

/-- `Math.min(30_000, Math.max(50, Math.floor(backoffMs)))`, if it is finite and positive. -/
def safeMs : JsNumber → Option ℕ
  | .finite x => if 0 < x then some (min 30000 (max 50 ⌊x⌋.toNat)) else none
  | _ => none

/-- How long to wait before the next attempt. -/
def CorrectionPlan.pauseMs (plan : CorrectionPlan) : Option ℕ :=
  (plan.parameters.bind backoffOf).bind safeMs

/-! ## Effects -/

/-- An entry of `getThemeStats`. -/
structure ThemeStat where
  theme : Text
  score : JsNumber

/-- What the operations of the agent await: the effects of the others, and those of
`conductStorySession`. -/
inductive AgentEffect where
  | session (effect : SessionEffect)
  /-- The `set` that stores the start of a session in the state that the operation holds. -/
  | startSession (sessionId : Text) (held : SessionState) (now : Time)
  | getThemeStats (userId : Text)
  /-- `memory.retrieve(theme, { userId, sessionId }, 'PREFERENCE', 3)`, with the contents joined. -/
  | retrievePreferences (theme userId sessionId : Text)
  /-- `generateAgentThought`, whose reply is not checked. -/
  | think (observation : StoryObservation) (traceId : Option Text)
  | saveStoryTrace (trace : StoryTrace)
  | assessFailure (event : ResilienceEvent)
  | pause (ms : ℕ)

/-- The values that effects resolve with. -/
abbrev AgentEffect.Reply : AgentEffect → Type
  | .session effect => effect.Reply
  | .getThemeStats _ => List ThemeStat
  | .retrievePreferences _ _ _ => Text
  | .think _ _ => Option Json
  | .assessFailure _ => CorrectionPlan
  | _ => Unit

/-- A procedure of the agent. -/
abbrev AgentProc := Proc AgentEffect AgentEffect.Reply

/-- An effect of the agent with its reply. -/
abbrev AgentEvent := Event AgentEffect AgentEffect.Reply

/-- An operation on sessions among the procedures of the agent. -/
def onSessions {α : Type} (p : SessionProc α) : AgentProc α := Proc.embed AgentEffect.session p

/-- The state of a session that starts: `IDLE` becomes `ONBOARDING`. -/
def withStart (now : Time) (state : SessionState) : SessionState :=
  { state with sessionStartTime := some now, phase := transition state.phase .start }

/-! ## Before the loop -/

/-- The session is started unless it has been. -/
def startSession (sessionId : Text) (now : Time) (state : SessionState) : AgentProc SessionState :=
  if state.sessionStartTime.isSome then pure state
  else do
    perform (AgentEffect.startSession sessionId state now)
    pure (withStart now state)

/-- The context of the statistics. -/
def statsContext (showOther : ℚ → Text) (stats : List ThemeStat) : Text :=
  let topThemes := joinWith (lit ", ") (stats.map fun s =>
    s.theme ++ lit " (score: " ++ numberToString showOther s.score ++ lit ")")
  if topThemes.isEmpty then lit "No historical interests yet."
  else lit "Historical Top Interests: " ++ topThemes

/-- `retrievePreferenceContext` -/
def retrievePreferenceContext (showOther : ℚ → Text) (userId : Text) : AgentProc Text :=
  Proc.catchWith (do
      let stats ← (perform (AgentEffect.getThemeStats userId) : AgentProc (List ThemeStat))
      pure (lit "[PREFERENCE_CONTEXT]: " ++ statsContext showOther stats))
    fun _ => pure (lit "Preference retrieval degraded.")

/-- The memories of a known user. -/
def gatherMemories (agent : BedtimeConductorAgent) (theme userId sessionId : Text) : AgentProc Text :=
  if agent.hasMemory && userId ≠ lit "anon" then do
    let preferences ← retrievePreferenceContext agent.showOther userId
    let facts ← (perform (AgentEffect.retrievePreferences theme userId sessionId) : AgentProc Text)
    pure (preferences ++ lit "\nOther facts: " ++ facts)
  else pure []

/-! ## The loop -/

/-- What one conducted session works on. -/
structure StorySession where
  agent : BedtimeConductorAgent
  /-- What becomes of a string, an array or an object in a comparison. -/
  coerced : Json → Except JsError Bool
  config : SessionConfig
  context : AgentContext
  sessionId : Text
  userId : Text
  memoryContext : Text
  observation : StoryObservation

/-- The variables of the loop: `attempts`, `currentError`, `accumulatedCost` and `state`. -/
structure LoopState where
  attempts : ℕ
  currentError : Option JsError
  accumulatedCost : JsNumber
  state : SessionState

namespace StorySession

variable (session : StorySession)

/-- `String(currentError)` -/
def errorText (currentError : Option JsError) : Text := (currentError.map JsError.toText).getD (lit "null")

/-- The fallback after the loop. -/
def fallback (vars : LoopState) : ConductSessionResult where
  refinedRequest := session.config
  reasoningTrace := [{
    goalsConsidered := some (.arr [.str (lit "RECOVERY")])
    conflictDetected := true
    conflictsIdentified := none
    tradeOffMade := none
    thought := some (.str (lit "Brain failed after " ++ showNat vars.attempts ++
      lit " attempts. Falling back to defaults. Error: " ++ errorText vars.currentError))
    action := some (.str (lit "START_STORY"))
    confidence := some (.num (.finite (double (1 / 10))))
    resilienceMeta := some {
      failureEncountered := errorText vars.currentError
      correctionAttempted := decide (1 < vars.attempts)
      recoveryCostUsd := some vars.accumulatedCost } }]
  contextualNotes := none

/-- The answer of the safe mode. -/
def safeMode : ConductSessionResult where
  refinedRequest := session.config
  reasoningTrace := [{
    goalsConsidered := some (.arr [.str (lit "SAFETY"), .str (lit "RECOVERY")])
    conflictDetected := true
    conflictsIdentified := none
    tradeOffMade := none
    thought := some (.str (lit "Quality Gate Breached. Engaging Safe Mode."))
    action := some (.str (lit "SAFE_MODE"))
    confidence := some (.num (.finite 1))
    resilienceMeta := some {
      failureEncountered := lit "QUALITY_BREACH"
      correctionAttempted := true
      recoveryCostUsd := none } }]
  contextualNotes := some (lit "Safe Mode active.")

/-- A `duration` of `short`, `medium` or `long`. -/
def durationOf (parameters : Option Json) : Option StoryDuration :=
  match (parameters.bind fun value => value.get (lit "duration")).bind Json.text? with
  | none => none
  | some text =>
    if text = lit "short" then some .short
    else if text = lit "medium" then some .medium
    else if text = lit "long" then some .long
    else none

/-- The config with the duration that the thought asks for. -/
def refined (step : ThoughtStep) : SessionConfig :=
  { session.config with duration := (durationOf step.parameters).or session.config.duration }

/-- The trace of an attempt; after an error it says that the loop recovered. -/
def attemptTrace (vars : LoopState) (step : ThoughtStep) : StoryTrace :=
  { storyTraceOf step with
    resilienceMeta := vars.currentError.map fun error => {
      failureEncountered := JsError.toText error
      correctionAttempted := true
      recoveryCostUsd := some vars.accumulatedCost } }

/-- What the engine is told. -/
def arbitrationContext (state : SessionState) : ArbitrationContext where
  timeOfDay := orText (session.context.envContext.map AmbientContext.timeOfDay) (lit "Unknown")
  activeGoals := AtomOfThoughtEngine.getStandardGoals
  currentPhase := state.phase

/-- `traceRepository.save(trace).catch(…)` -/
def saveTrace (trace : StoryTrace) : AgentProc Unit :=
  if session.agent.hasTraceRepository then
    Proc.catchWith (perform (AgentEffect.saveStoryTrace trace)) fun _ => pure ()
  else pure ()

/-- The thought of an attempt, arbitrated. -/
def reason (state : SessionState) : AgentProc ThoughtStep := do
  let raw ← (perform (AgentEffect.think session.observation session.context.traceId) :
    AgentProc (Option Json))
  let proposed ← (.done (readThought raw) : AgentProc ThoughtStep)
  let step ← (.done (AtomOfThoughtEngine.arbitrate session.coerced proposed
    (session.arbitrationContext state)) : AgentProc ThoughtStep)
  session.saveTrace (storyTraceOf step)
  pure step

/-- How an attempt ends: with a result, or with an error and the state that it has left in `state`. -/
inductive Attempt where
  | concluded (result : ConductSessionResult)
  | failed (error : JsError) (state : SessionState)

/-- The part of the loop inside `try`. The state is read again before the theme is stored. -/
def attempt (vars : LoopState) : AgentProc Attempt :=
  (session.reason vars.state).settle fun
    | .error e => pure (.failed e vars.state)
    | .ok step =>
      (onSessions (getOrInitState session.sessionId session.userId)).settle fun
        | .error e => pure (.failed e vars.state)
        | .ok state =>
          (onSessions (setSession session.sessionId
            (.changed state (.theme session.config.theme)))).settle fun
              | .error e => pure (.failed e (withTheme session.config.theme state))
              | .ok _ => pure (.concluded {
                  refinedRequest := session.refined step
                  reasoningTrace := [attemptTrace vars step]
                  contextualNotes := some session.memoryContext })

/-- How the loop goes on after a failure. -/
inductive Recovery where
  | again
  | stop
  | safeMode

/-- The part of the loop inside `catch`, with the costs after it; `break` where the engine itself
fails. -/
def recover (error : JsError) (vars : LoopState) : AgentProc (Recovery × JsNumber) :=
  (perform (AgentEffect.assessFailure {
      type := if error.name = lit "QualityGateError" then .qualityBreach else .unknown
      error := error.message
      attempt := vars.attempts
      costSoFar := vars.accumulatedCost }) : AgentProc CorrectionPlan).settle fun
    | .error _ => pure (.stop, vars.accumulatedCost)
    | .ok plan =>
      let cost := vars.accumulatedCost.add plan.estimatedCost
      match plan.action with
      | .abort | .fallback => pure (.stop, cost)
      | .degradeService => pure (.safeMode, cost)
      | .retry | .selfCorrect =>
        match plan.pauseMs with
        | none => pure (.again, cost)
        | some ms =>
          (perform (AgentEffect.pause ms) : AgentProc Unit).settle fun
            | .error _ => pure (.stop, cost)
            | .ok _ => pure (.again, cost)

/-- The loop with a number of attempts left, and what comes after it. -/
def loop : ℕ → LoopState → AgentProc ConductSessionResult
  | 0, vars => pure (session.fallback vars)
  | left + 1, vars => do
    let vars := { vars with attempts := vars.attempts + 1 }
    match ← session.attempt vars with
    | .concluded result => pure result
    | .failed error state =>
      let vars := { vars with currentError := some error, state := state }
      match ← recover error vars with
      | (.again, cost) => loop left { vars with accumulatedCost := cost }
      | (.stop, cost) => pure (session.fallback { vars with accumulatedCost := cost })
      | (.safeMode, _) => pure session.safeMode

end StorySession

/-- `maxAttempts` -/
def maxAttempts : ℕ := 3

/-- The observation of a session. -/
def observeStory (config : SessionConfig) (context : AgentContext) (state : SessionState)
    (memoryContext : Text) : StoryObservation where
  theme := config.theme
  childName := context.childName
  childAge := context.childAge
  currentMood := context.currentMood
  activeGoal := (hydrateActiveGoal state).map fun goal =>
    goal.type.text ++ lit " (" ++ goal.description ++ lit ")"
  envContext := (context.envContext.map fun env =>
    env.timeOfDay ++ lit ", " ++ env.weatherCondition).getD (lit "Unknown")
  memoryContext := orText (some memoryContext) (lit "None")

/-- The session of a call at a time: `validatedContext.sessionId || …` -/
def AgentContext.sessionFor (context : AgentContext) (now : Time) : Text :=
  orText context.sessionId (lit "session_" ++ showInt now.ms)

/-- `validatedContext.userId || 'anon'` -/
def AgentContext.userFor (context : AgentContext) : Text := orText context.userId (lit "anon")

/-- What a conducted session works on, once the memories are gathered. -/
def storySession (agent : BedtimeConductorAgent) (coerced : Json → Except JsError Bool) (now : Time)
    (config : SessionConfig) (context : AgentContext) (state : SessionState) (memoryContext : Text) :
    StorySession where
  agent := agent
  coerced := coerced
  config := config
  context := context
  sessionId := context.sessionFor now
  userId := context.userFor
  memoryContext := memoryContext
  observation := observeStory config context state memoryContext

/-- The variables of the loop before the first attempt. -/
def LoopState.initial (state : SessionState) : LoopState := ⟨0, none, .finite 0, state⟩

/-- `conductStorySession`, called at `now` and with `startTime` as the time at which it starts the
session. -/
def conductStorySession (agent : BedtimeConductorAgent) (coerced : Json → Except JsError Bool)
    (now startTime : Time) (config : SessionConfig) (context : AgentContext) :
    AgentProc ConductSessionResult :=
  if config.isValid && context.isValid then do
    let held ← onSessions (getOrInitState (context.sessionFor now) context.userFor)
    let state ← startSession (context.sessionFor now) startTime held
    let memoryContext ← gatherMemories agent config.theme context.userFor (context.sessionFor now)
    (storySession agent coerced now config context state memoryContext).loop maxAttempts
      (LoopState.initial state)
  else throw schemaError

end DreamWeaver.Conductor
