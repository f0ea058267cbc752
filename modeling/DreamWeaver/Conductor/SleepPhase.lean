import DreamWeaver.Conductor.AgentOperations
import DreamWeaver.Conductor.Isolation

/-! # The phase of a session

What the start of a session has and every change keeps, every session has in every state that the
operations of the agent and the routes reach, whatever their order at the awaits (`kept_of_runs`). The
phase is such a thing: no operation sends `STORY_START`, so that no session leaves `ONBOARDING`, where a
sleep cue changes nothing. -/

namespace DreamWeaver.Conductor

open Proc

/-! ## What every change keeps -/

/-- A property of states that new sessions have and that no change takes away. -/
structure Lasting (K : SessionState → Prop) : Prop where
  initial : ∀ s u, K (initialState s u)
  change : ∀ (change : Change) (held : SessionState), K held → K (change.apply held)
  start : ∀ (now : Time) (held : SessionState), K held → K (withStart now held)
  context : ∀ (context : SessionContext) (held : SessionState), K held → K { held with context := context }

/-- The effect writes what has the property, as far as the states that are held have it. -/
def Writes (K : SessionState → Prop) : AgentEffect → Prop
  | .session (.setSession _ (.literal state)) => K state
  | .session (.setSession _ (.changed held _)) => K held
  | .startSession _ held _ => K held
  | _ => True

/-- A state that is read has the property. -/
def Reads (K : SessionState → Prop) : (effect : AgentEffect) → Except JsError effect.Reply → Prop
  | .session (.getSession _), .ok found => ∀ state, found = some state → K state
  | _, _ => True

/-- The contract of a procedure on sessions: it writes what has the property, if it reads such states. -/
abbrev Respects {α : Type} (K : SessionState → Prop) (p : SessionProc α)
    (Q : Except JsError α → Prop) : Prop :=
  p.Meets (fun effect => Writes K (.session effect)) (fun effect => Reads K (.session effect)) Q

section Respects

variable {K : SessionState → Prop} (hK : Lasting K) {α : Type} {s u : Text} {held : SessionState}
  {agent : BedtimeConductorAgent}

/-- An effect that writes no session. -/
theorem respects_other {effect : SessionEffect} (h : Writes K (.session effect)) :
    Respects K (perform effect) fun _ => True := meets_perform h fun _ _ => trivial

theorem respects_changed {change : Change} (h : K held) :
    Respects K (setSession s (.changed held change)) fun _ => True := respects_other h

theorem respects_caught {p : SessionProc α} {a : JsError → α} (h : Respects K p fun _ => True) :
    Respects K (p.catchWith fun e => pure (a e)) fun _ => True := by
  refine Meets.catchWith (h.imp fun r _ => ?_)
  cases r <;> trivial

theorem respects_liveTool {traceId : Option Text} {call : ToolCall} :
    Respects K (liveTool u traceId call) fun _ => True := by
  have hexecute : ∀ state, Respects K (executeTool u traceId state call) fun _ => True :=
    fun state => Meets.bind_true (respects_other trivial) fun _ => trivial
  refine respects_caught (Meets.bind_true (respects_other trivial) fun found => ?_)
  cases found with
  | none => trivial
  | some state =>
    dsimp only
    split
    · trivial
    · cases call.toolCallId with
      | none => exact hexecute state
      | some toolCallId =>
        dsimp only
        split
        · trivial
        · exact Meets.bind_true (respects_other trivial) fun _ => hexecute state

include hK

theorem respects_getOrInitState :
    Respects K (getOrInitState s u) fun r => ∀ state, r = .ok state → K state := by
  refine Meets.bind (meets_perform trivial fun reply hreply => ?_)
  cases reply with
  | error e => exact fun _ h => nomatch h
  | ok found =>
    cases found with
    | none =>
      have hnew : Writes K (.session (.setSession s (.literal (initialState s u)))) := hK.initial s u
      refine Meets.bind ((respects_other hnew).imp fun r _ => ?_)
      cases r with
      | error e => exact fun _ h => nomatch h
      | ok _ =>
        rintro state ⟨⟩
        exact hK.initial s u
    | some state =>
      have hstate : K state := hreply state rfl
      dsimp only
      cases unlistedGoal state with
      | none =>
        rintro state' ⟨⟩
        exact hstate
      | some goal =>
        refine Meets.bind ((respects_changed hstate).imp fun r _ => ?_)
        cases r with
        | error e => exact fun _ h => nomatch h
        | ok _ =>
          rintro state' ⟨⟩
          exact hK.change .listGoal state hstate

/-- An operation that starts on the state of its session. -/
theorem respects_started {k : SessionState → SessionProc α}
    (h : ∀ state, K state → Respects K (k state) fun _ => True) :
    Respects K (getOrInitState s u >>= k) fun _ => True := by
  refine Meets.bind ((respects_getOrInitState hK).imp fun r hr => ?_)
  cases r with
  | error e => trivial
  | ok state => exact h state (hr state rfl)

theorem respects_setGoal {goal : ActiveGoalProps} : Respects K (setGoal s u goal) fun _ => True :=
  respects_started hK fun _ hstate => respects_changed hstate

theorem respects_handleStoryBeat {beatIndex totalBeats : JsNumber} {now : Time} :
    Respects K (handleStoryBeat s u beatIndex totalBeats now) fun _ => True := by
  refine respects_started hK fun state hstate => ?_
  cases beatGoal state with
  | none => trivial
  | some goal => exact respects_changed hstate

theorem respects_handleSleepCueDetected {hasMemory : Bool} :
    Respects K (handleSleepCueDetected hasMemory s u) fun _ => True := by
  unfold handleSleepCueDetected
  split
  · trivial
  · refine respects_started hK fun state hstate => ?_
    cases suggestedTheme state with
    | none => trivial
    | some theme =>
      dsimp only
      split
      · refine Meets.bind_true (respects_other trivial) fun _ => ?_
        exact Meets.bind_true (respects_other trivial) fun _ => respects_changed hstate
      · trivial

theorem respects_suggest {rejected suggestion : Option Text} :
    Respects K (agent.suggest s u rejected suggestion) fun _ => True := by
  cases suggestion with
  | none => trivial
  | some theme =>
    refine respects_started hK fun state hstate => Meets.bind_true (respects_changed hstate) fun _ => ?_
    cases rejected with
    | none => trivial
    | some rejectedTheme =>
      rw [BedtimeConductorAgent.trackPreference]
      split
      · exact respects_other trivial
      · trivial

theorem respects_think {traceId : Option Text} {observation : Observation} {breach : Option JsError}
    {rejected : Option Text} :
    Respects K (agent.think s u traceId observation breach rejected) fun _ => True := by
  cases breach with
  | some error => trivial
  | none =>
    refine Meets.bind_true (respects_other trivial) fun thought => ?_
    refine Meets.bind_true ?_ fun _ => Meets.bind_true (respects_suggest hK) fun _ => trivial
    rw [BedtimeConductorAgent.saveTrace]
    split
    · exact respects_caught (respects_other trivial)
    · trivial

theorem respects_processTurn {message : Text} {traceId : Option Text} :
    Respects K (agent.processTurn u s message traceId) fun _ => True := by
  refine respects_started hK fun state hstate => Meets.bind_true ?_ fun _ => ?_
  · cases turnVerdict agent.hasMemory message state with
    | none => trivial
    | some positive => exact respects_other trivial
  · refine Meets.bind_true (respects_changed hstate) fun _ => Meets.bind_true ?_ fun memoryContext =>
      respects_caught (respects_think hK)
    rw [BedtimeConductorAgent.recallMemories]
    split
    · exact respects_other trivial
    · trivial

theorem respects_request (request : Request) :
    Respects K (request.task agent u) fun _ => True := by
  cases request with
  | conversationTurn traceId sessionId message =>
    refine Meets.bind_true (respects_caught ?_) fun _ => trivial
    refine Meets.bind_true (respects_other trivial) fun _ => ?_
    refine Meets.bind_true (respects_processTurn hK) fun result => ?_
    exact Meets.bind_true (respects_other trivial) fun _ => trivial
  | liveInit traceId newId body =>
    refine Meets.bind_true (respects_caught ?_) fun _ => trivial
    refine Meets.bind_true (respects_other trivial) fun config => ?_
    have hnew : K { initialState (orText body.sessionId newId) u with context := { traceId := traceId } } :=
      hK.context _ _ (hK.initial _ u)
    refine Meets.bind_true (respects_other hnew) fun _ => ?_
    exact Meets.bind_true (respects_other trivial) fun ticket => trivial
  | liveTool traceId call => exact Meets.bind_true respects_liveTool fun _ => trivial

/-! ## The operations of the agent -/

variable {coerced : Json → Except JsError Bool} {session : StorySession} {vars : LoopState}

/-- The contract, for the procedures of the agent. -/
abbrev AgentRespects {α : Type} (K : SessionState → Prop) (p : AgentProc α)
    (Q : Except JsError α → Prop) : Prop :=
  p.Meets (Writes K) (Reads K) Q

omit hK in
theorem agentRespects_other {effect : AgentEffect} (h : Writes K effect) :
    AgentRespects K (perform effect) fun _ => True := meets_perform h fun _ _ => trivial

omit hK in
theorem agentRespects_onSessions {p : SessionProc α} {Q : Except JsError α → Prop} (h : Respects K p Q) :
    AgentRespects K (onSessions p) Q := Meets.embed h

omit hK in
theorem agentRespects_gatherMemories {theme : Text} :
    AgentRespects K (gatherMemories agent theme u s) fun _ => True := by
  unfold gatherMemories
  split
  · refine Meets.bind_true (Meets.catchWith ?_) fun preferences => ?_
    · refine Meets.imp (Meets.bind_true (agentRespects_other trivial) fun _ => trivial) fun r _ => ?_
      cases r <;> trivial
    · exact Meets.bind_true (agentRespects_other trivial) fun _ => trivial
  · trivial

/-- An attempt leaves in its variable, and in the store, what has the property. -/
theorem agentRespects_attempt (hvars : K vars.state) : AgentRespects K (session.attempt vars)
    fun r => ∀ error state, r = .ok (.failed error state) → K state := by
  have hreason : AgentRespects K (session.reason vars.state) fun _ => True := by
    refine Meets.bind_true (agentRespects_other trivial) fun raw => ?_
    refine Meets.bind_true (meets_done trivial) fun proposed => ?_
    refine Meets.bind_true (meets_done trivial) fun step => Meets.bind_true ?_ fun _ => trivial
    unfold StorySession.saveTrace
    split
    · refine Meets.catchWith (meets_perform trivial fun reply _ => ?_)
      cases reply <;> trivial
    · trivial
  refine Meets.settle (hreason.imp fun r _ => ?_)
  cases r with
  | error e =>
    rintro error state ⟨⟩
    exact hvars
  | ok step =>
    refine Meets.settle ((agentRespects_onSessions (respects_getOrInitState hK)).imp fun r hstate => ?_)
    cases r with
    | error e =>
      rintro error state ⟨⟩
      exact hvars
    | ok held =>
      have hheld := hstate held rfl
      refine Meets.settle ((agentRespects_onSessions (respects_changed hheld)).imp fun r _ => ?_)
      cases r with
      | error e =>
        rintro error state ⟨⟩
        exact hK.change (.theme session.config.theme) held hheld
      | ok _ => exact fun error state h => nomatch h

omit hK in
theorem agentRespects_recover {error : JsError} :
    AgentRespects K (StorySession.recover error vars) fun _ => True := by
  unfold StorySession.recover
  refine Meets.settle (meets_perform trivial fun reply _ => ?_)
  cases reply with
  | error e => trivial
  | ok plan =>
    dsimp only
    split
    · trivial
    · trivial
    · trivial
    all_goals
      split
      · trivial
      · refine Meets.settle (meets_perform trivial fun reply _ => ?_)
        cases reply <;> trivial

theorem agentRespects_loop (left : ℕ) (hvars : K vars.state) :
    AgentRespects K (session.loop left vars) fun _ => True := by
  induction left generalizing vars with
  | zero => trivial
  | succ left ih =>
    unfold StorySession.loop
    refine Meets.bind ((agentRespects_attempt hK hvars).imp fun r hstate => ?_)
    rcases r with e | result | ⟨error, state⟩
    · trivial
    · trivial
    · refine Meets.bind (agentRespects_recover.imp fun r _ => ?_)
      rcases r with e | ⟨_ | _ | _, cost⟩
      · trivial
      · exact ih (hstate error state rfl)
      · trivial
      · trivial

theorem agentRespects_conductStorySession {now startTime : Time} {config : SessionConfig}
    {context : AgentContext} : AgentRespects K
      (conductStorySession agent coerced now startTime config context) fun _ => True := by
  unfold conductStorySession
  split
  · refine Meets.bind ((agentRespects_onSessions (respects_getOrInitState hK)).imp fun r hstate => ?_)
    cases r with
    | error e => trivial
    | ok held =>
      have hheld := hstate held rfl
      have hstart : AgentRespects K (startSession (context.sessionFor now) startTime held)
          fun r => ∀ state, r = .ok state → K state := by
        unfold startSession
        split
        · rintro state ⟨⟩
          exact hheld
        · refine Meets.bind (meets_perform hheld fun reply _ => ?_)
          cases reply with
          | error e => exact fun _ h => nomatch h
          | ok _ =>
            rintro state ⟨⟩
            exact hK.start startTime held hheld
      refine Meets.bind (hstart.imp fun r hstarted => ?_)
      cases r with
      | error e => trivial
      | ok state =>
        exact Meets.bind_true agentRespects_gatherMemories fun memoryContext =>
          agentRespects_loop hK _ (hstarted state rfl)
  · exact meets_done trivial

theorem agentRespects_task (op : ConductorOperation) :
    AgentRespects K (op.task agent coerced) fun _ => True := by
  cases op with
  | conductStorySession now startTime config context =>
    exact Meets.bind_true (agentRespects_conductStorySession hK) fun _ => trivial
  | processTurn userMessage context s u =>
    unfold ConductorOperation.task
    dsimp only
    split
    · exact Meets.bind_true (agentRespects_onSessions (respects_processTurn hK)) fun _ => trivial
    · exact meets_done trivial
  | setGoal s u type minutes now suffix => exact agentRespects_onSessions (respects_setGoal hK)
  | handleStoryBeat s u beatIndex totalBeats now =>
    exact agentRespects_onSessions (respects_handleStoryBeat hK)
  | handleSleepCueDetected s u =>
    exact agentRespects_onSessions (respects_handleSleepCueDetected hK)

end Respects

/-! ## All tasks -/

/-- What works on sessions: an operation of the agent, or a request to the routes on sessions. -/
inductive SessionTask where
  | operation (op : ConductorOperation)
  | request (userId : Text) (request : Request)

/-- The procedure of a task, without its result. -/
def SessionTask.task (agent : BedtimeConductorAgent) (coerced : Json → Except JsError Bool) :
    SessionTask → AgentProc Unit
  | .operation op => op.task agent coerced
  | .request userId body => do
    let _ ← onSessions (body.task agent userId)
    pure ()

variable {K : SessionState → Prop} {agent : BedtimeConductorAgent} {coerced : Json → Except JsError Bool}
  {sessions sessions' : SessionMap} {s u : Text}

/-- Every stored session has the property. -/
def Everywhere (K : SessionState → Prop) (sessions : SessionMap) : Prop :=
  ∀ s state, sessions s = some state → K state

theorem Everywhere.update {state : SessionState} (h : Everywhere K sessions) (hstate : K state)
    (t : Text) : Everywhere K (Function.update sessions t (some state)) := by
  intro s held hheld
  by_cases hs : s = t
  · subst hs
    rw [Function.update_self] at hheld
    exact Option.some.inj hheld ▸ hstate
  · rw [Function.update_of_ne hs] at hheld
    exact h s held hheld

/-- **A step keeps the property**, if it keeps to the contract. -/
theorem everywhere_step (hK : Lasting K) {effect : AgentEffect} {reply : Except JsError effect.Reply}
    (h : Everywhere K sessions) (hwrites : Writes K effect)
    (hreply : agentEnv sessions effect reply sessions') :
    Reads K effect reply ∧ Everywhere K sessions' := by
  cases effect with
  | session effect =>
    cases effect with
    | getSession s =>
      obtain ⟨rfl, hfound⟩ := hreply
      refine ⟨?_, h⟩
      cases reply with
      | error e => trivial
      | ok found =>
        intro state hstate
        exact h s state ((hfound found rfl).symm.trans hstate)
    | setSession s write =>
      refine ⟨trivial, ?_⟩
      cases reply with
      | error e => exact (show sessions' = sessions from hreply) ▸ h
      | ok _ =>
        rw [show sessions' = _ from hreply]
        cases write with
        | literal state => exact h.update hwrites s
        | changed held change => exact h.update (hK.change change held hwrites) s
    | patchContext s held toolCallId =>
      refine ⟨trivial, ?_⟩
      cases reply with
      | error e => exact (show sessions' = sessions from hreply) ▸ h
      | ok _ =>
        obtain ⟨current, hcurrent, hsessions'⟩ := hreply
        rw [hsessions']
        exact h.update (hK.context _ current (h s current hcurrent)) s
    | _ => exact ⟨trivial, (show sessions' = sessions from hreply) ▸ h⟩
  | startSession s held now =>
    refine ⟨trivial, ?_⟩
    cases reply with
    | error e => exact (show sessions' = sessions from hreply) ▸ h
    | ok _ =>
      rw [show sessions' = _ from hreply]
      exact h.update (hK.start now held hwrites) s
  | _ => exact ⟨trivial, (show sessions' = sessions from hreply) ▸ h⟩

variable {ι : Type} [DecidableEq ι] {log : List (ι × AgentEvent)}
  {c : Pool ι SessionMap AgentEffect AgentEffect.Reply Unit} {ok : SessionMap → AgentEffect → Prop}

/-- The tasks, before their first step. -/
def beforeTasks (agent : BedtimeConductorAgent) (coerced : Json → Except JsError Bool)
    (sessions : SessionMap) (tasks : ι → SessionTask) : Pool ι SessionMap AgentEffect AgentEffect.Reply Unit where
  state := sessions
  procs i := (tasks i).task agent coerced

/-- **What lasts, every interleaving keeps.** -/
theorem everywhere_of_runs (hK : Lasting K) {tasks : ι → SessionTask} (hinit : Everywhere K sessions)
    (h : Runs agentEnv ok (beforeTasks agent coerced sessions tasks) log c) : Everywhere K c.state := by
  have hstep : ∀ s e reply s', Everywhere K s → Writes K e → agentEnv s e reply s' →
      Reads K e reply ∧ Everywhere K s' :=
    fun _ _ _ _ hall hwrites hreply => everywhere_step hK hall hwrites hreply
  refine (Runs.keeps hstep hinit (fun i => ?_) h).1
  show ((tasks i).task agent coerced).Meets _ _ _
  cases tasks i with
  | operation op => exact agentRespects_task hK op
  | request u request =>
    exact Meets.bind_true (agentRespects_onSessions (respects_request hK request)) fun _ => trivial

/-! ## The phases that are reached -/

/-- A session that has not come to a story. -/
def BeforeStory (state : SessionState) : Prop := state.phase = .idle ∨ state.phase = .onboarding

/-- Changes other than that of a sleep cue leave the phase. -/
theorem phase_apply (change : Change) (held : SessionState) :
    (change.apply held).phase = held.phase ∨
      (change.apply held).phase = transition held.phase .sleepDetected := by
  cases change with
  | listGoal =>
    refine .inl ?_
    show (listGoal held).phase = held.phase
    rw [listGoal]
    cases unlistedGoal held <;> rfl
  | beat progress now =>
    refine .inl ?_
    rw [Change.apply]
    cases beatGoal held <;> rfl
  | sleep =>
    show (fallingAsleep held).phase = held.phase ∨ (fallingAsleep held).phase = _
    rw [fallingAsleep]
    split
    · exact .inr rfl
    · exact .inl rfl
  | goal goal => exact .inl rfl
  | turn verdict => exact .inl rfl
  | theme theme => exact .inl rfl

/-- **No session comes to a story**: no operation sends `STORY_START`. -/
theorem lasting_beforeStory : Lasting BeforeStory where
  initial s u := .inl rfl
  change change held h := by
    unfold BeforeStory
    rcases phase_apply change held with heq | heq
    · rw [heq]
      exact h
    · rw [heq]
      rcases h with h | h
      · rw [h]
        exact .inl rfl
      · rw [h]
        exact .inr rfl
  start now held h := by
    show transition held.phase .start = _ ∨ transition held.phase .start = _
    rcases h with h | h
    · rw [h]
      exact .inr rfl
    · rw [h]
      exact .inr rfl
  context context held h := h

/-- The session is asleep. -/
def Asleep (session : Option SessionState) : Prop := ∃ state, session = some state ∧ state.phase = .asleep

/-- **No sleep cue puts a session to sleep**: after any interleaving of operations and requests from an
empty store, with any replies, no session is asleep, whatever sleep cues have been handled. -/
theorem never_asleep (agent : BedtimeConductorAgent) (coerced : Json → Except JsError Bool)
    (tasks : ι → SessionTask)
    (h : Runs agentEnv (fun _ _ => True) (beforeTasks agent coerced (fun _ => none) tasks) log c)
    (s : Text) : ¬ Asleep (c.state s) := by
  rintro ⟨state, hstate, hphase⟩
  have hinit : Everywhere BeforeStory fun _ => none := fun _ _ h => nomatch h
  have hbefore := everywhere_of_runs lasting_beforeStory hinit h s state hstate
  rw [BeforeStory, hphase] at hbefore
  rcases hbefore with hphase | hphase
  · cases hphase
  · cases hphase

/-- A session that is started, a turn that suggests a theme, and a sleep cue. -/
def eveningTasks : Fin 3 → SessionTask
  | 0 => .operation (.conductStorySession ⟨0, Time.inRange_zero⟩ ⟨0, Time.inRange_zero⟩ { theme := lit "ocean" }
      { sessionId := some (lit "evening"), userId := some ana })
  | 1 => .operation (turnOf "hello")
  | 2 => .operation (.handleSleepCueDetected (lit "evening") ana)

/-- The tasks on an empty store, one after the other, where every effect succeeds. -/
def evening : List (Fin 3 × AgentEvent) × Pool (Fin 3) SessionMap AgentEffect AgentEffect.Reply Unit :=
  drive (fun _ _ => True) (agentSucceeding suggesting none givingUp)
    (List.replicate 10 0 ++ List.replicate 10 1 ++ List.replicate 10 2) []
    (beforeTasks rememberingConductor (fun _ => .ok false) (fun _ => none) eveningTasks)

/-- The session was started, a theme was pending, and its sleep cue has been handled; the session is not
asleep. -/
theorem evening_awake :
    Runs agentEnv (fun _ _ => True) (beforeTasks rememberingConductor (fun _ => .ok false) (fun _ => none)
        eveningTasks) evening.1 evening.2 ∧
      (∀ i, (evening.2.procs i).succeeded = true) ∧
      (∃ state, evening.2.state (lit "evening") = some state ∧ state.sessionStartTime.isSome = true ∧
        state.phase = .onboarding) ∧
      ¬ Asleep (evening.2.state (lit "evening")) := by
  have hphase : (evening.2.state (lit "evening")).map (fun state =>
      (state.sessionStartTime.isSome, state.phase)) = some (true, .onboarding) := by decide +kernel
  obtain ⟨state, hstate, hshown⟩ := Option.map_eq_some_iff.mp hphase
  obtain ⟨hstarted, honboarding⟩ := Prod.mk.inj hshown
  refine ⟨drive_runs (fun e s _ => agentEnv_succeeding suggesting none givingUp e s) _ .start,
    by decide +kernel, ⟨state, hstate, hstarted, honboarding⟩, ?_⟩
  rintro ⟨state', hstate', hasleep⟩
  rw [hstate] at hstate'
  rw [← Option.some.inj hstate', honboarding] at hasleep
  cases hasleep

theorem never_asleep_evening : ¬ Asleep (evening.2.state (lit "evening")) :=
  never_asleep rememberingConductor (fun _ => .ok false) eveningTasks
    (drive_runs (fun e s _ => agentEnv_succeeding suggesting none givingUp e s) _ .start) _

end DreamWeaver.Conductor
