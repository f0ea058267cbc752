import DreamWeaver.Conductor.AgentOperations
import DreamWeaver.Conductor.AmbientContextService

/-! # Adventures at a late hour

Near bedtime the engine calms an adventure down: it tests the time of day for `Night` and `Evening`. The
ambient context has `night` and `evening`, so that the rule is silent at every hour, and what a conducted
session adopts of an adventure is calm only where the phase of the session or the model has seen to it. -/

namespace DreamWeaver.Ambient

/-- The hour is late. -/
def TimeOfDay.IsLate (time : TimeOfDay) : Prop := time = .evening ∨ time = .night

/-- The late hours are those from five in the afternoon to five in the morning. -/
theorem isLate_timeOfDay_iff {hour : ℕ} (hhour : hour < 24) :
    (timeOfDay hour).IsLate ↔ 17 ≤ hour ∨ hour < 5 := by
  rw [TimeOfDay.IsLate, timeOfDay]
  split
  · rename_i h
    exact iff_of_false (by simp) (by omega)
  split
  · rename_i h
    exact iff_of_false (by simp) (by omega)
  split
  · rename_i h
    exact iff_of_true (.inl rfl) (.inl h.1)
  · exact iff_of_true (.inr rfl) (by omega)

end DreamWeaver.Ambient

namespace DreamWeaver.Conductor

open Ambient Proc

/-! ## Steps that are calm -/

/-- The thought proposes an adventure, with a confidence above 0.5. -/
def ThoughtStep.ProposesAdventure (coerced : Json → Except JsError Bool) (step : ThoughtStep) : Prop :=
  step.action = some (.str (lit "ADVENTURE_STORY")) ∧ exceedsHalf coerced step.confidence = .ok true

/-- The step has a low energy and records a trade-off. -/
def ThoughtStep.Calmed (step : ThoughtStep) : Prop :=
  (step.parameters.bind fun parameters => parameters.get (lit "energyLevel")) = some (.str (lit "low")) ∧
    isTruthy step.tradeOffMade = true

namespace AtomOfThoughtEngine

variable {coerced : Json → Except JsError Bool} {proposed step next : ThoughtStep}

/-- The rule for late hours is silent at every time of day that the service knows. -/
theorem calmAdventure_seen (time : TimeOfDay) : calmAdventure coerced time.text step = .ok step := by
  have hsilent : (includes time.text (lit "Night") || includes time.text (lit "Evening")) = false := by
    cases time with
    | morning => decide
    | afternoon => decide
    | evening => decide
    | night => decide
  rw [calmAdventure, hsilent, if_neg Bool.false_ne_true]
  rfl

/-- A rule that leaves the parameters and the trade-off alone. -/
def KeepsChoice (step next : ThoughtStep) : Prop :=
  next.parameters = step.parameters ∧ next.tradeOffMade = step.tradeOffMade

theorem KeepsChoice.calmed_iff (h : KeepsChoice step next) : next.Calmed ↔ step.Calmed := by
  rw [ThoughtStep.Calmed, h.1, h.2, ThoughtStep.Calmed]

theorem keepsChoice_storytelling (h : storytelling step = .ok next) : KeepsChoice step next := by
  obtain ⟨relaxation, -, h⟩ := exists_of_bind_ok h
  cases relaxation with
  | true =>
    cases h
    exact ⟨rfl, rfl⟩
  | false =>
    obtain ⟨education, -, h⟩ := exists_of_bind_ok h
    cases education with
    | true =>
      cases h
      exact ⟨rfl, rfl⟩
    | false =>
      obtain ⟨goals, -, h⟩ := exists_of_bind_ok h
      cases h
      exact ⟨rfl, rfl⟩

theorem keepsChoice_safetyFirst (h : safetyFirst step = .ok next) : KeepsChoice step next := by
  obtain ⟨considered, -, h⟩ := exists_of_bind_ok h
  cases considered with
  | true =>
    cases h
    exact ⟨rfl, rfl⟩
  | false =>
    obtain ⟨goals, -, h⟩ := exists_of_bind_ok h
    cases h
    exact ⟨rfl, rfl⟩

theorem keepsChoice_someGoal (goals : List Text) : KeepsChoice step (someGoal goals step) := by
  unfold someGoal
  split
  · exact ⟨rfl, rfl⟩
  · exact ⟨rfl, rfl⟩

/-- While winding down an adventure is calmed. -/
theorem calmed_windDown (haction : step.action = some (.str (lit "ADVENTURE_STORY")))
    (h : windDown step = .ok next) : next.Calmed := by
  have hadventure : includesText (lit "validated.action") (lit "ADVENTURE") step.action = .ok true := by
    rw [haction]
    rfl
  rw [windDown, hadventure] at h
  cases h
  exact ⟨rfl, rfl⟩

/-- **What arbitration makes of an adventure** at a time of day of the service: a calm step exactly while
winding down, or if the thought is calm itself. -/
theorem calmed_arbitrate_iff {time : TimeOfDay} {context : ArbitrationContext} (htime : context.timeOfDay = time.text)
    (hproposes : proposed.ProposesAdventure coerced) (h : arbitrate coerced proposed context = .ok step) :
    step.Calmed ↔ context.currentPhase = .windDown ∨ proposed.Calmed := by
  obtain ⟨phased, hphased, h⟩ := exists_of_bind_ok h
  obtain ⟨safe, hsafe, h⟩ := exists_of_bind_ok h
  rw [htime] at h
  obtain ⟨calmed, hcalmed, h⟩ := exists_of_bind_ok h
  obtain rfl := Except.ok.inj ((calmAdventure_seen time).symm.trans hcalmed)
  obtain rfl := Except.ok.inj h
  rw [(keepsChoice_someGoal _).calmed_iff, (keepsChoice_safetyFirst hsafe).calmed_iff]
  -- what is left is the rule of the phase
  cases hphase : context.currentPhase with
  | windDown =>
    rw [hphase] at hphased
    exact iff_of_true (calmed_windDown hproposes.1 hphased) (.inl rfl)
  | storytelling =>
    rw [hphase] at hphased
    rw [(keepsChoice_storytelling hphased).calmed_iff]
    exact (or_iff_right (by decide)).symm
  | idle | onboarding | reflection | asleep =>
    rw [hphase] at hphased
    obtain rfl := Except.ok.inj hphased
    exact (or_iff_right (by decide)).symm

end AtomOfThoughtEngine

/-! ## Steps that a session adopts -/

/-- A phase that the loop can hold: one that was read of the session, or that of a new one, possibly with the
session started in it. -/
def PhaseRead (sessionId : Text) (events : List AgentEvent) (phase : SessionPhase) : Prop :=
  ∃ read, (read = .idle ∨ ∃ state, ⟨.session (.getSession sessionId), .ok (some state)⟩ ∈ events ∧
      state.phase = read) ∧ (phase = read ∨ phase = transition read .start)

/-- A thought that was arbitrated: the state that the loop held, what the model proposed, and the step that
the engine made of it. -/
structure Adoption where
  held : SessionState
  proposed : ThoughtStep
  step : ThoughtStep

/-- The thought is one of the model's, arbitrated in the session. -/
structure StorySession.Adopts (session : StorySession) (events : List AgentEvent) (adoption : Adoption) : Prop where
  thought : ∃ raw, ⟨.think session.observation session.context.traceId, .ok raw⟩ ∈ events ∧
    readThought raw = .ok adoption.proposed
  arbitrated : AtomOfThoughtEngine.arbitrate session.coerced adoption.proposed
    (session.arbitrationContext adoption.held) = .ok adoption.step
  phase : PhaseRead session.sessionId events adoption.held.phase

/-- The result is that of the adopted step. -/
def StorySession.Gives (session : StorySession) (adoption : Adoption) (result : ConductSessionResult) : Prop :=
  result.refinedRequest = session.refined adoption.step ∧
    ∃ vars, result.reasoningTrace = [StorySession.attemptTrace vars adoption.step]

/-- A result for which no thought was adopted. -/
def StorySession.Unadopted (session : StorySession) (result : ConductSessionResult) : Prop :=
  result = session.safeMode ∨ ∃ vars, result = session.fallback vars

/-- How a session concludes. -/
def StorySession.Concludes (session : StorySession) (events : List AgentEvent) (result : ConductSessionResult) :
    Prop :=
  session.Unadopted result ∨ ∃ adoption, session.Adopts events adoption ∧ session.Gives adoption result

variable {session : StorySession} {vars : LoopState} {past events : List AgentEvent} {sessionId userId : Text}
  {phase : SessionPhase}

theorem PhaseRead.mono (h : PhaseRead sessionId past phase) (hmore : past <+: events) :
    PhaseRead sessionId events phase := by
  obtain ⟨read, hread, hphase⟩ := h
  refine ⟨read, hread.imp_right fun ⟨state, hmem, hstate⟩ => ?_, hphase⟩
  exact ⟨state, hmore.subset hmem, hstate⟩

/-- Listing a goal does not change the phase. -/
theorem phase_listGoal (state : SessionState) : (listGoal state).phase = state.phase := by
  unfold listGoal
  split
  · rfl
  · rfl

/-- The state that is read or made has a phase that is read. -/
theorem ends_getOrInitState_phase : (onSessions (getOrInitState sessionId userId)).Ends
    (fun events r => ∀ state, r = .ok state → PhaseRead sessionId events state.phase) past := by
  rw [onSessions, getOrInitState, embed_bind]
  refine Ends.bind (ends_perform fun reply => ?_)
  cases reply with
  | error e => exact fun _ h => by cases h
  | ok found =>
    cases found with
    | none =>
      dsimp only
      rw [setSession, embed_bind]
      refine Ends.bind (ends_perform fun reply => ?_)
      cases reply with
      | error e => exact fun _ h => by cases h
      | ok _ =>
        rintro state ⟨⟩
        exact ⟨.idle, .inl rfl, .inl rfl⟩
    | some state =>
      have hread : ∀ {more : List AgentEvent}, PhaseRead sessionId
          (past ++ [⟨.session (.getSession sessionId), .ok (some state)⟩] ++ more) state.phase :=
        ⟨state.phase, .inr ⟨state, by simp, rfl⟩, .inl rfl⟩
      dsimp only
      cases hunlisted : unlistedGoal state with
      | none =>
        rintro _ ⟨⟩
        have hnow := @hread []
        rwa [List.append_nil] at hnow
      | some goal =>
        dsimp only
        rw [setSession, embed_bind]
        refine Ends.bind (ends_perform fun reply => ?_)
        cases reply with
        | error e => exact fun _ h => by cases h
        | ok _ =>
          rintro _ ⟨⟩
          rw [phase_listGoal]
          exact hread

namespace StorySession

/-- Reasoning arbitrates a thought of the model. -/
theorem ends_reason_step (state : SessionState) : (session.reason state).Ends (fun events r => ∀ step, r = .ok step →
    ∃ raw proposed, ⟨.think session.observation session.context.traceId, .ok raw⟩ ∈ events ∧
      readThought raw = .ok proposed ∧
      AtomOfThoughtEngine.arbitrate session.coerced proposed (session.arbitrationContext state) = .ok step) past := by
  unfold reason
  refine Ends.bind (ends_perform fun reply => ?_)
  cases reply with
  | error e => exact fun _ h => by cases h
  | ok raw =>
    refine Ends.bind (ends_done ?_)
    cases hread : readThought raw with
    | error e => exact fun _ h => by cases h
    | ok proposed =>
      refine Ends.bind (ends_done ?_)
      cases harbitrated : AtomOfThoughtEngine.arbitrate session.coerced proposed (session.arbitrationContext state) with
      | error e => exact fun _ h => by cases h
      | ok step =>
        have hany : (session.saveTrace (storyTraceOf step)).Ends (fun _ _ => True)
            (past ++ [⟨.think session.observation session.context.traceId, .ok raw⟩]) :=
          ends_of_forall fun _ _ => trivial
        refine Ends.bind (hany.frame.imp ?_)
        rintro events r ⟨hmore, -⟩
        cases r with
        | error e => exact fun _ h => by cases h
        | ok _ =>
          rintro _ ⟨⟩
          exact ⟨raw, proposed, hmore.subset (by simp), hread, harbitrated⟩

/-- **An attempt that concludes adopts a thought**; one that fails leaves a phase that was read. -/
theorem ends_attempt_adopts (hphase : PhaseRead session.sessionId past vars.state.phase) :
    (session.attempt vars).Ends (fun events r => ∀ outcome, r = .ok outcome → match outcome with
      | .concluded result => ∃ adoption, session.Adopts events adoption ∧ session.Gives adoption result
      | .failed _ state => PhaseRead session.sessionId events state.phase) past := by
  unfold attempt
  refine Ends.settle ((ends_reason_step vars.state).frame.imp ?_)
  rintro events r ⟨hmore, hstep⟩
  cases r with
  | error e =>
    -- what fails before the state is read again leaves the one that was held
    rintro _ ⟨⟩
    exact hphase.mono hmore
  | ok step =>
    obtain ⟨raw, proposed, hraw, hread, harbitrated⟩ := hstep step rfl
    refine Ends.settle (ends_getOrInitState_phase.frame.imp ?_)
    rintro events₁ r ⟨hmore₁, hstate⟩
    cases r with
    | error e =>
      rintro _ ⟨⟩
      exact (hphase.mono hmore).mono hmore₁
    | ok state =>
      refine Ends.settle (ends_perform fun reply => ?_)
      have hmore₂ : events₁ <+: events₁ ++ [⟨.session (.setSession session.sessionId
          (.changed state (.theme session.config.theme))), reply⟩] := List.prefix_append _ _
      cases reply with
      | error e =>
        rintro _ ⟨⟩
        exact (hstate state rfl).mono hmore₂
      | ok _ =>
        rintro _ ⟨⟩
        refine ⟨⟨vars.state, proposed, step⟩, ?_, rfl, vars, rfl⟩
        exact {
          thought := ⟨raw, hmore₂.subset (hmore₁.subset hraw), hread⟩
          arbitrated := harbitrated
          phase := ((hphase.mono hmore).mono hmore₁).mono hmore₂ }

/-- **The loop**, and what comes after it. -/
theorem ends_loop_concludes (left : ℕ) (hphase : PhaseRead session.sessionId past vars.state.phase) :
    (session.loop left vars).Ends (fun events r => ∀ result, r = .ok result → session.Concludes events result)
      past := by
  induction left generalizing vars past with
  | zero =>
    rintro _ ⟨⟩
    exact .inl (.inr ⟨vars, rfl⟩)
  | succ left ih =>
    -- counting the attempt leaves the state that is held alone
    have hattempts : PhaseRead session.sessionId past { vars with attempts := vars.attempts + 1 }.state.phase := hphase
    unfold loop
    refine Ends.bind ((ends_attempt_adopts hattempts).imp ?_)
    intro events r hattempt
    cases r with
    | error e => exact fun _ h => by cases h
    | ok outcome =>
      have houtcome := hattempt outcome rfl
      cases outcome with
      | concluded result =>
        rintro _ ⟨⟩
        exact .inr houtcome
      | failed error state =>
        have hany : ∀ vars, (recover error vars).Ends (fun _ _ => True) events :=
          fun vars => ends_of_forall fun _ _ => trivial
        refine Ends.bind ((hany _).frame.imp ?_)
        rintro events' r ⟨hmore, -⟩
        cases r with
        | error e => exact fun _ h => by cases h
        | ok recovered =>
          obtain ⟨recovery, cost⟩ := recovered
          cases recovery with
          | again => exact ih (houtcome.mono hmore)
          | stop =>
            rintro _ ⟨⟩
            exact .inl (.inr ⟨_, rfl⟩)
          | safeMode =>
            rintro _ ⟨⟩
            exact .inl (.inl rfl)

end StorySession

/-! ## Adventures of a conducted session -/

variable {agent : BedtimeConductorAgent} {coerced : Json → Except JsError Bool} {now startTime : Time}
  {config : SessionConfig} {context : AgentContext}

/-- A session that has started does not start again. -/
theorem transition_start_start (read : SessionPhase) :
    transition (transition read .start) .start = transition read .start := by
  cases read with
  | idle | onboarding | storytelling | reflection | windDown | asleep => rfl

/-- Starting the session leaves a phase that was read, or that of a session that starts. -/
theorem ends_startSession_phase {held : SessionState} (hread : PhaseRead sessionId past held.phase) :
    (startSession sessionId now held).Ends
      (fun events r => ∀ state, r = .ok state → PhaseRead sessionId events state.phase) past := by
  unfold startSession
  split
  · rintro _ ⟨⟩
    exact hread
  · refine Ends.bind (ends_perform fun reply => ?_)
    have hmore := hread.mono (List.prefix_append past [⟨.startSession sessionId held now, reply⟩])
    cases reply with
    | error e => exact fun _ h => by cases h
    | ok _ =>
      rintro _ ⟨⟩
      obtain ⟨read, hevent, hphase⟩ := hmore
      refine ⟨read, hevent, .inr ?_⟩
      show transition held.phase .start = transition read .start
      rcases hphase with heq | heq
      · rw [heq]
      · rw [heq, transition_start_start]

/-- **What a conducted session concludes** with: a result for which no thought was adopted, or that of a
thought of the model, arbitrated in a phase of the session. -/
theorem ends_conductStorySession_concludes :
    (conductStorySession agent coerced now startTime config context).Ends (fun events r => ∀ result, r = .ok result →
      ∃ state memoryContext,
        (storySession agent coerced now config context state memoryContext).Concludes events result) [] := by
  unfold conductStorySession
  split
  · refine Ends.bind (ends_getOrInitState_phase.imp ?_)
    intro events r hheld
    cases r with
    | error e => exact fun _ h => by cases h
    | ok held =>
      refine Ends.bind ((ends_startSession_phase (hheld held rfl)).imp ?_)
      intro events₁ r hstarted
      cases r with
      | error e => exact fun _ h => by cases h
      | ok state =>
        -- what the memories are says nothing about the phase
        have hany : (gatherMemories agent config.theme context.userFor (context.sessionFor now)).Ends
            (fun _ _ => True) events₁ := ends_of_forall fun _ _ => trivial
        refine Ends.bind (hany.frame.imp ?_)
        rintro events₂ r ⟨hmore, -⟩
        cases r with
        | error e => exact fun _ h => by cases h
        | ok memoryContext =>
          have hphase : PhaseRead (storySession agent coerced now config context state memoryContext).sessionId events₂
              (LoopState.initial state).state.phase := (hstarted state rfl).mono hmore
          exact (StorySession.ends_loop_concludes maxAttempts hphase).imp fun events r h result hresult =>
            ⟨state, memoryContext, h result hresult⟩
  · exact fun _ h => by cases h

/-- Of an adoption at a time of day: an adventure that is adopted late is calm. -/
def Adoption.MeetsBedtime (coerced : Json → Except JsError Bool) (time : TimeOfDay) (adoption : Adoption) : Prop :=
  time.IsLate → adoption.proposed.ProposesAdventure coerced → adoption.step.Calmed

/-- What makes it calm: the session winds down, or the thought is calm already. -/
def Adoption.SeenTo (coerced : Json → Except JsError Bool) (time : TimeOfDay) (adoption : Adoption) : Prop :=
  time.IsLate → adoption.proposed.ProposesAdventure coerced →
    adoption.held.phase = .windDown ∨ adoption.proposed.Calmed

/-- What the engine is told of the time, where the session has an ambient context. -/
theorem timeOfDay_arbitrationContext {session : StorySession} {ambient : Ambient.AmbientContext} {state : SessionState}
    (h : session.context.envContext = some ambient.seen) :
    (session.arbitrationContext state).timeOfDay = ambient.timeOfDay.text := by
  have htext : (session.arbitrationContext state).timeOfDay = orText (some ambient.timeOfDay.text) (lit "Unknown") := by
    show orText (session.context.envContext.map _) _ = _
    rw [h]
    rfl
  rw [htext]
  cases ambient.timeOfDay with
  | morning | afternoon | evening | night => rfl

/-- **When adventures at a late hour are calmed**: whatever the clock of the ambient context, the replies of
the model and of the other services, a conducted session concludes without a thought or with one that it
adopts; and one that it adopts is calm at a late hour exactly when the session winds down or the thought
is calm already. -/
theorem late_adventure_calmed_iff {σ : Type} {env : Env σ AgentEffect AgentEffect.Reply} {s s' : σ}
    {log : List AgentEvent} {result : ConductSessionResult} (service : AmbientContextService) (call : AmbientCall)
    (henv : context.envContext = some (service.getAmbientContext call).1.seen)
    (hrun : Logs env s (conductStorySession agent coerced now startTime config context) log (.ok result) s') :
    ∃ state memoryContext,
      (storySession agent coerced now config context state memoryContext).Concludes log result ∧
        ∀ adoption, (storySession agent coerced now config context state memoryContext).Adopts log adoption →
          (adoption.MeetsBedtime coerced (service.getAmbientContext call).1.timeOfDay ↔
            adoption.SeenTo coerced (service.getAmbientContext call).1.timeOfDay) := by
  obtain ⟨state, memoryContext, hconcludes⟩ := hrun.ended ends_conductStorySession_concludes result rfl
  refine ⟨state, memoryContext, hconcludes, fun adoption hadopts => ?_⟩
  have htime : ((storySession agent coerced now config context state memoryContext).arbitrationContext
      adoption.held).timeOfDay = (service.getAmbientContext call).1.timeOfDay.text :=
    timeOfDay_arbitrationContext henv
  have hcalmed : adoption.proposed.ProposesAdventure coerced → (adoption.step.Calmed ↔
      adoption.held.phase = .windDown ∨ adoption.proposed.Calmed) := fun hproposes =>
    AtomOfThoughtEngine.calmed_arbitrate_iff htime hproposes hadopts.arbitrated
  constructor
  · exact fun hmeets hlate hproposes => (hcalmed hproposes).mp (hmeets hlate hproposes)
  · exact fun hseen hlate hproposes => (hcalmed hproposes).mpr (hseen hlate hproposes)

/-- A call at six in the evening. -/
def eveningCall : AmbientCall where
  latitude := none
  longitude := none
  clock := ⟨18, 2, 9, 0⟩
  reply := .failed
  finished := 0

/-- What a service without a key answers it. -/
def eveningAmbient : Ambient.AmbientContext := (AmbientContextService.getAmbientContext ⟨false, none, none⟩ eveningCall).1

/-- A thought about an adventure, with no trade-off. -/
def adventurous : Json := .obj [(lit "goals_considered", .arr [.str (lit "RELAXATION")]),
  (lit "action", .str (lit "ADVENTURE_STORY")), (lit "confidence", .num (.finite (double (9 / 10))))]

/-- The context of a session in the evening. -/
def eveningContext : AgentContext := { sessionId := some (lit "evening"), envContext := some eveningAmbient.seen }

/-- The run where the model has that thought about a new session, and everything succeeds. -/
def adventureRun : List AgentEvent × Except JsError ConductSessionResult × SessionMap :=
  record (agentSucceeding restful (some adventurous) givingUp) (fun _ => none)
    (conductStorySession plainConductor (fun _ => .ok false) ⟨0, Time.inRange_zero⟩ ⟨1, Time.inRange_one⟩ { theme := lit "ocean" }
      eveningContext)

/-- The session of that run. -/
def adventureSession : StorySession :=
  storySession plainConductor (fun _ => .ok false) ⟨0, Time.inRange_zero⟩ { theme := lit "ocean" } eveningContext
    (withStart ⟨1, Time.inRange_one⟩ (initialState (lit "evening") (lit "anon"))) []

/-- What is proposed and adopted in it. -/
def adventureAdoption : Adoption where
  held := withStart ⟨1, Time.inRange_one⟩ (initialState (lit "evening") (lit "anon"))
  proposed := {
    goalsConsidered := some (.arr [.str (lit "RELAXATION")])
    conflictsIdentified := none
    tradeOffMade := none
    thought := none
    action := some (.str (lit "ADVENTURE_STORY"))
    confidence := some (.num (.finite (double (9 / 10))))
    parameters := none }
  step := {
    goalsConsidered := some (.arr [.str (lit "SAFETY"), .str (lit "RELAXATION")])
    conflictsIdentified := none
    tradeOffMade := none
    thought := none
    action := some (.str (lit "ADVENTURE_STORY"))
    confidence := some (.num (.finite (double (9 / 10))))
    parameters := none }

theorem proposesAdventure_adventureAdoption (coerced : Json → Except JsError Bool) :
    adventureAdoption.proposed.ProposesAdventure coerced := by
  refine ⟨rfl, ?_⟩
  show Except.ok ((JsNumber.finite (double (9 / 10))).exceeds (1 / 2)) = .ok true
  congr 1
  decide +kernel

theorem adopts_adventureAdoption : adventureSession.Adopts adventureRun.1 adventureAdoption where
  thought := by
    -- the session is read, stored and started before the model is asked
    have hasked : adventureRun.1[3]? =
        some ⟨.think adventureSession.observation adventureSession.context.traceId, .ok (some adventurous)⟩ := rfl
    exact ⟨some adventurous, List.mem_of_getElem? hasked, rfl⟩
  arbitrated := rfl
  phase := ⟨.idle, .inl rfl, .inr rfl⟩

/-- That run, with what it resolves with. -/
theorem logs_adventureRun : Logs agentEnv (fun _ => none) (conductStorySession plainConductor (fun _ => .ok false)
      ⟨0, by decide⟩ ⟨1, by decide⟩ { theme := lit "ocean" } eveningContext) adventureRun.1
    (.ok ⟨{ theme := lit "ocean" }, [StorySession.attemptTrace (LoopState.initial adventureAdoption.held)
      adventureAdoption.step], some []⟩) adventureRun.2.2 :=
  logs_record (agentEnv_succeeding restful (some adventurous) givingUp) _ _

/-- The equivalence, of that run. -/
theorem late_adventure_calmed_iff_evening : ∃ state memoryContext,
    (storySession plainConductor (fun _ => .ok false) ⟨0, by decide⟩ { theme := lit "ocean" } eveningContext state
      memoryContext).Concludes adventureRun.1 ⟨{ theme := lit "ocean" }, [StorySession.attemptTrace
        (LoopState.initial adventureAdoption.held) adventureAdoption.step], some []⟩ ∧
      ∀ adoption, (storySession plainConductor (fun _ => .ok false) ⟨0, by decide⟩ { theme := lit "ocean" }
          eveningContext state memoryContext).Adopts adventureRun.1 adoption →
        (adoption.MeetsBedtime (fun _ => .ok false) eveningAmbient.timeOfDay ↔
          adoption.SeenTo (fun _ => .ok false) eveningAmbient.timeOfDay) :=
  late_adventure_calmed_iff ⟨false, none, none⟩ eveningCall rfl logs_adventureRun

/-- At six in the evening a new session adopts an adventure as it is: it is not calmed, and no trade-off is
recorded. -/
theorem adventureRun_notCalmed : eveningAmbient.timeOfDay.IsLate ∧
    eveningContext.envContext = some eveningAmbient.seen ∧ ∃ result,
      Logs agentEnv (fun _ => none) (conductStorySession plainConductor (fun _ => .ok false) ⟨0, by decide⟩
        ⟨1, by decide⟩ { theme := lit "ocean" } eveningContext) adventureRun.1 (.ok result) adventureRun.2.2 ∧
      adventureSession.Adopts adventureRun.1 adventureAdoption ∧ adventureSession.Gives adventureAdoption result ∧
      adventureAdoption.proposed.ProposesAdventure (fun _ => .ok false) ∧
      ¬ adventureAdoption.MeetsBedtime (fun _ => .ok false) eveningAmbient.timeOfDay ∧
      result.reasoningTrace.map StoryTrace.tradeOffMade = [none] := by
  have hproposes := proposesAdventure_adventureAdoption fun _ => .ok false
  refine ⟨.inl rfl, rfl, _, logs_adventureRun, adopts_adventureAdoption, ⟨rfl, _, rfl⟩, hproposes, fun h => ?_, rfl⟩
  have hlow := (h (.inl rfl) hproposes).1
  cases hlow

end DreamWeaver.Conductor
