import DreamWeaver.Conductor.ConductStorySession

/-! # Conducting always concludes

Whatever the model, the store, the trace repository and the resilience engine do once the loop of
`conductStorySession` has begun, the call resolves: every attempt is caught, every recovery is caught, and
every way out of the loop has a result of its own. Only the store and the memory can make the call reject,
before the loop. -/

namespace DreamWeaver.Conductor

open Proc

/-- The model was asked. -/
def isThought : AgentEvent → Bool
  | ⟨.think _ _, _⟩ => true
  | _ => false

/-- The store or the memory did not answer. -/
def refuses : AgentEvent → Bool
  | ⟨.session _, .error _⟩ => true
  | ⟨.startSession _ _ _, .error _⟩ => true
  | ⟨.retrievePreferences _ _ _, .error _⟩ => true
  | _ => false

/-- The store and the memory answered before the loop. -/
def AnsweredBefore (events : List AgentEvent) : Prop :=
  ∀ event ∈ events.takeWhile fun event => !isThought event, refuses event = false

/-- The request is the config in every field, except possibly another duration. -/
def Refines (config refined : SessionConfig) : Prop :=
  refined = config ∨ ∃ duration, refined = { config with duration := some duration }

/-- One trace, and a request that refines the config. -/
def WellFormed (config : SessionConfig) (result : ConductSessionResult) : Prop :=
  result.reasoningTrace.length = 1 ∧ Refines config result.refinedRequest

variable {session : StorySession} {vars : LoopState} {past : List AgentEvent}

namespace StorySession

/-! ## The ways out of the loop -/

theorem wellFormed_fallback : WellFormed session.config (session.fallback vars) := ⟨rfl, .inl rfl⟩

theorem wellFormed_safeMode : WellFormed session.config session.safeMode := ⟨rfl, .inl rfl⟩

/-- The duration of a thought is one of three, or that of the config stays. -/
theorem refines_refined (step : ThoughtStep) : Refines session.config (session.refined step) := by
  unfold refined
  cases durationOf step.parameters with
  | none => exact .inl rfl
  | some duration => exact .inr ⟨duration, rfl⟩

/-! ## The parts of the loop -/

/-- What asks no model leaves the number of thoughts as it is. -/
theorem countP_concat_other {event : AgentEvent} (h : isThought event = false) :
    (past ++ [event]).countP isThought = past.countP isThought := by
  rw [List.countP_append, List.countP_singleton, h, if_neg Bool.false_ne_true, Nat.add_zero]

theorem countP_concat_thought (observation : StoryObservation) (traceId : Option Text)
    (reply : Except JsError (Option Json)) :
    (past ++ [(⟨.think observation traceId, reply⟩ : AgentEvent)]).countP isThought =
      past.countP isThought + 1 := by
  rw [List.countP_append, List.countP_singleton]
  rfl

theorem only_saveTrace (trace : StoryTrace) :
    (session.saveTrace trace).Only fun event => isThought event = false := by
  unfold saveTrace
  split
  · exact Only.catchWith (only_perform fun _ => rfl) fun _ => only_pure
  · exact only_pure

/-- An attempt asks the model once to reason. -/
theorem ends_reason (state : SessionState) : (session.reason state).Ends
    (fun events _ => events.countP isThought = past.countP isThought + 1) past := by
  unfold reason
  refine Ends.bind (ends_perform fun reply => ?_)
  cases reply with
  | error e => exact countP_concat_thought _ _ _
  | ok raw =>
    refine Ends.bind (ends_done ?_)
    cases readThought raw with
    | error e => exact countP_concat_thought _ _ _
    | ok proposed =>
      refine Ends.bind (ends_done ?_)
      cases AtomOfThoughtEngine.arbitrate session.coerced proposed (session.arbitrationContext state) with
      | error e => exact countP_concat_thought _ _ _
      | ok step =>
        refine Ends.bind (((only_saveTrace _).ends_countP _).imp fun events r hcount => ?_)
        rw [countP_concat_thought] at hcount
        cases r with
        | error e => exact hcount
        | ok _ => exact ends_pure hcount

/-- Operations on sessions ask no model of a story. -/
theorem only_onSessions {α : Type} (p : SessionProc α) :
    (onSessions p).Only fun event => isThought event = false := by
  induction p with
  | done r => exact only_done
  | await e next ih => exact fun reply => ⟨rfl, ih reply⟩

/-- **An attempt never rejects**: whatever throws in it is caught. -/
theorem ends_attempt (vars : LoopState) : (session.attempt vars).Ends (fun events r => ∃ outcome,
    r = .ok outcome ∧ events.countP isThought = past.countP isThought + 1 ∧
      ∀ result, outcome = .concluded result → WellFormed session.config result) past := by
  have hfailed : ∀ (error : JsError) (state : SessionState) (result : ConductSessionResult),
      Attempt.failed error state = .concluded result → WellFormed session.config result :=
    fun error state result h => nomatch h
  unfold attempt
  refine Ends.settle ((ends_reason vars.state).imp fun events r hcount => ?_)
  cases r with
  | error e => exact ends_pure ⟨_, rfl, hcount, hfailed e _⟩
  | ok step =>
    refine Ends.settle (((only_onSessions _).ends_countP _).imp fun events' r hcount' => ?_)
    cases r with
    | error e => exact ends_pure ⟨_, rfl, hcount'.trans hcount, hfailed e _⟩
    | ok state =>
      refine Ends.settle (((only_onSessions _).ends_countP _).imp fun events'' r hcount'' => ?_)
      have hall := hcount''.trans (hcount'.trans hcount)
      cases r with
      | error e => exact ends_pure ⟨_, rfl, hall, hfailed e _⟩
      | ok _ =>
        refine ends_pure ⟨_, rfl, hall, fun result hresult => ?_⟩
        cases hresult
        exact ⟨rfl, refines_refined step⟩

/-- **A recovery never rejects**: where the engine fails the loop is left. -/
theorem ends_recover (error : JsError) (vars : LoopState) : (recover error vars).Ends
    (fun events r => ∃ outcome, r = .ok outcome ∧ events.countP isThought = past.countP isThought)
    past := by
  unfold recover
  refine Ends.settle (ends_perform fun reply => ?_)
  have hcount := @countP_concat_other past ⟨.assessFailure _, reply⟩ rfl
  cases reply with
  | error e => exact ends_pure ⟨_, rfl, hcount⟩
  | ok plan =>
    dsimp only
    split
    · exact ends_pure ⟨_, rfl, hcount⟩
    · exact ends_pure ⟨_, rfl, hcount⟩
    · exact ends_pure ⟨_, rfl, hcount⟩
    all_goals
      split
      · exact ends_pure ⟨_, rfl, hcount⟩
      · refine Ends.settle (ends_perform fun reply => ?_)
        have hcount' := (@countP_concat_other _ ⟨.pause _, reply⟩ rfl).trans hcount
        cases reply with
        | error e => exact ends_pure ⟨_, rfl, hcount'⟩
        | ok _ => exact ends_pure ⟨_, rfl, hcount'⟩

/-- **The loop always concludes**, after one thought for each attempt at most. -/
theorem ends_loop (left : ℕ) (vars : LoopState) : (session.loop left vars).Ends (fun events r =>
    ∃ result, r = .ok result ∧ events.countP isThought ≤ past.countP isThought + left ∧
      WellFormed session.config result) past := by
  induction left generalizing vars past with
  | zero => exact ends_pure ⟨_, rfl, le_rfl, wellFormed_fallback⟩
  | succ left ih =>
    unfold loop
    refine Ends.bind ((ends_attempt _).imp ?_)
    rintro events r ⟨outcome, rfl, hcount, hgood⟩
    cases outcome with
    | concluded result => exact ends_pure ⟨result, rfl, by omega, hgood result rfl⟩
    | failed error state =>
      refine Ends.bind ((ends_recover error _).imp ?_)
      rintro events' r ⟨⟨recovery, cost⟩, rfl, hcount'⟩
      cases recovery with
      | again =>
        refine (ih _).imp ?_
        rintro events'' r ⟨result, rfl, hle, hresult⟩
        exact ⟨result, rfl, by omega, hresult⟩
      | stop => exact ends_pure ⟨_, rfl, by omega, wellFormed_fallback⟩
      | safeMode => exact ends_pure ⟨_, rfl, by omega, wellFormed_safeMode⟩

end StorySession

/-! ## Before the loop -/

/-- The events before the loop: no thought is among them, and an error is that of the store or of the
memory. -/
def Prepares {α : Type} (events : List AgentEvent) (r : Except JsError α) : Prop :=
  events.countP isThought = 0 ∧ ((∃ e, r = .error e) → ∃ event ∈ events, refuses event = true)

/-- An effect of the store or of the memory before the loop. -/
theorem prepares_concat {α : Type} {event : AgentEvent} {r : Except JsError α}
    (hpast : past.countP isThought = 0) (hthought : isThought event = false)
    (herror : (∃ e, r = .error e) → refuses event = true) : Prepares (past ++ [event]) r :=
  ⟨(StorySession.countP_concat_other hthought).trans hpast,
    fun h => ⟨event, by simp, herror h⟩⟩

theorem prepares_ok {α : Type} {a : α} (hpast : past.countP isThought = 0) :
    Prepares past (.ok a : Except JsError α) := ⟨hpast, fun ⟨_, h⟩ => nomatch h⟩

/-- **The rule for what comes before the loop.** -/
theorem ends_prepared {α β : Type} {p : AgentProc α} {k : α → AgentProc β}
    {Q : List AgentEvent → Except JsError β → Prop} (hp : p.Ends Prepares past)
    (hk : ∀ a events, events.countP isThought = 0 → (k a).Ends Q events)
    (herror : ∀ e events, Prepares events (.error e : Except JsError β) → Q events (.error e)) :
    (p >>= k).Ends Q past := by
  refine Ends.bind (hp.imp ?_)
  rintro events r ⟨hcount, hrefused⟩
  cases r with
  | ok a => exact hk a events hcount
  | error e => exact herror e events ⟨hcount, fun _ => hrefused ⟨e, rfl⟩⟩

theorem prepares_onSession {effect : SessionEffect} (hpast : past.countP isThought = 0) :
    (perform (AgentEffect.session effect)).Ends Prepares past := by
  refine ends_perform fun reply => prepares_concat hpast rfl ?_
  rintro ⟨e, rfl⟩
  rfl

theorem prepares_getOrInitState {s u : Text} (hpast : past.countP isThought = 0) :
    (onSessions (getOrInitState s u)).Ends Prepares past := by
  rw [onSessions, getOrInitState, embed_bind]
  refine ends_prepared (prepares_onSession hpast) (fun found events hevents => ?_) fun e events h => h
  cases found with
  | none =>
    dsimp only
    rw [setSession, embed_bind]
    exact ends_prepared (prepares_onSession hevents) (fun _ _ h => ends_pure (prepares_ok h))
      fun e events h => h
  | some state =>
    dsimp only
    cases unlistedGoal state with
    | none => exact ends_pure (prepares_ok hevents)
    | some goal =>
      dsimp only
      rw [setSession, embed_bind]
      exact ends_prepared (prepares_onSession hevents) (fun _ _ h => ends_pure (prepares_ok h))
        fun e events h => h

theorem prepares_startSession {s : Text} {now : Time} {state : SessionState}
    (hpast : past.countP isThought = 0) : (startSession s now state).Ends Prepares past := by
  unfold startSession
  split
  · exact ends_pure (prepares_ok hpast)
  · refine ends_prepared (ends_perform fun reply => prepares_concat hpast rfl ?_)
      (fun _ events h => ends_pure (prepares_ok h)) fun e events h => h
    rintro ⟨e, rfl⟩
    rfl

theorem prepares_gatherMemories {agent : BedtimeConductorAgent} {theme u s : Text}
    (hpast : past.countP isThought = 0) : (gatherMemories agent theme u s).Ends Prepares past := by
  unfold gatherMemories
  split
  · refine ends_prepared (Ends.catchWith (Ends.bind (ends_perform fun reply => ?_)))
      (fun preferences events hevents => ?_) fun e events h => h
    · -- the statistics are degraded when the memory does not give them
      have hcount := (@StorySession.countP_concat_other past ⟨.getThemeStats u, reply⟩ rfl).trans hpast
      cases reply with
      | error e => exact ends_pure (prepares_ok hcount)
      | ok stats => exact ends_pure (prepares_ok hcount)
    · refine ends_prepared (ends_perform fun reply => prepares_concat hevents rfl ?_)
        (fun facts events h => ends_pure (prepares_ok h)) fun e events h => h
      rintro ⟨e, rfl⟩
      rfl
  · exact ends_pure (prepares_ok hpast)

/-! ## The call -/

/-- What the claim of a call is after events: if the store and the memory answered before the loop, it
has resolved, after three thoughts at most, with a well-formed result. -/
def Concludes (config : SessionConfig) (events : List AgentEvent)
    (r : Except JsError ConductSessionResult) : Prop :=
  AnsweredBefore events → ∃ result, r = .ok result ∧ events.countP isThought ≤ 3 ∧
    WellFormed config result

/-- Before the loop only a refusal makes the call reject. -/
theorem concludes_of_prepares {config : SessionConfig} {events : List AgentEvent} {e : JsError}
    (h : Prepares events (.error e : Except JsError ConductSessionResult)) :
    Concludes config events (.error e) := by
  intro hanswered
  obtain ⟨hcount, hrefused⟩ := h
  obtain ⟨event, hevent, hrefuses⟩ := hrefused ⟨e, rfl⟩
  have hall : events.takeWhile (fun event => !isThought event) = events := by
    rw [List.takeWhile_eq_self_iff]
    intro event hevent
    have hthought : isThought event = false := by
      rw [List.countP_eq_zero] at hcount
      exact Bool.eq_false_iff.mpr (hcount event hevent)
    rw [hthought]
    rfl
  rw [AnsweredBefore, hall] at hanswered
  rw [hanswered event hevent] at hrefuses
  cases hrefuses

/-- **Conducting always concludes**: on every path through the call, with any replies of the model, the
store, the trace repository and the resilience engine, the call resolves with one trace and a request that
refines the config, after three thoughts at most, if the store and the memory answered before the loop. -/
theorem conductStorySession_concludes (agent : BedtimeConductorAgent)
    (coerced : Json → Except JsError Bool) (now startTime : Time) (config : SessionConfig)
    (context : AgentContext) (hconfig : config.isValid = true) (hcontext : context.isValid = true) :
    (conductStorySession agent coerced now startTime config context).Ends (Concludes config) [] := by
  rw [conductStorySession, hconfig, hcontext, Bool.and_true, if_pos rfl]
  refine ends_prepared (prepares_getOrInitState rfl) (fun held events hevents => ?_)
    fun e events => concludes_of_prepares
  refine ends_prepared (prepares_startSession hevents) (fun state events hevents => ?_)
    fun e events => concludes_of_prepares
  refine ends_prepared (prepares_gatherMemories hevents) (fun memoryContext events hevents => ?_)
    fun e events => concludes_of_prepares
  refine (StorySession.ends_loop maxAttempts _).imp ?_
  rintro events' r ⟨result, rfl, hle, hresult⟩ -
  rw [hevents, Nat.zero_add] at hle
  exact ⟨result, rfl, hle, hresult⟩

/-- A call without optional collaborators. -/
theorem plainConductor_concludes : (conductStorySession plainConductor (fun _ => .ok false)
    ⟨0, by decide⟩ ⟨1, by decide⟩ { theme := lit "ocean" } { sessionId := some (lit "evening") }).Ends
      (Concludes { theme := lit "ocean" }) [] :=
  conductStorySession_concludes _ _ _ _ _ _ (by decide) (by decide)

end DreamWeaver.Conductor
