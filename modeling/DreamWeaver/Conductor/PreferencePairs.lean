import DreamWeaver.Conductor.SuggestionStages

/-! # Preference pairs

A turn in which the user rejects the theme that was suggested last, and the model then suggests another, records the
preference of the one over the other. The pair links what the turn has read when it began with what the model has
replied later; the two are different only if the model does not insist. -/

namespace DreamWeaver.Conductor

open Proc

/-! ## Pairs -/

/-- A call of `trackPreferencePair`. -/
def SessionEffect.isPair : SessionEffect → Bool
  | .trackPreferencePair _ _ _ => true
  | _ => false

/-- The same, among the effects of the agent. -/
def AgentEffect.isPair : AgentEffect → Bool
  | .session effect => effect.isPair
  | _ => false

theorem exists_of_isPair {effect : AgentEffect} (h : effect.isPair = true) :
    ∃ win lose u, effect = .session (.trackPreferencePair win lose u) := by
  cases effect with
  | session effect =>
    cases effect with
    | trackPreferencePair win lose u => exact ⟨win, lose, u, rfl⟩
    | _ => cases h
  | _ => cases h

/-- In the call the user rejects the theme that is pending in the session. -/
def Rejects (call : AgentCall) (lose : Text) : Prop :=
  ∃ message context s u, call.op = .processTurn message context s u ∧ themeVerdict message = some false ∧
    (call.before s).bind suggestedTheme = some lose

/-- The model has suggested a theme for a turn. -/
def Suggested (past : List AgentEvent) (win : Text) : Prop :=
  ∃ observation traceId, ∃ thought : Thought, thought.suggestion = some win ∧
    (⟨.session (.generateAgentThought observation traceId), .ok thought⟩ : AgentEvent) ∈ past

/-- **The pairs of a call are genuine**: the user rejected the one theme, the model then suggested the other, and the
two differ; and there is one pair at most. -/
structure GenuinePairs (call : AgentCall) : Prop where
  genuine : ∀ before event after win lose u, call.events = before ++ event :: after →
    event.effect = .session (.trackPreferencePair win lose u) →
    Rejects call lose ∧ Suggested before win ∧ win ≠ lose
  once : (call.events.countP fun event => event.effect.isPair) ≤ 1

/-- The model suggests no theme that the user rejects in the turn. -/
def SuggestsAnother (call : AgentCall) : Prop := ∀ theme, Rejects call theme → ¬ Suggested call.events theme

/-! ## The texts -/

variable {agent : BedtimeConductorAgent} {op : ConductorOperation} {message s u : Text} {past : List SessionEvent}
  {rejected : Option Text}

/-- What a call has done when it awaits `trackPreferencePair`. -/
def PairAt (op : ConductorOperation) (past : List AgentEvent) (effect : AgentEffect) : Prop :=
  ∀ win lose user, effect = .session (.trackPreferencePair win lose user) →
    ∃ message context s u session rest, op = .processTurn message context s u ∧
      past = ⟨.session (.getSession s), .ok session⟩ :: rest ∧ session.bind suggestedTheme = some lose ∧
      themeVerdict message = some false ∧ Suggested past win ∧ ∀ event ∈ past, event.effect.isPair = false

/-- A procedure on sessions that records genuine pairs. -/
abbrev KeepsPairs {α : Type} (op : ConductorOperation) (p : SessionProc α)
    (Q : List SessionEvent → Except JsError α → Prop) (past : List SessionEvent) : Prop :=
  p.Obeys (fun past effect => PairAt op (past.map (Event.embed AgentEffect.session)) (.session effect)) Q past

/-- What is no pair may be awaited at any time. -/
theorem pairAt_of_not_isPair {past : List AgentEvent} {effect : AgentEffect} (h : effect.isPair = false) :
    PairAt op past effect := by
  rintro win lose user rfl
  cases h

/-- Steps without a pair are always allowed. -/
theorem keepsPairs_quiet {α : Type} {p : SessionProc α} (h : p.Only fun event => event.effect.isPair = false)
    (past : List SessionEvent) : KeepsPairs op p (fun past' _ => ∃ steps, past' = past ++ steps ∧
      ∀ event ∈ steps, event.effect.isPair = false) past :=
  h.obeys (fun _ event hquiet => @pairAt_of_not_isPair op _ (.session event.effect) hquiet) past

/-- What a turn has done so far: it has recorded no pair, and if it has rejected a theme, then the one that it has read
first, for what the user said. -/
structure Ready (message s : Text) (rejected : Option Text) (past : List SessionEvent) : Prop where
  noPair : ∀ event ∈ past, event.effect.isPair = false
  rejects : ∀ lose, rejected = some lose → themeVerdict message = some false ∧ ∃ session rest,
    past = ⟨.getSession s, .ok session⟩ :: rest ∧ session.bind suggestedTheme = some lose

/-- It stays so. -/
theorem Ready.append {steps : List SessionEvent} (h : Ready message s rejected past)
    (hsteps : ∀ event ∈ steps, event.effect.isPair = false) : Ready message s rejected (past ++ steps) where
  noPair event hmem := (List.mem_append.mp hmem).elim (h.noPair event) (hsteps event)
  rejects lose hlose := by
    obtain ⟨hverdict, session, rest, rfl, htheme⟩ := h.rejects lose hlose
    exact ⟨hverdict, session, rest ++ steps, rfl, htheme⟩

/-- A part of a turn that records no pair. -/
theorem Ready.keepsPairs {α : Type} {p : SessionProc α} (h : Ready message s rejected past)
    (hp : p.Only fun event => event.effect.isPair = false) :
    KeepsPairs op p (fun past' _ => past ⊆ past' ∧ Ready message s rejected past') past := by
  refine (keepsPairs_quiet hp past).imp fun past' r hquiet => ?_
  obtain ⟨steps, rfl, hsteps⟩ := hquiet
  exact ⟨List.subset_append_left past steps, h.append hsteps⟩

/-- Where a theme was rejected and another suggested, the pair is recorded. -/
theorem Ready.pairAt {context : AgentContext} {win lose user : Text} (h : Ready message s (some lose) past)
    (hwin : Suggested (past.map (Event.embed AgentEffect.session)) win) :
    PairAt (.processTurn message context s u) (past.map (Event.embed AgentEffect.session))
      (.session (.trackPreferencePair win lose user)) := by
  obtain ⟨hverdict, session, rest, rfl, htheme⟩ := h.rejects lose rfl
  rintro win' lose' user' heq
  obtain ⟨rfl, rfl, rfl⟩ := SessionEffect.trackPreferencePair.inj (AgentEffect.session.inj heq)
  refine ⟨message, context, s, u, session, _, rfl, rfl, htheme, hverdict, hwin, fun event hmem => ?_⟩
  obtain ⟨event', hmem', rfl⟩ := List.mem_map.mp hmem
  exact h.noPair event' hmem'

theorem only_quiet_getOrInitState : (getOrInitState s u).Only fun event => event.effect.isPair = false := by
  refine Only.bind (only_perform fun _ => rfl) fun found => ?_
  cases found with
  | none => exact Only.bind (only_perform fun _ => rfl) fun _ => only_pure
  | some held =>
    dsimp only
    cases unlistedGoal held with
    | none => exact only_pure
    | some goal => exact Only.bind (only_perform fun _ => rfl) fun _ => only_pure

/-- Nothing is said of how a turn ends. -/
abbrev Anyhow {α : Type} (_ : List SessionEvent) (_ : Except JsError α) : Prop := True

/-- What a turn does with a suggestion. -/
theorem Ready.suggest {suggestion : Option Text} {context : AgentContext} (h : Ready message s rejected past)
    (hsuggested : ∀ win, suggestion = some win → Suggested (past.map (Event.embed AgentEffect.session)) win) :
    KeepsPairs (.processTurn message context s u) (agent.suggest s u rejected suggestion) Anyhow past := by
  cases suggestion with
  | none => trivial
  | some win =>
    refine Obeys.bind ((h.keepsPairs only_quiet_getOrInitState).imp fun past₁ r hread => ?_)
    cases r with
    | error e => trivial
    | ok state =>
      refine Obeys.bind ((hread.2.keepsPairs (only_perform fun _ => rfl)).imp fun past₂ r hwritten => ?_)
      cases r with
      | error e => trivial
      | ok _ =>
        dsimp only
        cases rejected with
        | none => trivial
        | some lose =>
          rw [BedtimeConductorAgent.trackPreference]
          split
          · obtain ⟨observation, traceId, thought, hwin, hmem⟩ := hsuggested win rfl
            have hkept : past ⊆ past₂ := List.Subset.trans hread.1 hwritten.1
            exact ⟨hwritten.2.pairAt ⟨observation, traceId, thought, hwin, List.map_subset _ hkept hmem⟩,
              fun _ => trivial⟩
          · trivial

/-- What the model replies is what is suggested. -/
theorem Ready.think {traceId : Option Text} {observation : Observation} {breach : Option JsError}
    {context : AgentContext} (h : Ready message s rejected past) :
    KeepsPairs (.processTurn message context s u) (agent.think s u traceId observation breach rejected) Anyhow
      past := by
  cases breach with
  | some error => trivial
  | none =>
    refine Obeys.bind ⟨pairAt_of_not_isPair rfl, fun reply => ?_⟩
    have hready : Ready message s rejected (past ++ [⟨.generateAgentThought observation traceId, reply⟩]) :=
      h.append (List.forall_mem_singleton.mpr rfl)
    cases reply with
    | error e => trivial
    | ok thought =>
      have hsave : (agent.saveTrace thought).Only fun event => event.effect.isPair = false := by
        rw [BedtimeConductorAgent.saveTrace]
        split
        · exact Only.catchWith (only_perform fun _ => rfl) fun _ => only_pure
        · exact only_pure
      refine Obeys.bind ((hready.keepsPairs hsave).imp fun past₁ r hsaved => ?_)
      cases r with
      | error e => trivial
      | ok _ =>
        have hthought : (⟨.session (.generateAgentThought observation traceId), .ok thought⟩ : AgentEvent) ∈
            past₁.map (Event.embed AgentEffect.session) :=
          List.map_subset _ hsaved.1 (List.mem_map_of_mem (List.mem_append_right past (List.mem_singleton_self _)))
        refine Obeys.bind ((hsaved.2.suggest fun win hwin =>
          ⟨observation, traceId, thought, hwin, hthought⟩).imp fun past₂ r _ => ?_)
        cases r with
        | error e => trivial
        | ok _ => trivial

/-- A turn with a verdict rejects what it has read first. -/
theorem ready_of_read {session : Option SessionState} {steps : List SessionEvent}
    (hsteps : ∀ event ∈ steps, event.effect.isPair = false) :
    Ready message s
      (if turnVerdict agent.hasMemory message (startedFrom s u session) = some false then
        some ((startedFrom s u session).lastSuggestedTheme.getD []) else none)
      (⟨.getSession s, .ok session⟩ :: steps) where
  noPair := List.forall_mem_cons.mpr ⟨rfl, hsteps⟩
  rejects lose hlose := by
    obtain ⟨hverdict, htheme⟩ := Option.ite_none_right_eq_some.mp hlose
    obtain ⟨theme, hsuggested, hread, htells⟩ := exists_theme_of_turnVerdict hverdict
    obtain rfl : theme = lose := by
      rw [lastSuggestedTheme_startedFrom, hread] at htheme
      exact Option.some.inj htheme
    exact ⟨htells, session, steps, rfl, hsuggested⟩

/-- A turn begins with reading its session. -/
theorem keepsPairs_read : KeepsPairs op (getOrInitState s u) (fun past r => match r with
    | .ok state => ∃ session steps, past = ⟨.getSession s, .ok session⟩ :: steps ∧
        (∀ event ∈ steps, event.effect.isPair = false) ∧ state = startedFrom s u session
    | .error _ => True) [] := by
  refine Obeys.bind ⟨pairAt_of_not_isPair rfl, fun reply => ?_⟩
  cases reply with
  | error e => trivial
  | ok session =>
    cases session with
    | none =>
      refine Obeys.bind ⟨pairAt_of_not_isPair rfl, fun reply => ?_⟩
      cases reply with
      | error e => trivial
      | ok _ => exact ⟨none, _, rfl, List.forall_mem_singleton.mpr rfl, rfl⟩
    | some held =>
      dsimp only [Obeys]
      cases hgoal : unlistedGoal held with
      | none =>
        refine ⟨some held, [], rfl, fun event hmem => absurd hmem List.not_mem_nil, ?_⟩
        rw [startedFrom, listGoal, hgoal]
      | some goal =>
        refine Obeys.bind ⟨pairAt_of_not_isPair rfl, fun reply => ?_⟩
        cases reply with
        | error e => trivial
        | ok _ => exact ⟨some held, _, rfl, List.forall_mem_singleton.mpr rfl, rfl⟩

/-- **A turn** records a pair only of the theme that it rejects and the one that the model then suggests, and once. -/
theorem keepsPairs_processTurn {traceId : Option Text} {context : AgentContext} :
    KeepsPairs (.processTurn message context s u) (agent.processTurn u s message traceId) Anyhow [] := by
  refine Obeys.bind (keepsPairs_read.imp fun past₁ r hread => ?_)
  cases r with
  | error e => trivial
  | ok state =>
    obtain ⟨session, steps, rfl, hsteps, rfl⟩ := hread
    have hready := @ready_of_read agent message s u session steps hsteps
    dsimp only [BedtimeConductorAgent.turn]
    have hverdict : (BedtimeConductorAgent.trackVerdict u ((startedFrom s u session).lastSuggestedTheme.getD [])
        (turnVerdict agent.hasMemory message (startedFrom s u session))).Only
          fun event => event.effect.isPair = false := by
      cases turnVerdict agent.hasMemory message (startedFrom s u session) with
      | none => exact only_pure
      | some positive => exact only_perform fun _ => rfl
    have hrecall : (agent.recallMemories u s message).Only fun event => event.effect.isPair = false := by
      rw [BedtimeConductorAgent.recallMemories]
      split
      · exact only_perform fun _ => rfl
      · exact only_pure
    refine Obeys.bind ((hready.keepsPairs hverdict).imp fun past₂ r hjudged => ?_)
    cases r with
    | error e => trivial
    | ok _ =>
      refine Obeys.bind ((hjudged.2.keepsPairs (only_perform fun _ => rfl)).imp fun past₃ r hwritten => ?_)
      cases r with
      | error e => trivial
      | ok _ =>
        refine Obeys.bind ((hwritten.2.keepsPairs hrecall).imp fun past₄ r hrecalled => ?_)
        cases r with
        | error e => trivial
        | ok memoryContext =>
          refine Obeys.catchWith (hrecalled.2.think.imp fun past₅ r _ => ?_)
          cases r with
          | error e => trivial
          | ok result => trivial

/-! ## The other operations record nothing -/

/-- A step that is no pair. -/
abbrev NoPair (event : AgentEvent) : Prop := event.effect.isPair = false

theorem noPair_onSessions {α : Type} {p : SessionProc α} (h : p.Only fun event => event.effect.isPair = false) :
    (onSessions p).Only NoPair := Only.embed h

theorem noPair_attempt {session : StorySession} {vars : LoopState} : (session.attempt vars).Only NoPair := by
  have hreason : (session.reason vars.state).Only NoPair := by
    refine Only.bind (only_perform fun _ => rfl) fun raw => ?_
    refine Only.bind only_done fun proposed => Only.bind only_done fun step => ?_
    refine Only.bind ?_ fun _ => only_pure
    unfold StorySession.saveTrace
    split
    · exact Only.catchWith (only_perform fun _ => rfl) fun _ => only_pure
    · exact only_pure
  refine Only.settle hreason fun r => ?_
  cases r with
  | error e => exact only_pure
  | ok step =>
    refine Only.settle (noPair_onSessions only_quiet_getOrInitState) fun r => ?_
    cases r with
    | error e => exact only_pure
    | ok state =>
      refine Only.settle (noPair_onSessions (only_perform fun _ => rfl)) fun r => ?_
      cases r with
      | error e => exact only_pure
      | ok _ => exact only_pure

theorem noPair_recover {error : JsError} {vars : LoopState} : (StorySession.recover error vars).Only NoPair := by
  unfold StorySession.recover
  refine Only.settle (only_perform fun _ => rfl) fun r => ?_
  cases r with
  | error e => exact only_pure
  | ok plan =>
    dsimp only
    split
    · exact only_pure
    · exact only_pure
    · exact only_pure
    all_goals
      split
      · exact only_pure
      · refine Only.settle (only_perform fun _ => rfl) fun r => ?_
        cases r with
        | error e => exact only_pure
        | ok _ => exact only_pure

theorem noPair_loop {session : StorySession} (left : ℕ) (vars : LoopState) :
    (session.loop left vars).Only NoPair := by
  induction left generalizing vars with
  | zero => exact only_pure
  | succ left ih =>
    unfold StorySession.loop
    refine Only.bind noPair_attempt fun outcome => ?_
    rcases outcome with result | ⟨error, state⟩
    · exact only_pure
    · refine Only.bind noPair_recover fun recovery => ?_
      rcases recovery with ⟨_ | _ | _, cost⟩
      · exact ih _
      · exact only_pure
      · exact only_pure

theorem noPair_conductStorySession {coerced : Json → Except JsError Bool} {now startTime : Time}
    {config : SessionConfig} {context : AgentContext} :
    (conductStorySession agent coerced now startTime config context).Only NoPair := by
  unfold conductStorySession
  split
  · refine Only.bind (noPair_onSessions only_quiet_getOrInitState) fun held => ?_
    refine Only.bind ?_ fun state => Only.bind ?_ fun memoryContext => noPair_loop _ _
    · unfold startSession
      split
      · exact only_pure
      · exact Only.bind (only_perform fun _ => rfl) fun _ => only_pure
    · unfold gatherMemories
      split
      · refine Only.bind (Only.catchWith ?_ fun _ => only_pure) fun preferences => ?_
        · exact Only.bind (only_perform fun _ => rfl) fun _ => only_pure
        · exact Only.bind (only_perform fun _ => rfl) fun _ => only_pure
      · exact only_pure
  · exact only_done

/-- **Every operation** of the agent records genuine pairs. -/
theorem task_keepsPairs (agent : BedtimeConductorAgent) (coerced : Json → Except JsError Bool)
    (op : ConductorOperation) : (op.task agent coerced).Steps (PairAt op) [] := by
  have hsilent : ∀ {p : AgentProc Unit}, p.Only NoPair → p.Steps (PairAt op) [] := fun hp =>
    (hp.obeys (fun _ _ hquiet => pairAt_of_not_isPair hquiet) []).steps
  cases op with
  | conductStorySession now startTime config context =>
    exact hsilent (Only.bind noPair_conductStorySession fun _ => only_pure)
  | processTurn userMessage context s u =>
    unfold ConductorOperation.task
    dsimp only
    split
    · have hturn : KeepsPairs (.processTurn userMessage context s u)
          (agent.processTurn u s userMessage context.traceId) Anyhow [] := keepsPairs_processTurn
      refine (Obeys.bind (Q := fun _ _ => True) (Obeys.embed_nil (hturn.imp fun past r _ => ?_))).steps
      cases r with
      | error e => trivial
      | ok result => trivial
    · trivial
  | setGoal s u type minutes now suffix =>
    refine hsilent (noPair_onSessions ?_)
    exact Only.bind only_quiet_getOrInitState fun state => only_perform fun _ => rfl
  | handleStoryBeat s u beatIndex totalBeats now =>
    refine hsilent (noPair_onSessions (Only.bind only_quiet_getOrInitState fun state => ?_))
    cases beatGoal state with
    | none => exact only_pure
    | some goal => exact only_perform fun _ => rfl
  | handleSleepCueDetected s u =>
    refine hsilent (noPair_onSessions ?_)
    unfold handleSleepCueDetected
    split
    · exact only_pure
    · refine Only.bind only_quiet_getOrInitState fun state => ?_
      cases suggestedTheme state with
      | none => exact only_pure
      | some theme =>
        dsimp only
        split
        · refine Only.bind (only_perform fun _ => rfl) fun _ => ?_
          exact Only.bind (only_perform fun _ => rfl) fun _ => only_perform fun _ => rfl
        · exact only_pure

/-! ## Every sequence of calls -/

/-- What a call has done when it recorded a pair. -/
theorem pairAt_of_sequence {coerced : Json → Except JsError Bool} {sessions sessions' : SessionMap}
    {calls : List AgentCall} (h : Sequence agentEnv (ConductorOperation.task agent coerced) sessions calls sessions')
    {call : AgentCall} (hcall : call ∈ calls) {before after : List AgentEvent} {event : AgentEvent}
    (hevents : call.events = before ++ event :: after) : PairAt call.op before event.effect := by
  obtain ⟨s₁, hlogs⟩ := h.exists_logs hcall
  exact hlogs.steps (task_keepsPairs agent coerced call.op) hevents

/-- What a turn has read first is what was stored. -/
theorem before_of_events {coerced : Json → Except JsError Bool} {sessions sessions' : SessionMap}
    {calls : List AgentCall} (h : Sequence agentEnv (ConductorOperation.task agent coerced) sessions calls sessions')
    {call : AgentCall} (hcall : call ∈ calls) {session : Option SessionState} {rest : List AgentEvent}
    (hevents : call.events = ⟨.session (.getSession s), .ok session⟩ :: rest) : call.before s = session := by
  obtain ⟨s₁, hlogs⟩ := h.exists_logs hcall
  rw [hevents] at hlogs
  obtain ⟨s₂, -, hfound⟩ := hlogs.first
  exact (hfound session rfl).symm

/-- **Preference pairs are genuine**: in every sequence of calls in which the model suggests no theme that the user
rejects in the same turn, a pair is recorded only in a turn in which the user rejected the pending theme and the model
then suggested the preferred one, which is another; and no turn records two. -/
theorem pairs_genuine (agent : BedtimeConductorAgent) (coerced : Json → Except JsError Bool)
    {sessions sessions' : SessionMap} {calls : List AgentCall}
    (h : Sequence agentEnv (ConductorOperation.task agent coerced) sessions calls sessions')
    (hother : ∀ call ∈ calls, SuggestsAnother call) : ∀ call ∈ calls, GenuinePairs call := by
  intro call hcall
  have hpair : ∀ before event after win lose u, call.events = before ++ event :: after →
      event.effect = .session (.trackPreferencePair win lose u) →
      Rejects call lose ∧ Suggested before win ∧ ∀ event ∈ before, event.effect.isPair = false := by
    intro before event after win lose u hevents heffect
    have hat := pairAt_of_sequence h hcall hevents
    obtain ⟨message, context, s, user, session, rest, hop, rfl, htheme, htells, hwin, hfirst⟩ := hat win lose u heffect
    have hbefore := before_of_events h hcall hevents
    exact ⟨⟨message, context, s, user, hop, htells, hbefore ▸ htheme⟩, hwin, hfirst⟩
  refine ⟨fun before event after win lose u hevents heffect => ?_, ?_⟩
  · obtain ⟨hrejects, hwin, -⟩ := hpair before event after win lose u hevents heffect
    refine ⟨hrejects, hwin, fun heq => ?_⟩
    subst heq
    refine hother call hcall win hrejects ?_
    obtain ⟨observation, traceId, thought, hthought, hmem⟩ := hwin
    rw [hevents]
    exact ⟨observation, traceId, thought, hthought, List.mem_append_left _ hmem⟩
  · apply countP_le_one
    intro before event after hevents hpaired
    obtain ⟨win, lose, u, heffect⟩ := exists_of_isPair hpaired
    rw [List.countP_eq_zero]
    intro earlier hmem
    rw [(hpair before event after win lose u hevents heffect).2.2 earlier hmem]
    exact Bool.false_ne_true

/-- The pairs that calls record. -/
def pairsOf (calls : List AgentCall) : List (Text × Text) :=
  (eventsOfCalls calls).filterMap fun event => match event.effect with
    | .session (.trackPreferencePair win lose _) => some (win, lose)
    | _ => none

/-- No theme is preferred over itself. -/
theorem ne_of_mem_pairsOf {calls : List AgentCall} {win lose : Text} (h : ∀ call ∈ calls, GenuinePairs call)
    (hmem : (win, lose) ∈ pairsOf calls) : win ≠ lose := by
  obtain ⟨event, hevent, hpair⟩ := List.mem_filterMap.mp hmem
  obtain ⟨call, hcall, hin⟩ := List.mem_flatMap.mp hevent
  obtain ⟨before, after, hevents⟩ := List.append_of_mem hin
  split at hpair
  · rename_i win' lose' u heffect
    obtain ⟨rfl, rfl⟩ := Prod.mk.inj (Option.some.inj hpair)
    exact ((h call hcall).genuine before event after win' lose' u hevents heffect).2.2
  · cases hpair

/-! ## Two evenings -/

/-- Where every effect succeeds, the model suggests what its one thought suggests. -/
theorem suggested_of_record {thought : Thought} {raw : Option Json} {plan : CorrectionPlan} {p : AgentProc Unit}
    {sessions : SessionMap} {win : Text}
    (h : Suggested (record (agentSucceeding thought raw plan) sessions p).1 win) : thought.suggestion = some win := by
  obtain ⟨observation, traceId, thought', hwin, hmem⟩ := h
  obtain ⟨sessions', hreply⟩ := reply_of_record hmem
  obtain rfl : thought' = thought := Except.ok.inj hreply
  exact hwin

/-- A thought that suggests dragons. -/
def suggestingDragons : Thought := { suggesting with theme := some (lit "dragons") }

/-- The session in which the dragons are pending. -/
def dragonsPending : SessionMap := (callsOf rememberingConductor suggestingDragons [turnOf "hello"]).2

/-- The model suggests dragons; the user rejects them, and the model suggests the ocean. -/
def dragonsThenOcean : List AgentCall × SessionMap :=
  recordCalls (ConductorOperation.task rememberingConductor fun _ => .ok false)
    (agentSucceeding suggesting none givingUp) [turnOf "no"]
    (callsOf rememberingConductor suggestingDragons [turnOf "hello"]).1 dragonsPending

/-- The ocean is preferred over the dragons, for good reasons. -/
theorem pairs_genuine_dragonsThenOcean : (∀ call ∈ dragonsThenOcean.1, GenuinePairs call) ∧
    pairsOf dragonsThenOcean.1 = [(lit "ocean", lit "dragons")] := by
  refine ⟨pairs_genuine rememberingConductor (fun _ => .ok false) (sequence_recordCalls
    (agentEnv_succeeding suggesting none givingUp) [turnOf "no"]
      (sequence_callsOf rememberingConductor suggestingDragons [turnOf "hello"])) ?_, rfl⟩
  intro call hcall theme hrejects hsuggested
  obtain ⟨message, context, s, u, hop, htells, htheme⟩ := hrejects
  rcases List.mem_append.mp hcall with hfirst | hsecond
  · -- the user rejects nothing with the first turn
    obtain rfl := List.mem_singleton.mp hfirst
    obtain ⟨rfl, -, -, -⟩ := ConductorOperation.processTurn.inj hop
    revert htells
    decide
  · obtain rfl := List.mem_singleton.mp hsecond
    obtain ⟨-, -, rfl, -⟩ := ConductorOperation.processTurn.inj hop
    have hpending : (dragonsPending (lit "evening")).bind suggestedTheme = some (lit "dragons") := rfl
    have hocean : some (lit "ocean") = some theme := suggested_of_record hsuggested
    have hdragons : some (lit "dragons") = some theme := hpending.symm.trans htheme
    exact absurd (hocean.trans hdragons.symm) (by decide)

/-- The model suggests the ocean, the user rejects it, and the model insists. -/
def oceanTwice : List AgentCall × SessionMap :=
  callsOf rememberingConductor suggesting [turnOf "hello", turnOf "no"]

/-- The ocean is preferred over the ocean. -/
theorem ocean_over_ocean : Sequence agentEnv (ConductorOperation.task rememberingConductor fun _ => .ok false)
      (fun _ => none) oceanTwice.1 oceanTwice.2 ∧
    pairsOf oceanTwice.1 = [(lit "ocean", lit "ocean")] ∧ ¬ ∀ call ∈ oceanTwice.1, GenuinePairs call := by
  have hpair : pairsOf oceanTwice.1 = [(lit "ocean", lit "ocean")] := rfl
  refine ⟨sequence_callsOf rememberingConductor suggesting _, hpair, fun h => ?_⟩
  exact ne_of_mem_pairsOf h (hpair ▸ List.mem_singleton_self _) rfl

end DreamWeaver.Conductor
