import DreamWeaver.Conductor.AgentOperations

/-! # The counters of a session

A session counts the turns that passed validation, and those of them that rejected the theme that was
pending. The counters are JavaScript numbers, which count up to `2 ^ 53` and stay there. -/

namespace DreamWeaver.Conductor

open Proc

/-! ## Counting up -/

/-- **Counting up to `2 ^ 53`.** -/
theorem countUp_zero (n : ℕ) : countUp n (.finite 0) = .finite ((min n (2 ^ 53) : ℕ) : ℚ) := by
  have hexact : ∀ n : ℕ, n ≤ 2 ^ 53 → countUp n (.finite 0) = .finite (n : ℚ) := by
    intro n hn
    have hcount := @countUp_natCast n 0 (by omega)
    rwa [Nat.cast_zero, Nat.zero_add] at hcount
  have hfixed : (JsNumber.finite ((2 ^ 53 : ℕ) : ℚ)).add (.finite 1) = .finite ((2 ^ 53 : ℕ) : ℚ) := by
    decide +kernel
  rcases le_total n (2 ^ 53) with hn | hn
  · rw [min_eq_left hn, hexact n hn]
  · obtain ⟨k, rfl⟩ := Nat.exists_eq_add_of_le' hn
    rw [min_eq_right hn, countUp, Function.iterate_add_apply, ← countUp, ← countUp, hexact _ le_rfl]
    exact Function.iterate_fixed hfixed k

/-- Counting one more. -/
theorem countUp_concat {n k : ℕ} {x y : JsNumber} {b : Bool} (hx : x = countUp n (.finite 0))
    (hy : y = if b then x.add (.finite 1) else x) (hk : k = b.toNat) :
    y = countUp (n + k) (.finite 0) := by
  subst hk hx hy
  cases b with
  | false => rfl
  | true =>
    rw [if_pos rfl, Bool.toNat_true, countUp, countUp, Function.iterate_succ_apply']

/-! ## What steps do to the counters -/

/-- `context.interventions || 0` of a session, 0 if there is none. -/
def interventions (session : Option SessionState) : JsNumber :=
  JsNumber.orZero (session.bind fun state => state.context.interventions)

/-- The event is a turn of the session that rejects a theme. -/
def isRejectionOf (sessionId : Text) (event : SessionEvent) : Bool :=
  updateTo sessionId event = some (.change (.turn (some false)))

/-- An event on sessions, among those of the agent. -/
def ofSession (f : SessionEvent → Bool) : AgentEvent → Bool
  | ⟨.session effect, reply⟩ => f ⟨effect, reply⟩
  | _ => false

variable {agent : BedtimeConductorAgent} {op : ConductorOperation} {before : Option SessionState}
  {sessions sessions' : SessionMap} {s : Text} {held : SessionState} {coerced : Json → Except JsError Bool}

/-- What a change does to the counters. -/
theorem counters_change (change : Change) (held : SessionState) :
    interactions (some (change.apply held)) =
        (if (Update.change change).isTurn then (interactions (some held)).add (.finite 1)
          else interactions (some held)) ∧
      interventions (some (change.apply held)) =
        if change = .turn (some false) then (interventions (some held)).add (.finite 1)
          else interventions (some held) := by
  by_cases hturn : (Update.change change).isTurn = true
  · obtain ⟨verdict, rfl⟩ : ∃ verdict, change = .turn verdict := by
      cases change with
      | turn verdict => exact ⟨verdict, rfl⟩
      | _ => cases hturn
    refine ⟨orZero_currentInteractions held, ?_⟩
    show JsNumber.orZero (some (currentInterventions verdict held)) = _
    have hzero := JsNumber.orZero_ne_nan held.context.interventions
    unfold currentInterventions
    by_cases hverdict : verdict = some false
    · subst hverdict
      rw [if_pos rfl, if_pos rfl, JsNumber.orZero_some (JsNumber.add_finite_ne_nan hzero 1)]
      rfl
    · have hchange : Change.turn verdict ≠ .turn (some false) := fun h => hverdict (Change.turn.inj h)
      rw [if_neg hverdict, if_neg hchange, JsNumber.orZero_some hzero]
      rfl
  · have hcontext := context_apply (Bool.eq_false_iff.mpr hturn) held
    have hchange : change ≠ .turn (some false) := by
      rintro rfl
      exact hturn rfl
    rw [if_neg hturn, if_neg hchange]
    show JsNumber.orZero (change.apply held).context.interactions = _ ∧
      JsNumber.orZero (change.apply held).context.interventions = _
    rw [hcontext]
    exact ⟨rfl, rfl⟩

/-- The counters of a session after `n` turns with `k` rejections, and events. -/
def CountedBy (n k : ℕ) (s : Text) (events : List AgentEvent) (sessions : SessionMap) : Prop :=
  interactions (sessions s) = countUp (n + events.countP (ofSession (isTurnOf s))) (.finite 0) ∧
    interventions (sessions s) = countUp (k + events.countP (ofSession (isRejectionOf s))) (.finite 0)

/-- **A step counts** the turns and the rejections of its session. -/
theorem countedBy_step {effect : AgentEffect} {reply : Except JsError effect.Reply}
    {past : List AgentEvent} {n k : ℕ} (h : CountedBy n k s past sessions)
    (hadmits : Admits agent op before sessions effect) (hreply : agentEnv sessions effect reply sessions') :
    CountedBy n k s (past ++ [⟨effect, reply⟩]) sessions' := by
  -- a step that counts nothing and leaves the counters
  have hsame : ofSession (isTurnOf s) ⟨effect, reply⟩ = false →
      ofSession (isRejectionOf s) ⟨effect, reply⟩ = false →
        interactions (sessions' s) = interactions (sessions s) →
          interventions (sessions' s) = interventions (sessions s) →
            CountedBy n k s (past ++ [⟨effect, reply⟩]) sessions' := by
    intro hturn hrejection hinteractions hinterventions
    rw [CountedBy, List.countP_append, List.countP_append, List.countP_singleton, List.countP_singleton,
      hturn, hrejection, hinteractions, hinterventions]
    exact h
  -- a step that leaves the sessions, or writes another one
  have hkeep : ofSession (isTurnOf s) ⟨effect, reply⟩ = false →
      ofSession (isRejectionOf s) ⟨effect, reply⟩ = false → sessions' s = sessions s →
        CountedBy n k s (past ++ [⟨effect, reply⟩]) sessions' :=
    fun hturn hrejection heq => hsame hturn hrejection (by rw [heq]) (by rw [heq])
  cases effect with
  | session effect =>
    cases effect with
    | getSession t => exact hkeep rfl rfl (congrFun hreply.1 s)
    | setSession t write =>
      cases reply with
      | error e => cases write <;> exact hkeep rfl rfl (congrFun hreply s)
      | ok _ =>
        have hwritten : sessions' = Function.update sessions t (some write.state) := hreply
        by_cases ht : t = s
        · subst ht
          have hnow : sessions' t = some write.state := by rw [hwritten, Function.update_self]
          cases write with
          | literal state =>
            obtain ⟨-, hnone, u, rfl⟩ := hadmits
            refine hsame (by simp [ofSession, isTurnOf, updateTo, updateOf])
              (by simp [ofSession, isRejectionOf, updateTo, updateOf]) ?_ ?_
            · rw [hnow, hnone]
              rfl
            · rw [hnow, hnone]
              rfl
          | changed held change =>
            obtain ⟨-, hheld, -⟩ := hadmits
            obtain ⟨hinteractions, hinterventions⟩ := counters_change change held
            rw [CountedBy, hheld] at h
            rw [CountedBy, List.countP_append, List.countP_append, List.countP_singleton,
              List.countP_singleton, ← Nat.add_assoc, ← Nat.add_assoc, hnow, SessionWrite.state]
            refine ⟨countUp_concat h.1 hinteractions ?_, countUp_concat h.2 (b := decide
              (change = .turn (some false))) (by simpa using hinterventions) ?_⟩
            · cases change <;> simp [ofSession, isTurnOf, updateTo, updateOf, Update.isTurn]
            · by_cases hchange : change = .turn (some false) <;>
                simp [ofSession, isRejectionOf, updateTo, updateOf, hchange]
        · have hother : sessions' s = sessions s := by rw [hwritten, Function.update_of_ne (Ne.symm ht)]
          cases write <;> refine hkeep ?_ ?_ hother <;>
            simp [ofSession, isTurnOf, isRejectionOf, updateTo, updateOf, ht]
    | patchContext t held toolCallId => cases hadmits
    | _ => exact hkeep rfl rfl (congrFun hreply s)
  | startSession t held now =>
    cases reply with
    | error e => exact hkeep rfl rfl (congrFun hreply s)
    | ok _ =>
      have hwritten : sessions' = Function.update sessions t (some (withStart now held)) := hreply
      by_cases ht : t = s
      · subst ht
        have hnow : sessions' t = some (withStart now held) := by rw [hwritten, Function.update_self]
        refine hsame rfl rfl ?_ ?_
        · rw [hnow, hadmits.2]
          rfl
        · rw [hnow, hadmits.2]
          rfl
      · exact hkeep rfl rfl (by rw [hwritten, Function.update_of_ne (Ne.symm ht)])
  | _ => exact hkeep rfl rfl (congrFun hreply s)

/-! ## What a turn does when the store and the memory answer -/

/-- The store or the memory did not answer. -/
def fails : SessionEvent → Bool
  | ⟨.getSession _, .error _⟩ => true
  | ⟨.setSession _ _, .error _⟩ => true
  | ⟨.trackOutcome _ _ _, .error _⟩ => true
  | ⟨.trackPreferencePair _ _ _, .error _⟩ => true
  | ⟨.retrieve _ _ _, .error _⟩ => true
  | _ => false

/-- Only the store or the memory has made the procedure reject. -/
def Blames {α : Type} (events : List SessionEvent) (r : Except JsError α) : Prop :=
  (∃ e, r = .error e) → ∃ event ∈ events, fails event = true

section Blames

variable {α β : Type} {past : List SessionEvent}

theorem blames_ok {a : α} : Blames past (.ok a : Except JsError α) := fun ⟨_, h⟩ => nomatch h

theorem Blames.bind {p : SessionProc α} {k : α → SessionProc β} (hp : p.Ends Blames past)
    (hk : ∀ a past', (k a).Ends Blames past') : (p >>= k).Ends Blames past := by
  refine Ends.bind (hp.imp fun past' r h => ?_)
  cases r with
  | ok a => exact hk a past'
  | error e => exact fun _ => h ⟨e, rfl⟩

theorem blames_perform {effect : SessionEffect} (h : ∀ e, fails ⟨effect, .error e⟩ = true) :
    (perform effect).Ends Blames past := by
  refine ends_perform fun reply => ?_
  rintro ⟨e, rfl⟩
  exact ⟨⟨effect, .error e⟩, by simp, h e⟩

theorem blames_getOrInitState {s u : Text} : (getOrInitState s u).Ends Blames past := by
  refine Blames.bind (blames_perform fun _ => rfl) fun found past' => ?_
  cases found with
  | none => exact Blames.bind (blames_perform fun _ => rfl) fun _ _ => ends_pure blames_ok
  | some state =>
    dsimp only
    cases unlistedGoal state with
    | none => exact ends_pure blames_ok
    | some goal => exact Blames.bind (blames_perform fun _ => rfl) fun _ _ => ends_pure blames_ok

/-- A turn rejects only if the store or the memory fails. -/
theorem blames_processTurn (u s message : Text) (traceId : Option Text) :
    (agent.processTurn u s message traceId).Ends Blames past := by
  refine Blames.bind blames_getOrInitState fun state past' => Blames.bind ?_ fun _ past' =>
    Blames.bind (blames_perform fun _ => rfl) fun _ past' => Blames.bind ?_ fun memoryContext past' => ?_
  · cases turnVerdict agent.hasMemory message state with
    | none => exact ends_pure blames_ok
    | some positive => exact blames_perform fun _ => rfl
  · unfold BedtimeConductorAgent.recallMemories
    split
    · exact blames_perform fun _ => rfl
    · exact ends_pure blames_ok
  · refine Ends.catchWith (ends_of_forall fun past' r => ?_)
    cases r with
    | ok result => exact blames_ok
    | error e => exact ends_pure blames_ok

end Blames

/-! ## What a call adds to the counters -/

/-- The operation is a turn of the session that passes validation. -/
def ConductorOperation.isTurnOf (s : Text) : ConductorOperation → Bool
  | .processTurn _ context sessionId userId => sessionId = s && (turnContext context sessionId userId).isValid
  | _ => false

/-- What a turn makes of the theme that is pending in a session, if it rejects or approves it. -/
def ConductorOperation.verdict (agent : BedtimeConductorAgent) (before : Option SessionState) :
    ConductorOperation → Option Bool
  | .processTurn userMessage _ _ _ => before.bind (turnVerdict agent.hasMemory userMessage)
  | _ => none

/-- The operation is a turn of the session that passes validation and rejects the theme that is pending
before it. -/
def ConductorOperation.rejects (agent : BedtimeConductorAgent) (s : Text) (before : Option SessionState)
    (op : ConductorOperation) : Bool :=
  op.isTurnOf s && op.verdict agent before = some false

/-- Listing the goal leaves the theme. -/
theorem suggestedTheme_listGoal (state : SessionState) :
    suggestedTheme (listGoal state) = suggestedTheme state := by
  unfold listGoal
  cases unlistedGoal state <;> rfl

/-- The verdict of a turn on the state that it starts from is that on the stored state. -/
theorem turnVerdict_startedFrom (hasMemory : Bool) (message s u : Text) (before : Option SessionState) :
    turnVerdict hasMemory message (startedFrom s u before) = before.bind (turnVerdict hasMemory message) := by
  cases before with
  | none =>
    unfold turnVerdict
    rw [show suggestedTheme (startedFrom s u none) = none from rfl, Option.isSome_none, Bool.and_false]
    rfl
  | some state =>
    unfold turnVerdict startedFrom
    rw [suggestedTheme_listGoal]
    rfl

/-- The procedure of a turn has one turn of its session, if the store and the memory answer. -/
theorem ends_validTurn {userMessage sessionId userId : Text} {context : AgentContext}
    (hvalid : (turnContext context sessionId userId).isValid = true) :
    ((ConductorOperation.processTurn userMessage context sessionId userId).task agent coerced).Ends
      (fun events _ => (∀ event ∈ events, ofSession fails event = false) →
        events.countP (ofSession (isTurnOf sessionId)) = 1) [] := by
  unfold ConductorOperation.task
  dsimp only
  rw [if_pos hvalid]
  have hembedded : ∀ (f : SessionEvent → Bool) (events : List SessionEvent),
      (events.map (Event.embed AgentEffect.session)).countP (ofSession f) = events.countP f := by
    intro f events
    rw [List.countP_map]
    rfl
  -- the paths of the turn count it once when they resolve, and they do
  have hpaths : (agent.processTurn userId sessionId userMessage context.traceId).Ends
      (fun events r => Blames events r ∧ (∀ result, r = .ok result →
        events.countP (isTurnOf sessionId) = 1)) [] :=
    Ends.and (blames_processTurn userId sessionId userMessage context.traceId)
      ((processTurn_turns userId sessionId userMessage context.traceId).imp fun _ _ h => h.2)
  refine Ends.bind (Ends.embed_nil (hpaths.imp ?_))
  rintro events r ⟨hblames, hcount⟩
  cases r with
  | ok result =>
    refine ends_pure fun _ => ?_
    rw [hembedded]
    exact hcount result rfl
  | error e =>
    intro hanswered
    obtain ⟨event, hevent, hfails⟩ := hblames ⟨e, rfl⟩
    have hanswer := hanswered (Event.embed AgentEffect.session event) (List.mem_map_of_mem hevent)
    exact absurd (hfails.symm.trans hanswer) (by decide)

/-- A step that is a turn is that of a turn, with its verdict. -/
theorem turn_of_admits {event : AgentEvent} (hadmits : Admits agent op before sessions event.effect)
    (hturn : ofSession (isTurnOf s) event = true) :
    (∃ userMessage context u, op = .processTurn userMessage context s u) ∧
      ofSession (isRejectionOf s) event = decide (op.verdict agent before = some false) := by
  obtain ⟨effect, reply⟩ := event
  cases effect with
  | session effect =>
    obtain ⟨verdict, hupdate⟩ := isTurnOf_iff.mp hturn
    have hrejection : isRejectionOf s ⟨effect, reply⟩ = decide (verdict = some false) := by
      rw [isRejectionOf, updateTo_eq_some_iff.mpr hupdate]
      simp
    cases effect with
    | setSession t write =>
      cases reply with
      | error e => cases write <;> cases hupdate
      | ok _ =>
        cases write with
        | literal state => cases hupdate
        | changed held change =>
          cases hupdate
          obtain ⟨hs, -, hmakes⟩ := hadmits
          cases op with
          | processTurn userMessage context sessionId u =>
            obtain rfl : s = sessionId := hs
            refine ⟨⟨userMessage, context, u, rfl⟩, hrejection.trans ?_⟩
            rw [show verdict = _ from hmakes, turnVerdict_startedFrom]
            rfl
          | _ => cases hmakes
    | patchContext t held toolCallId => cases hadmits
    | _ => cases hupdate
  | _ => cases hturn

/-- A rejection is a turn. -/
theorem isTurnOf_of_isRejectionOf {event : AgentEvent} (h : ofSession (isRejectionOf s) event = true) :
    ofSession (isTurnOf s) event = true := by
  obtain ⟨effect, reply⟩ := event
  cases effect with
  | session effect => exact isTurnOf_iff.mpr ⟨_, updateTo_eq_some_iff.mp (of_decide_eq_true h)⟩
  | _ => cases h

/-- A turn that does not pass validation does nothing. -/
theorem log_of_invalidTurn {userMessage sessionId userId : Text} {context : AgentContext}
    {log : List AgentEvent} {r : Except JsError Unit}
    (hinvalid : (turnContext context sessionId userId).isValid = false)
    (h : Logs agentEnv sessions
      ((ConductorOperation.processTurn userMessage context sessionId userId).task agent coerced) log r sessions') :
    log = [] := by
  unfold ConductorOperation.task at h
  dsimp only at h
  rw [hinvalid, if_neg Bool.false_ne_true] at h
  cases h
  rfl

/-- **A call counts** as one turn, if it is a turn of the session that passes validation, and as one
rejection, if it is one. -/
theorem call_counts {log : List AgentEvent} {r : Except JsError Unit}
    (h : Logs agentEnv sessions (op.task agent coerced) log r sessions')
    (hanswered : ∀ event ∈ log, ofSession fails event = false) :
    log.countP (ofSession (isTurnOf s)) = (op.isTurnOf s).toNat ∧
      log.countP (ofSession (isRejectionOf s)) = (op.rejects agent s (sessions s)).toNat := by
  have hsteps : ∀ event ∈ log, ∃ sessions₁,
      Admits agent op (sessions op.sessionId) sessions₁ event.effect :=
    fun event hmem => (h.upheld (task_upholds agent coerced op sessions)).2.exists_step hmem
  have hnone : log.countP (ofSession (isTurnOf s)) = 0 → log.countP (ofSession (isRejectionOf s)) = 0 := by
    rw [List.countP_eq_zero, List.countP_eq_zero]
    exact fun hzero event hmem hrejection => hzero event hmem (isTurnOf_of_isRejectionOf hrejection)
  by_cases hop : op.isTurnOf s = true
  · cases op with
    | processTurn userMessage context sessionId u =>
      obtain ⟨hs, hvalid⟩ := Bool.and_eq_true_iff.mp hop
      obtain rfl : sessionId = s := of_decide_eq_true hs
      have hone := h.ended (ends_validTurn hvalid) hanswered
      rw [List.nil_append] at hone
      refine ⟨by rw [hone, hop, Bool.toNat_true], ?_⟩
      rw [ConductorOperation.rejects, hop, Bool.true_and]
      by_cases hverdict : (ConductorOperation.processTurn userMessage context sessionId u).verdict agent
          (sessions sessionId) = some false
      · -- every turn of the call rejects
        rw [decide_eq_true hverdict, Bool.toNat_true, ← hone]
        refine List.countP_congr fun event hmem => ⟨isTurnOf_of_isRejectionOf, fun hturn => ?_⟩
        obtain ⟨sessions₁, hadmits⟩ := hsteps event hmem
        rw [(turn_of_admits hadmits hturn).2]
        exact decide_eq_true hverdict
      · rw [decide_eq_false hverdict, Bool.toNat_false, List.countP_eq_zero]
        intro event hmem hrejection
        obtain ⟨sessions₁, hadmits⟩ := hsteps event hmem
        have hturn := turn_of_admits hadmits (isTurnOf_of_isRejectionOf hrejection)
        exact hverdict (of_decide_eq_true (hturn.2.symm.trans hrejection))
    | _ => cases hop
  · have hzero : log.countP (ofSession (isTurnOf s)) = 0 := by
      rw [List.countP_eq_zero]
      intro event hmem hturn
      obtain ⟨sessions₁, hadmits⟩ := hsteps event hmem
      obtain ⟨⟨userMessage, context, u, rfl⟩, -⟩ := turn_of_admits hadmits hturn
      have hinvalid : (turnContext context s u).isValid = false := by
        rw [Bool.eq_false_iff]
        intro hvalid
        exact hop (by rw [ConductorOperation.isTurnOf, hvalid, decide_eq_true rfl, Bool.and_self])
      rw [log_of_invalidTurn hinvalid h] at hmem
      cases hmem
    rw [ConductorOperation.rejects, Bool.eq_false_iff.mpr hop, Bool.false_and]
    exact ⟨hzero, hnone hzero⟩

/-! ## The rate of a turn -/

/-- The rate that a number of turns and a number of rejections give. -/
theorem unattendedRate_mem {a b : ℕ} (hpos : 0 < b) (hle : a ≤ b) :
    ∃ x : ℚ, unattendedRate (.finite b) (.finite a) = .finite x ∧ 0 ≤ x ∧ x ≤ 1 := by
  have hb : (0 : ℚ) < b := Nat.cast_pos.mpr hpos
  obtain ⟨q, hq, hq0, hq1⟩ := JsNumber.exists_ofExact_unit (a := (a : ℚ) / b) (by positivity)
    ((div_le_one hb).mpr (Nat.cast_le.mpr hle))
  have hneg : (JsNumber.finite (-1)).mul (.finite q) = .finite (-q) := by
    show JsNumber.ofExact (-1 * q) = _
    rw [neg_one_mul]
    exact JsNumber.ofExact_neg (JsNumber.ofExact_ofExact hq)
  obtain ⟨x, hx, hbounds⟩ := JsNumber.exists_ofExact_unit (a := 1 + -q) (by linarith) (by linarith)
  refine ⟨x, ?_, hbounds⟩
  have hdiv : (JsNumber.finite a).div (.finite b) = .finite q := by
    rw [JsNumber.div, if_neg hb.ne', hq]
  rw [unattendedRate, hdiv, hneg]
  exact hx

/-- The numbers that a turn on a session checks: its interactions, and its interventions. -/
theorem current_of_counted {n k : ℕ} {before : Option SessionState} (s u : Text) (verdict : Option Bool)
    (hinteractions : interactions before = countUp n (.finite 0))
    (hinterventions : interventions before = countUp k (.finite 0)) :
    currentInteractions (startedFrom s u before) = countUp (n + 1) (.finite 0) ∧
      currentInterventions verdict (startedFrom s u before) =
        countUp (k + (decide (verdict = some false)).toNat) (.finite 0) := by
  have hcontext : interactions (some (startedFrom s u before)) = interactions before ∧
      interventions (some (startedFrom s u before)) = interventions before := by
    cases before with
    | none => exact ⟨rfl, rfl⟩
    | some state =>
      show JsNumber.orZero (listGoal state).context.interactions = _ ∧
        JsNumber.orZero (listGoal state).context.interventions = _
      rw [show (listGoal state).context = state.context from context_apply (c := .listGoal) rfl state]
      exact ⟨rfl, rfl⟩
  constructor
  · rw [countUp, Function.iterate_succ_apply', ← countUp, ← hinteractions, ← hcontext.1]
    rfl
  · refine countUp_concat hinterventions ?_ rfl
    rw [← hcontext.2]
    by_cases hverdict : verdict = some false
    · subst hverdict
      rfl
    · rw [currentInterventions, if_neg hverdict, decide_eq_false hverdict]
      rfl

/-! ## Runs -/

/-- The store and the memory answered in every call. -/
def Answered (calls : List AgentCall) : Prop :=
  ∀ call ∈ calls, ∀ event ∈ call.events, ofSession fails event = false

/-- The turns of a session that passed validation. -/
def turnsOf (s : Text) (calls : List AgentCall) : ℕ := calls.countP fun call => call.op.isTurnOf s

/-- Those of them that rejected the theme that was pending. -/
def rejectionsOf (agent : BedtimeConductorAgent) (s : Text) (calls : List AgentCall) : ℕ :=
  calls.countP fun call => call.op.rejects agent s (call.before s)

/-- The rate that a turn passes to the quality gate lies between 0 and 1. -/
def RateInRange (agent : BedtimeConductorAgent) (call : AgentCall) : Prop :=
  match call.op with
  | .processTurn userMessage _ s u =>
    let state := startedFrom s u (call.before s)
    ∃ x : ℚ, unattendedRate (currentInteractions state)
        (currentInterventions (turnVerdict agent.hasMemory userMessage state) state) = .finite x ∧
      0 ≤ x ∧ x ≤ 1
  | _ => True

/-- The counters of a session after calls. -/
structure Counted (agent : BedtimeConductorAgent) (s : Text) (calls : List AgentCall)
    (sessions : SessionMap) : Prop where
  turns : interactions (sessions s) = .finite ((min (turnsOf s calls) (2 ^ 53) : ℕ) : ℚ)
  rejections : interventions (sessions s) = .finite ((min (rejectionsOf agent s calls) (2 ^ 53) : ℕ) : ℚ)
  fewer : rejectionsOf agent s calls ≤ turnsOf s calls
  rate : ∀ call ∈ calls, call.op.isTurnOf s = true → RateInRange agent call

/-- Every rejection is a turn. -/
theorem rejectionsOf_le_turnsOf (agent : BedtimeConductorAgent) (s : Text) (calls : List AgentCall) :
    rejectionsOf agent s calls ≤ turnsOf s calls :=
  List.countP_mono_left fun _ _ h => (Bool.and_eq_true_iff.mp h).1

/-- A turn on a session that was counted passes a rate in range. -/
theorem rateInRange_of_counted {call : AgentCall} {n k : ℕ} (hturn : call.op.isTurnOf s = true)
    (hinteractions : interactions (call.before s) = countUp n (.finite 0))
    (hinterventions : interventions (call.before s) = countUp k (.finite 0)) (hle : k ≤ n) :
    RateInRange agent call := by
  obtain ⟨op, before, events, result⟩ := call
  cases op with
  | processTurn userMessage context sessionId u =>
    obtain rfl : sessionId = s := of_decide_eq_true (Bool.and_eq_true_iff.mp hturn).1
    show ∃ x : ℚ, _
    obtain ⟨hcurrent, hcurrent'⟩ := current_of_counted sessionId u
      (turnVerdict agent.hasMemory userMessage (startedFrom sessionId u (before sessionId)))
      hinteractions hinterventions
    rw [hcurrent, hcurrent', countUp_zero, countUp_zero]
    refine unattendedRate_mem (by omega) (min_le_min_right _ ?_)
    exact Nat.add_le_add hle (Bool.toNat_le _)
  | _ => trivial

/-- **The counters of a run**, in counts of its calls. -/
theorem counts_of_sequence {sessions₀ : SessionMap} {calls : List AgentCall}
    (h : Sequence agentEnv (ConductorOperation.task agent coerced) sessions₀ calls sessions)
    (hnew : sessions₀ s = none) (hanswered : Answered calls) :
    interactions (sessions s) = countUp (turnsOf s calls) (.finite 0) ∧
      interventions (sessions s) = countUp (rejectionsOf agent s calls) (.finite 0) ∧
        ∀ call ∈ calls, call.op.isTurnOf s = true → RateInRange agent call := by
  refine h.invariant (J := fun calls sessions =>
    interactions (sessions s) = countUp (turnsOf s calls) (.finite 0) ∧
      interventions (sessions s) = countUp (rejectionsOf agent s calls) (.finite 0) ∧
        ∀ call ∈ calls, call.op.isTurnOf s = true → RateInRange agent call) hanswered ?_ ?_
  · rw [hnew]
    exact ⟨rfl, rfl, fun call hcall => by cases hcall⟩
  · rintro calls sessions₁ op log r sessions₂ ⟨hinteractions, hinterventions, hrates⟩ hanswered hrun
    -- the steps of the call count what the call is
    have hbefore : CountedBy (turnsOf s calls) (rejectionsOf agent s calls) s [] sessions₁ :=
      ⟨hinteractions, hinterventions⟩
    have hcounted := (hrun.upheld (task_upholds agent coerced op sessions₁)).2.invariant
      (J := CountedBy (turnsOf s calls) (rejectionsOf agent s calls) s) hbefore
      fun past s₁ e reply s₂ hcounted hadmits hreply => countedBy_step hcounted hadmits hreply
    obtain ⟨hturns, hrejections⟩ := call_counts (s := s) hrun hanswered
    rw [List.nil_append, CountedBy, hturns, hrejections] at hcounted
    rw [turnsOf, rejectionsOf, List.countP_append, List.countP_append, List.countP_singleton,
      List.countP_singleton]
    refine ⟨?_, ?_, fun call hcall hturn => ?_⟩
    · rw [hcounted.1]
      cases op.isTurnOf s <;> rfl
    · rw [hcounted.2]
      cases op.rejects agent s (sessions₁ s) <;> rfl
    · rcases List.mem_append.mp hcall with hcall | hcall
      · exact hrates call hcall hturn
      · obtain rfl := List.mem_singleton.mp hcall
        exact rateInRange_of_counted hturn hinteractions hinterventions
          (rejectionsOf_le_turnsOf agent s calls)

/-- **The counters count** the turns of a session that passed validation and those that rejected a pending
theme, up to `2 ^ 53`, in every sequential run of operations from its creation in which the store and the
memory answer. The rate that a turn passes on lies between 0 and 1. -/
theorem interactions_counted {sessions₀ : SessionMap} {calls : List AgentCall}
    (agent : BedtimeConductorAgent) (coerced : Json → Except JsError Bool) (s : Text)
    (h : Sequence agentEnv (ConductorOperation.task agent coerced) sessions₀ calls sessions)
    (hnew : sessions₀ s = none) (hanswered : Answered calls) : Counted agent s calls sessions := by
  obtain ⟨hinteractions, hinterventions, hrates⟩ := counts_of_sequence h hnew hanswered
  refine ⟨?_, ?_, rejectionsOf_le_turnsOf agent s calls, hrates⟩
  · rw [hinteractions, countUp_zero]
  · rw [hinterventions, countUp_zero]

/-- The second turn rejects the theme that the first has suggested. -/
def suggestionRejected : List AgentCall × SessionMap :=
  callsOf rememberingConductor suggesting [turnOf "hello", turnOf "no", turnOf "hello"]

/-- Where every effect succeeds, the store and the memory answer. -/
theorem answered_of_succeeding {thought : Thought} {raw : Option Json} {plan : CorrectionPlan}
    {event : AgentEvent}
    (h : ∃ sessions, event.reply = (agentSucceeding thought raw plan event.effect sessions).1) :
    ofSession fails event = false := by
  obtain ⟨effect, reply⟩ := event
  obtain ⟨sessions, hreply⟩ := h
  dsimp only at hreply
  subst hreply
  cases effect with
  | session effect => cases effect <;> rfl
  | _ => rfl

theorem interactions_counted_suggestionRejected :
    Counted rememberingConductor (lit "evening") suggestionRejected.1 suggestionRejected.2 ∧
      turnsOf (lit "evening") suggestionRejected.1 = 3 ∧
      rejectionsOf rememberingConductor (lit "evening") suggestionRejected.1 = 1 := by
  refine ⟨interactions_counted rememberingConductor (fun _ => .ok false) (lit "evening")
    (sequence_callsOf rememberingConductor suggesting _) rfl ?_, ?_, ?_⟩
  · refine forall_recordCalls (fun op sessions event hevent => ?_) fun call hcall => by cases hcall
    exact answered_of_succeeding (reply_of_record hevent)
  · decide +kernel
  · decide +kernel

/-- A run of any number of turns. -/
theorem exists_turns (n : ℕ) : ∃ calls sessions, Sequence agentEnv
    (ConductorOperation.task plainConductor fun _ => .ok false) (fun _ => none) calls sessions ∧
      Answered calls ∧ turnsOf (lit "evening") calls = n := by
  induction n with
  | zero => exact ⟨[], _, .start, fun call hcall => (by cases hcall), rfl⟩
  | succ n ih =>
    obtain ⟨calls, sessions, hsequence, hanswered, hturns⟩ := ih
    have hturn : (turnOf "hello").isTurnOf (lit "evening") = true := by decide
    have hrun := logs_record (agentEnv_succeeding restful none givingUp) sessions
      ((turnOf "hello").task plainConductor fun _ => .ok false)
    refine ⟨_, _, hsequence.call hrun, ?_, ?_⟩
    · intro call hcall event hevent
      rcases List.mem_append.mp hcall with hcall | hcall
      · exact hanswered call hcall event hevent
      · obtain rfl := List.mem_singleton.mp hcall
        exact answered_of_succeeding (reply_of_record hevent)
    · rw [turnsOf, List.countP_append, ← turnsOf, hturns, List.countP_singleton, if_pos hturn]

/-- After `2 ^ 53 + 1` turns the counter says one less. -/
theorem interactions_saturated : ∃ calls sessions, Sequence agentEnv
    (ConductorOperation.task plainConductor fun _ => .ok false) (fun _ => none) calls sessions ∧
      Answered calls ∧ turnsOf (lit "evening") calls = 2 ^ 53 + 1 ∧
      interactions (sessions (lit "evening")) ≠ .finite ((turnsOf (lit "evening") calls : ℕ) : ℚ) := by
  obtain ⟨calls, sessions, hsequence, hanswered, hturns⟩ := exists_turns (2 ^ 53 + 1)
  refine ⟨calls, sessions, hsequence, hanswered, hturns, ?_⟩
  rw [(counts_of_sequence hsequence rfl hanswered).1, countUp_zero, hturns]
  decide +kernel

end DreamWeaver.Conductor
