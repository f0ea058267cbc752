import DreamWeaver.Conductor.LostUpdate

/-! # The operations of a pool

What the text of each operation says about its events: which updates it can make, and that an
operation that completes has made its update, once, unless it had nothing to do. -/

namespace DreamWeaver.Conductor

open Proc

/-- An operation on a session. -/
inductive Operation where
  | processTurn (userId sessionId message : Text) (traceId : Option Text)
  | handleStoryBeat (sessionId userId : Text) (beatIndex totalBeats : JsNumber) (now : Time)
  | handleSleepCueDetected (sessionId userId : Text)
  | setGoal (sessionId userId : Text) (goal : ActiveGoalProps)
  /-- The call of a tool, up to the answer: a rejection is answered with 500. -/
  | liveTool (userId : Text) (traceId : Option Text) (call : ToolCall)

/-- The procedure of an operation, whose result nobody waits for. -/
def Operation.task (agent : BedtimeConductorAgent) : Operation → SessionProc Unit
  | .processTurn userId sessionId message traceId => do
    let _ ← agent.processTurn userId sessionId message traceId
    pure ()
  | .handleStoryBeat sessionId userId beatIndex totalBeats now =>
    Conductor.handleStoryBeat sessionId userId beatIndex totalBeats now
  | .handleSleepCueDetected sessionId userId =>
    Conductor.handleSleepCueDetected agent.hasMemory sessionId userId
  | .setGoal sessionId userId goal => Conductor.setGoal sessionId userId goal
  | .liveTool userId traceId call => do
    let _ ← liveToolBody userId traceId call
    pure ()

/-! ## What operations can do -/

/-- A kind of events that has all events without an update and those that start a session or list its
goal. -/
structure Usual (P : SessionEvent → Prop) : Prop where
  quiet : ∀ event, updateOf event = none → P event
  start : ∀ s u, P ⟨.setSession s (.literal (initialState s u)), .ok ()⟩
  list : ∀ s state, P ⟨.setSession s (.changed state .listGoal), .ok ()⟩

section Only

variable {P : SessionEvent → Prop} {s u : Text}

theorem only_setSession (h : Usual P) {write : SessionWrite}
    (hwrite : P ⟨.setSession s write, .ok ()⟩) : (setSession s write).Only P := by
  refine only_perform fun reply => ?_
  cases reply with
  | ok _ => exact hwrite
  | error e => exact h.quiet _ (by cases write <;> rfl)

theorem only_getOrInitState (h : Usual P) : (getOrInitState s u).Only P := by
  refine Only.bind (only_perform fun reply => h.quiet _ rfl) fun found => ?_
  cases found with
  | none => exact Only.bind (only_setSession h (h.start s u)) fun _ => only_pure
  | some state =>
    dsimp only
    cases unlistedGoal state with
    | none => exact only_pure
    | some goal => exact Only.bind (only_setSession h (h.list s state)) fun _ => only_pure

theorem only_setGoal (h : Usual P) {goal : ActiveGoalProps}
    (hgoal : ∀ state, P ⟨.setSession s (.changed state (.goal goal)), .ok ()⟩) :
    (setGoal s u goal).Only P :=
  Only.bind (only_getOrInitState h) fun state => only_setSession h (hgoal state)

theorem only_handleStoryBeat (h : Usual P) {beatIndex totalBeats : JsNumber} {now : Time}
    (hbeat : ∀ state, (beatGoal state).isSome = true → P ⟨.setSession s
      (.changed state (.beat (beatProgress beatIndex totalBeats) now)), .ok ()⟩) :
    (handleStoryBeat s u beatIndex totalBeats now).Only P := by
  refine Only.bind (only_getOrInitState h) fun state => ?_
  cases hgoal : beatGoal state with
  | none => exact only_pure
  | some goal => exact only_setSession h (hbeat state (by rw [hgoal]; rfl))

theorem only_handleSleepCueDetected (h : Usual P) {hasMemory : Bool}
    (hsleep : ∀ state, P ⟨.setSession s (.changed state .sleep), .ok ()⟩) :
    (handleSleepCueDetected hasMemory s u).Only P := by
  rw [handleSleepCueDetected]
  split
  · exact only_pure
  · refine Only.bind (only_getOrInitState h) fun state => ?_
    cases suggestedTheme state with
    | none => exact only_pure
    | some theme =>
      dsimp only
      split
      · refine Only.bind (only_perform fun _ => h.quiet _ rfl) fun _ => ?_
        refine Only.bind (only_perform fun _ => h.quiet _ rfl) fun _ => ?_
        exact only_setSession h (hsleep state)
      · exact only_pure

variable {agent : BedtimeConductorAgent}

theorem only_suggest (h : Usual P) {rejected suggestion : Option Text}
    (htheme : ∀ state theme, P ⟨.setSession s (.changed state (.theme theme)), .ok ()⟩) :
    (agent.suggest s u rejected suggestion).Only P := by
  cases suggestion with
  | none => exact only_pure
  | some theme =>
    refine Only.bind (only_getOrInitState h) fun state => ?_
    refine Only.bind (only_setSession h (htheme state theme)) fun _ => ?_
    cases rejected with
    | none => exact only_pure
    | some rejectedTheme =>
      rw [BedtimeConductorAgent.trackPreference]
      split
      · exact only_perform fun _ => h.quiet _ rfl
      · exact only_pure

theorem only_think (h : Usual P) {traceId : Option Text} {observation : Observation}
    {breach : Option JsError} {rejected : Option Text}
    (htheme : ∀ state theme, P ⟨.setSession s (.changed state (.theme theme)), .ok ()⟩) :
    (agent.think s u traceId observation breach rejected).Only P := by
  cases breach with
  | some error => exact only_done
  | none =>
    refine Only.bind (only_perform fun _ => h.quiet _ rfl) fun thought => ?_
    refine Only.bind ?_ fun _ => Only.bind (only_suggest h htheme) fun _ => only_pure
    rw [BedtimeConductorAgent.saveTrace]
    split
    · exact Only.catchWith (only_perform fun _ => h.quiet _ rfl) fun _ => only_pure
    · exact only_pure

theorem only_trackVerdict (h : Usual P) {theme : Text} {verdict : Option Bool} :
    (BedtimeConductorAgent.trackVerdict u theme verdict).Only P := by
  cases verdict with
  | none => exact only_pure
  | some positive => exact only_perform fun _ => h.quiet _ rfl

/-- What comes after the first `set` of a turn. -/
theorem only_afterTurn (h : Usual P) {message : Text} {traceId : Option Text} {state : SessionState}
    {breach : Option JsError} {rejected : Option Text}
    (htheme : ∀ state theme, P ⟨.setSession s (.changed state (.theme theme)), .ok ()⟩) :
    (agent.recallMemories u s message >>= fun memoryContext => Proc.catchWith
      (agent.think s u traceId (BedtimeConductorAgent.observe state message memoryContext) breach
        rejected) fun error => pure (safeResult error)).Only P := by
  refine Only.bind ?_ fun memoryContext => Only.catchWith (only_think h htheme) fun _ => only_pure
  rw [BedtimeConductorAgent.recallMemories]
  split
  · exact only_perform fun _ => h.quiet _ rfl
  · exact only_pure

theorem only_processTurn (h : Usual P) {message : Text} {traceId : Option Text}
    (hturn : ∀ state verdict, P ⟨.setSession s (.changed state (.turn verdict)), .ok ()⟩)
    (htheme : ∀ state theme, P ⟨.setSession s (.changed state (.theme theme)), .ok ()⟩) :
    (agent.processTurn u s message traceId).Only P := by
  refine Only.bind (only_getOrInitState h) fun state => ?_
  refine Only.bind (only_trackVerdict h) fun _ => ?_
  exact Only.bind (only_setSession h (hturn state _)) fun _ => only_afterTurn h htheme

theorem only_liveToolBody (h : Usual P) {traceId : Option Text} {call : ToolCall}
    (htool : ∀ state toolCallId, P ⟨.patchContext call.sessionId state toolCallId, .ok ()⟩) :
    (liveToolBody u traceId call).Only P := by
  have hexecute : ∀ state, (executeTool u traceId state call).Only P :=
    fun state => Only.bind (only_perform fun _ => h.quiet _ rfl) fun _ => only_pure
  refine Only.bind (only_perform fun _ => h.quiet _ rfl) fun found => ?_
  cases found with
  | none => exact only_pure
  | some state =>
    dsimp only
    split
    · exact only_pure
    · cases call.toolCallId with
      | none => exact hexecute state
      | some toolCallId =>
        dsimp only
        split
        · exact only_pure
        · refine Only.bind (only_perform fun reply => ?_) fun _ => hexecute state
          cases reply with
          | ok _ => exact htool state toolCallId
          | error e => exact h.quiet _ rfl

end Only

/-! ## What operations have done when they complete -/

/-- The state that an operation holds when it starts on what it finds. -/
def startedFrom (sessionId userId : Text) : Option SessionState → SessionState
  | none => initialState sessionId userId
  | some state => listGoal state

/-- An operation starts with the state that it finds, and with no events but those of its start. -/
theorem ends_getOrInitState {s u : Text} {past : List SessionEvent}
    {Q : List SessionEvent → Except JsError SessionState → Prop}
    (hok : ∀ found rest, ⟨.getSession s, .ok found⟩ ∈ rest →
      (∀ f : SessionEvent → Bool, (Usual fun event => f event = false) → rest.countP f = 0) →
        Q (past ++ rest) (.ok (startedFrom s u found)))
    (herror : ∀ e past', Q past' (.error e)) : (getOrInitState s u).Ends Q past := by
  refine Ends.bind (ends_perform fun reply => ?_)
  cases reply with
  | error e => exact herror e _
  | ok found =>
    have hquiet : ∀ f : SessionEvent → Bool, (Usual fun event => f event = false) →
        f ⟨.getSession s, .ok found⟩ = false := fun f hf => hf.quiet _ rfl
    have hone : ∀ state, startedFrom s u found = state →
        Q (past ++ [⟨.getSession s, .ok found⟩]) (.ok state) := by
      rintro state rfl
      refine hok found [_] (List.mem_singleton_self _) fun f hf => ?_
      rw [List.countP_singleton, hquiet f hf, if_neg Bool.false_ne_true]
    have htwo : ∀ state write, startedFrom s u found = state →
        (∀ f : SessionEvent → Bool, (Usual fun event => f event = false) →
          f ⟨.setSession s write, .ok ()⟩ = false) →
        Q (past ++ [⟨.getSession s, .ok found⟩] ++ [⟨.setSession s write, .ok ()⟩])
          (.ok state) := by
      rintro state write rfl hwrite
      rw [List.append_assoc]
      refine hok found _ List.mem_cons_self fun f hf => ?_
      simp [hquiet f hf, hwrite f hf]
    cases found with
    | none =>
      refine Ends.bind (ends_perform fun reply => ?_)
      cases reply with
      | error e => exact herror e _
      | ok _ => exact htwo _ _ rfl fun f hf => hf.start s u
    | some state =>
      dsimp only
      cases hgoal : unlistedGoal state with
      | none => exact hone state (by rw [startedFrom, listGoal, hgoal])
      | some goal =>
        refine Ends.bind (ends_perform fun reply => ?_)
        cases reply with
        | error e => exact herror e _
        | ok _ => exact htwo _ _ rfl fun f hf => hf.list s state

/-- The event is a turn of the session. -/
def isTurnOf (sessionId : Text) (event : SessionEvent) : Bool :=
  match updateTo sessionId event with
  | some (.change (.turn _)) => true
  | _ => false

/-- The event makes the update of the operation. -/
def Operation.performs : Operation → SessionEvent → Bool
  | .processTurn _ sessionId _ _, event => isTurnOf sessionId event
  | .handleStoryBeat sessionId _ beatIndex totalBeats now, event =>
    updateTo sessionId event = some (.change (.beat (beatProgress beatIndex totalBeats) now))
  | .handleSleepCueDetected sessionId _, event =>
    updateTo sessionId event = some (.change .sleep)
  | .setGoal sessionId _ goal, event => updateTo sessionId event = some (.change (.goal goal))
  | .liveTool _ _ call, event => call.toolCallId.any fun toolCallId =>
      updateTo call.sessionId event = some (.toolCall toolCallId)

/-- The operation had nothing to do, in view of what it read. -/
def Operation.Idle (agent : BedtimeConductorAgent) : Operation → List SessionEvent → Prop
  | .processTurn _ _ _ _, _ => False
  | .handleStoryBeat sessionId userId _ _ _, events =>
    ∃ found, ⟨.getSession sessionId, .ok found⟩ ∈ events ∧
      beatGoal (startedFrom sessionId userId found) = none
  | .handleSleepCueDetected sessionId userId, events =>
    sessionId = [] ∨ userId = [] ∨ ∃ found, ⟨.getSession sessionId, .ok found⟩ ∈ events ∧
      (suggestedTheme (startedFrom sessionId userId found) = none ∨ agent.hasMemory = false)
  | .setGoal _ _ _, _ => False
  | .liveTool userId _ call, events =>
    call.toolCallId = none ∨ ∃ found, ⟨.getSession call.sessionId, .ok found⟩ ∈ events ∧
      ∀ state ∈ found, state.userId ≠ userId ∨
        ∃ toolCallId ∈ call.toolCallId, toolCallId ∈ processedToolCalls state.context

/-- An operation that completes has made its update once, unless it had nothing to do. -/
def Operation.Performed (agent : BedtimeConductorAgent) (op : Operation)
    (events : List SessionEvent) : Prop :=
  events.countP op.performs = 1 ∨ op.Idle agent events

/-- Turns are recognized by their update. -/
theorem isTurnOf_iff {sessionId : Text} {event : SessionEvent} : isTurnOf sessionId event = true ↔
    ∃ verdict, updateOf event = some (sessionId, .change (.turn verdict)) := by
  rw [isTurnOf]
  constructor
  · intro h
    split at h
    · rename_i verdict hupdate
      exact ⟨verdict, updateTo_eq_some_iff.mp hupdate⟩
    · cases h
  · rintro ⟨verdict, hupdate⟩
    rw [updateTo_eq_some_iff.mpr hupdate]

/-- Starting a session and listing its goal are no kind of event that is given by another update. -/
theorem usual_of_update {f : SessionEvent → Bool}
    (h : ∀ event, f event = true → ∃ s update, updateOf event = some (s, update) ∧
      (∀ state, update ≠ .start state) ∧ update ≠ .change .listGoal) :
    Usual fun event => f event = false where
  quiet event hnone := by
    rw [Bool.eq_false_iff]
    intro hf
    obtain ⟨s, update, hupdate, -⟩ := h event hf
    rw [hnone] at hupdate
    cases hupdate
  start s u := by
    rw [Bool.eq_false_iff]
    intro hf
    obtain ⟨s', update, hupdate, hstart, -⟩ := h _ hf
    cases hupdate
    exact hstart _ rfl
  list s state := by
    rw [Bool.eq_false_iff]
    intro hf
    obtain ⟨s', update, hupdate, -, hlist⟩ := h _ hf
    cases hupdate
    exact hlist rfl

theorem usual_isTurnOf (sessionId : Text) : Usual fun event => isTurnOf sessionId event = false := by
  refine usual_of_update fun event h => ?_
  obtain ⟨verdict, hupdate⟩ := isTurnOf_iff.mp h
  exact ⟨_, _, hupdate, by simp, by simp⟩

/-- The start of an operation is not what it performs. -/
theorem usual_performs (op : Operation) : Usual fun event => op.performs event = false := by
  cases op with
  | processTurn userId sessionId message traceId => exact usual_isTurnOf sessionId
  | liveTool userId traceId call =>
    refine usual_of_update fun event h => ?_
    obtain ⟨toolCallId, -, hupdate⟩ := (Option.any_eq_true _ _).mp h
    exact ⟨_, _, updateTo_eq_some_iff.mp (of_decide_eq_true hupdate), by simp, by simp⟩
  | _ =>
    refine usual_of_update fun event h => ?_
    exact ⟨_, _, updateTo_eq_some_iff.mp (of_decide_eq_true h), by simp, by simp⟩

section Performed

variable {agent : BedtimeConductorAgent}

/-- The paths on which an operation completes have its update. -/
def Completes {α : Type} (agent : BedtimeConductorAgent) (op : Operation) (past : List SessionEvent)
    (r : Except JsError α) : Prop :=
  r.isOk = true → op.Performed agent past

theorem completes_error {α : Type} (op : Operation) (past : List SessionEvent) (e : JsError) :
    Completes agent op past (.error e : Except JsError α) := fun h => by cases h

/-- Nobody waits for the result of an operation. -/
theorem ends_discard {α : Type} {op : Operation} {p : SessionProc α} {past : List SessionEvent}
    (h : p.Ends (Completes agent op) past) :
    (p >>= fun _ => pure ()).Ends (Completes agent op) past := by
  refine Ends.bind (h.imp fun past' r hr => ?_)
  cases r with
  | ok a => exact ends_pure hr
  | error e => exact completes_error op past' e

/-- A write at the end of an operation performs it. -/
theorem ends_write {op : Operation} {s : Text} {write : SessionWrite} {past : List SessionEvent}
    (hcount : past.countP op.performs = 0)
    (hwrite : op.performs ⟨.setSession s write, .ok ()⟩ = true) :
    (setSession s write).Ends (Completes agent op) past := by
  refine ends_perform fun reply => ?_
  cases reply with
  | error e => exact completes_error op _ e
  | ok _ =>
    refine fun _ => Or.inl ?_
    rw [List.countP_append, hcount, List.countP_singleton, if_pos hwrite, Nat.zero_add]

theorem setGoal_completes (s u : Text) (goal : ActiveGoalProps) :
    (setGoal s u goal).Ends (Completes agent (.setGoal s u goal)) [] := by
  refine Ends.bind (ends_getOrInitState (fun found rest _ hrest => ?_)
    fun e past => completes_error _ past e)
  refine ends_write (hrest _ (usual_performs (.setGoal s u goal))) ?_
  simp [Operation.performs, updateTo, updateOf]

theorem handleStoryBeat_completes (s u : Text) (beatIndex totalBeats : JsNumber) (now : Time) :
    (handleStoryBeat s u beatIndex totalBeats now).Ends
      (Completes agent (.handleStoryBeat s u beatIndex totalBeats now)) [] := by
  refine Ends.bind (ends_getOrInitState (fun found rest hmem hrest => ?_)
    fun e past => completes_error _ past e)
  dsimp only
  cases hgoal : beatGoal (startedFrom s u found) with
  | none => exact ends_pure fun _ => Or.inr ⟨found, hmem, hgoal⟩
  | some goal =>
    refine ends_write (hrest _ (usual_performs (.handleStoryBeat s u beatIndex totalBeats now))) ?_
    simp [Operation.performs, updateTo, updateOf]

theorem handleSleepCueDetected_completes (s u : Text) :
    (handleSleepCueDetected agent.hasMemory s u).Ends
      (Completes agent (.handleSleepCueDetected s u)) [] := by
  rw [handleSleepCueDetected]
  by_cases hempty : s = [] ∨ u = []
  · rw [if_pos hempty]
    refine ends_pure fun _ => Or.inr ?_
    rcases hempty with hs | hu
    · exact Or.inl hs
    · exact Or.inr (Or.inl hu)
  · rw [if_neg hempty]
    refine Ends.bind (ends_getOrInitState (fun found rest hmem hrest => ?_)
      fun e past => completes_error _ past e)
    dsimp only
    cases htheme : suggestedTheme (startedFrom s u found) with
    | none => exact ends_pure fun _ => Or.inr (Or.inr (Or.inr ⟨found, hmem, Or.inl htheme⟩))
    | some theme =>
      dsimp only
      cases hmemory : agent.hasMemory with
      | false =>
        rw [if_neg Bool.false_ne_true]
        exact ends_pure fun _ => Or.inr (Or.inr (Or.inr ⟨found, hmem, Or.inr hmemory⟩))
      | true =>
        rw [if_pos rfl]
        have husual := usual_performs (.handleSleepCueDetected s u)
        have htrack : (trackOutcome theme true u).Only fun event =>
            (Operation.handleSleepCueDetected s u).performs event = false :=
          only_perform fun _ => husual.quiet _ rfl
        refine htrack.bind_ends (fun _ past hcount => ?_) fun e past _ => completes_error _ past e
        refine htrack.bind_ends (fun _ past' hcount' => ?_) fun e past _ => completes_error _ past e
        refine ends_write (hcount'.trans (hcount.trans (hrest _ husual))) ?_
        simp [Operation.performs, updateTo, updateOf]

/-- A turn is counted once when it completes, and at most once in any case. -/
theorem processTurn_turns (u s message : Text) (traceId : Option Text) :
    (agent.processTurn u s message traceId).Ends (fun past r =>
      past.countP (isTurnOf s) ≤ 1 ∧ ∀ result, r = .ok result → past.countP (isTurnOf s) = 1) [] := by
  have husual := usual_isTurnOf s
  -- what ends before the first `set` of the turn has not been counted
  have hfails : ∀ (e : JsError) (past : List SessionEvent), past.countP (isTurnOf s) = 0 →
      past.countP (isTurnOf s) ≤ 1 ∧ ∀ result : TurnResult, Except.error e = .ok result →
        past.countP (isTurnOf s) = 1 := by
    intro e past hzero
    exact ⟨by omega, fun result h => by cases h⟩
  refine (only_getOrInitState husual).bind_ends (fun state past hcount => ?_) hfails
  refine (only_trackVerdict husual).bind_ends (fun _ past' hcount' => ?_)
    fun e past' hcount' => hfails e past' (hcount'.trans hcount)
  refine Ends.bind (ends_perform fun reply => ?_)
  have hzero : past'.countP (isTurnOf s) = 0 := hcount'.trans hcount
  cases reply with
  | error e =>
    apply hfails
    rw [List.countP_append, hzero]
    rfl
  | ok _ =>
    -- the turn is counted now, and what follows is not a turn
    have hone : (past' ++ [(⟨.setSession s (.changed state (.turn
        (turnVerdict agent.hasMemory message state))), .ok ()⟩ : SessionEvent)]).countP
          (isTurnOf s) = 1 := by
      rw [List.countP_append, hzero, List.countP_singleton, if_pos]
      simp [isTurnOf, updateTo, updateOf]
    refine ((only_afterTurn husual ?_).ends_countP _).imp fun past'' r hcount'' => ?_
    · intro state theme
      simp [isTurnOf, updateTo, updateOf]
    · rw [hone] at hcount''
      exact ⟨hcount''.le, fun _ _ => hcount''⟩

theorem processTurn_completes (u s message : Text) (traceId : Option Text) :
    (agent.processTurn u s message traceId).Ends
      (Completes agent (.processTurn u s message traceId)) [] := by
  refine (processTurn_turns u s message traceId).imp fun past r h => ?_
  cases r with
  | error e => exact completes_error _ past e
  | ok result => exact fun _ => Or.inl (h.2 result rfl)

/-- The tool itself leaves the sessions alone. -/
theorem executeTool_completes {u : Text} {traceId : Option Text} {call : ToolCall}
    {state : SessionState} {past : List SessionEvent}
    (h : (Operation.liveTool u traceId call).Performed agent past) :
    (executeTool u traceId state call).Ends (Completes agent (.liveTool u traceId call)) past := by
  refine Ends.bind (ends_perform fun reply => ?_)
  cases reply with
  | error e => exact completes_error _ _ e
  | ok response =>
    refine ends_pure fun _ => ?_
    rcases h with hcount | hnone | ⟨found, hmem, hfound⟩
    · left
      rw [List.countP_append, hcount, List.countP_singleton, if_neg]
      rw [(usual_performs (.liveTool u traceId call)).quiet _ rfl]
      exact Bool.false_ne_true
    · exact Or.inr (Or.inl hnone)
    · exact Or.inr (Or.inr ⟨found, List.mem_append_left _ hmem, hfound⟩)

theorem liveTool_completes (u : Text) (traceId : Option Text) (call : ToolCall) :
    (liveToolBody u traceId call).Ends (Completes agent (.liveTool u traceId call)) [] := by
  refine Ends.bind (ends_perform fun reply => ?_)
  cases reply with
  | error e => exact completes_error _ _ e
  | ok found =>
    -- the branches that answer without a patch had nothing to do
    have hidle : ∀ answer, (∀ state ∈ found, state.userId ≠ u ∨
          ∃ toolCallId ∈ call.toolCallId, toolCallId ∈ processedToolCalls state.context) →
        (pure answer : SessionProc ToolReply).Ends (Completes agent (.liveTool u traceId call))
          ([] ++ [⟨.getSession call.sessionId, .ok found⟩]) :=
      fun answer h => ends_pure fun _ => Or.inr (Or.inr ⟨found, by simp, h⟩)
    cases found with
    | none => exact hidle .forbidden (by simp)
    | some state =>
      dsimp only
      by_cases hforbidden : state.userId ≠ u
      · rw [if_pos hforbidden]
        exact hidle .forbidden (by simp [hforbidden])
      · rw [if_neg hforbidden]
        cases htool : call.toolCallId with
        | none => exact executeTool_completes (Or.inr (Or.inl htool))
        | some toolCallId =>
          dsimp only
          by_cases hprocessed : toolCallId ∈ processedToolCalls state.context
          · rw [if_pos hprocessed]
            exact hidle .duplicate (by simp [htool, hprocessed])
          · rw [if_neg hprocessed]
            refine Ends.bind (ends_perform fun reply => ?_)
            cases reply with
            | error e => exact completes_error _ _ e
            | ok _ =>
              refine executeTool_completes (Or.inl ?_)
              simp [Operation.performs, htool, updateTo, updateOf]

/-- **An operation that completes has made its update.** -/
theorem task_completes (op : Operation) : (op.task agent).Ends (Completes agent op) [] := by
  cases op with
  | processTurn u s message traceId => exact ends_discard (processTurn_completes u s message traceId)
  | handleStoryBeat s u beatIndex totalBeats now =>
    exact handleStoryBeat_completes s u beatIndex totalBeats now
  | handleSleepCueDetected s u => exact handleSleepCueDetected_completes s u
  | setGoal s u goal => exact setGoal_completes s u goal
  | liveTool u traceId call => exact ends_discard (liveTool_completes u traceId call)

end Performed

end DreamWeaver.Conductor
