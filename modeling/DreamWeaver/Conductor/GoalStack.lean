import DreamWeaver.Conductor.AgentOperations

/-! # The stack of goals

A session keeps its goals twice: `activeGoals`, a stack of at most five, and `activeGoal`, its top. Every
operation of the agent that runs on its own leaves the two in agreement, and accounts for every goal: what
is in the stack or has been achieved was set, once for each. -/

namespace DreamWeaver.Conductor

open Proc

/-! ## Stacks that are as they should be -/

/-- A stored goal is active, with a progress in percent. -/
structure Pending (goal : ActiveGoalProps) : Prop where
  active : goal.status = .active
  progress : ∃ x : ℚ, goal.progress = .finite x ∧ 0 ≤ x ∧ x ≤ 100

/-- The goals of a session: none at all, or a stack of five at most with its top. -/
def GoalStack (state : SessionState) : Prop :=
  (state.activeGoal = none ∧ state.activeGoals = none) ∨
    ∃ goal rest, state.activeGoal = some goal ∧ state.activeGoals = some (goal :: rest) ∧
      (goal :: rest).length ≤ 5 ∧ ∀ g ∈ goal :: rest, Pending g

/-- The stacks of a store are as they should be. -/
def GoalStacks (sessions : SessionMap) : Prop := ∀ s state, sessions s = some state → GoalStack state

variable {state held : SessionState} {sessions sessions' : SessionMap} {s : Text}

/-- What a stack depends on. -/
theorem GoalStack.congr {state' : SessionState} (h : GoalStack state)
    (hgoal : state'.activeGoal = state.activeGoal) (hgoals : state'.activeGoals = state.activeGoals) :
    GoalStack state' := by
  rw [GoalStack, hgoal, hgoals]
  exact h

/-- A stack lists its goal already. -/
theorem GoalStack.listGoal_eq (h : GoalStack state) : listGoal state = state := by
  have hunlisted : unlistedGoal state = none := by
    rcases h with ⟨hgoal, hgoals⟩ | ⟨goal, rest, -, hgoals, -, -⟩
    · rw [unlistedGoal, hgoals]
      exact hgoal
    · rw [unlistedGoal, hgoals]
  rw [listGoal, hunlisted]

theorem GoalStack.pending (h : GoalStack state) : ∀ g ∈ state.activeGoals.getD [], Pending g := by
  rcases h with ⟨-, hgoals⟩ | ⟨goal, rest, -, hgoals, -, hpending⟩
  · rw [hgoals]
    intro g hg
    cases hg
  · rw [hgoals]
    exact hpending

/-- The goal of a beat is the top of the stack. -/
theorem GoalStack.beatGoal_eq {goal : ActiveGoalProps} (h : GoalStack state)
    (hgoal : beatGoal state = some goal) : ∃ rest, state.activeGoals = some (goal :: rest) := by
  obtain ⟨hhydrated, -⟩ := Option.filter_eq_some_iff.mp hgoal
  rcases h with ⟨hnone, hgoals⟩ | ⟨top, rest, htop, hgoals, -, -⟩
  · rw [hydrateActiveGoal, hgoals, hnone] at hhydrated
    cases hhydrated
  · rw [hydrateActiveGoal, hgoals] at hhydrated
    obtain rfl := Option.some.inj hhydrated
    exact ⟨rest, hgoals⟩

/-- A percentage of what is a number. -/
theorem exists_percent {x : JsNumber} (hx : x ≠ .nan) :
    ∃ y : ℚ, x.percent = .finite y ∧ 0 ≤ y ∧ y ≤ 100 := by
  cases x with
  | nan => exact absurd rfl hx
  | negInfinity => exact ⟨0, rfl, le_rfl, by norm_num⟩
  | posInfinity => exact ⟨100, rfl, by norm_num, le_rfl⟩
  | finite x => exact ⟨_, rfl, by simp, by simp⟩

/-! ## What changes do to a stack -/

/-- A new goal is active, with no progress. -/
theorem pending_createNew (showOther : ℚ → Text) (now : Time) (suffix : Text) (input : CreateGoalInput) :
    Pending (ActiveGoal.createNew showOther now suffix input) :=
  ⟨rfl, 0, rfl, le_rfl, by norm_num⟩

/-- A goal is put on top of the stack, which keeps its first five. -/
theorem GoalStack.activeGoals_withGoal (h : GoalStack state) (goal : ActiveGoalProps) :
    (Conductor.withGoal goal state).activeGoals = some (goal :: (state.activeGoals.getD []).take 4) := by
  unfold Conductor.withGoal
  rcases h with ⟨hnone, hgoals⟩ | ⟨top, rest, -, hgoals, -, -⟩
  · rw [hgoals, hnone]
    rfl
  · rw [hgoals]
    rfl

theorem GoalStack.withGoal {goal : ActiveGoalProps} (h : GoalStack state) (hgoal : Pending goal) :
    GoalStack (withGoal goal state) := by
  refine .inr ⟨goal, (state.activeGoals.getD []).take 4, rfl, h.activeGoals_withGoal goal, ?_, ?_⟩
  · rw [List.length_cons, List.length_take]
    omega
  · intro g hg
    rcases List.mem_cons.mp hg with rfl | hg
    · exact hgoal
    · exact h.pending g (List.mem_of_mem_take hg)

/-- What a beat leaves of the stack: without its top if it achieves it, else with its progress. -/
theorem activeGoals_withBeat {progress : JsNumber} {now : Time} {goal : ActiveGoalProps}
    {rest : List ActiveGoalProps} (hgoals : state.activeGoals = some (goal :: rest)) :
    (withBeat progress now goal state).activeGoals = orUndefined
      (if progress.atLeast 100 then rest else ActiveGoal.updateProgress goal progress :: rest) := by
  unfold withBeat updatedGoal
  rw [hgoals]
  dsimp only
  split <;> rfl

theorem activeGoal_withBeat {progress : JsNumber} {now : Time} {goal : ActiveGoalProps}
    {rest : List ActiveGoalProps} (hgoals : state.activeGoals = some (goal :: rest)) :
    (withBeat progress now goal state).activeGoal =
      (if progress.atLeast 100 then rest else ActiveGoal.updateProgress goal progress :: rest).head? := by
  unfold withBeat updatedGoal
  rw [hgoals]
  dsimp only
  split <;> rfl

/-- A stack of five goals at most, with its top beside it. -/
theorem goalStack_orUndefined {goals : List ActiveGoalProps} (hgoal : state.activeGoal = goals.head?)
    (hgoals : state.activeGoals = orUndefined goals) (hlength : goals.length ≤ 5)
    (hpending : ∀ g ∈ goals, Pending g) : GoalStack state := by
  cases goals with
  | nil => exact .inl ⟨hgoal, hgoals⟩
  | cons goal rest => exact .inr ⟨goal, rest, hgoal, hgoals, hlength, hpending⟩

theorem GoalStack.withBeat {progress : JsNumber} {now : Time} {goal : ActiveGoalProps}
    (h : GoalStack state) (hgoal : beatGoal state = some goal) (hprogress : progress ≠ .nan) :
    GoalStack (withBeat progress now goal state) := by
  obtain ⟨rest, hgoals⟩ := h.beatGoal_eq hgoal
  have hpending := h.pending
  rw [hgoals, Option.getD_some] at hpending
  have hlength : (goal :: rest).length ≤ 5 := by
    rcases h with ⟨-, hnone⟩ | ⟨goal', rest', -, hsome, hlength, -⟩
    · rw [hgoals] at hnone
      cases hnone
    · rw [hgoals] at hsome
      cases hsome
      exact hlength
  refine goalStack_orUndefined (activeGoal_withBeat hgoals) (activeGoals_withBeat hgoals) ?_ ?_
  · split
    · exact (Nat.le_succ _).trans hlength
    · exact hlength
  · intro g hg
    split at hg
    · exact hpending g (List.mem_cons_of_mem _ hg)
    · rcases List.mem_cons.mp hg with rfl | hg
      · exact ⟨(hpending goal List.mem_cons_self).active, exists_percent hprogress⟩
      · exact hpending g (List.mem_cons_of_mem _ hg)

/-- `0 <= beatIndex < totalBeats`, for a double `beatIndex`. -/
def BeatInRange (beatIndex totalBeats : JsNumber) : Prop :=
  ∃ i : ℚ, beatIndex = .finite i ∧ JsNumber.ofExact i = .finite i ∧ 0 ≤ i ∧ totalBeats.exceeds i = true

/-- The progress of a beat in range is a number. -/
theorem beatProgress_ne_nan {beatIndex totalBeats : JsNumber} (h : BeatInRange beatIndex totalBeats) :
    beatProgress beatIndex totalBeats ≠ .nan := by
  obtain ⟨i, rfl, hdouble, hnonneg, htotal⟩ := h
  obtain ⟨c, hc⟩ := JsNumber.exists_add_one hdouble hnonneg
  have hdiv : (JsNumber.finite c).div totalBeats ≠ .nan := by
    cases totalBeats with
    | nan => cases htotal
    | negInfinity => cases htotal
    | posInfinity => exact JsNumber.noConfusion
    | finite n =>
      refine JsNumber.div_finite_ne_nan JsNumber.noConfusion ?_
      rintro rfl
      simp [JsNumber.exceeds, JsNumber.atLeast] at htotal
      exact htotal.2 (le_antisymm htotal.1 hnonneg).symm
  unfold beatProgress
  rw [hc]
  exact JsNumber.round_ne_nan (JsNumber.mul_finite_ne_nan hdiv (by norm_num))

/-! ## Steps -/

/-- The beats of an operation are in range. -/
def ConductorOperation.InRange : ConductorOperation → Prop
  | .handleStoryBeat _ _ beatIndex totalBeats _ => BeatInRange beatIndex totalBeats
  | _ => True

variable {agent : BedtimeConductorAgent} {op : ConductorOperation} {before : Option SessionState}

/-- A change that an operation makes keeps the stack. -/
theorem GoalStack.change {change : Change} (h : GoalStack held) (hop : op.InRange)
    (hmakes : Makes agent op before held change) : GoalStack (change.apply held) := by
  cases change with
  | listGoal =>
    show GoalStack (listGoal held)
    rw [h.listGoal_eq]
    exact h
  | goal goal =>
    cases op with
    | setGoal s u type minutes now suffix =>
      rw [show goal = _ from hmakes]
      exact h.withGoal (pending_createNew _ _ _ _)
    | _ => cases hmakes
  | beat progress now =>
    cases op with
    | handleStoryBeat s u beatIndex totalBeats _ =>
      obtain ⟨rfl, hsome⟩ := hmakes
      obtain ⟨goal, hgoal⟩ := Option.isSome_iff_exists.mp hsome
      rw [Change.apply, hgoal]
      exact h.withBeat hgoal (beatProgress_ne_nan hop)
    | _ => cases hmakes
  | sleep =>
    refine h.congr ?_ ?_
    all_goals
      show _ = _
      rw [Change.apply, withoutTheme, fallingAsleep]
      split <;> rfl
  | turn verdict => exact h.congr rfl rfl
  | theme theme => exact h.congr rfl rfl

/-- **A step keeps the stacks.** -/
theorem goalStacks_step {effect : AgentEffect} {reply : Except JsError effect.Reply}
    (h : GoalStacks sessions) (hop : op.InRange) (hadmits : Admits agent op before sessions effect)
    (hreply : agentEnv sessions effect reply sessions') : GoalStacks sessions' := by
  -- a step that writes nothing, and one that writes a stack
  have hsame : sessions' = sessions → GoalStacks sessions' := fun heq => heq ▸ h
  have hwrite : ∀ t state, GoalStack state → sessions' = Function.update sessions t (some state) →
      GoalStacks sessions' := by
    rintro t state hstate rfl s held hheld
    by_cases hs : s = t
    · subst hs
      rw [Function.update_self] at hheld
      exact Option.some.inj hheld ▸ hstate
    · rw [Function.update_of_ne hs] at hheld
      exact h s held hheld
  cases effect with
  | session effect =>
    cases effect with
    | getSession s => exact hsame hreply.1
    | setSession s write =>
      cases reply with
      | error e => exact hsame hreply
      | ok _ =>
        cases write with
        | literal state =>
          obtain ⟨-, -, u, rfl⟩ := hadmits
          exact hwrite s _ (.inl ⟨rfl, rfl⟩) hreply
        | changed held change =>
          obtain ⟨-, hheld, hmakes⟩ := hadmits
          exact hwrite s _ ((h s held hheld).change hop hmakes) hreply
    | patchContext s held id => cases hadmits
    | _ => exact hsame hreply
  | startSession s held now =>
    cases reply with
    | error e => exact hsame hreply
    | ok _ =>
      have hstack : GoalStack (withStart now held) := (h s held hadmits.2).congr rfl rfl
      exact hwrite s _ hstack hreply
  | _ => exact hsame hreply

/-! ## Accounts -/

/-- The change sets a goal with the id. -/
def Change.sets (id : Text) : Change → Bool
  | .goal newGoal => newGoal.id = id
  | _ => false

/-- The change achieves the goal with the id. -/
def Change.achievesGoal (id : Text) (held : SessionState) : Change → Bool
  | .beat progress _ => progress.atLeast 100 && (beatGoal held).any fun current => current.id = id
  | _ => false

/-- A goal with the id is set in the session. -/
def setsGoal (s id : Text) : AgentEvent → Bool
  | ⟨.session (.setSession t (.changed _ change)), .ok _⟩ => t = s && change.sets id
  | _ => false

/-- A goal with the id is achieved in the session. -/
def achievesGoal (s id : Text) : AgentEvent → Bool
  | ⟨.session (.setSession t (.changed held change)), .ok _⟩ => t = s && change.achievesGoal id held
  | _ => false

/-- How many goals of a session have the id. -/
def goalCount (id : Text) (session : Option SessionState) : ℕ :=
  (goalsOf session).countP fun goal => goal.id = id

/-- The account of a session balances: what has been achieved, or is in the stack, was set. -/
def Accounted (events : List AgentEvent) (sessions : SessionMap) : Prop :=
  ∀ s id, goalCount id (sessions s) + events.countP (achievesGoal s id) ≤ events.countP (setsGoal s id)

theorem goalCount_some (id : Text) (state : SessionState) :
    goalCount id (some state) = (state.activeGoals.getD []).countP fun goal => goal.id = id := rfl

/-- The count depends on the list of goals only. -/
theorem goalCount_congr {id : Text} {state' : SessionState} (h : state'.activeGoals = state.activeGoals) :
    goalCount id (some state') = goalCount id (some state) := by
  rw [goalCount_some, goalCount_some, h]

/-- **A change is accounted for**: it removes what it achieves, and adds what it sets. -/
theorem goalCount_change {change : Change} (id : Text) (h : GoalStack held)
    (hmakes : Makes agent op before held change) :
    goalCount id (some (change.apply held)) + (change.achievesGoal id held).toNat ≤
      goalCount id (some held) + (change.sets id).toNat := by
  cases change with
  | listGoal =>
    show goalCount id (some (listGoal held)) + 0 ≤ goalCount id (some held) + 0
    rw [h.listGoal_eq]
  | goal goal =>
    -- the goal comes first, before at most four of those that were there
    show goalCount id (some (withGoal goal held)) + 0 ≤
      goalCount id (some held) + (decide (goal.id = id)).toNat
    rw [goalCount_some, goalCount_some, h.activeGoals_withGoal, Option.getD_some, List.countP_cons]
    have htake := @List.Sublist.countP_le _ (fun g => decide (g.id = id)) _ _
      (List.take_sublist 4 (held.activeGoals.getD []))
    by_cases hid : goal.id = id
    · simp only [hid, decide_true, if_pos, Bool.toNat_true]
      omega
    · simp only [hid, decide_false, Bool.toNat_false, Bool.false_eq_true, if_false]
      omega
  | beat progress now =>
    obtain ⟨goal, hgoal⟩ : ∃ goal, beatGoal held = some goal := by
      cases op with
      | handleStoryBeat s u beatIndex totalBeats _ => exact Option.isSome_iff_exists.mp hmakes.2
      | _ => cases hmakes
    obtain ⟨rest, hgoals⟩ := h.beatGoal_eq hgoal
    have hafter : (Change.beat progress now).apply held = withBeat progress now goal held := by
      rw [Change.apply, hgoal]
    have hor : ∀ goals : List ActiveGoalProps, (orUndefined goals).getD [] = goals := by
      intro goals
      cases goals <;> rfl
    show _ ≤ goalCount id (some held) + 0
    rw [hafter, goalCount_some, goalCount_some, activeGoals_withBeat hgoals, hor, hgoals,
      Option.getD_some, Change.achievesGoal, hgoal, Option.any_some, List.countP_cons]
    by_cases hachieved : progress.atLeast 100 = true
    · rw [if_pos hachieved, hachieved, Bool.true_and]
      by_cases hid : goal.id = id <;> simp [hid]
    · rw [if_neg hachieved, Bool.eq_false_iff.mpr hachieved, Bool.false_and, List.countP_cons]
      rfl
  | sleep =>
    have hsame : ((Change.sleep).apply held).activeGoals = held.activeGoals := by
      rw [Change.apply, withoutTheme, fallingAsleep]
      split <;> rfl
    rw [goalCount_congr hsame]
    exact Nat.le_refl _
  | turn verdict => exact Nat.le_refl _
  | theme theme => exact Nat.le_refl _

/-- **A step is accounted for.** -/
theorem goalCount_step {effect : AgentEffect} {reply : Except JsError effect.Reply} (s id : Text)
    (h : GoalStacks sessions) (hadmits : Admits agent op before sessions effect)
    (hreply : agentEnv sessions effect reply sessions') :
    goalCount id (sessions' s) + (achievesGoal s id ⟨effect, reply⟩).toNat ≤
      goalCount id (sessions s) + (setsGoal s id ⟨effect, reply⟩).toNat := by
  have hsame : sessions' = sessions → goalCount id (sessions' s) ≤ goalCount id (sessions s) :=
    fun heq => heq ▸ le_rfl
  -- a write that leaves as many goals with the id in its session
  have hwrite : ∀ t state, sessions' = Function.update sessions t (some state) →
      goalCount id (some state) ≤ goalCount id (sessions t) →
        goalCount id (sessions' s) ≤ goalCount id (sessions s) := by
    rintro t state rfl hle
    by_cases hs : s = t
    · subst hs
      rw [Function.update_self]
      exact hle
    · rw [Function.update_of_ne hs]
  cases effect with
  | session effect =>
    cases effect with
    | getSession t => exact hsame hreply.1
    | setSession t write =>
      cases reply with
      | error e =>
        cases write with
        | literal state => exact hsame hreply
        | changed held change => exact hsame hreply
      | ok _ =>
        cases write with
        | literal state =>
          obtain ⟨-, -, u, rfl⟩ := hadmits
          exact hwrite t _ hreply (Nat.zero_le _)
        | changed held change =>
          obtain ⟨-, hheld, hmakes⟩ := hadmits
          rw [show sessions' = _ from hreply]
          by_cases ht : t = s
          · subst ht
            have hchange := goalCount_change id (h t held hheld) hmakes
            rw [Function.update_self, hheld, SessionWrite.state]
            simpa [achievesGoal, setsGoal] using hchange
          · rw [Function.update_of_ne (Ne.symm ht)]
            simp [achievesGoal, setsGoal, ht]
    | patchContext t held toolCallId => cases hadmits
    | _ => exact hsame hreply
  | startSession t held now =>
    cases reply with
    | error e => exact hsame hreply
    | ok _ =>
      refine hwrite t _ hreply ?_
      rw [hadmits.2]
      exact (@goalCount_congr held id (withStart now held) rfl).le
  | _ => exact hsame hreply

/-! ## Runs -/

variable {coerced : Json → Except JsError Bool}
  {calls : List AgentCall}

/-- The stacks after a run: each is as it should be, every goal is accounted for, and a goal that was set
once and has been achieved is in no stack any more. -/
structure GoalsKept (events : List AgentEvent) (sessions : SessionMap) : Prop where
  wellFormed : GoalStacks sessions
  accounted : Accounted events sessions
  gone : ∀ s id, events.countP (setsGoal s id) ≤ 1 → 0 < events.countP (achievesGoal s id) →
    ∀ state, sessions s = some state → ∀ goal ∈ state.activeGoals.getD [], goal.id ≠ id

/-- Where the account balances, a goal that has been achieved is gone. -/
theorem Accounted.gone {events : List AgentEvent} (h : Accounted events sessions) {id : Text}
    (hset : events.countP (setsGoal s id) ≤ 1) (hachieved : 0 < events.countP (achievesGoal s id))
    (hstate : sessions s = some state) : ∀ goal ∈ state.activeGoals.getD [], goal.id ≠ id := by
  have hbalance := h s id
  have hzero : goalCount id (some state) = 0 := by
    rw [← hstate]
    omega
  rw [goalCount_some, List.countP_eq_zero] at hzero
  intro goal hgoal hid
  exact hzero goal hgoal (decide_eq_true hid)

/-- What every call preserves. -/
theorem goals_call {log : List AgentEvent} {past : List AgentEvent} {r : Except JsError Unit}
    (h : GoalStacks sessions ∧ Accounted past sessions) (hop : op.InRange)
    (hrun : Logs agentEnv sessions (op.task agent coerced) log r sessions') :
    GoalStacks sessions' ∧ Accounted (past ++ log) sessions' := by
  obtain ⟨-, hchain⟩ := hrun.upheld (task_upholds agent coerced op sessions)
  refine hchain.invariant (J := fun past sessions => GoalStacks sessions ∧ Accounted past sessions) h ?_
  rintro past sessions₁ e reply sessions₂ ⟨hstacks, haccounted⟩ hadmits hreply
  refine ⟨goalStacks_step hstacks hop hadmits hreply, fun s id => ?_⟩
  have hbefore := haccounted s id
  have hstep := goalCount_step s id hstacks hadmits hreply
  rw [List.countP_append, List.countP_append, List.countP_singleton, List.countP_singleton]
  cases hachieves : achievesGoal s id ⟨e, reply⟩ <;> cases hsets : setsGoal s id ⟨e, reply⟩ <;>
    rw [hachieves, hsets] at hstep <;> simp at hstep ⊢ <;> omega

/-- **The goals of the sessions are kept**: in every state that operations of the agent reach from an empty
store one after the other, with any replies, if their beats are in range. -/
theorem goals_kept (agent : BedtimeConductorAgent) (coerced : Json → Except JsError Bool)
    (h : Sequence agentEnv (ConductorOperation.task agent coerced) (fun _ => none) calls sessions)
    (hbeats : ∀ call ∈ calls, call.op.InRange) : GoalsKept (eventsOfCalls calls) sessions := by
  have hkept : GoalStacks sessions ∧ Accounted (eventsOfCalls calls) sessions := by
    refine h.invariant (J := fun calls sessions => GoalStacks sessions ∧
      Accounted (eventsOfCalls calls) sessions) hbeats ?_ ?_
    · exact ⟨fun s state h => (nomatch h), fun s id => le_rfl⟩
    intro calls sessions₁ op log r sessions₂ hbefore hop hrun
    rw [eventsOfCalls_concat]
    exact goals_call hbefore hop hrun
  exact ⟨hkept.1, hkept.2, fun s id hset hachieved state hstate => hkept.2.gone hset hachieved hstate⟩

/-- Two goals, and the only beat of a story. -/
def goalsAndBeat : List ConductorOperation := [
  .setGoal (lit "evening") (lit "ana") .childAsleep (.finite 20) ⟨0, Time.inRange_zero⟩ (lit "a"),
  .setGoal (lit "evening") (lit "ana") .storyCompleted (.finite 10) ⟨1, Time.inRange_one⟩ (lit "b"),
  .handleStoryBeat (lit "evening") (lit "ana") (.finite 0) (.finite 1) ⟨2, Time.inRange_two⟩]

/-- The beat achieves the goal that was set last. -/
theorem goals_kept_goalsAndBeat : GoalsKept (eventsOfCalls (callsOf plainConductor restful goalsAndBeat).1)
      (callsOf plainConductor restful goalsAndBeat).2 ∧
    (goalsOf ((callsOf plainConductor restful goalsAndBeat).2 (lit "evening"))).map ActiveGoalProps.type = [.childAsleep] := by
  refine ⟨goals_kept plainConductor (fun _ => .ok false) (sequence_callsOf plainConductor restful goalsAndBeat) ?_, ?_⟩
  · intro call hcall
    have hops : call.op ∈ goalsAndBeat := by
      have hmap : (callsOf plainConductor restful goalsAndBeat).1.map Call.op = goalsAndBeat := rfl
      rw [← hmap]
      exact List.mem_map_of_mem hcall
    rcases List.mem_cons.mp hops with heq | hops
    · rw [heq]
      trivial
    rcases List.mem_cons.mp hops with heq | hops
    · rw [heq]
      trivial
    · rw [List.mem_singleton.mp hops]
      refine ⟨0, rfl, ?_, le_rfl, by decide +kernel⟩
      decide +kernel
  · decide +kernel

end DreamWeaver.Conductor
