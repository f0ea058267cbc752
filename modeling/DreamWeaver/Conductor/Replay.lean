import DreamWeaver.Conductor.LostUpdate

/-! # What updates leave of each other

The updates of a session, one after the other, as they change it: every turn is counted, a goal moves
down the list with the goals that are set after it, and a beat changes the first goal of the list only.
An update *fits* a session if an operation can make it there. -/

namespace DreamWeaver.Conductor

/-! ## Updates that fit -/

/-- An operation that finds the session can make the update. -/
def Update.Fits : Update → Option SessionState → Prop
  | .start state, _ => state.context.interactions = none
  | .change (.beat _ _), session => (session.bind beatGoal).isSome = true
  | _, session => session.isSome = true

/-- Every update fits the session that it finds. -/
def Fitting (session : Option SessionState) : List Update → Prop
  | [] => True
  | update :: updates => update.Fits session ∧ Fitting (update.apply session) updates

variable {session : Option SessionState} {update : Update} {updates before after : List Update}

theorem fitting_append : Fitting session (before ++ after) ↔
    Fitting session before ∧ Fitting (replay session before) after := by
  induction before generalizing session with
  | nil => simp [Fitting, replay]
  | cons update before ih =>
    rw [List.cons_append, Fitting, Fitting, ih, and_assoc]
    rfl

/-! ## The counter of turns -/

/-- `context.interactions || 0` of a session, 0 if there is none. -/
def interactions (session : Option SessionState) : JsNumber :=
  JsNumber.orZero (session.bind fun state => state.context.interactions)

/-- The update is that of a turn. -/
def Update.isTurn : Update → Bool
  | .change (.turn _) => true
  | _ => false

/-- `x + 1`, `n` times. -/
def countUp (n : ℕ) (x : JsNumber) : JsNumber := (fun x => x.add (.finite 1))^[n] x

/-- Only a turn changes the context. -/
theorem context_apply {c : Change} (h : (Update.change c).isTurn = false) (state : SessionState) :
    (c.apply state).context = state.context := by
  cases c with
  | turn verdict => cases h
  | listGoal =>
    show (listGoal state).context = state.context
    rw [listGoal]
    cases unlistedGoal state <;> rfl
  | beat progress now =>
    rw [Change.apply]
    cases beatGoal state <;> rfl
  | sleep =>
    show (fallingAsleep state).context = state.context
    rw [fallingAsleep]
    split <;> rfl
  | _ => rfl

/-- A sum with 1 is a number or infinite, and stays as it is. -/
theorem orZero_currentInteractions (state : SessionState) :
    JsNumber.orZero (some (currentInteractions state)) = currentInteractions state := by
  have hcounted : currentInteractions state ≠ .nan :=
    JsNumber.add_finite_ne_nan (JsNumber.orZero_ne_nan state.context.interactions) 1
  exact JsNumber.orZero_some hcounted

/-- **A turn is counted, and nothing else is.** -/
theorem interactions_apply (h : update.Fits session) :
    interactions (update.apply session) =
      if update.isTurn then (interactions session).add (.finite 1) else interactions session := by
  cases update with
  | start state =>
    cases session with
    | some found => rfl
    | none =>
      show JsNumber.orZero state.context.interactions = _
      rw [show state.context.interactions = none from h]
      rfl
  | toolCall toolCallId => cases session <;> rfl
  | change c =>
    cases session with
    | none => cases c <;> simp [Update.Fits] at h
    | some state =>
      by_cases hturn : (Update.change c).isTurn = true
      · cases c <;> simp [Update.isTurn] at hturn
        exact orZero_currentInteractions state
      · rw [if_neg hturn]
        show JsNumber.orZero (c.apply state).context.interactions = _
        rw [context_apply (Bool.eq_false_iff.mpr hturn)]
        rfl

theorem interactions_replay (h : Fitting session updates) :
    interactions (replay session updates) =
      countUp (updates.countP Update.isTurn) (interactions session) := by
  induction updates generalizing session with
  | nil => rfl
  | cons update updates ih =>
    show interactions (replay (update.apply session) updates) = _
    rw [ih h.2, interactions_apply h.1, List.countP_cons]
    by_cases hturn : update.isTurn = true
    · rw [if_pos hturn, if_pos hturn, countUp, countUp, Function.iterate_succ_apply]
    · rw [if_neg hturn, if_neg hturn, Nat.add_zero]

/-- Counting is exact as long as the numbers are. -/
theorem countUp_natCast {n k : ℕ} (h : k + n ≤ 2 ^ 53) :
    countUp n (.finite k) = .finite ((k + n : ℕ) : ℚ) := by
  induction n generalizing k with
  | zero => rfl
  | succ n ih =>
    have hone : (JsNumber.finite k).add (.finite 1) = .finite ((k + 1 : ℕ) : ℚ) := by
      have hsum : (k : ℚ) + 1 = ((k + 1 : ℕ) : ℚ) := by push_cast; rfl
      have hle : k + 1 ≤ 2 ^ 53 := by omega
      rw [JsNumber.add, hsum, JsNumber.ofExact_of_abs_le, double_natCast hle]
      rw [Nat.abs_cast]
      calc ((k + 1 : ℕ) : ℚ) ≤ 2 ^ 53 := by exact_mod_cast hle
        _ ≤ 2 ^ 1023 := pow_le_pow_right₀ one_le_two (by decide)
    show countUp n ((JsNumber.finite k).add (.finite 1)) = _
    rw [hone, ih (by omega)]
    congr 2
    omega

/-! ## The list of goals -/

/-- The goals of a session. -/
def goalsOf (session : Option SessionState) : List ActiveGoalProps :=
  (session.bind fun state => state.activeGoals).getD []

/-- The update sets a goal. -/
def Update.isGoal : Update → Bool
  | .change (.goal _) => true
  | _ => false

/-- The update is that of a beat. -/
def Update.isBeat : Update → Bool
  | .change (.beat _ _) => true
  | _ => false

/-- The update is that of the beat that achieves its goal. -/
def Update.achieves : Update → Bool
  | .change (.beat progress _) => progress.atLeast 100
  | _ => false

/-- A goal that is set is the first of the list. -/
theorem goalsOf_goal (h : session.isSome = true) (goal : ActiveGoalProps) :
    (goalsOf ((Update.change (.goal goal)).apply session))[0]? = some goal := by
  obtain ⟨state, rfl⟩ := Option.isSome_iff_exists.mp h
  rfl

/-- A beat that does not achieve its goal leaves it first, with its progress. -/
theorem goalsOf_beat {progress : JsNumber} (now : Time) {goal : ActiveGoalProps}
    (hgoal : session.bind beatGoal = some goal) (hprogress : progress.atLeast 100 = false) :
    (goalsOf ((Update.change (.beat progress now)).apply session))[0]? =
      some (updatedGoal progress now goal) := by
  obtain ⟨state, rfl, hstate⟩ := Option.bind_eq_some_iff.mp hgoal
  show (goalsOf (some ((Change.beat progress now).apply state)))[0]? = _
  rw [Change.apply, hstate]
  simp [withBeat, goalsOf, orUndefined, hprogress]

/-- Updates other than goals and beats leave a list of goals alone. -/
theorem goalsOf_apply_of_other {k : ℕ} {goal : ActiveGoalProps} (hgoal : update.isGoal = false)
    (hbeat : update.isBeat = false) (h : (goalsOf session)[k]? = some goal) :
    (goalsOf (update.apply session))[k]? = some goal := by
  cases session with
  | none => simp [goalsOf] at h
  | some state =>
    cases update with
    | start _ => exact h
    | toolCall _ => exact h
    | change c =>
      cases c with
      | goal newGoal => cases hgoal
      | beat progress now => cases hbeat
      | listGoal =>
        -- a session with a list of goals has nothing to list
        have hlisted : listGoal state = state := by
          cases hgoals : state.activeGoals with
          | none => simp [goalsOf, hgoals] at h
          | some goals => rw [listGoal, unlistedGoal, hgoals]
        show (goalsOf (some (listGoal state)))[k]? = _
        rw [hlisted]
        exact h
      | sleep =>
        show (goalsOf (some (withoutTheme (fallingAsleep state))))[k]? = _
        rw [fallingAsleep]
        split <;> exact h
      | turn verdict => exact h
      | theme suggested => exact h

/-- A goal moves down when another is set, as long as there is room. -/
theorem goalsOf_apply_goal {k : ℕ} {goal : ActiveGoalProps} (newGoal : ActiveGoalProps)
    (hroom : k + 1 < 5)
    (h : (goalsOf session)[k]? = some goal) :
    (goalsOf ((Update.change (.goal newGoal)).apply session))[k + 1]? = some goal := by
  cases session with
  | none => simp [goalsOf] at h
  | some state =>
    cases hgoals : state.activeGoals with
    | none => simp [goalsOf, hgoals] at h
    | some goals =>
      show (goalsOf (some (withGoal newGoal state)))[k + 1]? = _
      simp only [goalsOf, Option.bind_some, hgoals, Option.getD_some] at h
      simp only [goalsOf, withGoal, hgoals, Option.bind_some, Option.getD_some]
      rw [List.getElem?_take_of_lt hroom, List.getElem?_cons_succ, h]

/-- The goal with the id. -/
theorem id_updatedGoal (progress : JsNumber) (now : Time) (goal : ActiveGoalProps) :
    (updatedGoal progress now goal).id = goal.id := by
  rw [updatedGoal]
  split <;> rfl

/-- A beat leaves a goal in its place, unless it achieves the first. -/
theorem goalsOf_apply_beat {k : ℕ} {goal : ActiveGoalProps} {progress : JsNumber} (now : Time)
    (hprogress : progress.atLeast 100 = false) (h : (goalsOf session)[k]? = some goal) :
    ∃ goal', (goalsOf ((Update.change (.beat progress now)).apply session))[k]? = some goal' ∧
      goal'.id = goal.id := by
  cases session with
  | none => simp [goalsOf] at h
  | some state =>
    show ∃ goal', (goalsOf (some ((Change.beat progress now).apply state)))[k]? = some goal' ∧ _
    rw [Change.apply]
    cases hbeat : beatGoal state with
    | none => exact ⟨goal, h, rfl⟩
    | some current =>
      cases hgoals : state.activeGoals with
      | none => simp [goalsOf, hgoals] at h
      | some goals =>
        cases goals with
        | nil => simp [goalsOf, hgoals] at h
        | cons first rest =>
          -- the goal that the beat works on is the first of the list
          have hfirst : first = current := by
            rw [beatGoal, hydrateActiveGoal, hgoals] at hbeat
            exact (Option.filter_eq_some_iff.mp hbeat).1 |> Option.some.inj
          simp only [goalsOf, Option.bind_some, hgoals, Option.getD_some] at h
          cases k with
          | zero =>
            refine ⟨updatedGoal progress now current, ?_, ?_⟩
            · simp [withBeat, goalsOf, orUndefined, hprogress]
            · rw [id_updatedGoal, ← hfirst]
              exact congrArg ActiveGoalProps.id (Option.some.inj h)
          | succ k =>
            refine ⟨goal, ?_, rfl⟩
            rw [List.getElem?_cons_succ] at h
            simpa [withBeat, goalsOf, orUndefined, hprogress, hgoals] using h

/-- **A goal stays in the list** while fewer than five others are set and no beat achieves one: further
down by the goals that were set, and as it was if there was no beat. -/
theorem goalsOf_replay {k : ℕ} {goal : ActiveGoalProps} (h : (goalsOf session)[k]? = some goal)
    (hroom : k + after.countP Update.isGoal < 5) (hachieves : ∀ u ∈ after, u.achieves = false) :
    ∃ goal', (goalsOf (replay session after))[k + after.countP Update.isGoal]? = some goal' ∧
      goal'.id = goal.id ∧ ((∀ u ∈ after, u.isBeat = false) → goal' = goal) := by
  induction after generalizing session k goal with
  | nil => exact ⟨goal, h, rfl, fun _ => rfl⟩
  | cons update after ih =>
    have hrest : ∀ u ∈ after, u.achieves = false :=
      fun u hu => hachieves u (List.mem_cons_of_mem _ hu)
    by_cases hgoal : update.isGoal = true
    · -- a goal is set: one place further down
      obtain ⟨newGoal, rfl⟩ : ∃ newGoal, update = .change (.goal newGoal) := by
        cases update with
        | change c => cases c <;> simp [Update.isGoal] at hgoal; exact ⟨_, rfl⟩
        | _ => cases hgoal
      rw [List.countP_cons, if_pos hgoal] at hroom ⊢
      have hmoved := goalsOf_apply_goal newGoal (by omega) h
      obtain ⟨goal', hat, hid, hsame⟩ := ih hmoved (by omega) hrest
      refine ⟨goal', ?_, hid, fun hbeats => hsame fun u hu => hbeats u (List.mem_cons_of_mem _ hu)⟩
      rw [show k + (List.countP Update.isGoal after + 1) =
        k + 1 + List.countP Update.isGoal after by omega]
      exact hat
    · rw [List.countP_cons, if_neg hgoal, Nat.add_zero] at hroom ⊢
      by_cases hbeat : update.isBeat = true
      · -- a beat, of the first goal
        obtain ⟨progress, now, rfl⟩ : ∃ progress now, update = .change (.beat progress now) := by
          cases update with
          | change c => cases c <;> simp [Update.isBeat] at hbeat; exact ⟨_, _, rfl⟩
          | _ => cases hbeat
        have hprogress : progress.atLeast 100 = false := hachieves _ List.mem_cons_self
        obtain ⟨goal', hat', hid'⟩ := goalsOf_apply_beat now hprogress h
        obtain ⟨goal'', hat, hid, -⟩ := ih hat' hroom hrest
        refine ⟨goal'', hat, hid.trans hid', fun hbeats => ?_⟩
        exact absurd (hbeats _ List.mem_cons_self) (by simp [Update.isBeat])
      · have hkept := goalsOf_apply_of_other (Bool.eq_false_iff.mpr hgoal)
          (Bool.eq_false_iff.mpr hbeat) h
        obtain ⟨goal', hat, hid, hsame⟩ := ih hkept hroom hrest
        exact ⟨goal', hat, hid,
          fun hbeats => hsame fun u hu => hbeats u (List.mem_cons_of_mem _ hu)⟩

end DreamWeaver.Conductor
