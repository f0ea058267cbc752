import DreamWeaver.Conductor.SharedSessionState

/-! # Rolling an operation back

An operation of the conductor assigns to the stored object itself before it calls `set`, so that the
snapshot of the "previous" state already has the assignments. `rollback(sessionId, 1)` therefore
restores the session as it was only when the assignments change nothing. -/

namespace DreamWeaver.Conductor

/-- An operation of `BedtimeConductorAgent` on a session. `setGoal` is given the goal that it creates;
`tracked` says whether the calls of `trackOutcome` resolve, and `suggestion` is the theme that the
thought of a turn suggests, if the turn gets that far. -/
inductive AgentOperation where
  | setGoal (goal : ActiveGoalProps)
  | handleStoryBeat (beatIndex totalBeats : JsNumber) (now : Time)
  | handleSleepCueDetected (tracked : Bool)
  | processTurn (message : Text) (tracked : Bool) (suggestion : Option Text)

namespace AgentOperation

/-- The operation on the sessions of the process. -/
def perform (hasMemory : Bool) (m : SharedStore) (sessionId userId : Text) :
    AgentOperation → SharedStore
  | .setGoal goal => m.setGoal sessionId userId goal
  | .handleStoryBeat beatIndex totalBeats now =>
    m.handleStoryBeat sessionId userId beatIndex totalBeats now
  | .handleSleepCueDetected tracked =>
    m.handleSleepCueDetected sessionId userId hasMemory tracked
  | .processTurn message tracked suggestion =>
    m.processTurn sessionId userId message hasMemory tracked suggestion

/-- The operation gets to a `set`, from a session in the given state. -/
def writes (hasMemory : Bool) (sessionId userId : Text) (state : SessionState) :
    AgentOperation → Bool
  | .setGoal _ => true
  | .handleStoryBeat _ _ _ => (unlistedGoal state).isSome || (beatGoal state).isSome
  | .handleSleepCueDetected tracked => !sessionId.isEmpty && !userId.isEmpty &&
      ((unlistedGoal state).isSome || ((suggestedTheme state).isSome && hasMemory && tracked))
  | .processTurn message tracked _ => (unlistedGoal state).isSome ||
      !((turnVerdict hasMemory message state).isSome && !tracked)

/-- A counter that counting does not change any more: an infinity, or a number so large that adding
one is lost. -/
def Saturated (counter : Option JsNumber) : Prop :=
  ∃ x, counter = some x ∧ x ≠ .nan ∧ x.add (.finite 1) = x

/-- A counter that is a number. -/
def Counted (counter : Option JsNumber) : Prop := ∃ x, counter = some x ∧ x ≠ .nan

/-- The operation assigns what the state has already: five copies of the new goal; a beat that leaves
its goal's progress as it is; counters that are saturated, and a message without a verdict on the
suggested theme or a thought that suggests the same theme again. -/
def ChangesNothing (hasMemory : Bool) (state : SessionState) : AgentOperation → Prop
  | .setGoal goal => state.activeGoals = some (List.replicate 5 goal) ∧ state.activeGoal = some goal
  | .handleStoryBeat beatIndex totalBeats _ =>
    ∃ goal rest, state.activeGoals = some (goal :: rest) ∧ state.activeGoal = some goal ∧
      (beatProgress beatIndex totalBeats).atLeast 100 = false ∧
      goal.progress = (beatProgress beatIndex totalBeats).percent
  | .handleSleepCueDetected _ => False
  | .processTurn message _ suggestion =>
    unlistedGoal state = none ∧ Saturated state.context.interactions ∧
      (if turnVerdict hasMemory message state = some false
        then Saturated state.context.interventions else Counted state.context.interventions) ∧
      match suggestion with
      | none => turnVerdict hasMemory message state = none
      | some theme => state.lastSuggestedTheme = some theme

end AgentOperation

namespace SharedStore

variable {m : SharedStore} {sessionId : Text} {state : SessionState}
  {f : SessionState → SessionState}

/-- A session whose goals are listed is held as it is. -/
theorem getOrInitState_of_listed (userId : Text) (h : m.session sessionId = some state)
    (hlisted : unlistedGoal state = none) :
    ∃ a, m.getOrInitState sessionId userId = (a, m) ∧ m.store sessionId = some a ∧
      m.contents a = state := by
  obtain ⟨a, hstore, rfl⟩ := Option.map_eq_some_iff.mp h
  refine ⟨a, ?_, hstore, rfl⟩
  rw [getOrInitState, hstore]
  dsimp only
  rw [hlisted]

/-- Assignments to the stored object are seen in the session. -/
theorem session_mutate {a : Address} (hstore : m.store sessionId = some a) :
    (m.mutate a f).session sessionId = some (f (m.contents a)) := by
  rw [session, store_mutate, hstore, Option.map_some, contents_mutate]

/-- A goal outside the list is listed in the stored object, which is then replaced by its copy. -/
theorem getOrInitState_of_unlisted (userId : Text) {goal : ActiveGoalProps}
    (h : m.session sessionId = some state) (hgoal : unlistedGoal state = some goal) :
    ∃ a m', m.store sessionId = some a ∧ m.contents a = state ∧
      m.getOrInitState sessionId userId = (a, m') ∧ m' = (m.mutate a listGoal).set sessionId a := by
  obtain ⟨a, hstore, rfl⟩ := Option.map_eq_some_iff.mp h
  refine ⟨a, _, hstore, rfl, ?_, rfl⟩
  rw [getOrInitState, hstore]
  dsimp only
  rw [hgoal]

/-- Assignments and `set`, undone: the session has the assignments. -/
theorem undo_write {a : Address} (hstore : m.store sessionId = some a) :
    (((m.mutate a f).set sessionId a).rollback sessionId 1).session sessionId =
      some (f (m.contents a)) :=
  session_rollback_set (session_mutate hstore)

/-- When a goal was listed first, the operation goes on with an object that is not the stored one:
its assignments to fields do not reach the stored goals. -/
theorem session_mutate_unlisted (f : SessionState → SessionState) {a : Address}
    (hstore : m.store sessionId = some a) :
    ∃ stored, (((m.mutate a listGoal).set sessionId a).mutate a f).session sessionId =
        some stored ∧ stored.activeGoals = (listGoal (m.contents a)).activeGoals := by
  have hne : (m.mutate a listGoal).fresh ≠ a := (m.used sessionId a hstore).ne'
  have hsession := @session_set (m.mutate a listGoal) sessionId a
  rw [session, store_set, Option.map_some, Option.some_inj, contents_mutate] at hsession
  refine ⟨_, by rw [session, store_mutate, store_set, Option.map_some], ?_⟩
  rw [fields_mutate_of_ne hne, hsession]

/-- The object that the operation holds shows the listed goal. -/
theorem contents_set {a b : Address} (hstore : m.store sessionId = some a) (hb : b < m.fresh) :
    (m.set sessionId a).contents b = m.contents b := by
  rw [set, hstore]
  dsimp only
  rw [contents, contents, storeNew]
  dsimp only
  rw [Function.update_of_ne hb.ne]
  by_cases heq : b = a
  · rw [heq, Function.update_self]
    rfl
  · rw [Function.update_of_ne heq]
    rfl

end SharedStore

/-! ## The changes -/

variable {state : SessionState} {goal : ActiveGoalProps}

theorem listGoal_of_unlisted (h : unlistedGoal state = some goal) :
    state.activeGoals = none ∧ (listGoal state).activeGoals = some [goal] := by
  constructor
  · rw [unlistedGoal] at h
    cases hgoals : state.activeGoals with
    | none => rfl
    | some goals =>
      rw [hgoals] at h
      cases h
  · rw [listGoal, h]

/-- A list that is not changed by a new element in front has that element only. -/
theorem eq_of_take_cons {α : Type} {n : ℕ} {x : α} {xs : List α} (h : (x :: xs).take n = xs) :
    ∀ y ∈ xs, y = x := by
  induction xs generalizing n x with
  | nil => simp
  | cons z zs ih =>
    cases n with
    | zero => simp at h
    | succ n =>
      rw [List.take_succ_cons, List.cons.injEq] at h
      obtain ⟨rfl, hrest⟩ := h
      intro y hy
      rcases List.mem_cons.mp hy with rfl | hy
      · rfl
      · exact ih hrest y hy

/-- Five goals with a new one in front of them are the same goals only when all are the new one. -/
theorem take_cons_eq_self_iff {goals : List ActiveGoalProps} :
    (goal :: goals).take 5 = goals ↔ goals = List.replicate 5 goal := by
  constructor
  · intro h
    have hlength := congrArg List.length h
    rw [List.length_take, List.length_cons] at hlength
    exact List.eq_replicate_iff.mpr ⟨by omega, eq_of_take_cons h⟩
  · intro h
    have hcons : goal :: List.replicate 5 goal = List.replicate 6 goal := List.replicate_succ.symm
    rw [h, hcons, List.take_replicate, Nat.min_eq_left (by decide)]

/-- A new goal in front changes the goals, unless they are five copies of it. -/
theorem withGoal_eq_self_iff : withGoal goal state = state ↔
    (state.activeGoals = some (List.replicate 5 goal) ∧ state.activeGoal = some goal) := by
  constructor
  · intro h
    have hgoals : (withGoal goal state).activeGoals = state.activeGoals := by rw [h]
    have hgoal : (withGoal goal state).activeGoal = state.activeGoal := by rw [h]
    refine ⟨?_, hgoal.symm⟩
    cases hlist : state.activeGoals with
    | none =>
      rw [withGoal, hlist] at hgoals
      cases hgoals
    | some goals =>
      rw [withGoal, hlist] at hgoals
      exact congrArg some (take_cons_eq_self_iff.mp (Option.some.inj hgoals))
  · rintro ⟨hgoals, hgoal⟩
    rw [withGoal, hgoals]
    dsimp only
    rw [take_cons_eq_self_iff.mpr rfl, ← hgoals, ← hgoal]

/-- A beat that achieves the goal takes it off the list. -/
theorem activeGoals_withBeat_achieved {progress : JsNumber} {now : Time}
    (h : progress.atLeast 100 = true) (hgoals : state.activeGoals ≠ none) :
    (withBeat progress now goal state).activeGoals ≠ state.activeGoals := by
  intro heq
  rw [withBeat, if_pos h] at heq
  dsimp only [List.tail_cons] at heq
  cases hlist : state.activeGoals with
  | none => exact hgoals hlist
  | some goals =>
    rw [hlist, Option.getD_some] at heq
    -- What is left of the list is shorter than the list.
    match goals, heq with
    | [], heq => cases heq
    | [_], heq => cases heq
    | first :: second :: rest, heq =>
      have hlength := congrArg List.length (Option.some.inj heq)
      simp at hlength

/-- A beat changes nothing exactly when its goal, the first of the list, has its progress already. -/
theorem withBeat_eq_self_iff {progress : JsNumber} {now : Time}
    (hgoal : beatGoal state = some goal) (hlisted : unlistedGoal state = none) :
    withBeat progress now goal state = state ↔
      ∃ first rest, state.activeGoals = some (first :: rest) ∧ state.activeGoal = some first ∧
        progress.atLeast 100 = false ∧ first.progress = progress.percent := by
  have hhydrate : hydrateActiveGoal state = some goal := (Option.filter_eq_some_iff.mp hgoal).1
  have hnone : state.activeGoals ≠ none := by
    intro hnone
    rw [unlistedGoal, hnone] at hlisted
    dsimp only at hlisted
    rw [hydrateActiveGoal, hnone, hlisted] at hhydrate
    cases hhydrate
  obtain ⟨goals, hgoals⟩ := Option.ne_none_iff_exists'.mp hnone
  by_cases hachieved : progress.atLeast 100 = true
  · refine iff_of_false (fun h => ?_) (fun ⟨_, _, _, _, h, _⟩ => ?_)
    · exact activeGoals_withBeat_achieved hachieved hnone (congrArg (·.activeGoals) h)
    · rw [hachieved] at h
      cases h
  · have hupdated : updatedGoal progress now goal = ActiveGoal.updateProgress goal progress := by
      rw [updatedGoal, if_neg hachieved]
    have hstack : withBeat progress now goal state = { state with
        activeGoals := some (ActiveGoal.updateProgress goal progress :: goals.tail)
        activeGoal := some (ActiveGoal.updateProgress goal progress) } := by
      rw [withBeat, hupdated, hgoals]
      simp only [if_neg hachieved, orUndefined, List.head?_cons, Option.getD_some]
    rw [hstack]
    constructor
    · intro h
      have hlist := congrArg (·.activeGoals) h
      have hfirst := congrArg (·.activeGoal) h
      dsimp only at hlist hfirst
      rw [hgoals, Option.some_inj] at hlist
      have hhead : goal = ActiveGoal.updateProgress goal progress := by
        rw [hydrateActiveGoal, hgoals, Option.getD_some, ← hlist, List.head?_cons,
          Option.some_or, Option.some_inj] at hhydrate
        exact hhydrate.symm
      rw [← hhead] at hlist hfirst
      exact ⟨goal, goals.tail, by rw [hgoals, hlist], hfirst.symm, Bool.eq_false_iff.mpr hachieved,
        ActiveGoal.updateProgress_eq_self_iff.mp hhead.symm⟩
    · rintro ⟨first, rest, hlist, hfirst, -, hprogress⟩
      rw [hgoals, Option.some_inj] at hlist
      rw [hydrateActiveGoal, hgoals, Option.getD_some, hlist, List.head?_cons, Option.some_or,
        Option.some_inj] at hhydrate
      subst hhydrate
      rw [ActiveGoal.updateProgress_eq_self_iff.mpr hprogress, hlist, List.tail_cons, ← hlist,
        ← hgoals, ← hfirst]

open AgentOperation

/-- Counting leaves a counter as it is exactly when it is saturated. -/
theorem saturated_iff {counter : Option JsNumber} :
    some ((JsNumber.orZero counter).add (.finite 1)) = counter ↔ Saturated counter := by
  constructor
  · intro h
    have hx := JsNumber.add_finite_ne_nan (JsNumber.orZero_ne_nan counter) 1
    refine ⟨_, h.symm, hx, ?_⟩
    have hzero := JsNumber.orZero_some hx
    rw [h] at hzero
    rw [← hzero]
    exact hzero.symm
  · rintro ⟨x, rfl, hx, hadd⟩
    rw [JsNumber.orZero_some hx, hadd]

/-- A counter is a number exactly when its default is not used. -/
theorem counted_iff {counter : Option JsNumber} :
    some (JsNumber.orZero counter) = counter ↔ Counted counter := by
  constructor
  · intro h
    exact ⟨_, h.symm, JsNumber.orZero_ne_nan counter⟩
  · rintro ⟨x, rfl, hx⟩
    rw [JsNumber.orZero_some hx]

/-- A turn that ends with the given theme changes nothing exactly when it is the theme already and
the counters stand still. -/
theorem turn_eq_self_iff {verdict : Option Bool} {theme : Option Text} :
    { withTurn verdict state with lastSuggestedTheme := theme } = state ↔
      theme = state.lastSuggestedTheme ∧ Saturated state.context.interactions ∧
        (if verdict = some false then Saturated state.context.interventions
          else Counted state.context.interventions) := by
  have hinterventions : some (currentInterventions verdict state) = state.context.interventions ↔
      if verdict = some false then Saturated state.context.interventions
        else Counted state.context.interventions := by
    rw [currentInterventions]
    by_cases hrejected : verdict = some false
    · rw [if_pos hrejected, if_pos hrejected]
      exact saturated_iff
    · rw [if_neg hrejected, if_neg hrejected]
      exact counted_iff
  rw [← hinterventions, ← saturated_iff]
  constructor
  · intro h
    exact ⟨congrArg (·.lastSuggestedTheme) h, congrArg (·.context.interactions) h,
      congrArg (·.context.interventions) h⟩
  · rintro ⟨htheme, hcount, hintervened⟩
    rw [withTurn, htheme, currentInteractions, hcount, hintervened]

/-! ## The operations, undone -/

namespace SharedStore

variable {m : SharedStore} {sessionId : Text}

/-- The ways in which an operation starts on a session whose goal had to be listed: it holds an
object whose copy is stored, with the goal in its list and a snapshot that has it too. -/
structure StartsUnlisted (m' : SharedStore) (a : Address) (sessionId : Text) (state : SessionState)
    (goal : ActiveGoalProps) : Prop where
  unlisted : unlistedGoal state = some goal
  held : m'.contents a = listGoal state
  stored : ∀ f, ∃ stored, (m'.mutate a f).session sessionId = some stored ∧
    stored.activeGoals = some [goal]
  undone : (m'.rollback sessionId 1).session sessionId = some (listGoal state)
  undone_mutate : ∀ f, ((m'.mutate a f).rollback sessionId 1).session sessionId =
    some (listGoal state)

/-- An operation starts with the stored object, or with a goal that had to be listed. -/
theorem getOrInitState_cases (userId : Text) (h : m.session sessionId = some state) :
    (unlistedGoal state = none ∧ ∃ a, m.getOrInitState sessionId userId = (a, m) ∧
      m.store sessionId = some a ∧ m.contents a = state) ∨
    ∃ goal a m', m.getOrInitState sessionId userId = (a, m') ∧
      StartsUnlisted m' a sessionId state goal := by
  cases hgoal : unlistedGoal state with
  | none => exact Or.inl ⟨rfl, getOrInitState_of_listed userId h hgoal⟩
  | some goal =>
    obtain ⟨a, m', hstore, rfl, hget, rfl⟩ := getOrInitState_of_unlisted userId h hgoal
    have hheld : ((m.mutate a listGoal).set sessionId a).contents a =
        (m.mutate a listGoal).contents a := contents_set hstore (m.used sessionId a hstore)
    refine Or.inr ⟨goal, a, _, hget, hgoal, ?_, fun f => ?_, undo_write hstore, fun f => ?_⟩
    · rw [hheld, contents_mutate]
    · obtain ⟨stored, hstored, hgoals⟩ := session_mutate_unlisted f hstore
      exact ⟨stored, hstored, hgoals.trans (listGoal_of_unlisted hgoal).2⟩
    · have hne : m.fresh ≠ a := (m.used sessionId a hstore).ne'
      obtain ⟨rest, hrest⟩ := @history_set _ sessionId a _ (session_mutate (f := listGoal) hstore)
      have hcopy : (((m.mutate a listGoal).set sessionId a).mutate a f).objects m.fresh =
          ((m.mutate a listGoal).set sessionId a).objects m.fresh := Function.update_of_ne hne _ _
      exact session_rollback store_set ((congrArg SessionObject.history hcopy).trans hrest)

/-- A session with a listed goal is not the one from before the goal was listed. -/
theorem StartsUnlisted.ne {m' : SharedStore} {a : Address} {stored : SessionState}
    (h : StartsUnlisted m' a sessionId state goal) (hstored : stored.activeGoals = some [goal]) :
    stored ≠ state := by
  rintro rfl
  rw [(listGoal_of_unlisted h.unlisted).1] at hstored
  cases hstored

theorem StartsUnlisted.listGoal_ne {m' : SharedStore} {a : Address}
    (h : StartsUnlisted m' a sessionId state goal) : listGoal state ≠ state :=
  h.ne (listGoal_of_unlisted h.unlisted).2

/-- What was listed first is not undone, whatever is assigned and stored afterwards. -/
theorem StartsUnlisted.write_ne {m' : SharedStore} {a : Address}
    (h : StartsUnlisted m' a sessionId state goal) (f : SessionState → SessionState) :
    (((m'.mutate a f).set sessionId a).rollback sessionId 1).session sessionId ≠ some state := by
  obtain ⟨stored, hstored, hgoals⟩ := h.stored f
  rw [session_rollback_set hstored]
  exact fun heq => h.ne hgoals (Option.some.inj heq)

variable {hasMemory : Bool} {userId : Text}

/-- `setGoal`, undone. -/
theorem setGoal_undone_iff (h : m.session sessionId = some state) :
    ((m.setGoal sessionId userId goal).rollback sessionId 1).session sessionId = some state ↔
      ChangesNothing hasMemory state (.setGoal goal) := by
  rw [setGoal]
  rcases getOrInitState_cases userId h with ⟨-, a, hget, hstore, hcontents⟩ | ⟨first, a, m', hget, hstart⟩
  · rw [hget]
    dsimp only
    rw [undo_write hstore, hcontents, Option.some_inj, withGoal_eq_self_iff]
    rfl
  · rw [hget]
    refine iff_of_false (hstart.write_ne _) fun hnothing => ?_
    have hgoals := hnothing.1
    rw [(listGoal_of_unlisted hstart.unlisted).1] at hgoals
    cases hgoals

/-- `handleStoryBeat`, undone. -/
theorem handleStoryBeat_undone_iff {beatIndex totalBeats : JsNumber} {now : Time}
    (h : m.session sessionId = some state)
    (hwrites : writes hasMemory sessionId userId state
      (.handleStoryBeat beatIndex totalBeats now) = true) :
    ((m.handleStoryBeat sessionId userId beatIndex totalBeats now).rollback sessionId 1).session
        sessionId = some state ↔
      ChangesNothing hasMemory state (.handleStoryBeat beatIndex totalBeats now) := by
  rw [handleStoryBeat]
  rcases getOrInitState_cases userId h with ⟨hlisted, a, hget, hstore, hcontents⟩ |
    ⟨first, a, m', hget, hstart⟩
  · rw [writes, hlisted, Option.isSome_none, Bool.false_or] at hwrites
    obtain ⟨goal, hgoal⟩ := Option.isSome_iff_exists.mp hwrites
    rw [hget]
    dsimp only
    rw [hcontents, hgoal]
    dsimp only
    rw [undo_write hstore, hcontents, Option.some_inj, withBeat_eq_self_iff hgoal hlisted]
    rfl
  · rw [hget]
    refine iff_of_false ?_ ?_
    · dsimp only
      cases beatGoal (m'.contents a) with
      | none =>
        rw [hstart.undone]
        exact fun heq => hstart.listGoal_ne (Option.some.inj heq)
      | some goal => exact hstart.write_ne _
    · rintro ⟨goal, rest, hgoals, -⟩
      rw [(listGoal_of_unlisted hstart.unlisted).1] at hgoals
      cases hgoals

/-- Assignments made one after the other are made at once. -/
theorem mutate_mutate {a : Address} {f g : SessionState → SessionState} :
    (m.mutate a f).mutate a g = m.mutate a fun s => g (f s) := by
  rw [mutate, contents_mutate]
  simp only [mutate, Function.update_self, Function.update_idem]

/-- `handleSleepCueDetected`, undone: the theme was there and the snapshot has none. -/
theorem handleSleepCueDetected_not_undone {tracked : Bool} (h : m.session sessionId = some state)
    (hwrites : writes hasMemory sessionId userId state (.handleSleepCueDetected tracked) = true) :
    ((m.handleSleepCueDetected sessionId userId hasMemory tracked).rollback sessionId 1).session
      sessionId ≠ some state := by
  simp only [writes, Bool.and_eq_true, Bool.not_eq_true', List.isEmpty_eq_false_iff,
    Bool.or_eq_true] at hwrites
  obtain ⟨⟨hsession, huser⟩, hwrites⟩ := hwrites
  rw [handleSleepCueDetected, if_neg (not_or.mpr ⟨hsession, huser⟩)]
  rcases getOrInitState_cases userId h with ⟨hlisted, a, hget, hstore, hcontents⟩ |
    ⟨first, a, m', hget, hstart⟩
  · rw [hlisted] at hwrites
    obtain ⟨⟨htheme, rfl⟩, rfl⟩ := hwrites.resolve_left (by simp)
    obtain ⟨theme, htheme⟩ := Option.isSome_iff_exists.mp htheme
    rw [hget]
    dsimp only
    rw [hcontents, htheme, if_neg (by simp), if_pos rfl, mutate_mutate, undo_write hstore, hcontents]
    intro heq
    have hnone := congrArg (·.lastSuggestedTheme) (Option.some.inj heq)
    rw [suggestedTheme, ← show none = state.lastSuggestedTheme from hnone] at htheme
    cases htheme
  · rw [hget]
    dsimp only
    by_cases hreturn : ((suggestedTheme (m'.contents a)).isNone || !hasMemory) = true
    · rw [if_pos hreturn, hstart.undone]
      exact fun heq => hstart.listGoal_ne (Option.some.inj heq)
    · rw [if_neg hreturn]
      cases tracked with
      | false =>
        rw [if_neg Bool.false_ne_true, hstart.undone_mutate]
        exact fun heq => hstart.listGoal_ne (Option.some.inj heq)
      | true =>
        rw [if_pos rfl, mutate_mutate]
        exact hstart.write_ne _

/-- A verdict needs a theme. -/
theorem suggested_of_verdict {message : Text} {verdict : Bool}
    (h : turnVerdict hasMemory message state = some verdict) : state.lastSuggestedTheme ≠ none := by
  intro hnone
  rw [turnVerdict, suggestedTheme, hnone, Option.filter_none, Option.isSome_none, Bool.and_false,
    if_neg Bool.false_ne_true] at h
  cases h

/-- `processTurn`, undone. -/
theorem processTurn_undone_iff {message : Text} {tracked : Bool} {suggestion : Option Text}
    (h : m.session sessionId = some state)
    (hwrites : writes hasMemory sessionId userId state
      (.processTurn message tracked suggestion) = true) :
    ((m.processTurn sessionId userId message hasMemory tracked suggestion).rollback sessionId
        1).session sessionId = some state ↔
      ChangesNothing hasMemory state (.processTurn message tracked suggestion) := by
  rw [processTurn]
  simp only [ChangesNothing]
  rcases getOrInitState_cases userId h with ⟨hlisted, a, hget, hstore, hcontents⟩ |
    ⟨first, a, m', hget, hstart⟩
  · rw [writes, hlisted, Option.isSome_none, Bool.false_or, Bool.not_eq_true'] at hwrites
    rw [hget]
    dsimp only
    rw [hcontents, hwrites, if_neg Bool.false_ne_true]
    cases suggestion with
    | none =>
      have hturn := @turn_eq_self_iff state (turnVerdict hasMemory message state)
        (withTurn (turnVerdict hasMemory message state) state).lastSuggestedTheme
      have htheme : (withTurn (turnVerdict hasMemory message state) state).lastSuggestedTheme =
          state.lastSuggestedTheme ↔ turnVerdict hasMemory message state = none := by
        rw [withTurn]
        dsimp only
        cases hverdict : turnVerdict hasMemory message state with
        | none => simp
        | some verdict => exact iff_of_false (suggested_of_verdict hverdict).symm (by simp)
      dsimp only
      rw [undo_write hstore, hcontents, Option.some_inj]
      refine hturn.trans ⟨fun h => ?_, fun h => ?_⟩
      · exact ⟨hlisted, h.2.1, h.2.2, htheme.mp h.1⟩
      · exact ⟨htheme.mpr h.2.2.2, h.2.1, h.2.2.1⟩
    | some theme =>
      have hturn := @turn_eq_self_iff state (turnVerdict hasMemory message state) (some theme)
      have hsession : ((m.mutate a (withTurn (turnVerdict hasMemory message state))).set sessionId
          a).session sessionId = some (withTurn (turnVerdict hasMemory message state) state) := by
        rw [session_set, contents_mutate, hcontents]
      obtain ⟨b, hget', hstore', hcontents'⟩ := getOrInitState_of_listed userId hsession hlisted
      dsimp only
      rw [hget']
      dsimp only
      rw [undo_write hstore', hcontents', Option.some_inj]
      refine hturn.trans ⟨fun h => ?_, fun h => ?_⟩
      · exact ⟨hlisted, h.2.1, h.2.2, h.1.symm⟩
      · exact ⟨h.2.2.2.symm, h.2.1, h.2.2.1⟩
  · rw [hget]
    refine iff_of_false ?_ ?_
    · dsimp only
      split
      · rw [hstart.undone]
        exact fun heq => hstart.listGoal_ne (Option.some.inj heq)
      · cases suggestion with
        | none => exact hstart.write_ne _
        | some theme =>
          have hsession := @session_set (m'.mutate a (withTurn (turnVerdict hasMemory message
            (m'.contents a)))) sessionId a
          rw [contents_mutate, hstart.held] at hsession
          have hgoals : (withTurn (turnVerdict hasMemory message (listGoal state))
              (listGoal state)).activeGoals = some [first] :=
            (listGoal_of_unlisted hstart.unlisted).2
          have hlisted : unlistedGoal (withTurn (turnVerdict hasMemory message (listGoal state))
              (listGoal state)) = none := by
            rw [unlistedGoal, hgoals]
          obtain ⟨b, hget', hstore', hcontents'⟩ := getOrInitState_of_listed userId hsession hlisted
          rw [hstart.held]
          dsimp only
          rw [hget']
          dsimp only
          rw [undo_write hstore', hcontents']
          have hrestored := hstart.ne (show (withTheme theme (withTurn (turnVerdict hasMemory message
            (listGoal state)) (listGoal state))).activeGoals = some [first] from hgoals)
          exact fun heq => hrestored (Option.some.inj heq)
    · rintro ⟨hlisted, -⟩
      rw [hstart.unlisted] at hlisted
      cases hlisted

/-- **An operation is undone by a rollback exactly when it changes nothing.** -/
theorem rollback_restores_iff {op : AgentOperation} (h : m.session sessionId = some state)
    (hwrites : op.writes hasMemory sessionId userId state = true) :
    ((op.perform hasMemory m sessionId userId).rollback sessionId 1).session sessionId =
      some state ↔ op.ChangesNothing hasMemory state := by
  cases op with
  | setGoal goal => exact setGoal_undone_iff h
  | handleStoryBeat beatIndex totalBeats now => exact handleStoryBeat_undone_iff h hwrites
  | handleSleepCueDetected tracked =>
    exact iff_of_false (handleSleepCueDetected_not_undone h hwrites) id
  | processTurn message tracked suggestion => exact processTurn_undone_iff h hwrites

/-- The process with one session. -/
def started (state : SessionState) : SharedStore :=
  let (a, m) := SharedStore.alloc
    { objects := fun _ => ⟨state.toSessionFields, 0, none⟩
      contexts := fun _ => {}
      store := fun _ => none
      fresh := 0
      used := fun _ _ h => by cases h } state
  m.set state.sessionId a

/-- A goal of a session. -/
def asleepGoal : ActiveGoalProps where
  id := lit "goal_0_abc"
  type := .childAsleep
  targetTime := none
  description := lit "Child asleep"
  status := .active
  progress := .finite 50
  createdAt := ⟨0, Time.inRange_zero⟩
  achievedAt := none

/-- A session with a goal that is half reached. -/
def halfway : SessionState :=
  { initialState (lit "evening") (lit "ana") with
    activeGoal := some asleepGoal
    activeGoals := some [asleepGoal] }

/-- The session that was started. -/
theorem session_started : (started state).session state.sessionId = some state := by
  rw [started, session_set]
  rfl

/-- The first of two beats, repeated, is undone: it leaves the goal half reached. -/
theorem rollback_restores_halfway :
    (((AgentOperation.handleStoryBeat (.finite 0) (.finite 2) ⟨1, by decide⟩).perform true
      (started halfway) (lit "evening") (lit "ana")).rollback (lit "evening") 1).session
        (lit "evening") = some halfway := by
  have hsession : (started halfway).session (lit "evening") = some halfway :=
    @session_started halfway
  refine (rollback_restores_iff hsession (by decide)).mpr ⟨asleepGoal, [], rfl, rfl, ?_, ?_⟩
  · decide +kernel
  · decide +kernel

/-- A goal set on a new session stays after the rollback. -/
theorem setGoal_not_undone :
    (started (initialState (lit "evening") (lit "ana"))).session (lit "evening") =
        some (initialState (lit "evening") (lit "ana")) ∧
      ((((AgentOperation.setGoal asleepGoal).perform true
        (started (initialState (lit "evening") (lit "ana"))) (lit "evening") (lit "ana")).rollback
          (lit "evening") 1).session (lit "evening")).map (fun state => state.activeGoals) =
        some (some [asleepGoal]) ∧
      (((AgentOperation.setGoal asleepGoal).perform true
        (started (initialState (lit "evening") (lit "ana"))) (lit "evening") (lit "ana")).rollback
          (lit "evening") 1).session (lit "evening") ≠
        some (initialState (lit "evening") (lit "ana")) := by
  have hsession : (started (initialState (lit "evening") (lit "ana"))).session (lit "evening") =
      some (initialState (lit "evening") (lit "ana")) :=
    @session_started (initialState (lit "evening") (lit "ana"))
  have hgoals : ((((AgentOperation.setGoal asleepGoal).perform true
      (started (initialState (lit "evening") (lit "ana"))) (lit "evening") (lit "ana")).rollback
        (lit "evening") 1).session (lit "evening")).map (fun state => state.activeGoals) =
      some (some [asleepGoal]) := by
    decide +kernel
  refine ⟨hsession, hgoals, fun h => ?_⟩
  rw [h] at hgoals
  cases hgoals

end SharedStore

end DreamWeaver.Conductor
