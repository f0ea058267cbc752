import DreamWeaver.Conductor.NoLostUpdate

/-! # The beats of one story

A story with `n` beats has `n` handlers, which are started without waiting for each other and interleave at
their awaits. The last beat achieves the goal on top of the stack, and takes it off. With fewer than 200
beats no other beat rounds up to 100 percent, and the handlers leave each other's work alone as long as
every one of them stores the session that is still there. -/

namespace DreamWeaver.Conductor

open Proc

/-! ## The progress of a beat -/

/-- Adding one is exact. -/
theorem natCast_add_one {k : ℕ} (h : k + 1 ≤ 2 ^ 53) :
    (JsNumber.finite k).add (.finite 1) = .finite ((k + 1 : ℕ) : ℚ) :=
  countUp_natCast (n := 1) h

/-- The progress of a beat, in doubles. -/
theorem beatProgress_natCast {i n : ℕ} (hi : i < n) (hn : n ≤ 2 ^ 53) :
    beatProgress (.finite i) (.finite n) =
      .finite (⌊double (double (((i + 1 : ℕ) : ℚ) / n) * 100) + 1 / 2⌋ : ℚ) := by
  have hpos : (0 : ℚ) < n := by exact_mod_cast Nat.zero_lt_of_lt hi
  have hle : ((i + 1 : ℕ) : ℚ) / n ≤ 1 := (div_le_one hpos).mpr (by exact_mod_cast hi)
  have hnonneg : (0 : ℚ) ≤ ((i + 1 : ℕ) : ℚ) / n := by positivity
  obtain ⟨q, hq, hq0, hq1⟩ := JsNumber.exists_ofExact_unit hnonneg hle
  have hdouble : q = double (((i + 1 : ℕ) : ℚ) / n) := by
    rw [JsNumber.ofExact_of_abs_le] at hq
    · exact (JsNumber.finite.inj hq).symm
    · rw [abs_of_nonneg hnonneg]
      exact hle.trans (one_le_pow₀ one_le_two)
  have hdiv : (JsNumber.finite ((i + 1 : ℕ) : ℚ)).div (.finite n) = .finite q := by
    rw [JsNumber.div, if_neg hpos.ne', hq]
  have hmul : (JsNumber.finite q).mul (.finite 100) = .finite (double (q * 100)) := by
    refine JsNumber.ofExact_of_abs_le ?_
    rw [abs_of_nonneg (by positivity)]
    calc q * 100 ≤ 1 * 2 ^ 7 := mul_le_mul hq1 (by norm_num) (by norm_num) zero_le_one
      _ = 2 ^ 7 := one_mul _
      _ ≤ 2 ^ 1023 := pow_le_pow_right₀ one_le_two (by decide)
  rw [beatProgress, natCast_add_one (hi.trans_le hn), hdiv, hmul, hdouble]
  rfl

/-- Nearer to the end, the progress is not less. -/
theorem floor_progress_mono {x y : ℚ} (hx : 0 ≤ x) (h : x ≤ y) :
    ⌊double (double x * 100) + 1 / 2⌋ ≤ ⌊double (double y * 100) + 1 / 2⌋ := by
  have hzero : 0 ≤ double x := double_nonneg hx
  have hinner : double x * 100 ≤ double y * 100 :=
    mul_le_mul_of_nonneg_right (double_mono hx h) (by norm_num)
  have houter := double_mono (mul_nonneg hzero (by norm_num : (0 : ℚ) ≤ 100)) hinner
  exact Int.floor_mono (by linarith)

/-- **The last beat achieves its goal.** -/
theorem atLeast_last {m : ℕ} (hm : m < 2 ^ 53) :
    (beatProgress (.finite m) (.finite ((m + 1 : ℕ) : ℚ))).atLeast 100 = true := by
  have hne : ((m + 1 : ℕ) : ℚ) ≠ 0 := by exact_mod_cast m.succ_ne_zero
  have hfloor : ⌊double (double 1 * 100) + 1 / 2⌋ = 100 := by decide +kernel
  rw [beatProgress_natCast m.lt_succ_self hm, div_self hne, hfloor]
  decide

/-- **No other beat does**, of less than 200. -/
theorem atLeast_other {i n : ℕ} (hi : i + 1 < n) (hn : n < 200) :
    (beatProgress (.finite i) (.finite n)).atLeast 100 = false := by
  have hle : ((i + 1 : ℕ) : ℚ) / n ≤ 198 / 199 := by
    have hpos : (0 : ℚ) < n := by exact_mod_cast Nat.zero_lt_of_lt hi
    rw [div_le_div_iff₀ hpos (by norm_num)]
    exact_mod_cast (by omega : (i + 1) * 199 ≤ 198 * n)
  have hfloor : ⌊double (double (198 / 199) * 100) + 1 / 2⌋ = 99 := by decide +kernel
  have hmono := floor_progress_mono (by positivity) hle
  rw [hfloor] at hmono
  rw [beatProgress_natCast (by omega) (by omega)]
  refine decide_eq_false ?_
  rw [not_le]
  exact_mod_cast Int.lt_of_le_of_lt hmono (by decide)

/-! ## The handlers of a story -/

/-- The handler of one beat of a story with `m + 1` beats. -/
def beatHandler (s u : Text) (m : ℕ) (now : Fin (m + 1) → Time) (i : Fin (m + 1)) : Operation :=
  .handleStoryBeat s u (.finite (i : ℕ)) (.finite ((m + 1 : ℕ) : ℚ)) (now i)

/-- The goal that an event achieves in a session: by which handler, and its id. -/
def achievement {ι : Type} (s : Text) (entry : ι × SessionEvent) : Option (ι × Text) :=
  match entry.2 with
  | ⟨.setSession t (.changed held (.beat progress _)), .ok _⟩ =>
    if t = s ∧ progress.atLeast 100 = true then (beatGoal held).map fun goal => (entry.1, goal.id) else none
  | _ => none

/-- The goals that are achieved in a session, in the order of a log. -/
def achievements {ι : Type} (s : Text) (log : List (ι × SessionEvent)) : List (ι × Text) :=
  log.filterMap (achievement s)

/-- The ids of goals. -/
def idsOf (goals : List ActiveGoalProps) : List Text := goals.map ActiveGoalProps.id

/-- The story has achieved the goal that was on top of the stack, by its last beat, and nothing else, or it
has achieved nothing yet; what it has achieved is off the stack, and everything else is on it. When the
last handler has completed, the goal has been achieved. -/
structure OneGoal {m : ℕ} (s : Text) (goal : ActiveGoalProps) (rest : List ActiveGoalProps)
    (log : List (Fin (m + 1) × SessionEvent))
    (c : Pool (Fin (m + 1)) SessionMap SessionEffect SessionEffect.Reply Unit) : Prop where
  only : (achievements s log = [] ∧ idsOf (goalsOf (c.state s)) = goal.id :: idsOf rest) ∨
    (achievements s log = [(Fin.last m, goal.id)] ∧ idsOf (goalsOf (c.state s)) = idsOf rest)
  done : c.procs (Fin.last m) = .done (.ok ()) → achievements s log = [(Fin.last m, goal.id)]

/-! ## What a handler does -/

/-- An update that a handler makes: the goal is listed, or the beat is stored where there is a goal. -/
def OfBeat (progress : JsNumber) (now : Time) : SessionEvent → Prop
  | ⟨.setSession _ (.changed held (.beat p t)), .ok _⟩ =>
    p = progress ∧ t = now ∧ (beatGoal held).isSome = true
  | ⟨.setSession _ (.changed _ .listGoal), .ok _⟩ => True
  | ⟨.setSession _ (.changed _ _), .ok _⟩ => False
  | ⟨.patchContext _ _ _, .ok _⟩ => False
  | _ => True

theorem usual_ofBeat (progress : JsNumber) (now : Time) : Usual (OfBeat progress now) where
  quiet event h := by
    obtain ⟨effect, reply⟩ := event
    cases effect with
    | setSession s write =>
      cases reply with
      | ok _ => cases write <;> cases h
      | error e =>
        cases write with
        | literal state => trivial
        | changed held change => cases change <;> trivial
    | patchContext s held toolCallId =>
      cases reply with
      | ok _ => cases h
      | error e => trivial
    | _ => trivial
  start s u := trivial
  list s state := trivial

variable {s u : Text} {m : ℕ} {now : Fin (m + 1) → Time} {agent : BedtimeConductorAgent}

/-- The progress of a handler. -/
def progressOf (m : ℕ) (i : Fin (m + 1)) : JsNumber :=
  beatProgress (.finite (i : ℕ)) (.finite ((m + 1 : ℕ) : ℚ))

theorem only_beatHandler (i : Fin (m + 1)) :
    ((beatHandler s u m now i).task agent).Only (OfBeat (progressOf m i) (now i)) :=
  only_handleStoryBeat (usual_ofBeat _ _) fun _ hsome => ⟨rfl, rfl, hsome⟩

/-- A handler stores its beat once at most. -/
theorem ends_beatHandler (i : Fin (m + 1)) : ((beatHandler s u m now i).task agent).Ends
    (fun past _ => past.countP (beatHandler s u m now i).performs ≤ 1) [] := by
  have husual := usual_performs (beatHandler s u m now i)
  have hstart : ∀ past : List SessionEvent, past.countP (beatHandler s u m now i).performs =
      ([] : List SessionEvent).countP (beatHandler s u m now i).performs →
        past.countP (beatHandler s u m now i).performs ≤ 1 := fun past h => h.le.trans (Nat.zero_le 1)
  refine (only_getOrInitState husual).bind_ends (fun state past hcount => ?_)
    fun e past hcount => hstart past hcount
  cases beatGoal state with
  | none => exact ends_pure (hstart past hcount)
  | some goal =>
    refine ends_perform fun reply => ?_
    rw [List.countP_append, hcount, List.countP_nil, Nat.zero_add]
    exact List.countP_le_length

/-! ## The stack along a run -/

/-- The session has the goals, in the stack, and no goal that is not listed. -/
def HasGoals (goals : List ActiveGoalProps) (session : Option SessionState) : Prop :=
  ∃ state, session = some state ∧ state.activeGoals = orUndefined goals ∧ unlistedGoal state = none

variable {goals : List ActiveGoalProps} {held : SessionState} {sessions sessions' : SessionMap}

theorem getD_orUndefined (goals : List ActiveGoalProps) : (orUndefined goals).getD [] = goals := by
  cases goals <;> rfl

theorem HasGoals.goalsOf_eq {session : Option SessionState} (h : HasGoals goals session) :
    goalsOf session = goals := by
  obtain ⟨state, rfl, hgoals, -⟩ := h
  rw [goalsOf, Option.bind_some, hgoals, getD_orUndefined]

/-- The goal of a beat is the first. -/
theorem HasGoals.beatGoal_eq {goal : ActiveGoalProps} (h : HasGoals goals (some held))
    (hgoal : beatGoal held = some goal) : ∃ rest, goals = goal :: rest := by
  obtain ⟨state, hstate, hgoals, hlisted⟩ := h
  obtain rfl := Option.some.inj hstate
  obtain ⟨hhydrated, -⟩ := Option.filter_eq_some_iff.mp hgoal
  cases goals with
  | nil =>
    rw [unlistedGoal, hgoals] at hlisted
    have hnone : held.activeGoal = none := hlisted
    rw [hydrateActiveGoal, hgoals, hnone] at hhydrated
    cases hhydrated
  | cons top rest =>
    rw [hydrateActiveGoal, hgoals] at hhydrated
    exact ⟨rest, by rw [Option.some.inj hhydrated]⟩

/-- A goal that is first and active is the goal of a beat. -/
theorem HasGoals.beatGoal_top {goal : ActiveGoalProps} {rest : List ActiveGoalProps}
    (h : HasGoals (goal :: rest) (some held)) (hactive : goal.status = .active) :
    beatGoal held = some goal := by
  obtain ⟨state, hstate, hgoals, -⟩ := h
  obtain rfl := Option.some.inj hstate
  rw [beatGoal, hydrateActiveGoal, hgoals]
  exact Option.filter_eq_some_iff.mpr ⟨rfl, decide_eq_true hactive⟩

/-- Listing changes nothing where every goal is listed. -/
theorem HasGoals.listGoal_eq (h : HasGoals goals (some held)) : listGoal held = held := by
  obtain ⟨state, hstate, -, hlisted⟩ := h
  obtain rfl := Option.some.inj hstate
  rw [listGoal, hlisted]

/-- What a beat leaves of the goals. -/
theorem HasGoals.beat {goal : ActiveGoalProps} {rest : List ActiveGoalProps} (progress : JsNumber)
    (now : Time) (h : HasGoals (goal :: rest) (some held)) (hgoal : beatGoal held = some goal) :
    HasGoals (if progress.atLeast 100 then rest else ActiveGoal.updateProgress goal progress :: rest)
      (some ((Change.beat progress now).apply held)) := by
  obtain ⟨state, hstate, hgoals, -⟩ := h
  obtain rfl := Option.some.inj hstate
  have happly : (Change.beat progress now).apply held = withBeat progress now goal held := by
    rw [Change.apply, hgoal]
  rw [happly]
  have hstack : (if progress.atLeast 100 then
        (updatedGoal progress now goal :: (held.activeGoals.getD []).tail).tail
      else updatedGoal progress now goal :: (held.activeGoals.getD []).tail) =
      if progress.atLeast 100 then rest else ActiveGoal.updateProgress goal progress :: rest := by
    rw [hgoals, updatedGoal]
    split <;> rfl
  have hlisted : (withBeat progress now goal held).activeGoals = orUndefined _ := congrArg orUndefined hstack
  have hactive : (withBeat progress now goal held).activeGoal = List.head? _ := congrArg List.head? hstack
  refine ⟨_, rfl, hlisted, ?_⟩
  rw [unlistedGoal, hlisted, hactive]
  generalize (if progress.atLeast 100 then rest else ActiveGoal.updateProgress goal progress :: rest) = left
  cases left <;> rfl

/-! ## Runs -/

variable {goal : ActiveGoalProps} {rest : List ActiveGoalProps} {log : List (Fin (m + 1) × SessionEvent)}
  {c : Pool (Fin (m + 1)) SessionMap SessionEffect SessionEffect.Reply Unit}

/-- What the run has come to: nothing is achieved and an active goal is on top, or the last beat has
achieved the goal that was there. -/
inductive Stage (s : Text) (goal : ActiveGoalProps) (rest : List ActiveGoalProps)
    (log : List (Fin (m + 1) × SessionEvent)) (session : Option SessionState) : Prop
  | before {top : ActiveGoalProps} (hnone : achievements s log = []) (hid : top.id = goal.id)
      (hactive : top.status = .active) (hgoals : HasGoals (top :: rest) session)
  | after {left : List ActiveGoalProps} (hone : achievements s log = [(Fin.last m, goal.id)])
      (hids : idsOf left = idsOf rest) (hgoals : HasGoals left session)

theorem achievements_concat (entry : Fin (m + 1) × SessionEvent) :
    achievements s (log ++ [entry]) = achievements s log ++ (achievement s entry).toList := by
  rw [achievements, List.filterMap_append, ← achievements]
  cases h : achievement s entry <;> simp [h]

/-- A step that achieves nothing and leaves the session. -/
theorem Stage.quiet {session : Option SessionState} {entry : Fin (m + 1) × SessionEvent}
    (h : Stage s goal rest log session) (hentry : achievement s entry = none) :
    Stage s goal rest (log ++ [entry]) session := by
  have hlog : achievements s (log ++ [entry]) = achievements s log := by
    rw [achievements_concat, hentry, Option.toList_none, List.append_nil]
  cases h with
  | before hnone hid hactive hgoals => exact .before (hlog.trans hnone) hid hactive hgoals
  | after hone hids hgoals => exact .after (hlog.trans hone) hids hgoals

/-- Only the last of less than 200 beats achieves its goal. -/
theorem atLeast_progressOf {i : Fin (m + 1)} (hm : m + 1 < 200) :
    (progressOf m i).atLeast 100 = decide (i = Fin.last m) := by
  by_cases hi : i = Fin.last m
  · subst hi
    rw [decide_eq_true rfl]
    exact atLeast_last (hm.le.trans' m.le_succ |>.trans_lt (by norm_num))
  · rw [decide_eq_false hi]
    have hlt : (i : ℕ) < m := Fin.val_lt_last hi
    exact atLeast_other (Nat.succ_lt_succ hlt) hm

/-- **A beat** that is stored in the session from which it was made. -/
theorem Stage.beat {i : Fin (m + 1)} {later : Time} (h : Stage s goal rest log (some held)) (hm : m + 1 < 200)
    (hsome : (beatGoal held).isSome = true)
    (honce : i = Fin.last m → (Fin.last m, goal.id) ∉ achievements s log) :
    Stage s goal rest (log ++ [(i, ⟨.setSession s (.changed held (.beat (progressOf m i) later)), .ok ()⟩)])
      (some ((Change.beat (progressOf m i) later).apply held)) := by
  obtain ⟨current, hcurrent⟩ := Option.isSome_iff_exists.mp hsome
  have hachievement : achievement s ((i, ⟨.setSession s (.changed held (.beat (progressOf m i) later)),
      .ok ()⟩) : Fin (m + 1) × SessionEvent) = if i = Fin.last m then some (i, current.id) else none := by
    show (if s = s ∧ (progressOf m i).atLeast 100 = true then
      (beatGoal held).map fun goal => (i, goal.id) else none) = _
    rw [atLeast_progressOf hm, hcurrent]
    by_cases hi : i = Fin.last m <;> simp [hi]
  have hlog := @achievements_concat s m log
    (i, ⟨.setSession s (.changed held (.beat (progressOf m i) later)), .ok ()⟩)
  rw [hachievement] at hlog
  by_cases hi : i = Fin.last m
  · rw [if_pos hi] at hlog
    cases h with
    | after hone hids hgoals =>
      refine absurd ?_ (honce hi)
      rw [hone]
      exact List.mem_singleton_self _
    | before hnone hid hactive hgoals =>
      obtain ⟨rest', hcons⟩ := hgoals.beatGoal_eq hcurrent
      obtain ⟨rfl, rfl⟩ := List.cons.inj hcons
      have hleft := HasGoals.beat (progressOf m i) later hgoals hcurrent
      rw [atLeast_progressOf hm, decide_eq_true hi, if_pos rfl] at hleft
      refine .after ?_ rfl hleft
      rw [hlog, hnone, hi, hid]
      rfl
  · rw [if_neg hi, Option.toList_none, List.append_nil] at hlog
    have hbelow : (progressOf m i).atLeast 100 = false := by
      rw [atLeast_progressOf hm, decide_eq_false hi]
    cases h with
    | @before top hnone hid hactive hgoals =>
      obtain ⟨rest', hcons⟩ := hgoals.beatGoal_eq hcurrent
      obtain ⟨rfl, rfl⟩ := List.cons.inj hcons
      have hleft := HasGoals.beat (progressOf m i) later hgoals hcurrent
      rw [hbelow, if_neg Bool.false_ne_true] at hleft
      have hid' : (ActiveGoal.updateProgress top (progressOf m i)).id = goal.id := hid
      exact .before (hlog.trans hnone) hid' hactive hleft
    | after hone hids hgoals =>
      obtain ⟨rest', rfl⟩ := hgoals.beatGoal_eq hcurrent
      have hleft := HasGoals.beat (progressOf m i) later hgoals hcurrent
      rw [hbelow, if_neg Bool.false_ne_true] at hleft
      have hids' : idsOf (ActiveGoal.updateProgress current (progressOf m i) :: rest') = idsOf rest := hids
      exact .after (hlog.trans hone) hids' hleft

/-- Every achievement is that of an event. -/
theorem exists_of_mem_achievements {i : Fin (m + 1)} {id : Text} (h : (i, id) ∈ achievements s log) :
    ∃ held progress later, (i, (⟨.setSession s (.changed held (.beat progress later)), .ok ()⟩ :
      SessionEvent)) ∈ log := by
  obtain ⟨⟨j, effect, reply⟩, hmem, hentry⟩ := List.mem_filterMap.mp h
  unfold achievement at hentry
  dsimp only at hentry
  split at hentry
  · rename_i t held progress later _ heq
    cases heq
    split at hentry
    · rename_i hif
      obtain ⟨goal, -, hgoal⟩ := Option.map_eq_some_iff.mp hentry
      obtain ⟨rfl, -⟩ := Prod.mk.inj hgoal
      obtain ⟨rfl, -⟩ := hif
      exact ⟨held, progress, later, hmem⟩
    · cases hentry
  · cases hentry

/-- **A step of a handler.** -/
theorem Stage.step {i : Fin (m + 1)} {effect : SessionEffect} {reply : Except JsError effect.Reply}
    (h : Stage s goal rest log (sessions s)) (hm : m + 1 < 200) (hfresh : Fresh sessions effect)
    (hreply : sessionEnv sessions effect reply sessions')
    (hbeat : OfBeat (progressOf m i) (now i) ⟨effect, reply⟩)
    (honce : ∀ held, effect = .setSession s (.changed held (.beat (progressOf m i) (now i))) →
      i = Fin.last m → (Fin.last m, goal.id) ∉ achievements s log) :
    Stage s goal rest (log ++ [(i, ⟨effect, reply⟩)]) (sessions' s) := by
  have hsame : sessions' = sessions → achievement s (i, (⟨effect, reply⟩ : SessionEvent)) = none →
      Stage s goal rest (log ++ [(i, ⟨effect, reply⟩)]) (sessions' s) := by
    rintro rfl hnone
    exact h.quiet hnone
  cases effect with
  | getSession t => exact hsame hreply.1 rfl
  | setSession t write =>
    cases reply with
    | error e =>
      refine hsame hreply ?_
      cases write with
      | literal state => rfl
      | changed held change => cases change <;> rfl
    | ok _ =>
      have hwritten : sessions' = Function.update sessions t (some write.state) := hreply
      by_cases ht : t = s
      · subst ht
        have hnow : sessions' t = some write.state := by rw [hwritten, Function.update_self]
        cases write with
        | literal state =>
          -- there is a session already
          have hnone : sessions t = none := hfresh
          rw [hnone] at h
          cases h with
          | before _ _ _ hgoals =>
            obtain ⟨state, hstate, -⟩ := hgoals
            cases hstate
          | after _ _ hgoals =>
            obtain ⟨state, hstate, -⟩ := hgoals
            cases hstate
        | changed held change =>
          have hheld : sessions t = some held := hfresh
          rw [hheld] at h
          rw [hnow, SessionWrite.state]
          cases change with
          | listGoal =>
            have hlisted : listGoal held = held := by
              cases h with
              | before _ _ _ hgoals => exact hgoals.listGoal_eq
              | after _ _ hgoals => exact hgoals.listGoal_eq
            show Stage _ _ _ _ (some (listGoal held))
            rw [hlisted]
            exact h.quiet rfl
          | beat progress later =>
            obtain ⟨rfl, rfl, hsome⟩ := hbeat
            exact h.beat hm hsome (honce held rfl)
          | _ => cases hbeat
      · have hother : sessions' s = sessions s := by rw [hwritten, Function.update_of_ne (Ne.symm ht)]
        rw [hother]
        refine h.quiet ?_
        cases write with
        | literal state => rfl
        | changed held change =>
          cases change with
          | beat progress later => exact if_neg fun hboth => ht hboth.1
          | _ => rfl
  | patchContext t held toolCallId =>
    cases reply with
    | error e => exact hsame hreply rfl
    | ok _ => cases hbeat
  | _ => exact hsame hreply rfl

/-- An event of a handler that stores a beat performs it. -/
theorem performs_of_mem (h : Runs sessionEnv Fresh (started agent sessions (beatHandler s u m now)) log c)
    {i : Fin (m + 1)} {progress : JsNumber} {later : Time}
    (hmem : (i, (⟨.setSession s (.changed held (.beat progress later)), .ok ()⟩ : SessionEvent)) ∈ log) :
    ∃ event ∈ eventsOf i log, (beatHandler s u m now i).performs event = true := by
  have honly : ((beatHandler s u m now i).task agent).Only (OfBeat (progressOf m i) (now i)) :=
    only_beatHandler i
  have hevent : (⟨.setSession s (.changed held (.beat progress later)), .ok ()⟩ : SessionEvent) ∈
      eventsOf i log := by
    refine List.mem_map.mpr ⟨_, List.mem_filter.mpr ⟨hmem, ?_⟩, rfl⟩
    exact decide_eq_true rfl
  obtain ⟨rfl, rfl, -⟩ := (h.only honly).2 _ hevent
  refine ⟨_, hevent, ?_⟩
  simp [beatHandler, Operation.performs, updateTo, updateOf, progressOf]

/-- The last handler does not store its beat after it has achieved a goal. -/
theorem not_beat_twice {next : Except JsError Unit → SessionProc Unit}
    (h : Runs sessionEnv Fresh (started agent sessions (beatHandler s u m now)) log c) {id : Text}
    (hproc : c.procs (Fin.last m) = .await (.setSession s (.changed held (.beat (progressOf m (Fin.last m))
      (now (Fin.last m))))) next)
    (hmem : (Fin.last m, id) ∈ achievements s log) : False := by
  obtain ⟨held', progress, later, hlog⟩ := exists_of_mem_achievements hmem
  obtain ⟨event, hevent, hperforms⟩ := performs_of_mem h hlog
  -- the handler may store its beat once more, and has stored it before
  have hends : ((beatHandler s u m now (Fin.last m)).task agent).Ends
      (fun past _ => past.countP (beatHandler s u m now (Fin.last m)).performs ≤ 1) [] :=
    ends_beatHandler (Fin.last m)
  have hnow := h.ends hends
  rw [hproc] at hnow
  obtain ⟨rest, r, hcount⟩ := (hnow (.ok ())).exists_end
  have hone : 0 < (eventsOf (Fin.last m) log).countP (beatHandler s u m now (Fin.last m)).performs :=
    List.countP_pos_iff.mpr ⟨event, hevent, hperforms⟩
  have hagain : (beatHandler s u m now (Fin.last m)).performs ⟨.setSession s (.changed held
      (.beat (progressOf m (Fin.last m)) (now (Fin.last m)))), .ok ()⟩ = true := by
    simp [beatHandler, Operation.performs, updateTo, updateOf, progressOf]
  rw [List.countP_append, List.countP_append, List.countP_singleton, if_pos hagain] at hcount
  omega

/-- **The stage of a run.** -/
theorem stage_of_runs (hm : m + 1 < 200) (hinit : HasGoals (goal :: rest) (sessions s))
    (hactive : goal.status = .active)
    (h : Runs sessionEnv Fresh (started agent sessions (beatHandler s u m now)) log c) :
    Stage s goal rest log (c.state s) := by
  induction h with
  | start => exact .before rfl rfl hactive hinit
  | @step log c₁ i effect next reply s' hruns hproc hreply hfresh ih =>
    have honly : ((beatHandler s u m now i).task agent).Only (OfBeat (progressOf m i) (now i)) :=
      only_beatHandler i
    have hbeat := (hruns.only honly).1
    rw [hproc] at hbeat
    refine ih.step hm hfresh hreply (hbeat reply).1 ?_
    rintro held rfl rfl hmem
    exact not_beat_twice hruns hproc hmem

/-- What has been achieved stays achieved. -/
theorem achievements_append (before after : List (Fin (m + 1) × SessionEvent)) :
    achievements s (before ++ after) = achievements s before ++ achievements s after :=
  List.filterMap_append

/-- The last handler does not complete before its goal is achieved. -/
theorem achieved_of_done (hm : m + 1 < 200) (hinit : HasGoals (goal :: rest) (sessions s))
    (hactive : goal.status = .active)
    (h : Runs sessionEnv Fresh (started agent sessions (beatHandler s u m now)) log c)
    (hdone : c.procs (Fin.last m) = .done (.ok ())) : achievements s log ≠ [] := by
  intro hnone
  have hends : ((beatHandler s u m now (Fin.last m)).task agent).Ends
      (Completes agent (beatHandler s u m now (Fin.last m))) [] := task_completes _
  rcases h.ended hends hdone rfl with hcount | ⟨found, hfound, hidle⟩
  · -- it has stored its beat, which achieves a goal
    have hpos : 0 < (eventsOf (Fin.last m) log).countP (beatHandler s u m now (Fin.last m)).performs := by
      rw [hcount]
      exact one_pos
    obtain ⟨⟨effect, reply⟩, hevent, hperforms⟩ := List.countP_pos_iff.mp hpos
    have hupdate := updateTo_eq_some_iff.mp (of_decide_eq_true hperforms)
    have honly : ((beatHandler s u m now (Fin.last m)).task agent).Only
        (OfBeat (progressOf m (Fin.last m)) (now (Fin.last m))) := only_beatHandler _
    have hbeat := (h.only honly).2 _ hevent
    have hmem := mem_of_mem_eventsOf hevent
    cases effect with
    | setSession t write =>
      cases reply with
      | error e => cases write <;> cases hupdate
      | ok _ =>
        cases write with
        | literal state => cases hupdate
        | changed held change =>
          cases hupdate
          obtain ⟨goal', hgoal'⟩ := Option.isSome_iff_exists.mp hbeat.2.2
          have hachieved : (Fin.last m, goal'.id) ∈ achievements s log := by
            refine List.mem_filterMap.mpr ⟨_, hmem, ?_⟩
            show (if s = s ∧ (progressOf m (Fin.last m)).atLeast 100 = true then
              (beatGoal held).map fun goal => (Fin.last m, goal.id) else none) = _
            rw [if_pos ⟨rfl, (atLeast_progressOf hm).trans (decide_eq_true rfl)⟩, hgoal']
            rfl
          rw [hnone] at hachieved
          cases hachieved
    | patchContext t held toolCallId =>
      cases reply with
      | error e => cases hupdate
      | ok _ => cases hupdate
    | _ => cases hupdate
  · -- it has read the session when nothing was achieved, so that a goal was there
    obtain ⟨before, after, rfl⟩ := List.append_of_mem (mem_of_mem_eventsOf hfound)
    rw [achievements_append, List.append_eq_nil_iff] at hnone
    obtain ⟨c₁, s', hruns, hreply, -⟩ := h.step_of_log rfl
    have hread : found = c₁.state s := hreply.2 found rfl
    cases stage_of_runs hm hinit hactive hruns with
    | after hone _ _ =>
      rw [hnone.1] at hone
      cases hone
    | before _ _ htop hgoals =>
      obtain ⟨state, hstate, -⟩ := id hgoals
      rw [hstate] at hgoals hread
      rw [hread, startedFrom, hgoals.listGoal_eq, hgoals.beatGoal_top htop] at hidle
      cases hidle

/-- **One story, one goal**: in every interleaving of the handlers of a story with less than 200 beats in
which, whenever a handler stores the session, it is still the state that the handler holds. -/
theorem one_goal {state : SessionState} (agent : BedtimeConductorAgent) (hm : m + 1 < 200)
    (hstate : sessions s = some state) (hgoals : state.activeGoals = some (goal :: rest))
    (hactive : goal.status = .active)
    (h : Runs sessionEnv Fresh (started agent sessions (beatHandler s u m now)) log c) :
    OneGoal s goal rest log c := by
  have hinit : HasGoals (goal :: rest) (sessions s) :=
    ⟨state, hstate, hgoals, by rw [unlistedGoal, hgoals]⟩
  refine ⟨?_, fun hdone => ?_⟩
  · cases stage_of_runs hm hinit hactive h with
    | before hnone hid _ hhas =>
      refine .inl ⟨hnone, ?_⟩
      rw [hhas.goalsOf_eq, idsOf, List.map_cons, hid]
      rfl
    | after hone hids hhas =>
      refine .inr ⟨hone, ?_⟩
      rw [hhas.goalsOf_eq, hids]
  · cases stage_of_runs hm hinit hactive h with
    | before hnone _ _ _ => exact absurd hnone (achieved_of_done hm hinit hactive h hdone)
    | after hone _ _ => exact hone

/-- A goal that is active. -/
def sleepGoal : ActiveGoalProps :=
  ActiveGoal.createNew (fun _ => []) ⟨0, Time.inRange_zero⟩ (lit "a") { type := .childAsleep, targetMinutes := .finite 20 }

/-- A session with that goal. -/
def goalStored : SessionMap := fun s =>
  if s = lit "evening" then some (withGoal sleepGoal (initialState s (lit "ana"))) else none

/-- The handlers of a story with two beats, in the order of a schedule. -/
def runBeats (ok : SessionMap → SessionEffect → Prop) [∀ sessions e, Decidable (ok sessions e)]
    (schedule : List (Fin 2)) : List (Fin 2 × SessionEvent) ×
      Pool (Fin 2) SessionMap SessionEffect SessionEffect.Reply Unit :=
  drive ok (succeeding restful .null) schedule []
    (started plainConductor goalStored (beatHandler (lit "evening") (lit "ana") 1 fun _ => ⟨0, Time.inRange_zero⟩))

/-- One handler after the other: the goal is achieved. -/
theorem one_goal_oneByOne : OneGoal (lit "evening") sleepGoal [] (runBeats Fresh [0, 0, 1, 1]).1
    (runBeats Fresh [0, 0, 1, 1]).2 :=
  one_goal plainConductor (by decide) (if_pos rfl) rfl rfl
    (drive_runs (fun e sessions _ => sessionEnv_succeeding restful .null e sessions) _ .start)

/-- Both handlers read the session before either stores it, and the first stores it last: the goal has been
achieved, and it is on the stack again. -/
theorem beats_sideBySide :
    Runs sessionEnv (fun _ _ => True) (started plainConductor goalStored
        (beatHandler (lit "evening") (lit "ana") 1 fun _ => ⟨0, by decide⟩))
      (runBeats (fun _ _ => True) [0, 1, 1, 0]).1 (runBeats (fun _ _ => True) [0, 1, 1, 0]).2 ∧
      (∀ i, ((runBeats (fun _ _ => True) [0, 1, 1, 0]).2.procs i).succeeded = true) ∧
      ¬ OneGoal (lit "evening") sleepGoal [] (runBeats (fun _ _ => True) [0, 1, 1, 0]).1
        (runBeats (fun _ _ => True) [0, 1, 1, 0]).2 := by
  refine ⟨drive_runs (fun e sessions _ => sessionEnv_succeeding restful .null e sessions) _ .start,
    by decide +kernel, fun h => ?_⟩
  have hachieved : achievements (lit "evening") (runBeats (fun _ _ => True) [0, 1, 1, 0]).1 =
      [(1, sleepGoal.id)] := by decide +kernel
  have hstack : idsOf (goalsOf ((runBeats (fun _ _ => True) [0, 1, 1, 0]).2.state (lit "evening"))) =
      [sleepGoal.id] := by decide +kernel
  rcases h.only with ⟨hnone, -⟩ | ⟨-, hids⟩
  · rw [hachieved] at hnone
    cases hnone
  · rw [hstack] at hids
    cases hids

end DreamWeaver.Conductor
