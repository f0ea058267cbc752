import DreamWeaver.Conductor.AtomOfThoughtEngine

/-! # Arbitrated steps

What arbitration leaves of a proposed step. Every rule changes nothing where it has been applied before, and
no later rule undoes an earlier one: the goals only grow, the action is changed only while winding down, and
the two rules that set parameters agree on the energy level. -/

namespace DreamWeaver.Conductor

namespace ThoughtStep

/-- A step as its type says: goals and an action that are texts, and a confidence that is a number. -/
structure IsTyped (step : ThoughtStep) : Prop where
  goals : ∃ goals : List Text, step.goalsConsidered = some (.arr (goals.map Json.str))
  action : ∃ action, step.action = some (.str action)
  confidence : ∃ x, step.confidence = some (.num x)

/-- `parameters?.['energyLevel']` -/
def energyLevel (step : ThoughtStep) : Option Json :=
  step.parameters.bind fun parameters => parameters.get (lit "energyLevel")

/-- No adventure and no high energy. -/
structure IsCalm (step : ThoughtStep) : Prop where
  action : includesText (lit "validated.action") (lit "ADVENTURE") step.action = .ok false
  energy : step.energyLevel ≠ some (.str (lit "high"))

end ThoughtStep

namespace AtomOfThoughtEngine

variable {coerced : Json → Except JsError Bool} {context : ArbitrationContext} {proposed step next : ThoughtStep}
  {goal : Text} {timeOfDay : Text}

/-- **What is true of an arbitrated step.** -/
structure IsArbitrated (coerced : Json → Except JsError Bool) (context : ArbitrationContext)
    (proposed step : ThoughtStep) : Prop where
  idempotent : arbitrate coerced step context = .ok step
  safety : considers (lit "SAFETY") step = .ok true
  storytelling : context.currentPhase = .storytelling →
    considers (lit "RELAXATION") step = .ok true ∨ considers (lit "EDUCATION") step = .ok true
  windDown : context.currentPhase = .windDown → step.IsCalm
  keeps : ∀ goal, considers goal proposed = .ok true → considers goal step = .ok true

/-! ## The goals -/

/-- Goals that have grown: whatever was considered still is. -/
def GoalsGrow (step next : ThoughtStep) : Prop :=
  ∀ goal, considers goal step = .ok true → considers goal next = .ok true

theorem goalsGrow_of_eq (h : next.goalsConsidered = step.goalsConsidered) : GoalsGrow step next := by
  intro goal hgoal
  rwa [considers, h]

/-- A goal that is added to the end is considered, and the others still are. -/
theorem goalsGrow_pushGoal {goals : Option Json} (h : pushGoal goal step.goalsConsidered = .ok goals) :
    GoalsGrow step { step with goalsConsidered := goals } ∧
      considers goal { step with goalsConsidered := goals } = .ok true := by
  unfold pushGoal at h
  split at h
  · rename_i items heq
    cases h
    refine ⟨fun other hother => ?_, ?_⟩
    · rw [considers, heq] at hother
      have hmem : items.any (Json.isText other) = true := Except.ok.inj hother
      exact congrArg Except.ok (by rw [List.any_append, hmem, Bool.true_or])
    · exact congrArg Except.ok (by simp [Json.isText, Json.text?])
  · cases h

/-- A goal that is added in front is considered, and the others still are. -/
theorem goalsGrow_unshiftGoal {goals : Option Json} (h : unshiftGoal goal step.goalsConsidered = .ok goals) :
    GoalsGrow step { step with goalsConsidered := goals } ∧
      considers goal { step with goalsConsidered := goals } = .ok true := by
  unfold unshiftGoal at h
  split at h
  · rename_i items heq
    cases h
    refine ⟨fun other hother => ?_, ?_⟩
    · rw [considers, heq] at hother
      have hmem : items.any (Json.isText other) = true := Except.ok.inj hother
      exact congrArg Except.ok (by rw [List.any_cons, hmem, Bool.or_true])
    · exact congrArg Except.ok (by simp [Json.isText, Json.text?])
  · cases h

/-! ## The rules -/

/-- While winding down, what is left is calm, and its goals are the same. -/
theorem calm_windDown (h : windDown step = .ok next) :
    next.IsCalm ∧ next.goalsConsidered = step.goalsConsidered := by
  obtain ⟨adventure, hadventure, h⟩ := exists_of_bind_ok h
  -- the rule changes the action and the energy together, if one of them is too loud
  by_cases hloud : (adventure || step.energyLevel.any (Json.isText (lit "high"))) = true
  · rw [show step.parameters.bind (fun parameters => parameters.get (lit "energyLevel")) = step.energyLevel from rfl,
      if_pos hloud] at h
    cases h
    refine ⟨⟨rfl, fun hhigh => ?_⟩, rfl⟩
    exact absurd (Json.str.inj (Option.some.inj hhigh)) (by decide)
  · rw [show step.parameters.bind (fun parameters => parameters.get (lit "energyLevel")) = step.energyLevel from rfl,
      if_neg hloud] at h
    cases h
    rw [Bool.or_eq_true, not_or, Bool.not_eq_true] at hloud
    refine ⟨⟨hloud.1 ▸ hadventure, fun hhigh => hloud.2 ?_⟩, rfl⟩
    rw [hhigh]
    rfl

/-- A calm step stays as it is while winding down. -/
theorem windDown_of_isCalm (h : step.IsCalm) : windDown step = .ok step := by
  have hlow : step.energyLevel.any (Json.isText (lit "high")) = false := by
    cases henergy : step.energyLevel with
    | none => rfl
    | some value =>
      cases value with
      | str text =>
        refine decide_eq_false fun htext => h.energy ?_
        rw [henergy]
        exact congrArg (fun text => some (Json.str text)) (Option.some.inj htext)
      | null => rfl
      | bool b => rfl
      | num x => rfl
      | arr items => rfl
      | obj fields => rfl
  rw [windDown, h.action]
  show (if (false || step.energyLevel.any (Json.isText (lit "high"))) = true then _ else _) = _
  rw [hlow, Bool.or_false, if_neg Bool.false_ne_true]
  rfl

/-- While a story is told, one of its goals is considered, and the others still are. -/
theorem goalsGrow_storytelling (h : storytelling step = .ok next) : GoalsGrow step next ∧
    (considers (lit "RELAXATION") next = .ok true ∨ considers (lit "EDUCATION") next = .ok true) := by
  obtain ⟨relaxation, hrelaxation, h⟩ := exists_of_bind_ok h
  cases relaxation with
  | true =>
    cases h
    exact ⟨fun _ hgoal => hgoal, .inl hrelaxation⟩
  | false =>
    obtain ⟨education, heducation, h⟩ := exists_of_bind_ok h
    cases education with
    | true =>
      cases h
      exact ⟨fun _ hgoal => hgoal, .inr heducation⟩
    | false =>
      obtain ⟨goals, hgoals, h⟩ := exists_of_bind_ok h
      cases h
      obtain ⟨hgrow, hpushed⟩ := goalsGrow_pushGoal hgoals
      exact ⟨hgrow, .inl hpushed⟩

/-- A step with a goal of the story stays as it is while a story is told. -/
theorem storytelling_of_considers
    (h : considers (lit "RELAXATION") step = .ok true ∨ considers (lit "EDUCATION") step = .ok true)
    (hreads : ∃ relaxation, considers (lit "RELAXATION") step = .ok relaxation) : storytelling step = .ok step := by
  obtain ⟨relaxation, hrelaxation⟩ := hreads
  rw [storytelling, hrelaxation]
  cases relaxation with
  | true => rfl
  | false =>
    rcases h with h | h
    · cases hrelaxation.symm.trans h
    · show (considers (lit "EDUCATION") step >>= _) = _
      rw [h]
      rfl

/-- Where one goal can be looked for, any other can. -/
theorem exists_considers {considered : Bool} (h : considers goal step = .ok considered) (other : Text) :
    ∃ considered, considers other step = .ok considered := by
  unfold considers at h ⊢
  unfold includesText at h ⊢
  split at h
  · cases h
  · cases h
  · exact ⟨_, rfl⟩
  · exact ⟨_, rfl⟩
  · cases h

/-- Safety is considered, and nothing but the goals has changed. -/
theorem grows_safetyFirst (h : safetyFirst step = .ok next) :
    GoalsGrow step next ∧ next = { step with goalsConsidered := next.goalsConsidered } := by
  obtain ⟨considered, -, h⟩ := exists_of_bind_ok h
  cases considered with
  | true =>
    cases h
    exact ⟨fun _ hgoal => hgoal, rfl⟩
  | false =>
    obtain ⟨goals, hgoals, h⟩ := exists_of_bind_ok h
    cases h
    exact ⟨(goalsGrow_unshiftGoal hgoals).1, rfl⟩

theorem safetyFirst_of_considers (h : considers (lit "SAFETY") step = .ok true) : safetyFirst step = .ok step := by
  rw [safetyFirst, h]
  rfl

/-- A calm step is no adventure, so that a late hour does not matter. -/
theorem calmAdventure_of_isCalm (h : step.IsCalm) : calmAdventure coerced timeOfDay step = .ok step := by
  have hno : step.action.any (Json.isText (lit "ADVENTURE_STORY")) = false := by
    cases haction : step.action with
    | none => rfl
    | some value =>
      cases value with
      | str text =>
        refine decide_eq_false fun htext => ?_
        obtain rfl : text = lit "ADVENTURE_STORY" := Option.some.inj htext
        have hincludes := h.action
        rw [haction] at hincludes
        exact absurd (Except.ok.inj hincludes) (by decide)
      | null => rfl
      | bool b => rfl
      | num x => rfl
      | arr items => rfl
      | obj fields => rfl
  rw [calmAdventure, hno]
  split
  · rfl
  · rfl

/-- Entries that have been spread over a record are spread over it again without effect. -/
theorem withParameters_withParameters (upper : Record Json) (parameters : Option Json) :
    withParameters upper (withParameters upper parameters) = withParameters upper parameters := by
  -- no entry of the upper record is left to be added
  have hupper : (upper.filter fun e => (upper.get? e.1).isNone) = [] := by
    refine List.filter_eq_nil_iff.mpr fun e he hnone => ?_
    rw [Option.isNone_iff_eq_none, Record.get?_eq_none_iff] at hnone
    exact hnone (List.mem_map.mpr ⟨e, he, rfl⟩)
  show some (Json.obj (upper ++ ((spreadEntries parameters).spread upper).filter _)) = _
  rw [Record.spread, List.filter_append, hupper, List.nil_append, List.filter_filter]
  simp only [Bool.and_self]
  rfl

/-- **Near bedtime an adventure is calmed down once.** -/
theorem calmAdventure_calmAdventure (h : calmAdventure coerced timeOfDay step = .ok next) :
    calmAdventure coerced timeOfDay next = .ok next := by
  -- the first time the rule may have set the parameters; what it reads (the hour, the action and the confidence)
  -- is the same the second time
  by_cases hlate : (includes timeOfDay (lit "Night") || includes timeOfDay (lit "Evening")) = true
  · by_cases hadventure : step.action.any (Json.isText (lit "ADVENTURE_STORY")) = true
    · have hstep := h
      rw [calmAdventure, if_pos hlate, if_pos hadventure] at h
      obtain ⟨exceeds, hexceeds, h⟩ := exists_of_bind_ok h
      cases exceeds with
      | false =>
        cases h
        exact hstep
      | true =>
        cases h
        rw [calmAdventure, if_pos hlate, if_pos hadventure]
        show (exceedsHalf coerced step.confidence >>= _) = _
        rw [hexceeds]
        show Except.ok _ = _
        rw [withParameters_withParameters]
    · have hstep := h
      rw [calmAdventure, if_pos hlate, if_neg hadventure] at h
      cases h
      exact hstep
  · have hstep := h
    rw [calmAdventure, if_neg hlate] at h
    cases h
    exact hstep

/-- Near bedtime only what an adventure says and its parameters change. -/
theorem goalsGrow_calmAdventure (h : calmAdventure coerced timeOfDay step = .ok next) : GoalsGrow step next :=
  goalsGrow_of_eq (goalsConsidered_calmAdventure h)

theorem someGoal_of_considers {goals : List Text} (hgoal : goal ≠ []) (h : considers goal step = .ok true) :
    someGoal goals step = step := by
  rw [someGoal, isEmpty_of_considers hgoal h, if_neg Bool.false_ne_true]

/-! ## Arbitration -/

/-- The rules that a step has passed, one after the other. -/
theorem exists_stages_of_arbitrate (h : arbitrate coerced proposed context = .ok step) : ∃ phased safe,
    phaseRule proposed context.currentPhase = .ok phased ∧ safetyFirst phased = .ok safe ∧
      calmAdventure coerced context.timeOfDay safe = .ok step := by
  have hsafety := safety_of_arbitrate h
  obtain ⟨phased, hphased, h⟩ := exists_of_bind_ok h
  obtain ⟨safe, hsafe, h⟩ := exists_of_bind_ok h
  obtain ⟨calmed, hcalmed, h⟩ := exists_of_bind_ok h
  have hconsiders : considers (lit "SAFETY") calmed = .ok true :=
    goalsGrow_calmAdventure hcalmed _ (considers_of_safetyFirst hsafe)
  obtain rfl : calmed = step := by
    -- the last rule is for steps without goals, and safety is one
    have hstays : someGoal context.activeGoals calmed = calmed := someGoal_of_considers (by decide) hconsiders
    rw [← hstays]
    exact Except.ok.inj h
  exact ⟨phased, safe, hphased, hsafe, hcalmed⟩

/-- A step that every rule leaves as it is. -/
theorem arbitrate_of_settled (hphase : phaseRule step context.currentPhase = .ok step)
    (hsafety : considers (lit "SAFETY") step = .ok true)
    (hcalm : calmAdventure coerced context.timeOfDay step = .ok step) :
    arbitrate coerced step context = .ok step := by
  rw [arbitrate, hphase]
  show (safetyFirst step >>= _) = _
  rw [safetyFirst_of_considers hsafety]
  show (calmAdventure coerced context.timeOfDay step >>= _) = _
  rw [hcalm]
  exact congrArg Except.ok (someGoal_of_considers (by decide) hsafety)

/-- A calm step stays calm. -/
theorem isCalm_of_later {phased safe : ThoughtStep} (h : phased.IsCalm) (hsafe : safetyFirst phased = .ok safe)
    (hcalmed : calmAdventure coerced timeOfDay safe = .ok step) : step.IsCalm := by
  have hkept : safe.IsCalm := by
    rw [(grows_safetyFirst hsafe).2]
    exact ⟨h.action, h.energy⟩
  exact Except.ok.inj ((calmAdventure_of_isCalm hkept).symm.trans hcalmed) ▸ hkept

/-- **Every step that is let pass is arbitrated.** -/
theorem isArbitrated_of_arbitrate (h : arbitrate coerced proposed context = .ok step) :
    IsArbitrated coerced context proposed step := by
  have hsafety := safety_of_arbitrate h
  obtain ⟨phased, safe, hphased, hsafe, hcalmed⟩ := exists_stages_of_arbitrate h
  have hlater : GoalsGrow phased step := fun goal hgoal =>
    goalsGrow_calmAdventure hcalmed goal ((grows_safetyFirst hsafe).1 goal hgoal)
  have hcalm := calmAdventure_calmAdventure hcalmed
  -- what is left is the rule of the phase
  cases hphase : context.currentPhase with
  | windDown =>
    rw [hphase] at hphased
    obtain ⟨hisCalm, hgoals⟩ := calm_windDown hphased
    have hstep := isCalm_of_later hisCalm hsafe hcalmed
    refine ⟨arbitrate_of_settled ?_ hsafety hcalm, hsafety, fun heq => ?_, fun _ => hstep, fun goal hgoal => ?_⟩
    · rw [hphase]
      exact windDown_of_isCalm hstep
    · exact absurd (hphase.symm.trans heq) (by decide)
    · exact hlater goal (goalsGrow_of_eq hgoals goal hgoal)
  | storytelling =>
    rw [hphase] at hphased
    obtain ⟨hgrow, hstory⟩ := goalsGrow_storytelling hphased
    have hstep := hstory.imp (hlater _) (hlater _)
    refine ⟨arbitrate_of_settled ?_ hsafety hcalm, hsafety, fun _ => hstep, fun heq => ?_, fun goal hgoal => ?_⟩
    · rw [hphase]
      exact storytelling_of_considers hstep (exists_considers hsafety _)
    · exact absurd (hphase.symm.trans heq) (by decide)
    · exact hlater goal (hgrow goal hgoal)
  | idle | onboarding | reflection | asleep =>
    rw [hphase] at hphased
    obtain rfl := Except.ok.inj hphased
    refine ⟨arbitrate_of_settled ?_ hsafety hcalm, hsafety, fun heq => ?_, fun heq => ?_, hlater⟩
    · rw [hphase]
      rfl
    · exact absurd (hphase.symm.trans heq) (by decide)
    · exact absurd (hphase.symm.trans heq) (by decide)

/-! ## Steps of their type -/

/-- In goals that are texts any goal can be looked for. -/
theorem considers_of_isTyped (h : step.IsTyped) (goal : Text) : ∃ considered, considers goal step = .ok considered := by
  obtain ⟨goals, hgoals⟩ := h.goals
  exact ⟨_, by rw [considers, hgoals]; rfl⟩

theorem exists_pushGoal (h : step.IsTyped) (goal : Text) : ∃ goals, pushGoal goal step.goalsConsidered = .ok goals ∧
    ({ step with goalsConsidered := goals } : ThoughtStep).IsTyped := by
  obtain ⟨goals, hgoals⟩ := h.goals
  refine ⟨some (.arr (goals.map Json.str ++ [.str goal])), by rw [hgoals]; rfl, ⟨goals ++ [goal], ?_⟩, h.action,
    h.confidence⟩
  exact congrArg (fun items => some (Json.arr items)) (by rw [List.map_append]; rfl)

theorem exists_unshiftGoal (h : step.IsTyped) (goal : Text) :
    ∃ goals, unshiftGoal goal step.goalsConsidered = .ok goals ∧
      ({ step with goalsConsidered := goals } : ThoughtStep).IsTyped := by
  obtain ⟨goals, hgoals⟩ := h.goals
  exact ⟨some (.arr (.str goal :: goals.map Json.str)), by rw [hgoals]; rfl, ⟨goal :: goals, rfl⟩, h.action,
    h.confidence⟩

theorem exists_windDown (h : step.IsTyped) : ∃ next, windDown step = .ok next ∧ next.IsTyped := by
  obtain ⟨action, haction⟩ := h.action
  have hreads : includesText (lit "validated.action") (lit "ADVENTURE") step.action =
      .ok (includes action (lit "ADVENTURE")) := by
    rw [haction]
    rfl
  rw [windDown, hreads, bind, Except.instMonad]
  dsimp only [Except.bind]
  split
  · exact ⟨_, rfl, h.goals, ⟨_, rfl⟩, h.confidence⟩
  · exact ⟨_, rfl, h⟩

theorem exists_storytelling (h : step.IsTyped) : ∃ next, storytelling step = .ok next ∧ next.IsTyped := by
  obtain ⟨relaxation, hrelaxation⟩ := considers_of_isTyped h (lit "RELAXATION")
  obtain ⟨education, heducation⟩ := considers_of_isTyped h (lit "EDUCATION")
  obtain ⟨goals, hgoals, htyped⟩ := exists_pushGoal h (lit "RELAXATION")
  rw [storytelling, hrelaxation]
  cases relaxation with
  | true => exact ⟨_, rfl, h⟩
  | false =>
    show ∃ next, (considers (lit "EDUCATION") step >>= _) = _ ∧ _
    rw [heducation]
    cases education with
    | true => exact ⟨_, rfl, h⟩
    | false =>
      show ∃ next, (pushGoal (lit "RELAXATION") step.goalsConsidered >>= _) = _ ∧ _
      rw [hgoals]
      exact ⟨_, rfl, htyped⟩

theorem exists_phaseRule (h : step.IsTyped) (phase : SessionPhase) :
    ∃ next, phaseRule step phase = .ok next ∧ next.IsTyped := by
  cases phase with
  | windDown => exact exists_windDown h
  | storytelling => exact exists_storytelling h
  | idle | onboarding | reflection | asleep => exact ⟨step, rfl, h⟩

theorem exists_safetyFirst (h : step.IsTyped) : ∃ next, safetyFirst step = .ok next ∧ next.IsTyped := by
  obtain ⟨considered, hconsidered⟩ := considers_of_isTyped h (lit "SAFETY")
  obtain ⟨goals, hgoals, htyped⟩ := exists_unshiftGoal h (lit "SAFETY")
  rw [safetyFirst, hconsidered]
  cases considered with
  | true => exact ⟨_, rfl, h⟩
  | false =>
    show ∃ next, (unshiftGoal (lit "SAFETY") step.goalsConsidered >>= _) = _ ∧ _
    rw [hgoals]
    exact ⟨_, rfl, htyped⟩

theorem exists_calmAdventure (h : step.IsTyped) : ∃ next, calmAdventure coerced timeOfDay step = .ok next := by
  obtain ⟨x, hx⟩ := h.confidence
  rw [calmAdventure, hx]
  split
  · split
    · cases hexceeds : x.exceeds (1 / 2) with
      | true => exact ⟨_, by rw [exceedsHalf, hexceeds]; rfl⟩
      | false => exact ⟨_, by rw [exceedsHalf, hexceeds]; rfl⟩
    · exact ⟨_, rfl⟩
  · exact ⟨_, rfl⟩

/-- A step that is as its type says is let pass. -/
theorem exists_arbitrate_of_isTyped (h : proposed.IsTyped) : ∃ step, arbitrate coerced proposed context = .ok step := by
  obtain ⟨phased, hphased, htyped⟩ := exists_phaseRule h context.currentPhase
  obtain ⟨safe, hsafe, htyped⟩ := exists_safetyFirst htyped
  obtain ⟨calmed, hcalmed⟩ : ∃ calmed, calmAdventure coerced context.timeOfDay safe = .ok calmed :=
    exists_calmAdventure htyped
  refine ⟨someGoal context.activeGoals calmed, ?_⟩
  rw [arbitrate, hphased]
  show (safetyFirst phased >>= _) = _
  rw [hsafe]
  show (calmAdventure coerced context.timeOfDay safe >>= _) = _
  rw [hcalmed]
  rfl

/-- **Arbitration is idempotent and safety first**: it lets every step of its type pass, and whatever it lets
pass is arbitrated. -/
theorem arbitrate_idempotent_safetyFirst (coerced : Json → Except JsError Bool) (context : ArbitrationContext)
    (proposed : ThoughtStep) :
    (proposed.IsTyped → ∃ step, arbitrate coerced proposed context = .ok step) ∧
      ∀ step, arbitrate coerced proposed context = .ok step → IsArbitrated coerced context proposed step :=
  ⟨exists_arbitrate_of_isTyped, fun _ => isArbitrated_of_arbitrate⟩

end AtomOfThoughtEngine

end DreamWeaver.Conductor
