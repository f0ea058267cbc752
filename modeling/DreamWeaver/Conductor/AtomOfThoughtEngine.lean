import DreamWeaver.Conductor.SessionState
import DreamWeaver.Foundations.JsData
import DreamWeaver.Foundations.JsValue

/-! # Arbitration

`AtomOfThoughtEngine.arbitrate` (`api/src/domain/services/AtomOfThoughtEngine.ts`). Nothing checks the
thought that a model replies with, so that every field of it can be any value: reading a field of `null`
and calling a method that a value does not have throw. -/

namespace DreamWeaver.Conductor

/-! ## Thoughts of any content -/

/-- `ThoughtStep`; a field is `none` where it is `undefined`. -/
structure ThoughtStep where
  goalsConsidered : Option Json
  conflictsIdentified : Option Json
  tradeOffMade : Option Json
  thought : Option Json
  action : Option Json
  confidence : Option Json
  parameters : Option Json

/-- `Cannot read properties of undefined (reading 'includes')` -/
def cannotRead (value property : Text) : JsError where
  name := lit "TypeError"
  message := lit "Cannot read properties of " ++ value ++ lit " (reading '" ++ property ++ lit "')"

/-- `goals.push is not a function` -/
def notAFunction (method : Text) : JsError :=
  ⟨lit "TypeError", method ++ lit " is not a function"⟩

/-- The fields of the thought that the conductor hands to the engine; the model may reply `undefined`. -/
def readThought : Option Json → Except JsError ThoughtStep
  | none => .error (cannotRead (lit "undefined") (lit "goals_considered"))
  | some .null => .error (cannotRead (lit "null") (lit "goals_considered"))
  | some raw => .ok {
      goalsConsidered := raw.get (lit "goals_considered")
      conflictsIdentified := raw.get (lit "conflicts_identified")
      tradeOffMade := raw.get (lit "trade_off_made")
      thought := raw.get (lit "thought")
      action := raw.get (lit "action")
      confidence := raw.get (lit "confidence")
      parameters := raw.get (lit "parameters") }

/-- `element === text` -/
def Json.isText (text : Text) (element : Json) : Bool := element.text? = some text

/-- `value.includes(part)`, on strings and arrays. -/
def includesText (name : Text) (part : Text) : Option Json → Except JsError Bool
  | none => .error (cannotRead (lit "undefined") (lit "includes"))
  | some .null => .error (cannotRead (lit "null") (lit "includes"))
  | some (.str text) => .ok (includes text part)
  | some (.arr items) => .ok (items.any (Json.isText part))
  | some _ => .error (notAFunction (name ++ lit ".includes"))

/-- `{ ...value }`: the elements of an array and the units of a string come under their indices. -/
def spreadEntries : Option Json → Record Json
  | some (.obj fields) => fields
  | some (.arr items) => items.mapIdx fun i item => (showNat i, item)
  | some (.str text) => text.mapIdx fun i c => (showNat i, .str [c])
  | _ => []

/-- `{ ...parameters, … }` -/
def withParameters (upper : Record Json) (parameters : Option Json) : Option Json :=
  some (.obj ((spreadEntries parameters).spread upper))

/-- `value > 0.5`; `coerced` says what becomes of strings, arrays and objects. -/
def exceedsHalf (coerced : Json → Except JsError Bool) : Option Json → Except JsError Bool
  | none | some .null | some (.bool false) => .ok false
  | some (.bool true) => .ok true
  | some (.num x) => .ok (x.exceeds (1 / 2))
  | some value => coerced value

/-! ## The rules -/

/-- What `arbitrate` reads of an `ArbitrationContext`. -/
structure ArbitrationContext where
  timeOfDay : Text
  activeGoals : List Text
  currentPhase : SessionPhase

namespace AtomOfThoughtEngine

/-- The types of `getStandardGoals`. -/
def getStandardGoals : List Text :=
  [lit "RELAXATION", lit "BONDING", lit "EDUCATION", lit "SAFETY"]

/-- `energyLevel: 'low'` -/
def lowEnergy : Record Json := [(lit "energyLevel", .str (lit "low"))]

/-- Rule 0 in the phase `WIND_DOWN`: no action of high energy. -/
def windDown (step : ThoughtStep) : Except JsError ThoughtStep := do
  let adventure ← includesText (lit "validated.action") (lit "ADVENTURE") step.action
  let energy := step.parameters.bind fun parameters => parameters.get (lit "energyLevel")
  if adventure || energy.any (Json.isText (lit "high")) then
    pure { step with
      conflictsIdentified := some (.str (lit "High energy action conflicts with WIND_DOWN phase."))
      tradeOffMade := some (.str (lit "Forced low-energy adaptation."))
      action := some (.str (lit "SOOTHING_TALK"))
      parameters := withParameters lowEnergy step.parameters
      thought := some (.str (lit "Override: System in Wind Down. High energy actions blocked.")) }
  else pure step

/-- `goals.push(goal)`, on arrays. -/
def pushGoal (goal : Text) : Option Json → Except JsError (Option Json)
  | some (.arr items) => .ok (some (.arr (items ++ [.str goal])))
  | _ => .error (notAFunction (lit "validated.goals_considered.push"))

/-- `goals.unshift(goal)`, on arrays. -/
def unshiftGoal (goal : Text) : Option Json → Except JsError (Option Json)
  | some (.arr items) => .ok (some (.arr (.str goal :: items)))
  | _ => .error (notAFunction (lit "validated.goals_considered.unshift"))

/-- `validated.goals_considered.includes(goal)` -/
def considers (goal : Text) (step : ThoughtStep) : Except JsError Bool :=
  includesText (lit "validated.goals_considered") goal step.goalsConsidered

/-- Rule 0 in the phase `STORYTELLING`: the focus stays on the story. -/
def storytelling (step : ThoughtStep) : Except JsError ThoughtStep := do
  if ← considers (lit "RELAXATION") step then pure step
  else if ← considers (lit "EDUCATION") step then pure step
  else
    let goals ← pushGoal (lit "RELAXATION") step.goalsConsidered
    pure { step with goalsConsidered := goals }

/-- Rule 0: what the phase of the session makes of a thought. -/
def phaseRule (step : ThoughtStep) : SessionPhase → Except JsError ThoughtStep
  | .windDown => windDown step
  | .storytelling => storytelling step
  | _ => .ok step

/-- Rule 1: safety is always considered. -/
def safetyFirst (step : ThoughtStep) : Except JsError ThoughtStep := do
  if ← considers (lit "SAFETY") step then pure step
  else
    let goals ← unshiftGoal (lit "SAFETY") step.goalsConsidered
    pure { step with goalsConsidered := goals }

/-- Rule 2: near bedtime an adventure is calmed down. -/
def calmAdventure (coerced : Json → Except JsError Bool) (timeOfDay : Text) (step : ThoughtStep) :
    Except JsError ThoughtStep := do
  if includes timeOfDay (lit "Night") || includes timeOfDay (lit "Evening") then
    if step.action.any (Json.isText (lit "ADVENTURE_STORY")) then
      if ← exceedsHalf coerced step.confidence then
        pure { step with
          conflictsIdentified :=
            some (.str (lit "Exciting adventure conflicts with bedtime relaxation needs."))
          tradeOffMade := some (.str
            (lit "Downgraded excitement level to \"Calm Adventure\" to ensure sleep quality."))
          thought := some (.str (lit "Detected late hour (" ++ timeOfDay ++
            lit "). Overriding high-energy adventure with soothing relaxation beats."))
          parameters :=
            withParameters (lowEnergy ++ [(lit "pacing", .str (lit "soothing"))]) step.parameters }
      else pure step
    else pure step
  else pure step

/-- `value.length === 0` for what is a string or an array. -/
def isEmpty : Option Json → Bool
  | some (.arr items) => items.isEmpty
  | some (.str text) => text.isEmpty
  | _ => false

/-- Rule 3: some goal is considered. -/
def someGoal (activeGoals : List Text) (step : ThoughtStep) : ThoughtStep :=
  if isEmpty step.goalsConsidered then
    { step with goalsConsidered := some (.arr (activeGoals.map Json.str)) }
  else step

/-- `arbitrate` -/
def arbitrate (coerced : Json → Except JsError Bool) (proposed : ThoughtStep)
    (context : ArbitrationContext) : Except JsError ThoughtStep := do
  let step ← phaseRule proposed context.currentPhase
  let step ← safetyFirst step
  let step ← calmAdventure coerced context.timeOfDay step
  pure (someGoal context.activeGoals step)

section Safety

variable {coerced : Json → Except JsError Bool} {proposed step next : ThoughtStep}

theorem considers_of_safetyFirst (h : safetyFirst step = .ok next) :
    considers (lit "SAFETY") next = .ok true := by
  obtain ⟨considered, hconsidered, h⟩ := exists_of_bind_ok h
  cases considered with
  | true =>
    cases h
    exact hconsidered
  | false =>
    obtain ⟨goals, hgoals, h⟩ := exists_of_bind_ok h
    cases h
    unfold unshiftGoal at hgoals
    split at hgoals
    · cases hgoals
      rfl
    · cases hgoals

/-- Calming an adventure down leaves the goals alone. -/
theorem goalsConsidered_calmAdventure {timeOfDay : Text}
    (h : calmAdventure coerced timeOfDay step = .ok next) :
    next.goalsConsidered = step.goalsConsidered := by
  unfold calmAdventure at h
  split at h
  · split at h
    · obtain ⟨exceeds, -, h⟩ := exists_of_bind_ok h
      cases exceeds <;> cases h <;> rfl
    · cases h
      rfl
  · cases h
    rfl

/-- Goals among which one is considered are not empty. -/
theorem isEmpty_of_considers {goal : Text} (hgoal : goal ≠ [])
    (h : considers goal step = .ok true) : isEmpty step.goalsConsidered = false := by
  unfold considers includesText at h
  split at h
  · cases h
  · cases h
  · rename_i text heq
    rw [heq, isEmpty, List.isEmpty_eq_false_iff]
    rintro rfl
    have hinfix := includes_iff.mp (Except.ok.inj h)
    exact hgoal (List.infix_nil.mp hinfix)
  · rename_i items heq
    rw [heq, isEmpty, List.isEmpty_eq_false_iff]
    rintro rfl
    cases h
  · cases h

/-- **Safety is considered** by every thought that the engine lets pass. -/
theorem safety_of_arbitrate {context : ArbitrationContext}
    (h : arbitrate coerced proposed context = .ok step) : considers (lit "SAFETY") step = .ok true := by
  unfold arbitrate at h
  obtain ⟨first, -, h⟩ := exists_of_bind_ok h
  obtain ⟨second, hsecond, h⟩ := exists_of_bind_ok h
  obtain ⟨third, hthird, h⟩ := exists_of_bind_ok h
  have hsafety : considers (lit "SAFETY") third = .ok true := by
    rw [considers, goalsConsidered_calmAdventure hthird]
    exact considers_of_safetyFirst hsecond
  cases h
  rw [someGoal, isEmpty_of_considers (by decide) hsafety, if_neg Bool.false_ne_true]
  exact hsafety

end Safety

end AtomOfThoughtEngine

end DreamWeaver.Conductor
