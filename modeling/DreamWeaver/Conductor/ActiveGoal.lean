import DreamWeaver.Foundations.JsArithmetic
import DreamWeaver.Foundations.Decimal

/-! # Goals

The entity of a bedtime goal (`api/src/domain/entities/ActiveGoal.ts`). An `ActiveGoal` has the
fields of its `ActiveGoalProps`, `create` copies them into it and `toJSON` out of it, so that both
are one type here and an update makes a new value. -/

namespace DreamWeaver.Conductor

/-- `GoalType` -/
inductive GoalType where
  | childAsleep
  | storyCompleted
  | relaxationAchieved
  deriving DecidableEq

/-- `GoalStatus` -/
inductive GoalStatus where
  | active
  | achieved
  | abandoned
  deriving DecidableEq

/-- `ActiveGoalProps`; an invalid `targetTime` is `none`. -/
structure ActiveGoalProps where
  id : Text
  type : GoalType
  targetTime : Option Time
  description : Text
  status : GoalStatus
  progress : JsNumber
  createdAt : Time
  achievedAt : Option Time
  deriving DecidableEq

/-- `CreateGoalInput` -/
structure CreateGoalInput where
  type : GoalType
  targetMinutes : JsNumber
  description : Option Text := none

/-- `getDefaultDescription`; `showOther` writes the numbers that are not integers. -/
def getDefaultDescription (showOther : ℚ → Text) (type : GoalType) (minutes : JsNumber) : Text :=
  match type with
  | .childAsleep => lit "Child asleep in " ++ numberToString showOther minutes ++ lit " minutes"
  | .storyCompleted =>
    lit "Complete story within " ++ numberToString showOther minutes ++ lit " minutes"
  | .relaxationAchieved =>
    lit "Achieve relaxation in " ++ numberToString showOther minutes ++ lit " minutes"

namespace ActiveGoal

/-- `ActiveGoal.createNew` at the time `now`; `suffix` are the random characters of the id. -/
def createNew (showOther : ℚ → Text) (now : Time) (suffix : Text) (input : CreateGoalInput) :
    ActiveGoalProps where
  id := lit "goal_" ++ showInt now.ms ++ lit "_" ++ suffix
  type := input.type
  targetTime := JsNumber.toDate
    (.add (.finite now.ms) (.mul (.mul input.targetMinutes (.finite 60)) (.finite 1000)))
  description :=
    input.description.getD (getDefaultDescription showOther input.type input.targetMinutes)
  status := .active
  progress := .finite 0
  createdAt := now
  achievedAt := none

/-- `updateProgress` -/
def updateProgress (goal : ActiveGoalProps) (progress : JsNumber) : ActiveGoalProps :=
  { goal with progress := progress.percent }

/-- `markAchieved` -/
def markAchieved (goal : ActiveGoalProps) (now : Time) : ActiveGoalProps :=
  { goal with status := .achieved, progress := .finite 100, achievedAt := some now }

/-- Updating the progress changes nothing exactly when it is the progress already. -/
theorem updateProgress_eq_self_iff {goal : ActiveGoalProps} {progress : JsNumber} :
    updateProgress goal progress = goal ↔ goal.progress = progress.percent := by
  rw [updateProgress]
  constructor
  · intro h
    exact (congrArg ActiveGoalProps.progress h).symm
  · intro h
    rw [← h]

end ActiveGoal

end DreamWeaver.Conductor
