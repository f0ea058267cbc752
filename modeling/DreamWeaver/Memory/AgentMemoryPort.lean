import DreamWeaver.Foundations.JsArithmetic
import DreamWeaver.Foundations.JsData
import Mathlib.Data.List.Sort

/-! # The memory of the agents

The interface `AgentMemoryPort` (`api/src/application/ports/AgentMemoryPort.ts`): what is stored, what is
asked, and a memory as a state that calls change. What the world adds to a call, such as the time and the
drawn id, is part of the call. -/

namespace DreamWeaver.Memory

/-! ## Data -/

/-- `MemoryType` -/
inductive MemoryType where
  | episodic
  | semantic
  | procedural
  | preference
  deriving DecidableEq

/-- `AgentContext`, without the keys that no memory reads. -/
structure AgentContext where
  userId : Text
  sessionId : Option Text := none
  accessToken : Option Text := none
  deriving DecidableEq

/-- `MemoryRecord` -/
structure MemoryRecord where
  id : Text
  type : MemoryType
  content : Text
  confidence : ℚ
  timestamp : ℤ
  metadata : Option (Record Json)

/-- The outcome of a theme. -/
inductive Outcome where
  | positive
  | negative
  deriving DecidableEq

/-- An entry of `getThemeStats`. -/
structure ThemeScore where
  theme : Text
  score : JsNumber
  deriving DecidableEq

/-! ## Calls -/

/-- What `embedText` makes of a text. -/
abbrev Embedding := List JsNumber

/-- What the world adds to a call: the drawn id, the time, the embedding of the content, and whether the
database answers. -/
structure CallWorld where
  id : Text := []
  now : ℤ := 0
  embedding : Option Embedding := none
  answered : Bool := true

/-- The record of a memory that is stored. -/
def storedRecord (content : Text) (type : MemoryType) (metadata : Option (Record Json)) (world : CallWorld) :
    MemoryRecord :=
  ⟨world.id, type, content, 1, world.now, metadata⟩

/-- A call that changes a memory. -/
inductive MemoryCall where
  | store (content : Text) (type : MemoryType) (context : AgentContext) (metadata : Option (Record Json))
      (world : CallWorld)
  | trackOutcome (theme : Text) (outcome : Outcome) (context : AgentContext) (world : CallWorld)
  | trackPreferencePair (winTheme loseTheme : Text) (context : AgentContext) (world : CallWorld)

/-- The context of a call. -/
def MemoryCall.context : MemoryCall → AgentContext
  | .store _ _ context _ _ => context
  | .trackOutcome _ _ context _ => context
  | .trackPreferencePair _ _ context _ => context

/-- A call of `retrieve`; the database may fail in the search by embeddings and in that by keywords. -/
structure Retrieval where
  query : Text
  context : AgentContext
  type : Option MemoryType := none
  limit : ℕ := 5
  embedding : Option Embedding := none
  rpcAnswered : Bool := true
  answered : Bool := true

/-- A call of `getThemeStats`. -/
structure StatsRequest where
  context : AgentContext
  limit : ℕ := 3
  answered : Bool := true

/-- An implementation of the port. A query may have several results where the order of equals is free. -/
structure AgentMemory where
  State : Type
  start : State
  /-- The memories that it begins with. -/
  builtIn : List MemoryRecord
  /-- Two texts are ids of the same user. -/
  sameUser : Text → Text → Bool
  apply : State → MemoryCall → State
  retrieves : State → Retrieval → List MemoryRecord → Prop
  themeStats : State → StatsRequest → List ThemeScore → Prop

/-- The memory after calls. -/
def AgentMemory.after (memory : AgentMemory) (calls : List MemoryCall) : memory.State :=
  calls.foldl memory.apply memory.start

/-! ## Folds that are seen through a view -/

variable {σ τ α : Type} {apply : σ → α → σ} {follow : τ → α → τ} {view : σ → τ} {concerns : α → Bool}

/-- **What is seen of a fold**: if some of the calls change what is seen, in a way that depends on what is
seen, and the others do not change it, then the former alone determine what is seen. -/
theorem view_foldl (hseen : ∀ s a, concerns a = true → view (apply s a) = follow (view s) a)
    (hunseen : ∀ s a, concerns a = false → view (apply s a) = view s) (s : σ) (calls : List α) :
    view (calls.foldl apply s) = (calls.filter concerns).foldl follow (view s) := by
  induction calls generalizing s with
  | nil => rfl
  | cons a calls ih =>
    rw [List.foldl_cons, ih, List.filter_cons]
    cases hconcerns : concerns a with
    | true => rw [if_pos rfl, List.foldl_cons, hseen s a hconcerns]
    | false => rw [if_neg Bool.false_ne_true, hunseen s a hconcerns]

/-- Calls of which the same are seen look the same. -/
theorem view_foldl_eq (hseen : ∀ s a, concerns a = true → view (apply s a) = follow (view s) a)
    (hunseen : ∀ s a, concerns a = false → view (apply s a) = view s) (s : σ) {calls calls' : List α}
    (heq : calls.filter concerns = calls'.filter concerns) :
    view (calls.foldl apply s) = view (calls'.foldl apply s) := by
  rw [view_foldl hseen hunseen, view_foldl hseen hunseen, heq]

end DreamWeaver.Memory
