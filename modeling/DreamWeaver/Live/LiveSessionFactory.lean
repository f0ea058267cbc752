import DreamWeaver.Foundations.JsonSchema
import DreamWeaver.Live.GeminiLiveSession
import DreamWeaver.Live.ToolExecutionRouter

/-! # The tools that are declared

The tools that `LiveSessionFactory` (`api/src/application/factories/LiveSessionFactory.ts`) declares, what
`GeminiLiveSession` makes of the declarations on their way to the model, and what `ToolExecutionRouter`
makes of arguments that satisfy them. The conversion renames the properties of a schema and not the names
that it lists as required, and two tools require an argument that their schema at the router forbids. -/

namespace DreamWeaver.Live

open JsonSchema

/-- `ToolDeclaration` -/
structure ToolDeclaration where
  name : Text
  description : Text
  parameters : Json

/-- The declaration as a document. -/
def ToolDeclaration.toJson (declaration : ToolDeclaration) : Json :=
  .obj [(lit "name", .str declaration.name), (lit "description", .str declaration.description),
    (lit "parameters", declaration.parameters)]

/-- The schema of a string that is one of some, with its description. -/
def enumSchema (items : List String) (description : String) : Json :=
  .obj [(lit "type", .str (lit "string")), (lit "enum", .arr (items.map fun item => .str (lit item))),
    (lit "description", .str (lit description))]

/-- The declaration of `save_memory`. -/
def saveMemoryTool : ToolDeclaration where
  name := lit "save_memory"
  description := lit "Save a user preference or fact to their long-term memory."
  parameters := objectSchema
    [(lit "content", stringSchema "The fact to remember"),
      (lit "memoryType", enumSchema ["PREFERENCE", "EPISODIC"] "Type of memory")]
    [lit "content", lit "memoryType"]

/-- The parameters of a tool that has none to speak of. -/
def unusedParameter : Json :=
  objectSchema [(lit "_unused", stringSchema "Ignored parameter")] [lit "_unused"]

/-- The declaration of `check_sleep_status`. -/
def checkSleepStatusTool : ToolDeclaration where
  name := lit "check_sleep_status"
  description := lit "Check if the child is asleep based on audio sensor data."
  parameters := unusedParameter

/-- The declaration of `suggest_theme`. -/
def suggestThemeTool : ToolDeclaration where
  name := lit "suggest_theme"
  description := lit "Get a story theme suggestion based on past favorites."
  parameters := unusedParameter

/-- `tools` of `createSessionConfig` -/
def toolDeclarations : List ToolDeclaration := [saveMemoryTool, checkSleepStatusTool, suggestThemeTool]

/-- The `tools` of a session configuration. -/
def configTools (declarations : List ToolDeclaration) : Json :=
  .arr [.obj [(lit "function_declarations", .arr (declarations.map ToolDeclaration.toJson))]]

/-- A declaration as the model gets to see it. -/
def ToolDeclaration.sent (declaration : ToolDeclaration) : ToolDeclaration :=
  { declaration with parameters := toSnakeCase declaration.parameters }

/-- **What the model sees** of the tools is the declarations with their parameters converted. -/
theorem toSnakeCase_configTools : toSnakeCase (configTools toolDeclarations)
    = configTools (toolDeclarations.map ToolDeclaration.sent) := by
  rfl

/-! ## The declared schemas -/

variable {fields : List (Text × Json)} {declaration : ToolDeclaration}

/-- The conversion renames a property of `save_memory`, and requires the old name still. -/
theorem parameters_saveMemory : saveMemoryTool.sent.parameters = objectSchema
    [(lit "content", stringSchema "The fact to remember"),
      (lit "memory_type", enumSchema ["PREFERENCE", "EPISODIC"] "Type of memory")]
    [lit "content", lit "memoryType"] := by
  rfl

theorem parameters_unused : toSnakeCase unusedParameter = unusedParameter := by
  rfl

/-- The lengths of the strings that the router limits are within its limits. -/
def WithinLimits (toolName : Text) (fields : List (Text × Json)) : Prop :=
  toolName = lit "save_memory" → ∀ content, Json.field? fields (lit "content") = some (.str content) →
    1 ≤ content.length ∧ content.length ≤ 4000

/-- The router accepts the arguments of a tool. -/
def Accepts (toolName : Text) (arguments : Json) : Prop := (argsOf toolName (some arguments)).isSome = true

/-- The arguments of a call of `save_memory` name one of the two types under `memoryType`. -/
def NamesType (toolName : Text) (fields : List (Text × Json)) : Prop :=
  toolName = lit "save_memory" ∧ (Json.field? fields (lit "memoryType") = some (.str (lit "PREFERENCE")) ∨
    Json.field? fields (lit "memoryType") = some (.str (lit "EPISODIC")))

theorem memoryTypeIn_isSome : (memoryTypeIn fields (lit "memoryType")).isSome = true ↔
    Json.field? fields (lit "memoryType") = some (.str (lit "PREFERENCE")) ∨
      Json.field? fields (lit "memoryType") = some (.str (lit "EPISODIC")) := by
  rw [memoryTypeIn]
  cases Json.field? fields (lit "memoryType") with
  | none => simp
  | some v =>
    cases v with
    | str s =>
      dsimp only
      rw [Option.some_inj, Option.some_inj, Json.str.injEq, Json.str.injEq]
      by_cases hpreference : s = lit "PREFERENCE"
      · simp [hpreference]
      · rw [if_neg hpreference]
        by_cases hepisodic : s = lit "EPISODIC"
        · simp [hepisodic]
        · simp [hpreference, hepisodic]
    | null => simp
    | bool b => simp
    | num x => simp
    | arr items => simp
    | obj inner => simp

/-- What conforms to the declaration of `save_memory` has a string as its content. -/
theorem content_of_conforms (h : conforms saveMemoryTool.sent.parameters (.obj fields) = true) :
    ∃ content, Json.field? fields (lit "content") = some (.str content) := by
  rw [parameters_saveMemory, conforms_objectSchema] at h
  obtain ⟨content, hcontent⟩ := Option.isSome_iff_exists.mp (h.2 (lit "content") (by simp))
  have hproperty := h.1
  rw [propertiesHold, Bool.and_eq_true, hcontent] at hproperty
  obtain ⟨s, rfl⟩ := conforms_stringSchema.mp hproperty.1
  exact ⟨s, hcontent⟩

/-- What conforms to a declaration with the unused parameter is not empty. -/
theorem not_isEmpty_of_conforms (h : conforms (toSnakeCase unusedParameter) (.obj fields) = true) :
    fields.isEmpty = false := by
  rw [parameters_unused, unusedParameter, conforms_objectSchema] at h
  have hrequired := h.2 (lit "_unused") (List.mem_singleton_self _)
  cases fields with
  | nil => cases hrequired
  | cons e fields => rfl

/-- **Which declared tools are callable**: of the arguments that conform to the declaration of a tool as
the model sees it, the router accepts those of `save_memory` that name a type under `memoryType`. -/
theorem declared_callable_iff (hdeclared : declaration ∈ toolDeclarations)
    (hconforms : conforms declaration.sent.parameters (.obj fields) = true)
    (hlimits : WithinLimits declaration.name fields) :
    Accepts declaration.name (.obj fields) ↔ NamesType declaration.name fields := by
  rw [toolDeclarations, List.mem_cons, List.mem_cons, List.mem_singleton] at hdeclared
  rcases hdeclared with rfl | rfl | rfl
  · -- the schema of the router and the declaration agree on the content, so that the type decides
    obtain ⟨content, hcontent⟩ := content_of_conforms hconforms
    have hstring : stringUpTo 4000 fields (lit "content") = some content := by
      rw [stringUpTo, hcontent]
      exact if_pos (hlimits rfl content hcontent)
    have hargs : argsOf saveMemoryTool.name (some (.obj fields))
        = (memoryTypeIn fields (lit "memoryType")).map (ToolArgs.saveMemory content) := by
      rw [show saveMemoryTool.name = lit "save_memory" from rfl, argsOf_saveMemory, saveMemoryArgsSchema,
        hstring]
      cases memoryTypeIn fields (lit "memoryType") <;> rfl
    rw [Accepts, hargs, Option.isSome_map, memoryTypeIn_isSome, NamesType]
    exact (and_iff_right rfl).symm
  · -- the declaration requires the unused parameter, and the router takes no parameters
    have hargs : argsOf checkSleepStatusTool.name (some (.obj fields)) = none := by
      rw [show checkSleepStatusTool.name = lit "check_sleep_status" from rfl, argsOf_checkSleepStatus,
        emptyArgsSchema, not_isEmpty_of_conforms hconforms]
      rfl
    rw [Accepts, hargs]
    exact iff_of_false (by simp) fun h => absurd h.1 (by decide)
  · have hargs : argsOf suggestThemeTool.name (some (.obj fields)) = none := by
      rw [show suggestThemeTool.name = lit "suggest_theme" from rfl, argsOf_suggestTheme,
        emptyArgsSchema, not_isEmpty_of_conforms hconforms]
      rfl
    rw [Accepts, hargs]
    exact iff_of_false (by simp) fun h => absurd h.1 (by decide)

/-- Arguments of `save_memory`. -/
def likesOwls : List (Text × Json) :=
  [(lit "content", .str (lit "Likes owls")), (lit "memoryType", .str (lit "PREFERENCE"))]

theorem declared_callable_likesOwls :
    Accepts (lit "save_memory") (.obj likesOwls) ↔ NamesType (lit "save_memory") likesOwls := by
  have hdeclared : saveMemoryTool ∈ toolDeclarations := List.mem_cons_self ..
  refine declared_callable_iff hdeclared (by decide) fun _ content h => ?_
  obtain rfl : lit "Likes owls" = content := Json.str.inj (Option.some.inj h)
  decide

/-- **A tool that is declared and cannot be called**: the model passes the argument that
`check_sleep_status` requires, and the router rejects it. -/
theorem check_sleep_status_uncallable : checkSleepStatusTool ∈ toolDeclarations ∧
    conforms checkSleepStatusTool.sent.parameters (.obj [(lit "_unused", .str (lit "x"))]) = true ∧
    WithinLimits (lit "check_sleep_status") [(lit "_unused", .str (lit "x"))] ∧
    ¬ Accepts (lit "check_sleep_status") (.obj [(lit "_unused", .str (lit "x"))]) :=
  ⟨List.mem_cons_of_mem _ (List.mem_cons_self ..), by decide, fun h => absurd h (by decide), by
    rw [Accepts]
    decide⟩

end DreamWeaver.Live
