import DreamWeaver.Foundations.Traced
import DreamWeaver.Memory.AgentMemoryPort
import DreamWeaver.Stories.StoryEntity

/-! # The tools of a live session

`ToolExecutionRouter` (`api/src/application/use-cases/Live/ToolExecutionRouter.ts`) checks the arguments of
a tool call against the schema of the tool, executes the tool, and writes the call to the audit log. The
services behind the tools, the messages of the schema library, the drawn id and the time are parameters. -/

namespace DreamWeaver.Live

open Memory (MemoryType)
open Stories (Story StoryContent StoryProps)

/-- `ToolCallRequest`, with the arguments that came; `none` is `undefined`. -/
structure ToolCallRequest where
  sessionId : Text
  userId : Text
  requestId : Option Text
  traceId : Option Text
  toolCallId : Option Text
  toolName : Text
  arguments : Option Json

/-- `ToolCallResponse` -/
structure ToolCallResponse where
  result : Json
  error : Option Text := none

/-- `ToolAuditRecord` -/
structure ToolAuditRecord where
  userId : Text
  sessionId : Text
  requestId : Option Text
  traceId : Option Text
  toolName : Text
  toolCallId : Option Text
  allowed : Bool
  args : Option Json
  result : Json
  error : Option Text
  occurredAt : ℕ

/-! ## Arguments -/

/-- Arguments that have passed the schema of their tool. -/
inductive ToolArgs where
  | saveMemory (content : Text) (memoryType : MemoryType)
  | checkSleepStatus
  | suggestTheme
  | saveGeneratedStory (title content : Text) (theme : Option Text)

/-- `z.string().min(1).max(most)` on a field of an object. -/
def stringUpTo (most : ℕ) (fields : List (Text × Json)) (key : Text) : Option Text :=
  match Json.field? fields key with
  | some (.str s) => if 1 ≤ s.length ∧ s.length ≤ most then some s else none
  | _ => none

/-- `z.enum(['PREFERENCE', 'EPISODIC'])` on a field of an object. -/
def memoryTypeIn (fields : List (Text × Json)) (key : Text) : Option MemoryType :=
  match Json.field? fields key with
  | some (.str s) =>
    if s = lit "PREFERENCE" then some .preference
    else if s = lit "EPISODIC" then some .episodic
    else none
  | _ => none

/-- `saveMemoryArgsSchema` -/
def saveMemoryArgsSchema : Option Json → Option ToolArgs
  | some (.obj fields) => do
    let content ← stringUpTo 4000 fields (lit "content")
    let memoryType ← memoryTypeIn fields (lit "memoryType")
    some (.saveMemory content memoryType)
  | _ => none

/-- `emptyArgsSchema`, which is strict: an object that has any key is rejected. -/
def emptyArgsSchema : Option Json → Bool
  | some (.obj fields) => fields.isEmpty
  | _ => false

/-- `saveGeneratedStoryArgsSchema` -/
def saveGeneratedStoryArgsSchema : Option Json → Option ToolArgs
  | some (.obj fields) => do
    let title ← stringUpTo 200 fields (lit "title")
    let content ← stringUpTo 20000 fields (lit "content")
    if (Json.field? fields (lit "theme")).isSome then
      let theme ← stringUpTo 100 fields (lit "theme")
      some (.saveGeneratedStory title content (some theme))
    else some (.saveGeneratedStory title content none)
  | _ => none

/-- The schema of a tool by its name: what it makes of arguments, if it accepts them. -/
def argsOf (toolName : Text) (arguments : Option Json) : Option ToolArgs :=
  if toolName = lit "save_memory" then saveMemoryArgsSchema arguments
  else if toolName = lit "check_sleep_status" then
    if emptyArgsSchema arguments then some .checkSleepStatus else none
  else if toolName = lit "suggest_theme" then
    if emptyArgsSchema arguments then some .suggestTheme else none
  else if toolName = lit "save_generated_story" then saveGeneratedStoryArgsSchema arguments
  else none

theorem argsOf_saveMemory (arguments : Option Json) :
    argsOf (lit "save_memory") arguments = saveMemoryArgsSchema arguments := by
  rw [argsOf, if_pos rfl]

theorem argsOf_checkSleepStatus (arguments : Option Json) : argsOf (lit "check_sleep_status") arguments
    = if emptyArgsSchema arguments then some .checkSleepStatus else none := by
  rw [argsOf, if_neg (by decide), if_pos rfl]

theorem argsOf_suggestTheme (arguments : Option Json) : argsOf (lit "suggest_theme") arguments
    = if emptyArgsSchema arguments then some .suggestTheme else none := by
  rw [argsOf, if_neg (by decide), if_neg (by decide), if_pos rfl]

/-- The names that have a schema. -/
def toolNames : List Text :=
  [lit "save_memory", lit "check_sleep_status", lit "suggest_theme", lit "save_generated_story"]

/-! ## Execution -/

/-- What the router asks of others. -/
inductive RouterEffect where
  | store (content : Text) (memoryType : MemoryType) (userId sessionId : Text)
  | getThemes (userId : Text)
  | save (story : StoryProps)
  | audit (record : ToolAuditRecord)

/-- What the router is given: the answers of the services, of which the story repository and the audit
log may be missing, the message of the schema library about arguments, the drawn id and the time. -/
structure ToolServices where
  store : Text → MemoryType → Text → Text → Except JsError Unit
  isMonitoring : Bool
  currentConfidence : JsNumber
  suggestions : Text → Except JsError (List (Text × Text))
  save : Option (StoryProps → Except JsError Unit)
  audit : Option (ToolAuditRecord → Except JsError Unit)
  schemaMessage : Text → Option Json → Text
  isUrl : Text → Bool
  freshId : Text
  now : ℕ

/-- Await an answer. -/
def awaiting {α : Type} (effect : RouterEffect) (answer : Except JsError α) : Traced RouterEffect α := do
  Traced.emit effect
  Traced.lift answer

namespace ToolExecutionRouter

variable (services : ToolServices) (request : ToolCallRequest)

/-- `handleSaveMemory` -/
def handleSaveMemory (content : Text) (memoryType : MemoryType) : Traced RouterEffect ToolCallResponse := do
  awaiting (.store content memoryType request.userId request.sessionId)
    (services.store content memoryType request.userId request.sessionId)
  return { result := .obj [(lit "success", .bool true), (lit "message", .str (lit "Memory saved."))] }

/-- `handleCheckSleep` -/
def handleCheckSleep : ToolCallResponse where
  result := .obj [
    (lit "isMonitoring", .bool services.isMonitoring),
    (lit "confidence", .num services.currentConfidence),
    (lit "status", .str (if services.currentConfidence.exceeds (double (4 / 5)) then lit "ASLEEP"
      else lit "AWAKE"))]

/-- `handleSuggestTheme` -/
def handleSuggestTheme : Traced RouterEffect ToolCallResponse := do
  let suggestions ← awaiting (.getThemes request.userId) (services.suggestions request.userId)
  return { result := .obj [(lit "suggestions", .arr (suggestions.map fun suggestion =>
    .obj [(lit "theme", .str suggestion.1), (lit "reasoning", .str suggestion.2)]))] }

/-- `handleSaveGeneratedStory` -/
def handleSaveGeneratedStory (title content : Text) (theme : Option Text) :
    Traced RouterEffect ToolCallResponse := do
  match services.save with
  | none => return { result := .null, error := some (lit "Persistence not enabled.") }
  | some save =>
    let paragraphs ← Traced.lift (StoryContent.fromRawText content)
    let story ← Traced.lift (Story.create services.isUrl {
      id := services.freshId
      title := title
      content := paragraphs
      theme := orText theme (lit "Live Session")
      ownerId := request.userId
      status := .completed
      createdAt := services.now
      generatedAt := some services.now
      audioUrl := none })
    awaiting (.save story.props) (save story.props)
    return { result := .obj [(lit "success", .bool true), (lit "storyId", .str story.props.id)] }

/-- The handler of the tool. -/
def handle : ToolArgs → Traced RouterEffect ToolCallResponse
  | .saveMemory content memoryType => handleSaveMemory services request content memoryType
  | .checkSleepStatus => pure (handleCheckSleep services)
  | .suggestTheme => handleSuggestTheme services request
  | .saveGeneratedStory title content theme => handleSaveGeneratedStory services request title content theme

/-- The record of a call in the audit log. -/
def auditRecord (allowed : Bool) (response : ToolCallResponse) : ToolAuditRecord where
  userId := request.userId
  sessionId := request.sessionId
  requestId := request.requestId
  traceId := request.traceId
  toolName := request.toolName
  toolCallId := request.toolCallId
  allowed := allowed
  args := request.arguments
  result := response.result
  error := response.error
  occurredAt := services.now

/-- `await this.auditLog?.write(…)` -/
def writeAudit (allowed : Bool) (response : ToolCallResponse) : Traced RouterEffect Unit :=
  match services.audit with
  | none => pure ()
  | some write =>
    let record := auditRecord services request allowed response
    awaiting (.audit record) (write record)

/-- The answer to a call that was not executed, or whose execution failed. -/
def failure (message : Text) : ToolCallResponse := { result := .null, error := some message }

/-- `execute` -/
def execute : Traced RouterEffect ToolCallResponse :=
  match argsOf request.toolName request.arguments with
  | none => do
    let message := if request.toolName ∈ toolNames then
        services.schemaMessage request.toolName request.arguments
      else lit "Unknown tool"
    writeAudit services request false (failure message)
    return failure message
  | some args =>
    Traced.catchWith (do
      let response ← handle services request args
      writeAudit services request true response
      return response) fun error => do
    writeAudit services request true (failure error.message)
    return failure error.message

variable {services : ToolServices} {request : ToolCallRequest}

/-- **Arguments that are rejected reach no service**: the call is written to the audit log as one that was
not allowed, and that is all. -/
theorem trace_execute_rejected (h : argsOf request.toolName request.arguments = none) :
    ∀ effect ∈ (execute services request).trace, ∃ record, effect = .audit record ∧ record.allowed = false := by
  have haudit : ∀ response, ∀ effect ∈ (writeAudit services request false response).trace,
      ∃ record, effect = .audit record ∧ record.allowed = false := by
    intro response effect hmem
    rw [writeAudit] at hmem
    split at hmem
    · cases hmem
    · rw [awaiting, Traced.bind_of_ok (Traced.result_emit _), Traced.trace_emit, Traced.trace_lift,
        List.append_nil, List.mem_singleton] at hmem
      exact ⟨_, hmem, rfl⟩
  intro effect hmem
  rw [execute, h] at hmem
  dsimp only at hmem
  cases hresult : (writeAudit services request false (failure (if request.toolName ∈ toolNames then
      services.schemaMessage request.toolName request.arguments else lit "Unknown tool"))).result with
  | ok _ =>
    rw [Traced.bind_of_ok hresult, Traced.trace_pure, List.append_nil] at hmem
    exact haudit _ effect hmem
  | error e =>
    rw [Traced.bind_of_error hresult] at hmem
    exact haudit _ effect hmem

end ToolExecutionRouter

end DreamWeaver.Live
