import DreamWeaver.Audit.SupabaseToolAuditLog

/-! # One audit record for each tool call

Each path through `ToolExecutionRouter.execute` writes the call to the audit log: the one of a call that is
rejected, the one of a handler that returns, also with an error as its result, and the one of a handler that
throws. Where the writer of the log never throws, the log has one record of the call, and it says what the
response says. -/

namespace DreamWeaver.Live.ToolExecutionRouter

open Audit

/-- The record that an effect writes to the audit log. -/
def auditIn : RouterEffect → Option ToolAuditRecord
  | .audit record => some record
  | _ => none

/-- The effect writes to the memory or to the story repository. -/
def isWrite : RouterEffect → Bool
  | .store _ _ _ _ => true
  | .save _ => true
  | _ => false

/-- The records that a computation writes to the audit log. -/
def auditRecords {α : Type} (x : Traced RouterEffect α) : List ToolAuditRecord := x.trace.filterMap auditIn

variable {services : ToolServices} {request : ToolCallRequest} {write : ToolAuditRecord → Except JsError Unit}

/-- An effect that is awaited and writes no record. -/
theorem keeps_awaiting {α : Type} {before : List RouterEffect} {effect : RouterEffect}
    (h : auditIn effect = none) (answer : Except JsError α) :
    Traced.Keeps (fun _ e => auditIn e = none) before (awaiting effect answer) :=
  Traced.keeps_bind.mpr ⟨(Traced.keeps_emit effect).mpr h, fun _ _ => Traced.keeps_lift answer⟩

/-- **No handler writes to the audit log.** -/
theorem auditRecords_handle (args : ToolArgs) : auditRecords (handle services request args) = [] := by
  refine List.filterMap_eq_nil_iff.mpr (Traced.forall_of_keeps ?_)
  cases args with
  | saveMemory content memoryType =>
    exact Traced.keeps_bind.mpr ⟨keeps_awaiting rfl _, fun _ _ => Traced.keeps_pure _⟩
  | checkSleepStatus => exact Traced.keeps_pure _
  | suggestTheme => exact Traced.keeps_bind.mpr ⟨keeps_awaiting rfl _, fun _ _ => Traced.keeps_pure _⟩
  | saveGeneratedStory title content theme =>
    rw [handle, handleSaveGeneratedStory]
    split
    · exact Traced.keeps_pure _
    · refine Traced.keeps_bind.mpr ⟨Traced.keeps_lift _, fun paragraphs _ => ?_⟩
      refine Traced.keeps_bind.mpr ⟨Traced.keeps_lift _, fun story _ => ?_⟩
      exact Traced.keeps_bind.mpr ⟨keeps_awaiting rfl _, fun _ _ => Traced.keeps_pure _⟩

/-- Writing a record, where the writer does not throw, and going on. -/
theorem writeAudit_bind (haudit : services.audit = some write) (hnever : ∀ record, write record = .ok ())
    (allowed : Bool) (response : ToolCallResponse) :
    (do writeAudit services request allowed response; return response) =
      (⟨[.audit (auditRecord services request allowed response)], .ok response⟩ : Traced RouterEffect _) := by
  have hwrite : writeAudit services request allowed response
      = ⟨[.audit (auditRecord services request allowed response)], .ok ()⟩ := by
    rw [writeAudit, haudit]
    dsimp only
    rw [awaiting, hnever]
    rfl
  rw [hwrite]
  rfl

/-- **A tool call is audited exactly once**: the call resolves with a response, the log has one record, which is
that of the request and of the response, and is one of a call that was not allowed if and only if the arguments
were rejected; then neither the memory nor the story repository is written. -/
theorem audited_once (services : ToolServices) (request : ToolCallRequest)
    (haudit : services.audit = some write) (hnever : ∀ record, write record = .ok ()) :
    ∃ response record, (execute services request).result = .ok response ∧
      auditRecords (execute services request) = [record] ∧
      record = auditRecord services request record.allowed response ∧
      record.result = response.result ∧ record.error = response.error ∧
      (record.allowed = false ↔ argsOf request.toolName request.arguments = none) ∧
      (record.allowed = false → ∀ effect ∈ (execute services request).trace, isWrite effect = false) := by
  cases hargs : argsOf request.toolName request.arguments with
  | none =>
    have hexecute : execute services request = do
        writeAudit services request false (failure (if request.toolName ∈ toolNames then
          services.schemaMessage request.toolName request.arguments else lit "Unknown tool"))
        return failure (if request.toolName ∈ toolNames then
          services.schemaMessage request.toolName request.arguments else lit "Unknown tool") := by
      rw [execute, hargs]
    rw [hexecute, writeAudit_bind haudit hnever]
    refine ⟨_, _, rfl, rfl, rfl, rfl, rfl, iff_of_true rfl rfl, fun _ effect hmem => ?_⟩
    rw [List.mem_singleton.mp hmem]
    rfl
  | some args =>
    -- the handler returns or throws, and one record follows what it did
    have hexecute : ∃ response, execute services request
        = ⟨(handle services request args).trace ++ [.audit (auditRecord services request true response)],
          .ok response⟩ := by
      rw [execute, hargs]
      dsimp only
      cases hhandle : (handle services request args).result with
      | ok response =>
        refine ⟨response, ?_⟩
        rw [Traced.bind_of_ok hhandle, writeAudit_bind haudit hnever]
        rfl
      | error e =>
        refine ⟨failure e.message, ?_⟩
        rw [Traced.bind_of_error hhandle, Traced.catchWith]
        dsimp only
        rw [writeAudit_bind haudit hnever]
    obtain ⟨response, hexecute⟩ := hexecute
    have hallowed : (auditRecord services request true response).allowed ≠ false := Bool.false_ne_true.symm
    rw [hexecute]
    refine ⟨response, auditRecord services request true response, rfl, ?_, rfl, rfl, rfl,
      iff_of_false hallowed (Option.some_ne_none args), fun h => absurd h hallowed⟩
    rw [auditRecords, List.filterMap_append]
    exact congrArg (· ++ _) (auditRecords_handle args)

/-- A log whose database is down. -/
def brokenLog : SupabaseToolAuditLog := ⟨id, fun _ => .error ⟨lit "TypeError", lit "fetch failed"⟩⟩

/-- Services whose memory throws, with the log. -/
def forgetfulServices : ToolServices where
  store _ _ _ _ := .error ⟨lit "Error", lit "Memory is full"⟩
  isMonitoring := false
  currentConfidence := .finite 0
  suggestions _ := .ok []
  save := none
  audit := some brokenLog.write
  schemaMessage _ _ := []
  isUrl _ := false
  freshId := []
  now := 0

/-- A call of `save_memory`. -/
def saveCall : ToolCallRequest where
  sessionId := lit "session"
  userId := lit "ana"
  requestId := none
  traceId := none
  toolCallId := none
  toolName := lit "save_memory"
  arguments := some (.obj [(lit "content", .str (lit "likes owls")), (lit "memoryType", .str (lit "PREFERENCE"))])

/-- A call whose handler throws is audited once, also where the database is down. -/
theorem audited_once_when_memory_throws : ∃ response record,
    (execute forgetfulServices saveCall).result = .ok response ∧
      auditRecords (execute forgetfulServices saveCall) = [record] ∧
      record.result = response.result ∧ record.error = response.error := by
  obtain ⟨response, record, hresult, hrecords, -, hsame, herror, -⟩ :=
    audited_once forgetfulServices saveCall rfl brokenLog.write_eq_ok
  exact ⟨response, record, hresult, hrecords, hsame, herror⟩

end DreamWeaver.Live.ToolExecutionRouter
