import DreamWeaver.Conductor.BedtimeConductorAgent

/-! # The routes on sessions

The requests by which a client reaches the sessions, after authentication and validation: a turn of the
conversation (`api/src/routes/conversation.ts` and `ProcessConversationTurnUseCase`), and the start of
a live session and a call of one of its tools (`api/src/routes/live.ts`; the routes of
`api/src/routes/demo.ts` are the same for the demo user). The tools behind `ToolExecutionRouter` do not
touch the sessions. -/

namespace DreamWeaver.Conductor

/-! ## Tool calls -/

/-- The string entries of `processedToolCallIds`. -/
def processedToolCalls (context : SessionContext) : List Text :=
  context.processedToolCallIds.getD []

/-- `xs.slice(-n)` -/
def lastEntries {α : Type} (n : ℕ) (xs : List α) : List α := xs.drop (xs.length - n)

/-- The context with one more processed call: `[...processed, toolCallId].slice(-200)`. -/
def recordToolCall (toolCallId : Text) (context : SessionContext) : SessionContext :=
  { context with
    processedToolCallIds := some (lastEntries 200 (processedToolCalls context ++ [toolCallId])) }

@[simp] theorem processedToolCalls_recordToolCall (toolCallId : Text) (context : SessionContext) :
    processedToolCalls (recordToolCall toolCallId context) =
      lastEntries 200 (processedToolCalls context ++ [toolCallId]) := by
  rw [processedToolCalls, recordToolCall, Option.getD_some]

/-- The body of `POST /live/tool`. -/
structure ToolCall where
  sessionId : Text
  toolName : Text
  arguments : Json
  toolCallId : Option Text
  traceId : Option Text

/-- The answers of `POST /live/tool`. -/
inductive ToolReply where
  /-- 403 -/
  | forbidden
  /-- 409 -/
  | duplicate
  | executed (response : Json)
  /-- 500 -/
  | failed

/-- `toolRouter.execute` on the request made of a call. -/
def executeTool (userId : Text) (traceId : Option Text) (state : SessionState) (call : ToolCall) :
    SessionProc ToolReply := do
  let given := (state.context.traceId.or call.traceId).filter fun text => !text.isEmpty
  let response ← (Proc.perform (SessionEffect.executeTool {
    userId := userId
    sessionId := call.sessionId
    toolName := call.toolName
    arguments := call.arguments
    toolCallId := call.toolCallId
    traceId := given.or traceId }) : SessionProc Json)
  pure (.executed response)

/-- `POST /live/tool` inside `try`. -/
def liveToolBody (userId : Text) (traceId : Option Text) (call : ToolCall) :
    SessionProc ToolReply := do
  match ← getSession call.sessionId with
  | none => pure .forbidden
  | some state =>
    if state.userId ≠ userId then pure .forbidden
    else
      match call.toolCallId with
      | none => executeTool userId traceId state call
      | some toolCallId =>
        if toolCallId ∈ processedToolCalls state.context then pure .duplicate
        else
          Proc.perform (SessionEffect.patchContext call.sessionId state toolCallId)
          executeTool userId traceId state call

/-- `POST /live/tool` of an authenticated user. -/
def liveTool (userId : Text) (traceId : Option Text) (call : ToolCall) : SessionProc ToolReply :=
  Proc.catchWith (liveToolBody userId traceId call) fun _ => pure .failed

/-! ## Starting a live session -/

/-- The body of `POST /live/init`. -/
structure LiveInit where
  childName : Option Text
  childAge : Option ℕ
  sessionId : Option Text

/-- The answers of `POST /live/init`. -/
inductive InitReply where
  | started (config : Json) (ticket sessionId : Text) (traceId : Option Text)
  /-- 500 -/
  | failed

/-- `POST /live/init` of an authenticated user; `newId` is the id that `randomUUID` makes. -/
def liveInit (userId : Text) (traceId : Option Text) (newId : Text) (body : LiveInit) :
    SessionProc InitReply :=
  let sessionId := orText body.sessionId newId
  Proc.catchWith (do
      let config ← (Proc.perform (SessionEffect.createSessionConfig userId body.childName
        body.childAge) : SessionProc Json)
      setSession sessionId
        (.literal { initialState sessionId userId with context := { traceId := traceId } })
      let ticket ← (Proc.perform (SessionEffect.issueTicket userId) : SessionProc Text)
      pure (.started config ticket sessionId traceId))
    fun _ => pure .failed

/-! ## Turns -/

/-- The answers of `POST /conversations/turn`. -/
inductive TurnReply where
  | answered (result : TurnResult)
  /-- 500 -/
  | failed

/-- `POST /conversations/turn` of an authenticated user. -/
def conversationTurn (agent : BedtimeConductorAgent) (userId : Text) (traceId : Option Text)
    (sessionId message : Text) : SessionProc TurnReply :=
  Proc.catchWith (do
      Proc.perform (SessionEffect.storeMemory message userId sessionId)
      let result ← agent.processTurn userId sessionId message traceId
      Proc.perform (SessionEffect.storeMemory result.reply userId sessionId)
      pure (.answered result))
    fun _ => pure .failed

/-! ## The sessions -/

/-- What the port holds: `Map<string, SessionState>`, by value. -/
abbrev SessionMap := Text → Option SessionState

open Proc in
/-- The replies of the port, and what it holds afterwards. A call that fails changes nothing; the
other collaborators may reply anything. -/
def sessionEnv : Env SessionMap SessionEffect SessionEffect.Reply := fun sessions effect =>
  match effect with
  | .getSession sessionId => fun reply sessions' =>
    sessions' = sessions ∧ ∀ found, reply = .ok found → found = sessions sessionId
  | .setSession sessionId write => fun reply sessions' =>
    match reply with
    | .ok _ => sessions' = Function.update sessions sessionId (some write.state)
    | .error _ => sessions' = sessions
  | .patchContext sessionId held toolCallId => fun reply sessions' =>
    match reply with
    | .ok _ => ∃ current, sessions sessionId = some current ∧
        sessions' = Function.update sessions sessionId
          (some { current with context := recordToolCall toolCallId held.context })
    | .error _ => sessions' = sessions
  | _ => fun _ sessions' => sessions' = sessions

/-- The replies where every call succeeds, with one thought and one response of the tools. -/
def succeeding (thought : Thought) (response : Json) :
    (effect : SessionEffect) → SessionMap → Except JsError effect.Reply × SessionMap
  | .getSession sessionId, sessions => (.ok (sessions sessionId), sessions)
  | .setSession sessionId write, sessions =>
    (.ok (), Function.update sessions sessionId (some write.state))
  | .patchContext sessionId held toolCallId, sessions =>
    match sessions sessionId with
    | none => (.error ⟨lit "Error", lit "Not found"⟩, sessions)
    | some current => (.ok (), Function.update sessions sessionId
        (some { current with context := recordToolCall toolCallId held.context }))
  | .retrieve _ _ _, sessions => (.ok [], sessions)
  | .generateAgentThought _ _, sessions => (.ok thought, sessions)
  | .createSessionConfig _ _ _, sessions => (.ok .null, sessions)
  | .issueTicket _, sessions => (.ok [], sessions)
  | .executeTool _, sessions => (.ok response, sessions)
  | .trackOutcome _ _ _, sessions => (.ok (), sessions)
  | .trackPreferencePair _ _ _, sessions => (.ok (), sessions)
  | .storeMemory _ _ _, sessions => (.ok (), sessions)
  | .saveTrace _, sessions => (.ok (), sessions)

theorem sessionEnv_succeeding (thought : Thought) (response : Json) (effect : SessionEffect)
    (sessions : SessionMap) : sessionEnv sessions effect
      (succeeding thought response effect sessions).1
      (succeeding thought response effect sessions).2 := by
  cases effect with
  | getSession sessionId =>
    refine ⟨rfl, fun found h => ?_⟩
    cases h
    rfl
  | patchContext sessionId held toolCallId =>
    rw [succeeding]
    cases hsession : sessions sessionId with
    | none => rfl
    | some current => exact ⟨current, hsession, rfl⟩
  | _ => rfl

end DreamWeaver.Conductor
