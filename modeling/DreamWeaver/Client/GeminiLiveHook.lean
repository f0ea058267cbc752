import DreamWeaver.Client.PcmProcessor
import DreamWeaver.Foundations.Base64
import DreamWeaver.Foundations.JsValue
import DreamWeaver.Foundations.JsonText
import DreamWeaver.Foundations.Traced
import DreamWeaver.Foundations.TypedArray

/-! # What the client does with a message of the live session

`useGeminiLive` (`src/presentation/hooks/useGeminiLive.ts`) plays the audio of a message through the `AudioStreamer`
(`src/infrastructure/audio/AudioStreamer.ts`), and relays a tool call to the backend and its result to the session. It
looks at the first part of a turn and at the first function call, under their names in camel case. -/

namespace DreamWeaver.Client

open Traced

/-! ## The hook -/

/-- The types of the log entries that the handlers add. -/
inductive LogType where
  | safety
  | decision
  deriving DecidableEq

/-- The request to `/api/v1/live/tool`. -/
structure ToolRequest where
  accessToken : Text
  toolName : Text
  arguments : Option Json
  sessionId : Text
  traceId : Option Text
  toolCallId : Option Text

/-- The response to a function call: the only one of `toolResponse.functionResponses`. -/
structure FunctionResponse where
  name : Text
  id : Option Json
  result : Option Json

/-- What the handlers do. -/
inductive HookAction where
  | setIsSpeaking (speaking : Bool)
  | postMessage (message : PcmMessage ℚ)
  | resume
  | addLog (type : LogType) (text : Text)
  | sleepCue
  | apiFetch (request : ToolRequest)
  | send (response : FunctionResponse)

/-- `AudioStreamer`: whether it is initialized, and whether its worklet node is there. -/
structure AudioStreamer where
  isInitialized : Bool
  workletNode : Bool

/-- What the handlers read: the token of the session, if there is one, the ids of the live session, and the streamer. -/
structure Hook where
  accessToken : Option Text
  sessionId : Text
  traceId : Option Text
  audioStreamer : AudioStreamer

/-- The outcomes of what the handlers await, and of `send`. -/
structure Replies where
  arrayBuffer : Except JsError (List UInt8)
  fetch : Except JsError Unit
  json : Except JsError Json
  send : Except JsError Unit

/-- `event.data` -/
inductive ServerMessage where
  | arrayBuffer (data : List UInt8)
  | blob
  | text (data : Text)

/-- A computation with these actions. -/
abbrev HookRun := Traced HookAction

/-- A `TypeError`; engines word its message differently. -/
def typeError : JsError := ⟨lit "TypeError", []⟩

/-! ## The audio -/

/-- What a character stands for in base64, without the variant for URLs. -/
def atobDigit (c : CodeUnit) : Option ℕ := if c = 45 ∨ c = 95 then none else base64Digit c

/-- One or two signs of padding at the end are left out. -/
def withoutPadding (s : Text) : Text :=
  match s.reverse with
  | 61 :: 61 :: rest => rest.reverse
  | 61 :: rest => rest.reverse
  | _ => s

/-- `atob`, `none` where it throws. -/
def atob (s : Text) : Option (List UInt8) :=
  let s := s.filter fun c => c != 9 && c != 10 && c != 12 && c != 13 && c != 32
  let s := if s.length % 4 = 0 then withoutPadding s else s
  if s.length % 4 = 1 then none else (s.mapM atobDigit).map ofSextets

/-- The samples of a chunk, `none` where `new Int16Array(chunk)` throws. -/
def samplesOf (chunk : List UInt8) : Option (List ℚ) :=
  if chunk.length % 2 = 1 then none else some ((int16s chunk).map fun v => (v : ℚ) / 32768)

namespace AudioStreamer

/-- `enqueue` -/
def enqueue (streamer : AudioStreamer) (chunk : List UInt8) : HookRun Unit :=
  if !streamer.isInitialized || !streamer.workletNode then pure ()
  else
    match samplesOf chunk with
    | none => lift (.error ⟨lit "RangeError", []⟩)
    | some samples => emit (.postMessage (.chunk samples))

/-- `stop` -/
def stop (streamer : AudioStreamer) : HookRun Unit :=
  if !streamer.workletNode then pure () else emit (.postMessage .flush)

end AudioStreamer

namespace Hook

variable (asText : Json → Text) (replies : Replies) (hook : Hook)

/-- `setIsSpeaking(true); audioStreamer.enqueue(chunk); audioStreamer.resume()` -/
def play (chunk : List UInt8) : HookRun Unit := do
  emit (.setIsSpeaking true)
  hook.audioStreamer.enqueue chunk
  emit .resume

/-- The text that `atob` is given; `asText` is `String(value)` on values that are not strings. -/
def dataText : Json → Text
  | .str text => text
  | v => asText v

/-- `data.serverContent?.modelTurn?.parts?.[0]?.inlineData` -/
def firstInline (data : Json) : Option Json :=
  ((((data.get (lit "serverContent")).bind (·.get (lit "modelTurn"))).bind (·.get (lit "parts"))).bind Json.first).bind
    (·.get (lit "inlineData"))

/-- `mimeType?.startsWith('audio/pcm')`, `none` where it throws. -/
def startsWithPcm : Option Json → Option Bool
  | none => some false
  | some .null => some false
  | some (.str mimeType) => some ((lit "audio/pcm").isPrefixOf mimeType)
  | some _ => none

/-- `inlineData?.mimeType?.startsWith('audio/pcm') && inlineData?.data`, `none` where it throws. -/
def isPlayed (inlineData : Option Json) : Option Bool :=
  (startsWithPcm (inlineData.bind (·.get (lit "mimeType")))).map fun pcm =>
    pcm && isTruthy (inlineData.bind (·.get (lit "data")))

/-- The bytes of inline data. -/
def inlineBytes (inlineData : Json) : Option (List UInt8) :=
  (inlineData.get (lit "data")).bind fun data => atob (dataText asText data)

/-- The audio of a message in JSON. -/
def playInline (inlineData : Option Json) : HookRun Unit :=
  match isPlayed inlineData with
  | none => lift (.error typeError)
  | some false => pure ()
  | some true =>
    catchWith
      (match inlineData.bind (inlineBytes asText) with
      | none => lift (.error ⟨lit "InvalidCharacterError", []⟩)
      | some bytes => hook.play bytes)
      fun _ => pure ()

/-! ## The signals -/

/-- The interruption, the end of a turn and the detection of sleep. -/
def showContent (content : Option Json) : HookRun Unit := do
  if isTruthy (content.bind (·.get (lit "interrupted"))) then
    emit (.addLog .safety (lit "Interrupted by Server (User Speaking)"))
    hook.audioStreamer.stop
    emit (.setIsSpeaking false)
  if isTruthy (content.bind (·.get (lit "turnComplete"))) then emit (.setIsSpeaking false)
  if isTruthy ((content.bind (·.get (lit "sleepDetection"))).bind (·.get (lit "isAsleep"))) then emit .sleepCue

/-! ## The tool call -/

/-- The body and the token of a request. -/
def requestFor (accessToken name : Text) (call : Json) : ToolRequest where
  accessToken := accessToken
  toolName := name
  arguments := call.get (lit "args")
  sessionId := hook.sessionId
  traceId := hook.traceId
  toolCallId := (call.get (lit "id")).bind Json.text?

/-- `result: error ? { error } : result` -/
def resultOf (answer : Json) : Option Json :=
  match answer.get (lit "error") with
  | some error => if error.truthy then some (.obj [(lit "error", error)]) else answer.get (lit "result")
  | none => answer.get (lit "result")

/-- `const { result, error } = await response.json()`, and what is sent. -/
def answerCall (name : Text) (call answer : Json) : HookRun Unit :=
  match answer with
  | .null => lift (.error typeError)
  | answer => do
    lift replies.send
    emit (.send ⟨name, call.get (lit "id"), resultOf answer⟩)

/-- `handleToolCall` within its `try` -/
def relayCall (call : Json) : HookRun Unit := do
  match hook.accessToken.filter fun token => !token.isEmpty with
  | none => lift (.error ⟨lit "Error", lit "Not authenticated"⟩)
  | some accessToken =>
    match call with
    | .null => lift (.error typeError)
    | call =>
      match (call.get (lit "name")).bind Json.text? with
      | none => pure ()
      | some name => do
        emit (.addLog .decision (lit "Executing Tool: " ++ name))
        emit (.apiFetch (hook.requestFor accessToken name call))
        lift replies.fetch
        let answer ← lift replies.json
        answerCall replies name call answer

/-- `handleToolCall`; a call that is `undefined` throws as `null` does. -/
def handleToolCall (call : Option Json) : HookRun Unit :=
  catchWith (hook.relayCall replies (call.getD .null)) fun _ => pure ()

/-- `if (data.toolCall) …` -/
def handleCalls (data : Json) : HookRun Unit :=
  if isTruthy (data.get (lit "toolCall")) then
    match (data.get (lit "toolCall")).bind (·.get (lit "functionCalls")) with
    | none => lift (.error typeError)
    | some .null => lift (.error typeError)
    | some calls => hook.handleToolCall replies calls.first
  else pure ()

/-! ## Messages -/

/-- A message in JSON. -/
def handleData : Json → HookRun Unit
  | .null => lift (.error typeError)
  | data => do
    hook.playInline asText (firstInline data)
    hook.showContent (data.get (lit "serverContent"))
    hook.handleCalls replies data

/-- `handleServerMessage` -/
def handleServerMessage : ServerMessage → HookRun Unit
  | .arrayBuffer bytes => hook.play bytes
  | .blob => do
    let buffer ← lift replies.arrayBuffer
    hook.play buffer
  | .text text =>
    match parseJson text with
    | .error _ => pure ()
    | .ok data => hook.handleData asText replies data

end Hook

end DreamWeaver.Client
