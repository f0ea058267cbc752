import DreamWeaver.Foundations.Base64
import DreamWeaver.Foundations.JsValue
import DreamWeaver.Foundations.JsonText
import DreamWeaver.Foundations.Utf8

/-! # A live session with Gemini

`GeminiLiveSession` (`api/src/infrastructure/adapters/GeminiLiveSession.ts`) wraps a socket to Gemini: it
sends the setup once the socket is open, sends audio, texts and answers to tool calls while it believes
the socket to be open, and takes the messages of Gemini apart. What reading a value other than a string as
base64 gives is left to a parameter. -/

namespace DreamWeaver.Live

/-- `WebSocket.readyState` -/
inductive ReadyState where
  | connecting
  | opened
  | closing
  | closed
  deriving DecidableEq, Repr

/-- A socket that is connecting or open. -/
def ReadyState.isLive : ReadyState → Bool
  | .connecting | .opened => true
  | .closing | .closed => false

/-! ## What is sent -/

/-- `LiveSessionOptions`, as far as the relay fills them in. -/
structure LiveSessionOptions where
  systemInstruction : Option Json
  model : Option Text
  tools : Option Json
  generationConfig : Option Json

/-- An underscore before every capital letter, and then all in lower case. -/
def snakeKey (key : Text) : Text :=
  toLowerCase (key.flatMap fun c => if 65 ≤ c && c ≤ 90 then [95, c] else [c])

mutual

/-- `toSnakeCase` -/
def toSnakeCase : Json → Json
  | .arr items => .arr (itemsToSnakeCase items)
  | .obj fields => .obj (lastValues (fieldsToSnakeCase fields))
  | v => v

/-- The items of an array. -/
def itemsToSnakeCase : List Json → List Json
  | [] => []
  | v :: items => toSnakeCase v :: itemsToSnakeCase items

/-- The fields of an object. -/
def fieldsToSnakeCase : List (Text × Json) → List (Text × Json)
  | [] => []
  | (key, v) :: fields => (snakeKey key, toSnakeCase v) :: fieldsToSnakeCase fields

end

/-- A text as parts of a turn. -/
def textParts (text : Json) : Json := .arr [.obj [(lit "text", text)]]

/-- The setup message; a field that is `undefined` is not written. -/
def setupMsg (liveModel : Option Text) (options : LiveSessionOptions) : Json :=
  let model := orText options.model
    (orText liveModel (lit "models/gemini-2.5-flash-native-audio-latest"))
  let generationConfig := (firstTruthy options.generationConfig
    (some (.obj [(lit "response_modalities", .arr [.str (lit "AUDIO")])]))).map toSnakeCase
  let systemInstruction := (options.systemInstruction.filter Json.truthy).map fun text =>
    .obj [(lit "parts", textParts text)]
  let tools := (options.tools.filter Json.truthy).map toSnakeCase
  .obj [(lit "setup", .obj ((lit "model", .str model) ::
    [(lit "generation_config", generationConfig), (lit "system_instruction", systemInstruction),
      (lit "tools", tools)].filterMap fun field => field.2.map fun v => (field.1, v)))]

/-- The message that carries a chunk of audio. -/
def realtimeInput (chunk : List UInt8) : Json :=
  .obj [(lit "realtime_input", .obj [(lit "media_chunks", .arr [.obj [
    (lit "mime_type", .str (lit "audio/pcm;rate=16000")), (lit "data", .str (encodeBase64 chunk))]])])]

/-- The message that carries a text of the user. -/
def clientContent (text : Text) : Json :=
  .obj [(lit "client_content", .obj [
    (lit "turns", .arr [.obj [(lit "role", .str (lit "user")), (lit "parts", textParts (.str text))]]),
    (lit "turn_complete", .bool true)])]

/-- `GeminiLiveSession`, with the state of its socket and the messages that the socket has sent. -/
structure GeminiLiveSession where
  options : LiveSessionOptions
  readyState : ReadyState := .connecting
  isOpen : Bool := false
  sent : List Json := []

namespace GeminiLiveSession

/-- `sendJson`: a socket that is closing or closed drops what it is given. -/
def sendJson (s : GeminiLiveSession) (data : Json) : GeminiLiveSession :=
  if s.readyState = .opened then { s with sent := s.sent ++ [data] } else s

/-- `sendAudio` -/
def sendAudio (s : GeminiLiveSession) (chunk : List UInt8) : GeminiLiveSession :=
  if s.isOpen then s.sendJson (realtimeInput chunk) else s

/-- `sendText` -/
def sendText (s : GeminiLiveSession) (text : Text) : GeminiLiveSession :=
  if s.isOpen then s.sendJson (clientContent text) else s

/-- `sendToolResponse` -/
def sendToolResponse (s : GeminiLiveSession) (response : Json) : GeminiLiveSession :=
  if s.isOpen then s.sendJson (.obj [(lit "tool_response", response)]) else s

/-- `disconnect` -/
def disconnect (s : GeminiLiveSession) : GeminiLiveSession :=
  if s.readyState = .opened then { s with readyState := .closing } else s

/-- The handler of `open`. -/
def onOpen (liveModel : Option Text) (s : GeminiLiveSession) : GeminiLiveSession :=
  ({ s with readyState := .opened, isOpen := true } : GeminiLiveSession).sendJson
    (setupMsg liveModel s.options)

/-- The handler of `close`, before the handlers that are registered. -/
def onClose (s : GeminiLiveSession) : GeminiLiveSession :=
  { s with readyState := .closed, isOpen := false }

end GeminiLiveSession

/-! ## What is received -/

/-- What the handlers of a session are called with. -/
inductive Signal where
  | text (text : Text)
  | audio (chunk : List UInt8)
  | interruption
  | toolCall (toolCall : Json)
  | error (error : Json)

/-- The calls of handlers that a piece of a message leads to, and whether reading it throws then. -/
structure Dispatch where
  signals : List Signal := []
  threw : Bool := false

/-- One piece after the other, unless the first throws. -/
def Dispatch.andThen (d e : Dispatch) : Dispatch :=
  if d.threw then d else ⟨d.signals ++ e.signals, e.threw⟩

/-- `Buffer.from(data, 'base64')`, `none` where it throws. -/
def bufferFrom (other : Option Json → Option (List UInt8)) (data : Option Json) :
    Option (List UInt8) :=
  match data with
  | some (.str text) => some (decodeBase64 text)
  | data => other data

/-- `part.text`; the log asks a text for its beginning, and only a string has one. -/
def textDispatch (part : Json) : Dispatch :=
  match part.get (lit "text") with
  | some (.str text) => if text = [] then {} else ⟨[.text text], false⟩
  | some v => ⟨[], v.truthy⟩
  | none => {}

/-- The MIME type of inline data, `none` where `startsWith` throws. -/
def mimeType (inlineData : Json) : Option Text :=
  let found := inlineData.either (lit "mimeType") (lit "mime_type")
  if isTruthy found then found.bind Json.text? else some []

section

variable (other : Option Json → Option (List UInt8))

/-- The inline data of a part. -/
def inlineDispatch (inlineData : Json) : Dispatch :=
  match mimeType inlineData with
  | none => ⟨[], true⟩
  | some mimeType =>
    if (lit "audio").isPrefixOf mimeType then
      match bufferFrom other (inlineData.get (lit "data")) with
      | none => ⟨[], true⟩
      | some chunk => ⟨[.audio chunk], false⟩
    else {}

/-- One part of a turn of the model. -/
def partDispatch (part : Json) : Dispatch :=
  match part with
  | .null => ⟨[], true⟩
  | part =>
    let inlineData := (part.either (lit "inlineData") (lit "inline_data")).filter Json.truthy
    (textDispatch part).andThen (inlineData.elim {} (inlineDispatch other))

/-- The parts of a turn, one after the other. -/
def partsDispatch : List Json → Dispatch
  | [] => {}
  | part :: parts => (partDispatch other part).andThen (partsDispatch parts)

/-- `modelTurn?.parts || []` as it is iterated, `none` where that throws; the characters of a string have
no fields. -/
def turnParts (serverContent : Json) : Option (List Json) :=
  let parts := (serverContent.either (lit "modelTurn") (lit "model_turn")).bind
    fun turn => turn.get (lit "parts")
  match parts with
  | some (.arr items) => some items
  | some (.str _) => some []
  | some v => if v.truthy then none else some []
  | none => some []

/-- The content of a message. -/
def contentDispatch (serverContent : Json) : Dispatch :=
  match turnParts serverContent with
  | none => ⟨[], true⟩
  | some parts =>
    (partsDispatch other parts).andThen
      (if isTruthy (serverContent.get (lit "interrupted")) then ⟨[.interruption], false⟩ else {})

/-- A message that is neither the end of the setup nor an error. -/
def messageDispatch (msg : Json) : Dispatch :=
  let serverContent := (msg.either (lit "serverContent") (lit "server_content")).filter Json.truthy
  let toolCall := (msg.either (lit "toolCall") (lit "tool_call")).filter Json.truthy
  (serverContent.elim {} (contentDispatch other)).andThen
    (toolCall.elim {} fun toolCall => ⟨[.toolCall toolCall], false⟩)

/-- `handleMessage`: what the handlers are called with, in order. -/
def handleMessage (data : List UInt8) : List Signal :=
  if data.head? = some 0x7b then
    match parseJson (decodeUtf8 data) with
    | .error _ => []
    | .ok msg =>
      if isTruthy (msg.get (lit "setupComplete")) then []
      else
        match (msg.get (lit "error")).filter Json.truthy with
        | some error => [.error error]
        | none => (messageDispatch other msg).signals
  else [.audio data]

end

end DreamWeaver.Live
