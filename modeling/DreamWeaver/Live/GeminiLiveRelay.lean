import DreamWeaver.Foundations.Queues
import DreamWeaver.Foundations.Transitions
import DreamWeaver.Live.GeminiLiveSession
import DreamWeaver.Live.SleepSentinelAgent

/-! # The live relay

`GeminiLiveRelay` (`api/src/infrastructure/services/GeminiLiveRelay.ts`) connects a client with Gemini. A
setup message makes it start a live session through `GeminiAIGateway.startLiveSession`
(`api/src/infrastructure/adapters/GeminiAIGateway.ts`), which creates the session at once; the handlers
are attached behind an `await`, so that the events of both sockets can come in between. The state is that
of one client, with every session that was started for it. -/

namespace DreamWeaver.Live

/-- What the relay asks of its surroundings: prompts, the configured model, and `Buffer.from` of values that
are not strings. -/
structure LiveSettings where
  conductorSystemPrompt : Text
  sleepPacingOverrideInstruction : Text
  liveModel : Option Text
  otherData : Option Json → Option (List UInt8)

/-- What is sent to the client. -/
inductive ClientFrame where
  | binary (chunk : List UInt8)
  | text (value : Json)

/-- A message of Gemini. Whether its sender means it as raw audio or as JSON is not written on it: the
program sees the bytes. -/
structure GeminiFrame where
  isAudio : Bool
  data : List UInt8

/-- A session of the relay: the id under which the sentinel monitors it, once the handlers are attached, and
whether it listens to sleep cues. -/
structure RelayedSession extends GeminiLiveSession where
  monitoredAs : Option Text := none
  listening : Bool := false

/-- A call of `startSession` that awaits its session, `none` if the start has failed. -/
structure Starting where
  session : Option ℕ
  traceId : Option Text
  deriving DecidableEq

/-- The state of `handleConnection`, with both sides. -/
structure LiveRelay where
  userId : Option Text
  sessionId : Text
  apiKey : Option Text
  clientWs : ReadyState := .opened
  liveSession : Option ℕ := none
  isSessionActive : Bool := false
  audioBufferQueue : List (List UInt8) := []
  sessions : List RelayedSession := []
  starting : List Starting := []
  /-- The interruptions that `assessFailure` is awaited for. -/
  assessing : ℕ := 0
  toClient : List ClientFrame := []
  /-- The sessions that were analyzed for moments. -/
  analyzed : List (Text × Text) := []

/-- The relay when a client connects. -/
def LiveRelay.connected (userId apiKey : Option Text) (now : ℤ) : LiveRelay where
  userId := userId
  sessionId := lit "live_" ++ showInt now ++ lit "_" ++ orText userId (lit "anon")
  apiKey := apiKey

/-! ## Messages to the client -/

/-- What tells the client of an error. -/
def systemError (fields : List (Text × Json)) : ClientFrame :=
  .text (.obj [(lit "system", .obj ((lit "error", .bool true) :: fields))])

/-- A text of the model. -/
def textFrame (text : Text) : ClientFrame :=
  .text (.obj [(lit "serverContent", .obj [(lit "modelTurn", .obj [(lit "parts", textParts (.str text))])])])

/-- An interruption. -/
def interruptedFrame : ClientFrame :=
  .text (.obj [(lit "serverContent", .obj [(lit "interrupted", .bool true)])])

/-- A sleep cue. -/
def sleepFrame (confidence : JsNumber) (cue : Option Text) : ClientFrame :=
  .text (.obj [(lit "serverContent", .obj [(lit "sleepDetection", .obj
    ([(lit "isAsleep", .bool true), (lit "confidence", .num confidence)] ++
      (cue.map fun text => (lit "cue", Json.str text)).toList))])])

namespace LiveRelay

/-- `clientWs.send`, if the client is there. -/
def sendClient (r : LiveRelay) (frame : ClientFrame) : LiveRelay :=
  if r.clientWs = .opened then { r with toClient := r.toClient ++ [frame] } else r

/-- `clientWs.close` -/
def closeClient (r : LiveRelay) : LiveRelay :=
  if r.clientWs = .opened then { r with clientWs := .closing } else r

/-- What a session becomes. -/
def updateSession (r : LiveRelay) (i : ℕ) (f : RelayedSession → RelayedSession) : LiveRelay :=
  { r with sessions := r.sessions.modify i f }

/-- What the session becomes that the variable `liveSession` holds. -/
def onLiveSession (r : LiveRelay) (f : GeminiLiveSession → GeminiLiveSession) : LiveRelay :=
  match r.liveSession with
  | none => r
  | some i => r.updateSession i fun s => { s with toGeminiLiveSession := f s.toGeminiLiveSession }

/-! ## Starting a session -/

/-- The options that a setup leads to. -/
def sessionOptions (settings : LiveSettings) (config : Json) : LiveSessionOptions where
  systemInstruction := firstTruthy
    (((((config.get (lit "systemInstruction")).bind fun v => v.get (lit "parts")).bind
      Json.first).bind fun v => v.get (lit "text")))
    (some (.str settings.conductorSystemPrompt))
  model := (config.get (lit "model")).bind Json.text?
  tools := config.get (lit "tools")
  generationConfig := config.either (lit "generationConfig") (lit "generation_config")

/-- `this.apiKey || process.env['GEMINI_API_KEY']`, if that is not empty. -/
def effectiveKey (apiKey env : Option Text) : Option Text :=
  ((apiKey.filter fun key => !key.isEmpty).or env).filter fun key => !key.isEmpty

/-- `startSession` up to its `await`: `startLiveSession` creates the session, unless there is no key. -/
def startSession (settings : LiveSettings) (r : LiveRelay) (config : Json)
    (traceId env : Option Text) : LiveRelay :=
  match effectiveKey r.apiKey env with
  | none => { r with starting := r.starting ++ [⟨none, traceId⟩] }
  | some key =>
    { r with
      apiKey := some key
      starting := r.starting ++ [⟨some r.sessions.length, traceId⟩]
      sessions := r.sessions ++ [{ options := sessionOptions settings config }] }

/-- The chunks that were buffered go to the session. -/
def flush (r : LiveRelay) : LiveRelay :=
  let sent := r.onLiveSession fun s => r.audioBufferQueue.foldl GeminiLiveSession.sendAudio s
  { sent with audioBufferQueue := [] }

/-- The handlers are attached to a session. -/
def attach (r : LiveRelay) (i : ℕ) : LiveRelay :=
  let active : LiveRelay := { r with liveSession := some i, isSessionActive := true }
  active.updateSession i fun s => { s with monitoredAs := some r.sessionId, listening := true }

/-- `startSession` behind its `await`; what the client is told of an error leaves out its stack. -/
def started (r : LiveRelay) : Option ℕ → LiveRelay
  | some i => (r.attach i).flush
  | none =>
    (r.sendClient (systemError [(lit "message",
      .str (lit "Gemini API Key not configured (checked constructor and process.env)"))])).closeClient

/-! ## Messages of the client -/

/-- A chunk of audio of the client. -/
def onBinary (r : LiveRelay) (chunk : List UInt8) : LiveRelay :=
  if r.isSessionActive && r.liveSession.isSome then r.onLiveSession fun s => s.sendAudio chunk
  else { r with audioBufferQueue := pushBounded 50 r.audioBufferQueue chunk }

/-- The answer to a tool call in a message. -/
def onToolResponse (r : LiveRelay) (msg : Json) : LiveRelay :=
  match (msg.get (lit "toolResponse")).filter Json.truthy with
  | none => r
  | some response => r.onLiveSession fun s => s.sendToolResponse response

/-- A message while the session is active; the classifier of texts throws on what is no string. -/
def onControl (r : LiveRelay) (msg : Json) : LiveRelay :=
  let text := ((((msg.either (lit "clientContent") (lit "client_content")).bind fun v =>
    v.get (lit "turns")).bind Json.first).bind fun v => v.get (lit "parts")).bind Json.first
  match (text.bind fun v => v.get (lit "text")).filter Json.truthy with
  | none => r.onToolResponse msg
  | some (.str text) => (r.onLiveSession fun s => s.sendText text).onToolResponse msg
  | some _ => r

/-- The setup in a message. -/
def setupOf (msg : Json) : Option Json := (msg.get (lit "setup")).filter Json.truthy

/-- The id of the session after a setup message. -/
def setupSessionId (msg : Json) (sessionId : Text) : Text :=
  orText ((msg.get (lit "sessionId")).bind Json.text?) sessionId

/-- A text of the client, and the value of `GEMINI_API_KEY` then. -/
def onText (settings : LiveSettings) (r : LiveRelay) (data : Text) (env : Option Text) : LiveRelay :=
  match parseJson data with
  | .error _ => r
  | .ok msg =>
    if r.isSessionActive then r.onControl msg
    else
      match setupOf msg with
      | none => r
      | some config =>
        let named : LiveRelay := { r with sessionId := setupSessionId msg r.sessionId }
        named.startSession settings config ((msg.get (lit "traceId")).bind Json.text?) env

/-! ## Events of Gemini -/

/-- The handlers of the relay for what a session receives; it registers none for tool calls. -/
def receive (r : LiveRelay) : Signal → LiveRelay
  | .text text => r.sendClient (textFrame text)
  | .audio chunk => r.sendClient (.binary chunk)
  | .interruption => { r with assessing := r.assessing + 1 }
  | .toolCall _ => r
  | .error error => r.sendClient (systemError [(lit "message", .str (lit "Google API Error")),
      (lit "details", error)])

end LiveRelay

/-- The sentinel, whose handler comes first, makes samples of two bytes and throws if a byte is left. -/
def Signal.isOddAudio : Signal → Bool
  | .audio chunk => chunk.length % 2 = 1
  | _ => false

/-- The calls of handlers that come before one that throws. -/
def reached (signals : List Signal) : List Signal := signals.takeWhile fun signal => !signal.isOddAudio

namespace LiveRelay

/-- A message on a session. -/
def onMessage (settings : LiveSettings) (r : LiveRelay) (s : RelayedSession) (data : List UInt8) :
    LiveRelay :=
  if s.monitoredAs.isSome then (reached (handleMessage settings.otherData data)).foldl receive r else r

/-- The end of a session. -/
def onUpstreamClose (r : LiveRelay) (i : ℕ) (s : RelayedSession) (code : ℕ) (reason : Text) :
    LiveRelay :=
  let closed := r.updateSession i fun s =>
    { s with toGeminiLiveSession := s.toGeminiLiveSession.onClose, listening := false }
  if s.monitoredAs.isSome then
    let told := if code ≠ 0 ∧ code ≠ 1000 ∧ code ≠ 1005 then
        closed.sendClient (systemError [(lit "message", .str (lit "Upstream Closed (" ++ showNat code ++
            lit "): " ++ orText (some reason) (lit "No Reason"))),
          (lit "code", .num (.finite code))])
      else closed
    told.closeClient
  else closed

/-- The handler of a sleep cue on the event bus. -/
def onSleepCue (settings : LiveSettings) (payload : Json) (r : LiveRelay) : LiveRelay :=
  let user := payload.get (lit "userId")
  if (payload.get (lit "sessionId")).bind Json.text? = some r.sessionId ∧
      user.bind Json.text? = r.userId ∧ (r.userId = none → user.isNone) then
    if r.clientWs = .opened then
      let confidence := match payload.get (lit "confidence") with
        | some (.num x) => x
        | _ => .finite 1
      let told := r.sendClient (sleepFrame confidence ((payload.get (lit "cue")).bind Json.text?))
      let paced := told.onLiveSession fun s => s.sendText settings.sleepPacingOverrideInstruction
      match r.userId.filter fun userId => !userId.isEmpty with
      | none => paced
      | some userId => { paced with analyzed := paced.analyzed ++ [(r.sessionId, userId)] }
    else r
  else r

/-- The interruption that was assessed. -/
def assessed (r : LiveRelay) : LiveRelay :=
  ({ r with assessing := r.assessing - 1 } : LiveRelay).sendClient interruptedFrame

end LiveRelay

/-! ## Runs -/

/-- What happens to the relay of a client. -/
inductive RelayAction where
  /-- A chunk of audio of the client. -/
  | binary (chunk : List UInt8)
  /-- A text of the client, with the value of `GEMINI_API_KEY` at that time. -/
  | text (data : Text) (env : Option Text)
  /-- A start that is awaited goes on. -/
  | started (k : ℕ)
  /-- The socket of a session opens. -/
  | opened (i : ℕ)
  /-- A message arrives on a session, at a time. -/
  | message (i : ℕ) (frame : GeminiFrame) (now : ℤ)
  /-- The socket of a session begins to close, because Gemini closes it or by an error. -/
  | upstreamClosing (i : ℕ)
  | upstreamClosed (i : ℕ) (code : ℕ) (reason : Text)
  /-- The assessment of an interruption ends. -/
  | assessed
  | sleepCue (payload : Json)
  | clientClosed
  | clientFailed

namespace LiveRelay

/-- The relay after an action, if it can happen. -/
def step (settings : LiveSettings) (r : LiveRelay) : RelayAction → Option LiveRelay
  | .binary chunk => if r.clientWs = .closed then none else some (r.onBinary chunk)
  | .text data env => if r.clientWs = .closed then none else some (r.onText settings data env)
  | .started k => r.starting[k]?.map fun start =>
    ({ r with starting := r.starting.eraseIdx k } : LiveRelay).started start.session
  | .opened i => r.sessions[i]?.bind fun s =>
    if s.readyState = .connecting then
      some (r.updateSession i fun s =>
        { s with toGeminiLiveSession := s.toGeminiLiveSession.onOpen settings.liveModel })
    else none
  | .message i frame _ => r.sessions[i]?.bind fun s =>
    if s.readyState = .opened ∨ s.readyState = .closing then some (r.onMessage settings s frame.data)
    else none
  | .upstreamClosing i => r.sessions[i]?.bind fun s =>
    if s.readyState.isLive then
      some (r.updateSession i fun s => { s with readyState := .closing })
    else none
  | .upstreamClosed i code reason => r.sessions[i]?.bind fun s =>
    if s.readyState = .closed then none else some (r.onUpstreamClose i s code reason)
  | .assessed => if 0 < r.assessing then some r.assessed else none
  | .sleepCue payload => some ((onSleepCue settings payload)^[r.sessions.countP fun s => s.listening] r)
  | .clientClosed =>
    if r.clientWs = .closed then none
    else some { r.onLiveSession GeminiLiveSession.disconnect with clientWs := .closed }
  | .clientFailed =>
    if r.clientWs = .closed then none
    else some { r.onLiveSession GeminiLiveSession.disconnect with clientWs := .closing }

end LiveRelay

end DreamWeaver.Live
