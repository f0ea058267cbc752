import DreamWeaver.Client.MicProcessor
import DreamWeaver.Worker.Ordering
import DreamWeaver.Worker.Transparency

/-! # From the microphone to Gemini

`useGeminiLive` (`src/presentation/hooks/useGeminiLive.ts`) sends the arrays that the microphone worklet posts as
documents in base64, among the setup, the greeting and the answers to tool calls; the worker relays them to Gemini. The
port of the worklet and the socket keep the order of what they carry. A run interleaves the audio thread, the main
thread and the worker in every way, and the socket is opened and left once. -/

namespace DreamWeaver.Client

open Transitions Worker

/-! ## What the client sends -/

/-- A value of the language: its objects have every key once, and its numbers are doubles. -/
abbrev Value := { v : Json // v.Proper }

/-- The bytes of the buffer of an `Int16Array`. -/
def bytesOf (pcm16 : List Int16) : List UInt8 := pcm16.flatMap fun v => leBytes 2 v.toInt

/-- What `micNode.port.onmessage` sends of an array. -/
def micText (pcm16 : List Int16) : Text :=
  stringify (.obj [(lit "realtime_input", .obj [(lit "media_chunks", .arr [.obj [
    (lit "mime_type", .str (lit "audio/pcm;rate=16000")),
    (lit "data", .str (encodeBase64 (bytesOf pcm16)))]])])])

/-- `JSON.stringify({ setup: config })`, where `config` may be missing. -/
def setupText (config : Option Value) : Text :=
  stringify (.obj (config.elim [] fun config => [(lit "setup", config.val)]))

/-- What asks for the greeting. -/
def greeting : Json :=
  .obj [(lit "client_content", .obj [
    (lit "turns", .arr [.obj [
      (lit "role", .str (lit "user")),
      (lit "parts", .arr [.obj [(lit "text", .str (lit ("Please start the bedtime ritual now with a short calming " ++
        "greeting and begin guiding the session.")))]])]]),
    (lit "turn_complete", .bool true)])]

/-- An entry of an object literal, which `JSON.stringify` leaves out where the value is `undefined`. -/
def entry (key : String) (v : Option Value) : List (Text × Json) := v.elim [] fun v => [(lit key, v.val)]

/-- The answer to a tool call. -/
def toolResponse (name : Text) (id result : Option Value) : Json :=
  .obj [(lit "toolResponse", .obj [(lit "functionResponses", .arr [.obj
    ((lit "name", .str name) :: entry "id" id ++ [(lit "response", .obj (entry "result" result))])])])]

/-! ## The session -/

/-- `ws.readyState` -/
inductive ReadyState where
  | connecting
  | opened
  | left
  deriving DecidableEq

/-- The microphone, how many of the arrays that it has posted were handled, the socket of the client, the texts on
their way to the worker, and the worker. -/
structure Uplink where
  mic : MicProcessor
  handled : ℕ
  readyState : ReadyState
  wire : List Text
  worker : LiveWebSocket

/-- What happens in a session. -/
inductive UplinkAction where
  /-- The audio thread hands a block to the worklet. -/
  | process (inputs : List (List (List JsNumber)))
  /-- `micNode.port.onmessage` -/
  | micMessage
  /-- `ws.onopen` -/
  | opened (config : Option Value)
  /-- `handleToolCall` has its answer. -/
  | toolAnswered (name : Text) (id result : Option Value)
  /-- The socket of the client begins to close. -/
  | leaves
  /-- The worker is given the next text of the client; `sends` says whether its `send` returns. -/
  | arrives (now : ℤ) (sends : Bool)
  /-- Another event of the worker. -/
  | event (a : WorkerAction)

namespace Uplink

/-- A session that begins at a time. -/
def start (now : ℤ) : Uplink := ⟨.start, 0, .connecting, [], .accepted now⟩

/-- `send` on the socket: what is sent on a socket that was left is dropped. -/
def send (s : Uplink) (text : Text) : Uplink :=
  if s.readyState = .opened then { s with wire := s.wire ++ [text] } else s

/-- The arrays that wait at the port of the worklet. -/
def port (s : Uplink) : List PostedBuffer := s.mic.posted.drop s.handled

/-- The session after an action, if it can happen. -/
def step (platform : Platform) (s : Uplink) : UplinkAction → Option Uplink
  | .process inputs => some { s with mic := s.mic.process inputs }
  | .micMessage =>
    match s.port with
    | [] => none
    -- the check of the ready state is that of `send`
    | message :: _ => some ({ s with handled := s.handled + 1 }.send (micText message.data))
  | .opened config =>
    if s.readyState = .connecting then
      some (({ s with readyState := .opened }.send (setupText config)).send (stringify greeting))
    else none
  | .toolAnswered name id result =>
    -- tool calls come through the socket, so it was open before
    if s.readyState = .connecting then none else some (s.send (stringify (toolResponse name id result)))
  | .leaves => some { s with readyState := .left }
  | .arrives now sends =>
    match s.wire with
    | [] => none
    | text :: wire => (s.worker.step platform (.clientMessage (.text text) now sends)).map fun worker =>
        { s with wire := wire, worker := worker }
  | .event a =>
    if a.message?.isSome then none else (s.worker.step platform a).map fun worker => { s with worker := worker }

end Uplink

/-! ## What Gemini hears -/

/-- The samples that a text carries, if it is a message of audio. -/
def heard (text : Text) : Option (List ℤ) :=
  ((parseJson text).toOption.bind audioPayload).map fun digits => int16s (decodeBase64 digits)

/-- The samples of an array. -/
def samples (pcm16 : List Int16) : List ℤ := pcm16.map Int16.toInt

/-- What the client sends of an array is the worker's own message of audio. -/
theorem micText_eq (pcm16 : List Int16) : micText pcm16 = stringify (audioMessage (bytesOf pcm16)) := rfl

theorem length_bytesOf (pcm16 : List Int16) : (bytesOf pcm16).length = 2 * pcm16.length := by
  simp [bytesOf, List.length_flatMap, Nat.mul_comm]

/-- Samples of 16 bits are in the bytes of their array. -/
theorem int16s_bytesOf (pcm16 : List Int16) : int16s (bytesOf pcm16) = samples pcm16 := by
  have hbounds : ∀ v ∈ samples pcm16, -32768 ≤ v ∧ v ≤ 32767 := by
    intro v hv
    obtain ⟨x, -, rfl⟩ := List.mem_map.mp hv
    have hlow := x.le_toInt
    have hhigh := x.toInt_lt
    omega
  have hbytes : bytesOf pcm16 = (samples pcm16).flatMap (leBytes 2) := (List.flatMap_map Int16.toInt (leBytes 2) pcm16).symm
  rw [hbytes, int16s_flatMap hbounds]

/-- **An array is heard as it was posted.** -/
theorem heard_micText (pcm16 : List Int16) : heard (micText pcm16) = some (samples pcm16) := by
  have hpayload : audioPayload (audioMessage (bytesOf pcm16)) = some (encodeBase64 (bytesOf pcm16)) := rfl
  rw [heard, micText_eq, parseJson_audioMessage, Except.toOption, Option.bind_some, hpayload, Option.map_some,
    decodeBase64_encodeBase64, int16s_bytesOf]

/-- A document without audio is not heard. -/
theorem heard_stringify {doc : Json} (h : doc.Proper) (hget : doc.get (lit "realtime_input") = none) :
    heard (stringify doc) = none := by
  have hpayload : audioPayload doc.written = none := by
    rw [audioPayload, h.get_written, hget]
    rfl
  rw [heard, parseJson_stringify h, Except.toOption, Option.bind_some, hpayload]
  rfl

/-- A document with one field, which is not the audio. -/
theorem heard_single {key : Text} {v : Json} (hv : v.Proper) (hkey : key ≠ lit "realtime_input") :
    heard (stringify (.obj [(key, v)])) = none := by
  refine heard_stringify (hv.single key) ?_
  simp [Json.get, Json.field?, hkey]

/-! ## What the worker makes of the texts -/

theorem heard_setupOnly (setup : Option Value) : heard (setupOnly (setup.map Subtype.val)) = none := by
  cases setup with
  | none => exact heard_stringify (.obj List.nodup_nil (by simp)) rfl
  | some setup => exact heard_single setup.2 (by decide)

/-- A text that is cleaned is kept, or becomes a setup of its own. -/
theorem sanitizeSetup_kinds (text : Text) :
    sanitizeSetup text = text ∨ ∃ setup : Option Value, sanitizeSetup text = setupOnly (setup.map Subtype.val) := by
  unfold sanitizeSetup
  split
  · split
    · exact Or.inl rfl
    · exact Or.inl rfl
    · rename_i parsed _ hparse
      right
      cases hsetup : parsed.get (lit "setup") with
      | none => exact ⟨none, rfl⟩
      | some setup => exact ⟨some ⟨setup, (proper_of_parseJson hparse).get hsetup⟩, rfl⟩
  · exact Or.inl rfl

theorem normalizeSetup_kinds (toUpperCase : Text → Text) (text : Text) : normalizeSetup toUpperCase text = text ∨
    ∃ setup : Option Value, normalizeSetup toUpperCase text = setupOnly (setup.map Subtype.val) := by
  cases hsetup : setupOf text with
  | none => exact Or.inl (normalizeSetup_of_none hsetup)
  | some setup =>
    rw [normalizeSetup_eq hsetup]
    cases hnormal : normalizeModalities toUpperCase setup with
    | none => exact Or.inl rfl
    | some setup' =>
      exact Or.inr ⟨some ⟨setup', proper_of_normalizeModalities (proper_of_setupOf hsetup) hnormal⟩, rfl⟩

/-- **The worker makes no audio of a text that has none.** -/
theorem heard_rewriteSetup (toUpperCase : Text → Text) {text : Text} (h : heard text = none) :
    heard (rewriteSetup toUpperCase text) = none := by
  have hkinds {text text' : Text} (h : heard text = none)
      (hkinds : text' = text ∨ ∃ setup : Option Value, text' = setupOnly (setup.map Subtype.val)) :
      heard text' = none := by
    rcases hkinds with rfl | ⟨setup, rfl⟩
    · exact h
    · exact heard_setupOnly setup
  unfold rewriteSetup
  split
  · exact hkinds (hkinds h (sanitizeSetup_kinds text)) (normalizeSetup_kinds toUpperCase _)
  · exact h

/-- The name of the input occurs in the envelope of audio. -/
theorem includes_realtime_envelope (bytes : List UInt8) :
    includes (stringify (audioMessage bytes)) (lit "\"realtime_input\"") = true := by
  have hfront : lit "\"realtime_input\"" <:+: envelopeFront := by
    rw [← includes_iff, envelopeFront, lit_ofList]
    decide +kernel
  rw [includes_iff, stringify_audioMessage, List.append_assoc]
  exact hfront.trans (List.prefix_append _ _).isInfix

/-- The worker takes the text of an array for audio and leaves it as it is. -/
theorem prepare_micText (toUpperCase : Text → Text) (pcm16 : List Int16) :
    prepare toUpperCase (.text (micText pcm16)) = ⟨micText pcm16, true⟩ := by
  rw [prepare, convertBinary]
  dsimp only
  rw [micText_eq, rewriteSetup, not_includes_setup_envelope, includes_realtime_envelope, if_neg Bool.false_ne_true]

/-- **The checks let a full array through**, unless the worker is closing: it is short enough, and no rate limit is
for audio. -/
theorem admits_micText {platform : Platform} {w : LiveWebSocket} {pcm16 : List Int16} (hlength : pcm16.length = 1024)
    (hclosing : w.isClosing = false) (now : ℤ) :
    w.admits platform (.text (micText pcm16)) now = some (micText pcm16) := by
  have hshort : (micText pcm16).length ≤ maxTextBytes := by
    rw [micText_eq, length_envelope, length_bytesOf, hlength]
    decide
  unfold LiveWebSocket.admits
  dsimp only
  rw [prepare_micText, hclosing, if_neg (by simpa using hshort), Bool.not_true, Bool.false_and,
    if_neg Bool.false_ne_true]

/-! ## What is on its way -/

/-- What the worker has sent to Gemini; before Gemini's socket is open, what waits for it. -/
def passed (w : LiveWebSocket) : List Text := if w.geminiOpen then w.toGemini else w.audioBufferQueue

namespace Uplink

variable {platform : Platform} {s s' : Uplink} {a : UplinkAction} {actions : List UplinkAction}
  {received : List JsNumber} {text : Text} {now : ℤ}

/-- The samples of arrays, array by array. -/
def blocksOf (posted : List PostedBuffer) : List (List ℤ) := posted.map fun message => samples message.data

/-- The arrays between the microphone and Gemini, from the first to the last. -/
def carried (s : Uplink) : List (List ℤ) :=
  (passed s.worker).filterMap heard ++ s.wire.filterMap heard ++ blocksOf s.port

/-- A text that the client sends: it is heard as nothing, or it is that of a full array. -/
def IsSent (text : Text) : Prop := heard text = none ∨ ∃ pcm16 : List Int16, pcm16.length = 1024 ∧ text = micText pcm16

/-- What holds in every state; `received` are the samples that have come in. -/
structure Sound (received : List JsNumber) (s : Uplink) : Prop where
  mic : MicProcessor.Holds received s.mic
  handled : s.handled ≤ s.mic.posted.length
  sent : ∀ text ∈ s.wire, IsSent text
  unopened : s.worker.geminiOpen = false → s.worker.toGemini = []

/-- **The condition on an action** under which nothing is lost: an array comes to the main thread while the socket is
open, a text comes to the worker while it is not closing and finds room in the queue or a socket that takes it, and
the opening sends the whole queue. -/
def KeepsAll (s : Uplink) : UplinkAction → Prop
  | .micMessage => s.readyState = .opened
  | .arrives _ sends => s.worker.isClosing = false ∧
      (s.worker.geminiOpen = true → sends = true) ∧
      (s.worker.geminiOpen = false → s.worker.audioBufferQueue.length < maxQueued)
  | .event (.geminiOpened sendable) => s.worker.audioBufferQueue.length ≤ sendable
  | _ => True

/-- The samples that an action brings. -/
def broughtBy : UplinkAction → List JsNumber
  | .process inputs => (MicProcessor.channelOf inputs).getD []
  | _ => []

/-! ## The worker -/

theorem passed_of_still {w w' : LiveWebSocket} (h : w.Still w') : passed w' = passed w := by
  rw [passed, passed, h.geminiOpen, h.toGemini, h.audioBufferQueue]

/-- What the checks let through is heard as the text that came. -/
theorem heard_admitted {w : LiveWebSocket} {data : Text} (hsent : IsSent text)
    (h : w.admits platform (.text text) now = some data) : heard data = heard text := by
  have hdata : data = (prepare platform.toUpperCase (.text text)).data := by
    unfold LiveWebSocket.admits at h
    dsimp only at h
    split at h
    · cases h
    · split at h
      · cases h
      · exact (Option.some.inj h).symm
  -- only a setup is rewritten, and it is heard as nothing before and behind
  rcases hsent with hnone | ⟨pcm16, -, rfl⟩
  · rw [hnone, hdata]
    exact heard_rewriteSetup _ hnone
  · rw [hdata, prepare_micText]

/-- A text that is forwarded comes behind what was passed, or is lost, or the oldest text that waits is. -/
theorem passed_forward (w : LiveWebSocket) (data : Text) (sends : Bool) :
    (passed (w.forward platform data sends)).Sublist (passed w ++ [data]) := by
  rcases LiveWebSocket.forward_cases platform w data sends with ⟨hopen, heq⟩ | ⟨-, hstill, -⟩ | ⟨hclosed, heq⟩
  · rw [heq, passed, passed, if_pos hopen, if_pos hopen]
  · rw [passed_of_still hstill]
    exact List.sublist_append_left _ _
  · rw [heq, passed, passed, hclosed, if_neg Bool.false_ne_true, if_neg Bool.false_ne_true]
    exact pushBounded_sublist _ _ _

theorem passed_forward_eq {w : LiveWebSocket} {sends : Bool} (hsends : w.geminiOpen = true → sends = true)
    (hroom : w.geminiOpen = false → w.audioBufferQueue.length < maxQueued) (data : Text) :
    passed (w.forward platform data sends) = passed w ++ [data] := by
  rw [LiveWebSocket.forward]
  cases hopen : w.geminiOpen with
  | true => simp [hsends hopen, passed, hopen]
  | false => simp [passed, hopen, pushBounded_of_lt (hroom hopen)]

/-- **A text that comes to the worker** is heard behind what was passed, or something is lost; nothing is lost where
the condition holds. -/
theorem passed_clientMessage {w : LiveWebSocket} (hsent : IsSent text) (now : ℤ) (sends : Bool) :
    ((passed (w.onClientMessage platform (.text text) now sends)).filterMap heard).Sublist
        ((passed w).filterMap heard ++ [text].filterMap heard) ∧
      (w.isClosing = false → (w.geminiOpen = true → sends = true) →
        (w.geminiOpen = false → w.audioBufferQueue.length < maxQueued) →
        (passed (w.onClientMessage platform (.text text) now sends)).filterMap heard =
          (passed w).filterMap heard ++ [text].filterMap heard) := by
  have hchecks := LiveWebSocket.atChecks_still platform w (.text text) now
  -- a text that is not let through is no array, unless the worker is closing
  have hrefused (hnone : w.admits platform (.text text) now = none) (hclosing : w.isClosing = false) :
      [text].filterMap heard = [] := by
    rcases hsent with hsilent | ⟨pcm16, hlength, rfl⟩
    · rw [List.filterMap_cons_none hsilent, List.filterMap_nil]
    · rw [admits_micText hlength hclosing] at hnone
      cases hnone
  have hkept {w' : LiveWebSocket} (hstill : w.Still w') :
      ((passed w').filterMap heard).Sublist ((passed w).filterMap heard ++ [text].filterMap heard) := by
    rw [passed_of_still hstill]
    exact List.sublist_append_left _ _
  rcases LiveWebSocket.onClientMessage_cases platform w (.text text) now sends with
    ⟨hclosing, -, heq⟩ | ⟨hclosing, hnone, code, reason, -, heq⟩ | ⟨hclosing, data, hsome, heq⟩
  · rw [heq]
    refine ⟨hkept (.refl w), fun hopen => ?_⟩
    rw [hclosing] at hopen
    cases hopen
  · have hstill : w.Still ((w.atChecks platform (.text text) now).close platform .client code reason) :=
      ⟨hchecks.geminiOpen, hchecks.audioBufferQueue, hchecks.toGemini, hchecks.isClosing⟩
    rw [heq]
    refine ⟨hkept hstill, fun _ _ _ => ?_⟩
    rw [passed_of_still hstill, hrefused hnone hclosing, List.append_nil]
  · -- what is forwarded may be another text, but it is heard the same
    have hdata : [data].filterMap heard = [text].filterMap heard := by
      rw [List.filterMap_cons, List.filterMap_cons, heard_admitted hsent hsome, List.filterMap_nil]
    rw [heq, ← hdata, ← List.filterMap_append, ← passed_of_still hchecks]
    refine ⟨(passed_forward _ data sends).filterMap heard, fun _ hsends hroom => ?_⟩
    rw [passed_forward_eq (by rwa [hchecks.geminiOpen]) (by rwa [hchecks.geminiOpen, hchecks.audioBufferQueue])]

/-- **Another event of the worker** takes nothing in. -/
theorem passed_event {w w' : LiveWebSocket} {a : WorkerAction} (hnone : a.message? = none)
    (hunopened : w.geminiOpen = false → w.toGemini = []) (hstep : w.step platform a = some w') :
    (passed w').Sublist (passed w) ∧
      ((∀ sendable, a = .geminiOpened sendable → w.audioBufferQueue.length ≤ sendable) → passed w' = passed w) := by
  rcases LiveWebSocket.step_traffic hstep with ⟨-, hstill⟩ | ⟨sendable, rfl, hclosed, rfl⟩ |
    ⟨message, now, sends, data, rfl, -⟩
  · rw [passed_of_still hstill]
    exact ⟨List.Sublist.refl _, fun _ => rfl⟩
  · -- the opening sends what has waited
    have hopened : passed (w.onGeminiOpen sendable) = w.audioBufferQueue.take sendable := by
      rw [passed, LiveWebSocket.onGeminiOpen, if_pos rfl, hunopened hclosed, List.nil_append]
    have hbefore : passed w = w.audioBufferQueue := by rw [passed, hclosed, if_neg Bool.false_ne_true]
    rw [hopened, hbefore]
    exact ⟨List.take_sublist _ _, fun hall => List.take_of_length_le (hall sendable rfl)⟩
  · cases hnone

/-- Nothing is sent to Gemini before its socket is open. -/
theorem unopened_step {w w' : LiveWebSocket} {a : WorkerAction} (h : w.geminiOpen = false → w.toGemini = [])
    (hstep : w.step platform a = some w') : w'.geminiOpen = false → w'.toGemini = [] := by
  have hstill {w w' : LiveWebSocket} (h : w.geminiOpen = false → w.toGemini = []) (hstill : w.Still w') :
      w'.geminiOpen = false → w'.toGemini = [] := by
    rw [hstill.geminiOpen, hstill.toGemini]
    exact h
  rcases LiveWebSocket.step_traffic hstep with ⟨-, hsame⟩ | ⟨sendable, -, -, rfl⟩ |
    ⟨message, now, sends, data, -, -, -, rfl⟩
  · exact hstill h hsame
  · intro hclosed
    cases hclosed
  · have hchecks := hstill h (LiveWebSocket.atChecks_still platform w message now)
    rcases LiveWebSocket.forward_cases platform (w.atChecks platform message now) data sends with
      ⟨hopen, heq⟩ | ⟨-, hsame, -⟩ | ⟨-, heq⟩
    · rw [heq]
      intro hclosed
      rw [hopen] at hclosed
      cases hclosed
    · exact hstill hchecks hsame
    · rw [heq]
      exact hchecks

/-! ## The texts of the client -/

theorem heard_setupText (config : Option Value) : heard (setupText config) = none := by
  rw [setupText]
  cases config with
  | none => exact heard_stringify (.obj List.nodup_nil (by simp)) rfl
  | some config => exact heard_single config.2 (by decide)

theorem proper_greeting : greeting.Proper := by
  have hpart : (Json.arr [.obj [(lit "text", .str (lit ("Please start the bedtime ritual now with a short calming " ++
      "greeting and begin guiding the session.")))]]).Proper :=
    .arr (by simpa using (Json.Proper.str _).single _)
  have hturn : (Json.obj [(lit "role", .str (lit "user")), (lit "parts", .arr [.obj [(lit "text",
      .str (lit ("Please start the bedtime ritual now with a short calming " ++
        "greeting and begin guiding the session.")))]])]).Proper :=
    .obj (by decide) (by simpa using ⟨Json.Proper.str _, hpart⟩)
  refine Json.Proper.single (.obj (by decide) ?_) _
  simpa using ⟨.arr (by simpa using hturn), Json.Proper.bool _⟩

theorem heard_greeting : heard (stringify greeting) = none := heard_stringify proper_greeting (by decide)

/-- An entry that may be missing, before others with other keys. -/
theorem proper_entries {key : String} {v : Option Value} {fields : List (Text × Json)} (h : (Json.obj fields).Proper)
    (hkey : lit key ∉ fields.map Prod.fst) : (Json.obj (entry key v ++ fields)).Proper := by
  cases v with
  | none => exact h
  | some v =>
    cases h with
    | obj hkeys hvalues =>
      refine .obj (List.nodup_cons.mpr ⟨hkey, hkeys⟩) fun e he => ?_
      rcases List.mem_cons.mp he with rfl | he
      · exact v.2
      · exact hvalues e he

theorem heard_toolResponse (name : Text) (id result : Option Value) :
    heard (stringify (toolResponse name id result)) = none := by
  have hresult : (Json.obj (entry "result" result)).Proper := by
    rw [← List.append_nil (entry "result" result)]
    exact proper_entries (.obj List.nodup_nil (by simp)) (by simp)
  have hid : lit "id" ≠ lit "response" := by decide
  have hrest : (Json.obj (entry "id" id ++ [(lit "response", .obj (entry "result" result))])).Proper :=
    proper_entries (hresult.single _) (by simpa using hid)
  have hname : lit "name" ∉ (entry "id" id ++ [(lit "response", Json.obj (entry "result" result))]).map Prod.fst := by
    cases id <;> simp [entry] <;> decide
  have hcall : (Json.obj ((lit "name", .str name) :: entry "id" id ++
      [(lit "response", .obj (entry "result" result))])).Proper :=
    proper_entries (v := some ⟨.str name, .str name⟩) hrest hname
  exact heard_single ((Json.Proper.arr (by simpa using hcall)).single _) (by decide)

/-! ## One step -/

/-- A text that is sent is on its way, or dropped. -/
theorem send_cases (s : Uplink) (text : Text) :
    s.send text = { s with wire := s.wire ++ [text] } ∧ s.readyState = .opened ∨
      s.send text = s ∧ s.readyState ≠ .opened := by
  by_cases h : s.readyState = .opened
  · exact Or.inl ⟨if_pos h, h⟩
  · exact Or.inr ⟨if_neg h, h⟩

theorem Sound.send (h : s.Sound received) (hsent : IsSent text) : (s.send text).Sound received := by
  rcases s.send_cases text with ⟨heq, -⟩ | ⟨heq, -⟩
  · rw [heq]
    refine ⟨h.mic, h.handled, fun text' hmem => ?_, h.unopened⟩
    rcases List.mem_append.mp hmem with hmem | hmem
    · exact h.sent text' hmem
    · rwa [List.mem_singleton.mp hmem]
  · rwa [heq]

/-- A text that is heard as nothing changes nothing on the way. -/
theorem carried_send (hnone : heard text = none) : (s.send text).carried = s.carried := by
  rcases s.send_cases text with ⟨heq, -⟩ | ⟨heq, -⟩
  · rw [heq, carried, carried, List.filterMap_append, List.filterMap_cons_none hnone, List.filterMap_nil,
      List.append_nil]
    rfl
  · rw [heq]

theorem posted_send (s : Uplink) (text : Text) : (s.send text).mic = s.mic := by
  rcases s.send_cases text with ⟨heq, -⟩ | ⟨heq, -⟩ <;> rw [heq]

/-- The next array leaves the port. -/
theorem port_succ {message : PostedBuffer} {rest : List PostedBuffer} (h : s.port = message :: rest) :
    s.mic.posted.drop (s.handled + 1) = rest := by
  rw [← List.drop_drop, ← port, h]
  rfl

/-- What an action changes of what was posted and is on its way: what is lost, and that nothing is where the condition
holds. -/
structure Moves (s s' : Uplink) (keeps : Prop) : Prop where
  order : ∃ new, blocksOf s'.mic.posted = blocksOf s.mic.posted ++ new ∧ s'.carried.Sublist (s.carried ++ new)
  all : keeps → ∃ new, blocksOf s'.mic.posted = blocksOf s.mic.posted ++ new ∧ s'.carried = s.carried ++ new

/-- An action at which nothing is posted. -/
theorem Moves.of_posted {keeps : Prop} (hposted : s'.mic.posted = s.mic.posted)
    (horder : s'.carried.Sublist s.carried) (hall : keeps → s'.carried = s.carried) : s.Moves s' keeps where
  order := ⟨[], by rw [hposted, List.append_nil], by rwa [List.append_nil]⟩
  all hkeeps := ⟨[], by rw [hposted, List.append_nil], by rw [hall hkeeps, List.append_nil]⟩

theorem Moves.of_eq {keeps : Prop} (hposted : s'.mic.posted = s.mic.posted) (heq : s'.carried = s.carried) :
    s.Moves s' keeps :=
  .of_posted hposted (heq ▸ List.Sublist.refl _) fun _ => heq

theorem step_process (h : s.Sound received) (inputs : List (List (List JsNumber))) :
    ({ s with mic := s.mic.process inputs } : Uplink).Sound (received ++ (MicProcessor.channelOf inputs).getD []) ∧
      s.Moves { s with mic := s.mic.process inputs } True := by
  obtain ⟨new, hnew⟩ := MicProcessor.posted_process s.mic inputs
  have hposted : blocksOf (s.mic.process inputs).posted = blocksOf s.mic.posted ++ blocksOf new := by
    rw [← hnew, blocksOf, blocksOf, blocksOf, List.map_append]
  have hport : ({ s with mic := s.mic.process inputs } : Uplink).port = s.port ++ new := by
    rw [port, port, ← hnew, List.drop_append_of_le_length h.handled]
  have hcarried : ({ s with mic := s.mic.process inputs } : Uplink).carried = s.carried ++ blocksOf new := by
    rw [carried, carried, hport, List.append_assoc, List.append_assoc, List.append_assoc, blocksOf, blocksOf, blocksOf,
      List.map_append]
  refine ⟨⟨h.mic.process inputs, ?_, h.sent, h.unopened⟩, ⟨blocksOf new, hposted, ?_⟩,
    fun _ => ⟨blocksOf new, hposted, hcarried⟩⟩
  · exact h.handled.trans (MicProcessor.posted_process s.mic inputs).length_le
  · rw [hcarried]

theorem step_micMessage {message : PostedBuffer} {rest : List PostedBuffer} (h : s.Sound received)
    (hport : s.port = message :: rest) :
    ({ s with handled := s.handled + 1 }.send (micText message.data)).Sound received ∧
      s.Moves ({ s with handled := s.handled + 1 }.send (micText message.data)) (s.readyState = .opened) := by
  have hmem : message ∈ s.mic.posted := List.mem_of_mem_drop (hport ▸ List.mem_cons_self : message ∈ s.port)
  have hlength : message.data.length = 1024 := h.mic.blocks.full _ (List.mem_map_of_mem hmem)
  have hhandled : s.handled < s.mic.posted.length := by
    by_contra hle
    rw [port, List.drop_eq_nil_of_le (not_lt.mp hle)] at hport
    cases hport
  have hsound : ({ s with handled := s.handled + 1 } : Uplink).Sound received :=
    ⟨h.mic, hhandled, h.sent, h.unopened⟩
  refine ⟨hsound.send (Or.inr ⟨message.data, hlength, rfl⟩), ?_⟩
  have hrest := port_succ hport
  rcases send_cases { s with handled := s.handled + 1 } (micText message.data) with ⟨heq, -⟩ | ⟨heq, hleft⟩
  · rw [heq]
    refine Moves.of_eq rfl ?_
    rw [carried, carried, port, hrest, hport, List.filterMap_append, List.filterMap_cons_some (heard_micText _)]
    simp [blocksOf]
  · -- the socket is not open, and the array is lost
    rw [heq]
    refine Moves.of_posted rfl ?_ fun hopen => absurd hopen hleft
    rw [carried, carried, port, hrest, hport]
    exact List.Sublist.append_left (List.sublist_cons_self _ _) _

theorem step_arrives {wire : List Text} {sends : Bool} (h : s.Sound received) (hwire : s.wire = text :: wire) :
    let worker := s.worker.onClientMessage platform (.text text) now sends
    ({ s with wire := wire, worker := worker } : Uplink).Sound received ∧
      s.Moves { s with wire := wire, worker := worker } (s.KeepsAll (.arrives now sends)) := by
  intro worker
  have hsent : ∀ text' ∈ text :: wire, IsSent text' := hwire ▸ h.sent
  obtain ⟨horder, hall⟩ :=
    passed_clientMessage (w := s.worker) (hsent text List.mem_cons_self) now sends
  have hcarried : s.carried =
      ((passed s.worker).filterMap heard ++ [text].filterMap heard) ++ wire.filterMap heard ++ blocksOf s.port := by
    rw [carried, hwire, ← List.singleton_append, List.filterMap_append, List.append_assoc, List.append_assoc,
      List.append_assoc, List.append_assoc]
  refine ⟨⟨h.mic, h.handled, fun text' hmem => hsent text' (List.mem_cons_of_mem _ hmem), ?_⟩, .of_posted rfl ?_ ?_⟩
  · exact unopened_step (a := .clientMessage (.text text) now sends) h.unopened rfl
  · rw [hcarried]
    exact (horder.append_right _).append_right _
  · rintro ⟨hclosing, hsends, hroom⟩
    rw [hcarried, ← hall hclosing hsends hroom]
    rfl

theorem step_event {worker : LiveWebSocket} {a : WorkerAction} (h : s.Sound received) (hnone : a.message? = none)
    (hstep : s.worker.step platform a = some worker) :
    ({ s with worker := worker } : Uplink).Sound received ∧
      s.Moves { s with worker := worker } (s.KeepsAll (.event a)) := by
  obtain ⟨horder, hall⟩ := passed_event hnone h.unopened hstep
  refine ⟨⟨h.mic, h.handled, h.sent, unopened_step h.unopened hstep⟩, .of_posted rfl ?_ fun hkeeps => ?_⟩
  · exact ((horder.filterMap heard).append_right _).append_right _
  · rw [carried, carried, hall fun sendable heq => ?_]
    · rfl
    · subst heq
      exact hkeeps

/-- An action that brings no samples. -/
theorem Sound.brings_none {p : Prop} {a : UplinkAction} (hnone : broughtBy a = []) (h : s.Sound received ∧ p) :
    s.Sound (received ++ broughtBy a) ∧ p := by
  rwa [hnone, List.append_nil]

/-- **One step**: the state stays sound, what is on its way keeps its order, and where the condition holds nothing is
lost. -/
theorem step_moves (h : s.Sound received) (hstep : s.step platform a = some s') :
    s'.Sound (received ++ broughtBy a) ∧ s.Moves s' (s.KeepsAll a) := by
  cases a with
  | process inputs =>
    obtain rfl := Option.some.inj hstep
    exact step_process h inputs
  | micMessage =>
    refine Sound.brings_none rfl ?_
    cases hport : s.port with
    | nil => simp [step, hport] at hstep
    | cons message rest =>
      simp only [step, hport, Option.some.injEq] at hstep
      obtain rfl := hstep
      exact step_micMessage h hport
  | opened config =>
    refine Sound.brings_none rfl ?_
    by_cases hconnecting : s.readyState = .connecting
    · rw [step, if_pos hconnecting] at hstep
      obtain rfl := Option.some.inj hstep
      have hopened : ({ s with readyState := .opened } : Uplink).Sound received :=
        ⟨h.mic, h.handled, h.sent, h.unopened⟩
      refine ⟨(hopened.send (Or.inl (heard_setupText config))).send (Or.inl heard_greeting), .of_eq ?_ ?_⟩
      · rw [posted_send, posted_send]
      · rw [carried_send heard_greeting, carried_send (heard_setupText config)]
        rfl
    · rw [step, if_neg hconnecting] at hstep
      cases hstep
  | toolAnswered name id result =>
    refine Sound.brings_none rfl ?_
    rw [step] at hstep
    split at hstep
    · cases hstep
    · obtain rfl := Option.some.inj hstep
      refine ⟨h.send (Or.inl (heard_toolResponse name id result)), .of_eq ?_ ?_⟩
      · rw [posted_send]
      · rw [carried_send (heard_toolResponse name id result)]
  | leaves =>
    refine Sound.brings_none rfl ?_
    obtain rfl := Option.some.inj hstep
    exact ⟨⟨h.mic, h.handled, h.sent, h.unopened⟩, .of_eq rfl rfl⟩
  | arrives now sends =>
    refine Sound.brings_none rfl ?_
    cases hwire : s.wire with
    | nil => simp [step, hwire] at hstep
    | cons text wire =>
      simp only [step, hwire] at hstep
      obtain ⟨worker, hworker, rfl⟩ := Option.map_eq_some_iff.mp hstep
      obtain rfl := Option.some.inj hworker
      exact step_arrives h hwire
  | event a =>
    refine Sound.brings_none rfl ?_
    rw [step] at hstep
    split at hstep
    · cases hstep
    · rename_i hnone
      obtain ⟨worker, hworker, rfl⟩ := Option.map_eq_some_iff.mp hstep
      exact step_event h (by simpa using hnone) hworker

/-! ## Runs -/

theorem sound_start (now : ℤ) : (start now).Sound [] :=
  ⟨MicProcessor.holds_start, Nat.le_refl 0, fun _ hmem => (by cases hmem), fun _ => rfl⟩

/-- The arrays that were posted are the samples in blocks. -/
theorem Sound.inBlocks (h : s.Sound received) :
    ∃ rest, InBlocks 1024 (received.map quantized) (blocksOf s.mic.posted) rest := by
  have hint : (fun x => (MicProcessor.element x).toInt) = quantized := funext MicProcessor.toInt_element
  have hblocks := h.mic.blocks.map Int16.toInt
  rw [List.map_map, List.map_map] at hblocks
  rw [← hint]
  exact ⟨_, hblocks⟩

/-- What Gemini was sent leads what is on its way. -/
theorem Sound.sent_sublist (h : s.Sound received) : (s.worker.toGemini.filterMap heard).Sublist s.carried := by
  rw [carried, List.append_assoc]
  cases hopen : s.worker.geminiOpen with
  | true =>
    rw [passed, if_pos hopen]
    exact List.sublist_append_left _ _
  | false =>
    rw [h.unopened hopen]
    exact List.nil_sublist _

theorem run_order (hrun : runFrom (step platform) (start now) actions = some s) :
    s.Sound (actions.flatMap broughtBy) ∧ s.carried.Sublist (blocksOf s.mic.posted) := by
  have hstart : (start now).Sound [] ∧ (start now).carried.Sublist (blocksOf (start now).mic.posted) :=
    ⟨sound_start now, List.Sublist.refl _⟩
  have hend : s.Sound ([] ++ outputs (step platform) (fun _ => broughtBy) (start now) actions) ∧
      s.carried.Sublist (blocksOf s.mic.posted) :=
    run_outputs (I := fun received s => s.Sound received ∧ s.carried.Sublist (blocksOf s.mic.posted))
      (fun received s a s' h _ hstep => by
        obtain ⟨hsound, hmoves⟩ := step_moves h.1 hstep
        obtain ⟨new, hposted, horder⟩ := hmoves.order
        rw [hposted]
        exact ⟨hsound, horder.trans (h.2.append_right new)⟩) hstart along_true hrun
  rwa [List.nil_append, outputs_eq_flatMap hrun] at hend

theorem run_all (hrun : runFrom (step platform) (start now) actions = some s)
    (hkeeps : Along (step platform) KeepsAll (start now) actions) :
    s.Sound (actions.flatMap broughtBy) ∧ s.carried = blocksOf s.mic.posted := by
  have hend : s.Sound ([] ++ outputs (step platform) (fun _ => broughtBy) (start now) actions) ∧
      s.carried = blocksOf s.mic.posted :=
    run_outputs (I := fun received s => s.Sound received ∧ s.carried = blocksOf s.mic.posted)
      (fun received s a s' h hkeep hstep => by
        obtain ⟨hsound, hmoves⟩ := step_moves h.1 hstep
        obtain ⟨new, hposted, hall⟩ := hmoves.all hkeep
        exact ⟨hsound, by rw [hposted, hall, h.2]⟩) ⟨sound_start now, rfl⟩ hkeeps hrun
  rwa [List.nil_append, outputs_eq_flatMap hrun] at hend

/-- A block of silence that fills an array. -/
def silence : List (List (List JsNumber)) := [[List.replicate 1024 (.finite 0)]]

/-- Gemini's socket and then that of the client are opened, and an array of silence is sent. -/
def silentCall : List UplinkAction :=
  [.event (.geminiOpened 0), .opened none, .arrives 0 true, .process silence, .micMessage]

theorem posted_silence : ∃ message, (MicProcessor.start.process silence).posted = [message] := by
  have hlength := (MicProcessor.holds_start.process silence).blocks.length_blocks
  simp only [List.length_map, silence, MicProcessor.channelOf, List.head?_cons, Option.bind_some, Option.getD_some,
    List.nil_append, List.length_replicate] at hlength
  exact List.length_eq_one_iff.mp hlength

theorem silentCall_runs : ∃ s, runFrom (step plainPlatform) (start 0) silentCall = some s ∧
    Along (step plainPlatform) KeepsAll (start 0) silentCall := by
  obtain ⟨message, hmessage⟩ := posted_silence
  -- the array is at the port when the main thread comes to it
  have hlast (s : Uplink) (hmic : s.mic = .start) (hhandled : s.handled = 0) (hopened : s.readyState = .opened) :
      ∃ s', runFrom (step plainPlatform) s [.process silence, .micMessage] = some s' ∧
        Along (step plainPlatform) KeepsAll s [.process silence, .micMessage] := by
    have hport : ({ s with mic := s.mic.process silence } : Uplink).port = [message] := by
      rw [port, hmic, hhandled, hmessage, List.drop_zero]
    have hstep : step plainPlatform { s with mic := s.mic.process silence } .micMessage =
        some (({ s with mic := s.mic.process silence, handled := s.handled + 1 } : Uplink).send
          (micText message.data)) := by
      rw [step, hport]
    exact exists_run_cons rfl trivial (exists_run_cons hstep hopened ⟨_, rfl, trivial⟩)
  exact exists_run_cons rfl (Nat.zero_le 0) (exists_run_cons rfl trivial
    (exists_run_cons rfl ⟨rfl, fun _ => rfl, fun h => by cases h⟩ (hlast _ rfl rfl rfl)))

/-- **What Gemini hears**: in every run, of the blocks of 1024 samples into which the samples of the microphone fall,
some, unaltered and in their order. -/
theorem uplink_order (hrun : runFrom (step platform) (start now) actions = some s) :
    ∃ blocks rest, InBlocks 1024 ((actions.flatMap broughtBy).map quantized) blocks rest ∧
      (s.worker.toGemini.filterMap heard).Sublist blocks := by
  obtain ⟨hsound, horder⟩ := run_order hrun
  obtain ⟨rest, hblocks⟩ := hsound.inBlocks
  exact ⟨_, rest, hblocks, hsound.sent_sublist.trans horder⟩

theorem uplink_order_silence : ∃ s blocks rest, runFrom (step plainPlatform) (start 0) silentCall = some s ∧
    InBlocks 1024 ((silentCall.flatMap broughtBy).map quantized) blocks rest ∧
    (s.worker.toGemini.filterMap heard).Sublist blocks := by
  obtain ⟨s, hrun, -⟩ := silentCall_runs
  obtain ⟨blocks, rest, h⟩ := uplink_order hrun
  exact ⟨s, blocks, rest, hrun, h⟩

/-- **Nothing is lost** where the condition holds along the run: the blocks are those that Gemini was sent, or that wait
for its socket, then those on their way to the worker, then those at the port. -/
theorem uplink_lossless (hrun : runFrom (step platform) (start now) actions = some s)
    (hkeeps : Along (step platform) KeepsAll (start now) actions) :
    ∃ rest, InBlocks 1024 ((actions.flatMap broughtBy).map quantized)
      ((passed s.worker).filterMap heard ++ s.wire.filterMap heard ++ blocksOf s.port) rest := by
  obtain ⟨hsound, hall⟩ := run_all hrun hkeeps
  obtain ⟨rest, hblocks⟩ := hsound.inBlocks
  exact ⟨rest, by rwa [← hall] at hblocks⟩

theorem uplink_lossless_silence : ∃ s rest, runFrom (step plainPlatform) (start 0) silentCall = some s ∧
    InBlocks 1024 ((silentCall.flatMap broughtBy).map quantized)
      ((passed s.worker).filterMap heard ++ s.wire.filterMap heard ++ blocksOf s.port) rest := by
  obtain ⟨s, hrun, hkeeps⟩ := silentCall_runs
  obtain ⟨rest, h⟩ := uplink_lossless hrun hkeeps
  exact ⟨s, rest, hrun, h⟩

end Uplink

end DreamWeaver.Client
