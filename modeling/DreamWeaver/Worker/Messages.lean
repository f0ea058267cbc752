import DreamWeaver.Foundations.Base64
import DreamWeaver.Foundations.JsValue
import DreamWeaver.Foundations.JsonWriter
import DreamWeaver.Foundations.Utf8

/-! # What the worker makes of a message

Before a message of the client is checked and forwarded, bytes that hold a document become its text, other
bytes become the payload of a `realtime_input` document, and a text in which `"setup"` occurs is cleaned
of fields that Gemini does not know and gets its modalities in upper case. -/

namespace DreamWeaver.Worker

/-- What a message carries. -/
inductive Payload where
  | text (data : Text)
  | binary (bytes : List UInt8)
  deriving DecidableEq

/-- `MAX_TEXT_BYTES` -/
def maxTextBytes : ℕ := 64 * 1024

/-- `MAX_AUDIO_BYTES` -/
def maxAudioBytes : ℕ := 64 * 1024

/-- A text that is parsed: it begins like an object or an array, and `JSON.parse` accepts it. -/
def isDocument (decoded : Text) : Bool :=
  ((trim decoded).head? == some 123 || (trim decoded).head? == some 91) &&
    (parseJson decoded).toOption.isSome

/-- Bytes that hold a document become its text. -/
def convertBinary : Payload → Payload
  | .binary bytes =>
    if bytes.length ≤ maxTextBytes && isDocument (textDecode bytes) then .text (textDecode bytes)
    else .binary bytes
  | .text data => .text data

/-- Bytes become the text that they hold, or stay what they are. -/
theorem convertBinary_cases (bytes : List UInt8) :
    (bytes.length ≤ maxTextBytes ∧ isDocument (textDecode bytes) = true) ∧
        convertBinary (.binary bytes) = .text (textDecode bytes) ∨
      ¬ (bytes.length ≤ maxTextBytes ∧ isDocument (textDecode bytes) = true) ∧
        convertBinary (.binary bytes) = .binary bytes := by
  by_cases h : bytes.length ≤ maxTextBytes ∧ isDocument (textDecode bytes) = true
  · exact Or.inl ⟨h, by simp [convertBinary, h.1, h.2]⟩
  · refine Or.inr ⟨h, ?_⟩
    rw [convertBinary, if_neg (by simpa using h)]

/-- The document that carries a chunk of audio. -/
def audioMessage (bytes : List UInt8) : Json :=
  .obj [(lit "realtime_input", .obj [(lit "media_chunks", .arr [.obj [
    (lit "mime_type", .str (lit "audio/pcm;rate=16000")),
    (lit "data", .str (encodeBase64 bytes))]])])]

/-- `JSON.stringify({ setup })` -/
def setupOnly (setup : Option Json) : Text :=
  stringify (.obj (setup.elim [] fun setup => [(lit "setup", setup)]))

/-- Only the setup is kept of a text with a `sessionId` or a `traceId`. -/
def sanitizeSetup (data : Text) : Text :=
  if includes data (lit "\"sessionId\"") || includes data (lit "\"traceId\"") then
    match parseJson data with
    | .error _ => data
    -- `null` has no property to ask for
    | .ok .null => data
    | .ok parsed => setupOnly (parsed.get (lit "setup"))
  else data

section

/-! ## Setups

`toUpperCase` is the method of strings. -/

variable (toUpperCase : Text → Text)

/-- `m.toUpperCase()`, which only a string has. -/
def upperMode : Json → Option Json
  | .str text => some (.str (toUpperCase text))
  | _ => none

/-- The modalities of a setup. -/
def responseModalities (setup : Json) : Option (List Json) :=
  match (setup.get (lit "generation_config")).bind fun gen => gen.get (lit "response_modalities") with
  | some (.arr mods) => some mods
  | _ => none

/-- A setup with the given modalities. -/
def withModalities (setup : Json) (mods : List Json) : Json :=
  match setup.get (lit "generation_config") with
  | some gen => setup.withField (lit "generation_config") (gen.withField (lit "response_modalities") (.arr mods))
  | none => setup

/-- The setup with its modalities in upper case, if there are some and they all are strings. -/
def normalizeModalities (setup : Json) : Option Json :=
  (responseModalities setup).bind fun mods =>
    if mods.any fun m => m.text?.isSome then
      (mods.mapM (upperMode toUpperCase)).map (withModalities setup)
    else none

/-- The modalities of a text that is a setup are normalized. -/
def normalizeSetup (data : Text) : Text :=
  match parseJson data with
  | .error _ => data
  | .ok parsed =>
    ((parsed.get (lit "setup")).bind (normalizeModalities toUpperCase)).elim data fun setup =>
      setupOnly (some setup)

/-- What is done to a text in which `"setup"` occurs. -/
def rewriteSetup (data : Text) : Text :=
  if includes data (lit "\"setup\"") then normalizeSetup toUpperCase (sanitizeSetup data) else data

/-! ## Messages -/

/-- A message as it is checked and forwarded. -/
structure Prepared where
  data : Text
  isRealtimeAudio : Bool
  deriving DecidableEq

/-- What the handler of a client message does before its checks. The envelope of bytes is a text, so there
is no other case behind it. -/
def prepare (message : Payload) : Prepared :=
  match convertBinary message with
  | .binary bytes => ⟨rewriteSetup toUpperCase (stringify (audioMessage bytes)), true⟩
  | .text data => ⟨rewriteSetup toUpperCase data, includes data (lit "\"realtime_input\"")⟩

end

end DreamWeaver.Worker
