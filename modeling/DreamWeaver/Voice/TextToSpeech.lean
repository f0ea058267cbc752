import DreamWeaver.Foundations.JsArithmetic
import DreamWeaver.Foundations.Regex
import DreamWeaver.Foundations.Traced

/-! # Text to speech

The adapters `GoogleTTSAdapter` and `GoogleCloudVoiceAdapter` and the `CompositeTTSAdapter` over them
(`api/src/infrastructure/adapters`): the requests that they send to synthesize a text in a voice. What the
service answers is a parameter. -/

namespace DreamWeaver.Voice

open Regex

/-- `SynthesizeInput`, with the `voiceModelId` of its voice profile. -/
structure SynthesizeInput where
  text : Text
  voiceModelId : Option Text
  speakingRate : Option JsNumber
  pitch : Option JsNumber

/-- `SynthesizeOutput`; the format is always `mp3`. -/
structure SynthesizeOutput where
  audioUrl : Text
  audioBase64 : Text
  durationSeconds : ℚ
  deriving DecidableEq

/-- The endpoints: `v1` of the adapter for standard voices, and `v1beta1` of the one for custom voices. -/
inductive Endpoint where
  | standard
  | custom
  deriving DecidableEq, Repr

/-- A request to synthesize a text; the language is always `en-US`. -/
structure SynthesisRequest where
  endpoint : Endpoint
  apiKey : Text
  text : Text
  voiceName : Text
  /-- `speakingRate` and `pitch`, of the adapter that sends them. -/
  prosody : Option (JsNumber × JsNumber)

/-- What the service answers: `audioContent` of the body, or a status that is not a success, with the status
text, the body as a text and the message in it. Reading the body as JSON may fail. -/
inductive SynthesisAnswer where
  | audio (audioContent : Except JsError Text)
  | failed (status : ℕ) (statusText body : Text) (message : Except JsError Text)

/-- The service. -/
abbrev SpeechService := SynthesisRequest → Except JsError SynthesisAnswer

/-- `fetch` -/
def send (service : SpeechService) (request : SynthesisRequest) : Traced SynthesisRequest SynthesisAnswer := do
  Traced.emit request
  Traced.lift (service request)

/-- `data:audio/mp3;base64,…` -/
def dataUri (audioBase64 : Text) : Text := lit "data:audio/mp3;base64," ++ audioBase64

/-! ## Standard voices -/

/-- `GoogleTTSAdapter` -/
structure GoogleTTSAdapter where
  apiKey : Option Text

namespace GoogleTTSAdapter

/-- The error for a key that is missing. -/
def missingKey : JsError := ⟨lit "Error", lit "GOOGLE_TTS_API_KEY is missing"⟩

/-- The voices that `mapVoiceIdToGoogle` maps to others. -/
def mapping : List (Text × Text) := [
  (lit "en-US-Chirp-HD-F", lit "en-US-Neural2-F"),
  (lit "en-US-Chirp-HD-M", lit "en-US-Neural2-D"),
  (lit "luna", lit "en-US-Neural2-F"),
  (lit "atlas", lit "en-US-Neural2-D")]

/-- `mapVoiceIdToGoogle` -/
def mapVoiceIdToGoogle (internalId : Text) : Text :=
  ((mapping.find? fun entry => entry.1 == internalId).map Prod.snd).getD internalId

/-- `value || default` on a number. -/
def orDefault (value : Option JsNumber) (default : ℚ) : JsNumber :=
  match value with
  | none => .finite default
  | some x => if x = .nan ∨ x = .finite 0 then .finite default else x

/-- `Math.max(1, Math.ceil(wordCount / 2.5))` -/
def duration (text : Text) : ℚ :=
  max 1 ⌈double ((keptPieces (some1 .space) text.length none text).length / (5 / 2))⌉

/-- `synthesize` -/
def synthesize (adapter : GoogleTTSAdapter) (service : SpeechService) (input : SynthesizeInput) :
    Traced SynthesisRequest SynthesizeOutput := do
  let apiKey := adapter.apiKey.getD []
  if apiKey.isEmpty then Traced.lift (.error missingKey)
  else
    let answer ← send service {
      endpoint := .standard
      apiKey := apiKey
      text := input.text
      voiceName := mapVoiceIdToGoogle (orText input.voiceModelId (lit "en-US-Neural2-F"))
      prosody := some (orDefault input.speakingRate 1, orDefault input.pitch 0) }
    match answer with
    | .failed status statusText body _ => Traced.lift (.error ⟨lit "Error",
        lit "Google TTS API Failed: " ++ showNat status ++ lit " " ++ statusText ++ lit " - " ++ body⟩)
    | .audio audioContent =>
      let audioBase64 ← Traced.lift audioContent
      return ⟨dataUri audioBase64, audioBase64, duration input.text⟩

end GoogleTTSAdapter

/-! ## Custom voices -/

/-- `GoogleCloudVoiceAdapter`, with its region. -/
structure GoogleCloudVoiceAdapter where
  apiKey : Option Text
  projectId : Option Text
  region : Text

namespace GoogleCloudVoiceAdapter

/-- The voice that is used unless there is a better one. -/
def defaultVoice : Text := lit "en-US-Journey-D"

/-- An id of a custom voice in a project. -/
def isProjectVoice (voiceModelId : Option Text) : Bool :=
  (orText voiceModelId []) ≠ [] && (lit "projects/").isPrefixOf (orText voiceModelId [])

/-- The name that a voice is asked for by: an id that is a URL is not used. -/
def voiceName (voiceModelId : Option Text) : Text :=
  let id := orText voiceModelId []
  if isProjectVoice voiceModelId then id
  else if id ≠ [] ∧ !(lit "http").isPrefixOf id then id
  else defaultVoice

/-- A request for a voice, and what is made of its failure. -/
def speak (service : SpeechService) (apiKey text voice : Text)
    (onFailure : ℕ → Text → Traced SynthesisRequest SynthesizeOutput) :
    Traced SynthesisRequest SynthesizeOutput := do
  let answer ← send service {
    endpoint := .custom
    apiKey := apiKey
    text := text
    voiceName := voice
    prosody := none }
  match answer with
  | .failed status _ _ error =>
    let message ← Traced.lift error
    onFailure status message
  | .audio audioContent =>
    let audioBase64 ← Traced.lift audioContent
    return ⟨dataUri audioBase64, audioBase64, double (text.length / 15)⟩

/-- The error for a request that failed. -/
def failure (status : ℕ) (message : Text) : Traced SynthesisRequest SynthesizeOutput :=
  Traced.lift (.error ⟨lit "Error",
    lit "Google Cloud TTS Failed: " ++ showNat status ++ lit " - " ++ message⟩)

/-- `synthesize`; a custom voice that fails is replaced by the default voice, once. -/
def synthesize (adapter : GoogleCloudVoiceAdapter) (service : SpeechService) (input : SynthesizeInput) :
    Traced SynthesisRequest SynthesizeOutput := do
  let apiKey := adapter.apiKey.getD []
  if apiKey.isEmpty then Traced.lift (.error ⟨lit "Error", lit "Google Cloud TTS API Key is missing"⟩)
  else
    speak service apiKey input.text (voiceName input.voiceModelId) fun status message =>
      if isProjectVoice input.voiceModelId ∧ 400 ≤ status then
        speak service apiKey input.text (voiceName (some defaultVoice)) failure
      else failure status message

end GoogleCloudVoiceAdapter

/-! ## Both -/

/-- `CompositeTTSAdapter`, as the container builds it. -/
structure CompositeTTSAdapter where
  googleAdapter : GoogleTTSAdapter
  cloningAdapter : GoogleCloudVoiceAdapter

/-- An id that is taken for a cloned voice: one that looks like a URL. -/
def isCloneId (voiceModelId : Option Text) : Bool := (lit "http").isPrefixOf (orText voiceModelId [])

/-- `CompositeTTSAdapter.synthesize` -/
def CompositeTTSAdapter.synthesize (tts : CompositeTTSAdapter) (service : SpeechService)
    (input : SynthesizeInput) : Traced SynthesisRequest SynthesizeOutput :=
  if isCloneId input.voiceModelId then tts.cloningAdapter.synthesize service input
  else tts.googleAdapter.synthesize service input

end DreamWeaver.Voice
