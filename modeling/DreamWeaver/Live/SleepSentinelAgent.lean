import DreamWeaver.Foundations.JsArithmetic
import DreamWeaver.Foundations.Decimal

/-! # The sleep sentinel

`SleepSentinelAgent` (`api/src/domain/agents/SleepSentinelAgent.ts`) listens to the audio of live
sessions and publishes a cue when a child seems to sleep. The container has one sentinel
(`api/src/di/container.ts`), and the relay (`api/src/infrastructure/services/GeminiLiveRelay.ts`)
connects every live session to it. What is left to a parameter is the square root and the analysis of
the breathing by a Fourier transform. -/

namespace DreamWeaver.Live

/-- The result of `analyzeBreathingCadence`. -/
structure Breathing where
  isStable : Bool
  frequencyHz : Option JsNumber
  strength : Option JsNumber
  deriving DecidableEq

/-- The numeric functions that the sentinel uses: `Math.sqrt` and `analyzeBreathingCadence` of an
envelope and its sample rate. -/
structure SignalAnalysis where
  sqrt : JsNumber → JsNumber
  analyzeBreathingCadence : List JsNumber → JsNumber → Breathing

/-! ## State -/

/-- The fields by which the sentinel judges what it hears. -/
structure Detector where
  confidence : JsNumber := .finite 0
  silenceCounter : ℕ := 0
  lastCueAtMs : ℤ := 0
  envelopeRms : List JsNumber := []
  lastEnvelopeSampleRateHz : JsNumber := .finite 50
  latestBreathing : Option Breathing := none
  envelopeSamplesSinceLastAnalysis : ℕ := 0
  deriving DecidableEq

/-- The fields that say whose session it is. -/
structure LiveIdentity where
  isMonitoring : Bool := false
  liveSessionId : Option Text := none
  liveUserId : Option Text := none
  liveTraceId : Option Text := none
  deriving DecidableEq

/-- `SleepSentinelAgent` -/
structure SleepSentinelAgent extends Detector, LiveIdentity
  deriving DecidableEq

/-- A `SLEEP_CUE_DETECTED` event. -/
structure SleepCue where
  id : Text
  requestId : Text
  traceId : Option Text
  userId : Text
  sessionId : Text
  confidence : JsNumber
  cue : Text
  breathingHz : Option JsNumber
  breathingStrength : Option JsNumber
  deriving DecidableEq

/-! ## Signals -/

/-- The samples as numbers between -1 and 1. -/
def normalized (sample : ℤ) : JsNumber := (JsNumber.finite sample).div (.finite 32768)

/-- The sum of numbers, from the left. -/
def sumOf (xs : List JsNumber) : JsNumber := xs.foldl JsNumber.add (.finite 0)

/-- `calculateRmsFromPcm16` -/
def calculateRmsFromPcm16 (analysis : SignalAnalysis) (int16 : List ℤ) : JsNumber :=
  if int16 = [] then .finite 0
  else
    let sumSq := sumOf (int16.map fun sample => (normalized sample).mul (normalized sample))
    analysis.sqrt (sumSq.div (.finite int16.length))

/-- `calculateVarianceFromPcm16` -/
def calculateVarianceFromPcm16 (int16 : List ℤ) : JsNumber :=
  if int16 = [] then .finite 0
  else
    let mean := (sumOf (int16.map fun sample => (normalized sample).abs)).div (.finite int16.length)
    let sumSqDiff := sumOf (int16.map fun sample =>
      ((normalized sample).abs.sub mean).mul ((normalized sample).abs.sub mean))
    sumSqDiff.div (.finite int16.length)

/-- The end of the envelope that the window of `maxSamples` has room for. -/
def window (maxSamples : JsNumber) (envelope : List JsNumber) : List JsNumber :=
  match maxSamples with
  | .finite m => envelope.drop (envelope.length - ⌊m⌋.toNat)
  | _ => envelope

/-- `observeEnvelope` -/
def observeEnvelope (analysis : SignalAnalysis) (rms dtMs : JsNumber) (d : Detector) : Detector :=
  let sampleRateHz :=
    if dtMs.exceeds 0 then (JsNumber.finite 1000).div dtMs else d.lastEnvelopeSampleRateHz
  let maxSamples := JsNumber.noLess 64 (sampleRateHz.mul (.finite 16)).floor
  let envelope := window maxSamples (d.envelopeRms ++ [rms])
  let samples := d.envelopeSamplesSinceLastAnalysis + 1
  let enough := match JsNumber.noLess 16 sampleRateHz.floor with
    | .finite m => m ≤ samples
    | _ => false
  if 256 ≤ envelope.length && enough then
    { d with
      lastEnvelopeSampleRateHz := sampleRateHz
      envelopeRms := envelope
      envelopeSamplesSinceLastAnalysis := 0
      latestBreathing := some (analysis.analyzeBreathingCadence envelope sampleRateHz) }
  else
    { d with
      lastEnvelopeSampleRateHz := sampleRateHz
      envelopeRms := envelope
      envelopeSamplesSinceLastAnalysis := samples }

/-! ## Confidence -/

/-- A number as the program writes it. -/
def literal (x : ℚ) : JsNumber := .finite (double x)

/-- `Math.min(1.0, this.confidence + x)` -/
def Detector.raise (x : JsNumber) (d : Detector) : Detector :=
  { d with confidence := JsNumber.atMost 1 (d.confidence.add x) }

/-- `Math.max(0, this.confidence - x)` -/
def Detector.lower (x : ℚ) (d : Detector) : Detector :=
  { d with confidence := JsNumber.noLess 0 (d.confidence.sub (literal x)) }

/-- The breathing that was heard last is stable. -/
def Detector.breathingStable (d : Detector) : Bool := d.latestBreathing.any fun b => b.isStable

/-- `updateConfidenceFromAudio`, up to the cue. -/
def updateConfidence (volume variance : JsNumber) (d : Detector) : Detector :=
  let isQuiet := volume.lt (double (1 / 20))
  let isStable := variance.lt (double (1 / 100))
  let d :=
    if isQuiet then
      let counter := d.silenceCounter + 1
      let silenceBonus :=
        JsNumber.atMost (double (2 / 5)) ((JsNumber.finite counter).mul (literal (1 / 50)))
      { d with
        silenceCounter := counter
        confidence := JsNumber.atMost 1
          ((d.confidence.add (literal (1 / 100))).add (silenceBonus.mul (literal (1 / 100)))) }
    else ({ d with silenceCounter := 0 } : Detector).lower (1 / 20)
  let d :=
    if isQuiet && isStable && 10 < d.silenceCounter then d.raise (literal (1 / 50))
    else if !isStable && volume.exceeds (double (1 / 10)) then d.lower (1 / 10)
    else d
  if isQuiet && d.breathingStable && 20 < d.silenceCounter then d.raise (literal (1 / 50)) else d

namespace SleepSentinelAgent

/-- `monitorLiveSession`, without the handlers. -/
def monitorLiveSession (agent : SleepSentinelAgent) (sessionId : Text)
    (userId traceId : Option Text) : SleepSentinelAgent :=
  { agent with
    isMonitoring := true
    liveSessionId := some sessionId
    liveUserId := userId.filter fun text => !text.isEmpty
    liveTraceId := traceId.filter fun text => !text.isEmpty }

/-- The cue that is due at a time, if there is one. -/
def dueCue (agent : SleepSentinelAgent) (now : ℤ) : Option SleepCue :=
  if agent.confidence.exceeds (double (17 / 20)) && 30000 < now - agent.lastCueAtMs then
    some {
      id := lit "sentinel_" ++ showInt now
      requestId := orText agent.liveSessionId (lit "unknown")
      traceId := agent.liveTraceId
      userId := orText agent.liveUserId (lit "unknown")
      sessionId := orText agent.liveSessionId (lit "unknown")
      confidence := agent.confidence
      cue := if agent.breathingStable then lit "breathing" else lit "silence"
      breathingHz := agent.latestBreathing.bind fun b => b.frequencyHz
      breathingStrength := agent.latestBreathing.bind fun b => b.strength }
  else none

/-- The handler of a chunk of audio at a time, up to the publication of a cue. -/
def hear (analysis : SignalAnalysis) (agent : SleepSentinelAgent) (pcm : List ℤ) :
    SleepSentinelAgent :=
  let rms := calculateRmsFromPcm16 analysis pcm
  let variance := calculateVarianceFromPcm16 pcm
  let dtMs := if pcm = [] then .finite 0
    else ((JsNumber.finite pcm.length).div (.finite 16000)).mul (.finite 1000)
  { agent with
    toDetector := updateConfidence rms variance (observeEnvelope analysis rms dtMs agent.toDetector) }

/-- The handler of an interruption. -/
def interrupt (agent : SleepSentinelAgent) : SleepSentinelAgent :=
  { agent with
    toDetector := ({ agent.toDetector with silenceCounter := 0 } : Detector).lower (3 / 10) }

/-- What follows the publication of a cue. -/
def afterCue (agent : SleepSentinelAgent) (now : ℤ) : SleepSentinelAgent :=
  { agent with confidence := literal (4 / 5), lastCueAtMs := now }

end SleepSentinelAgent

/-! ## Live sessions -/

/-- What happens in a live session. -/
inductive LiveEvent where
  /-- The relay connects the session to the sentinel. -/
  | connect (userId traceId : Option Text)
  | audio (pcm : List ℤ) (now : ℤ)
  | interruption
  /-- The publication of the cue of a time has ended. -/
  | published (now : ℤ)
  deriving DecidableEq

/-- An event of a session. -/
structure LiveAction where
  sessionId : Text
  event : LiveEvent
  deriving DecidableEq

/-- The sentinel, the sessions that are connected to it, the publications that it awaits, and the cues
with the session whose audio raised them. -/
structure LiveWorld where
  agent : SleepSentinelAgent := {}
  connected : List Text := []
  publishing : List (Text × ℤ) := []
  cues : List (Text × SleepCue) := []

namespace LiveWorld

/-- A chunk of audio of a session. -/
def hear (analysis : SignalAnalysis) (w : LiveWorld) (sessionId : Text) (pcm : List ℤ) (now : ℤ) :
    LiveWorld :=
  let agent := w.agent.hear analysis pcm
  match agent.dueCue now with
  | none => { w with agent := agent }
  | some cue =>
    { w with
      agent := agent
      publishing := w.publishing ++ [(sessionId, now)]
      cues := w.cues ++ [(sessionId, cue)] }

/-- The world after an action, if it can happen: the id of a session is not empty, and only a connected
session is heard. -/
def step (analysis : SignalAnalysis) (w : LiveWorld) (a : LiveAction) : Option LiveWorld :=
  match a.event with
  | .connect userId traceId =>
    if a.sessionId = [] then none
    else some { w with
      agent := w.agent.monitorLiveSession a.sessionId userId traceId
      connected := a.sessionId :: w.connected }
  | .audio pcm now =>
    if a.sessionId ∈ w.connected then some (w.hear analysis a.sessionId pcm now) else none
  | .interruption =>
    if a.sessionId ∈ w.connected then some { w with agent := w.agent.interrupt } else none
  | .published now =>
    if (a.sessionId, now) ∈ w.publishing then
      some { w with
        agent := w.agent.afterCue now
        publishing := w.publishing.erase (a.sessionId, now) }
    else none

/-- The world after actions. -/
def run (analysis : SignalAnalysis) (w : LiveWorld) : List LiveAction → Option LiveWorld
  | [] => some w
  | a :: trace => (w.step analysis a).bind fun w' => w'.run analysis trace

/-- The cues of a session: those that carry its id, and those that its audio raised. -/
def cuesFor (sessionId : Text) (w : LiveWorld) : List (Text × SleepCue) :=
  w.cues.filter fun cue => cue.1 = sessionId || cue.2.sessionId = sessionId

end LiveWorld

end DreamWeaver.Live
