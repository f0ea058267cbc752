import DreamWeaver.Live.BridgeDelivery

/-! # The dispatch of frames to handlers

A session calls its handlers one after the other, and does not protect one from another: a handler that throws
takes the rest of the calls with it, and on the path of binary audio the exception leaves `handleMessage`, where
nothing catches it. Which path a frame takes is decided by its first byte. The handlers of the relay do not
throw, but the one for audio that the sleep sentinel registers makes an `Int16Array` of the chunk, and throws if
a byte is left. -/

namespace DreamWeaver.Live

/-- The handlers that are registered on a session, in their order; those for audio that the sentinel has
registered are told apart. -/
structure SessionHandlers (ι : Type) where
  audio : List ι
  text : List ι
  toolCall : List ι
  interruption : List ι
  error : List ι
  ofSentinel : ι → Bool

/-- Calls of handlers, and whether the last one threw. -/
structure Delivery (ι : Type) where
  calls : List (ι × Signal) := []
  threw : Bool := false

variable {ι : Type} {other : Option Json → Option (List UInt8)} {hs : SessionHandlers ι} {frame : GeminiFrame}
  {frames : List GeminiFrame} {signals : List Signal} {signal : Signal}

/-- One piece after the other, unless the first throws. -/
def Delivery.andThen (d e : Delivery ι) : Delivery ι :=
  if d.threw then d else ⟨d.calls ++ e.calls, e.threw⟩

namespace SessionHandlers

variable (hs : SessionHandlers ι)

/-- The handlers for a signal. -/
def handlersOf : Signal → List ι
  | .text _ => hs.text
  | .audio _ => hs.audio
  | .interruption => hs.interruption
  | .toolCall _ => hs.toolCall
  | .error _ => hs.error

/-- The handler throws on the signal: `new Int16Array(chunk)` on a chunk of odd length. -/
def throwsOn (i : ι) (signal : Signal) : Bool := hs.ofSentinel i && signal.isOddAudio

/-- `handlers.forEach(h => h(…))` -/
def callEach (signal : Signal) : List ι → Delivery ι
  | [] => {}
  | i :: is => (⟨[(i, signal)], hs.throwsOn i signal⟩ : Delivery ι).andThen (callEach signal is)

/-- The calls for signals one after the other. -/
def callAll : List Signal → Delivery ι
  | [] => {}
  | signal :: signals => (hs.callEach signal (hs.handlersOf signal)).andThen (callAll signals)

/-- `handleMessage` with its handlers: what throws while JSON is read is caught. -/
def handle (other : Option Json → Option (List UInt8)) (data : List UInt8) : Delivery ι :=
  let d := hs.callAll (handleMessage other data)
  if data.head? = some 0x7b then ⟨d.calls, false⟩ else d

/-- The frames of a session one after the other; an exception that nothing catches ends the process. -/
def handleAll (other : Option Json → Option (List UInt8)) : List GeminiFrame → List (Delivery ι)
  | [] => []
  | frame :: frames =>
    let d := hs.handle other frame.data
    if d.threw then [d] else d :: handleAll other frames

/-- Every handler for each of the signals, in order. -/
def everyCall (signals : List Signal) : List (ι × Signal) :=
  signals.flatMap fun signal => (hs.handlersOf signal).map fun i => (i, signal)

/-- The sentinel has a handler for audio. -/
def isMonitored : Bool := hs.audio.any hs.ofSentinel

end SessionHandlers

/-- **What the content of a message calls for**: nothing if it acknowledges the setup, the error that it reports,
or else what its parts say, the interruption and the tool call. -/
def calledFor (msg : Json) : List Signal :=
  if isTruthy (msg.get (lit "setupComplete")) then []
  else
    match (msg.get (lit "error")).filter Json.truthy with
    | some error => [.error error]
    | none => saidIn msg ++ interruptionIn msg ++ toolCallIn msg

/-- **A frame is dispatched**: nothing throws, audio reaches every handler for audio, and a JSON message reaches
exactly the handlers that its content calls for. -/
structure Dispatched (hs : SessionHandlers ι) (frame : GeminiFrame) (d : Delivery ι) : Prop where
  safe : d.threw = false
  audio : frame.isAudio = true → d.calls = hs.everyCall [.audio frame.data]
  message (msg : Json) : frame.isAudio = false → frame.message? = some msg → d.calls = hs.everyCall (calledFor msg)

/-- The sentinel can make samples of a chunk, or is not there. -/
def SessionHandlers.canHear (hs : SessionHandlers ι) (signal : Signal) : Bool :=
  !(hs.isMonitored && signal.isOddAudio)

/-- A message all of which is read: its content can be read unless it is an acknowledgement or an error, and its
audio can be heard. -/
def SessionHandlers.canRead (hs : SessionHandlers ι) (msg : Json) : Bool :=
  (isTruthy (msg.get (lit "setupComplete")) || isTruthy (msg.get (lit "error")) || readableContent msg) &&
    (calledFor msg).all hs.canHear

/-- **The condition on a frame**: audio does not begin with a brace and JSON does, the parts of JSON can be read,
and where the sentinel listens audio has an even length. -/
def SessionHandlers.canTake (hs : SessionHandlers ι) (frame : GeminiFrame) : Bool :=
  if frame.isAudio then frame.data.head? != some 0x7b && hs.canHear (.audio frame.data)
  else
    match frame.message? with
    | some msg => frame.data.head? == some 0x7b && hs.canRead msg
    | none => frame.data.head? == some 0x7b || hs.canHear (.audio frame.data)

/-! ## Calls that do not throw -/

theorem throwsOn_eq_false {i : ι} (hi : i ∈ hs.handlersOf signal) (h : hs.canHear signal = true) :
    hs.throwsOn i signal = false := by
  cases signal with
  | audio chunk =>
    rw [SessionHandlers.canHear, Bool.not_eq_true', Bool.and_eq_false_iff] at h
    rw [SessionHandlers.throwsOn, Bool.and_eq_false_iff]
    refine h.imp_left fun hquiet => ?_
    exact Bool.eq_false_iff.mpr (List.any_eq_false.mp hquiet i hi)
  | text _ | interruption | toolCall _ | error _ => exact Bool.and_false _

/-- Handlers that do not throw are all called. -/
theorem callEach_of_not_throws {is : List ι} (h : ∀ i ∈ is, hs.throwsOn i signal = false) :
    hs.callEach signal is = ⟨is.map fun i => (i, signal), false⟩ := by
  induction is with
  | nil => rfl
  | cons i is ih =>
    obtain ⟨hi, his⟩ := List.forall_mem_cons.mp h
    rw [SessionHandlers.callEach, hi, ih his]
    rfl

/-- **Signals that can be heard** reach every handler for them. -/
theorem callAll_of_canHear (h : signals.all hs.canHear = true) :
    hs.callAll signals = ⟨hs.everyCall signals, false⟩ := by
  induction signals with
  | nil => rfl
  | cons signal signals ih =>
    rw [List.all_cons, Bool.and_eq_true] at h
    rw [SessionHandlers.callAll, callEach_of_not_throws fun i hi => throwsOn_eq_false hi h.1, ih h.2,
      SessionHandlers.everyCall, SessionHandlers.everyCall, List.flatMap_cons]
    rfl

/-! ## Frames that are dispatched -/

/-- A frame that does not begin with a brace is taken for audio. -/
theorem handleMessage_of_ne_brace {data : List UInt8} (h : data.head? ≠ some 0x7b) :
    handleMessage other data = [.audio data] := by
  rw [handleMessage, if_neg h]

/-- A JSON message that begins with a brace and can be read. -/
theorem handleMessage_of_readable {data : List UInt8} {msg : Json} (hbrace : data.head? = some 0x7b)
    (hparse : parseJson (decodeUtf8 data) = .ok msg)
    (hread : (isTruthy (msg.get (lit "setupComplete")) || isTruthy (msg.get (lit "error")) ||
      readableContent msg) = true) : handleMessage other data = calledFor msg := by
  rw [handleMessage, if_pos hbrace, hparse, calledFor]
  dsimp only
  by_cases hsetup : isTruthy (msg.get (lit "setupComplete")) = true
  · rw [if_pos hsetup, if_pos hsetup]
  · rw [if_neg hsetup, if_neg hsetup]
    cases herror : (msg.get (lit "error")).filter Json.truthy with
    | some error => rfl
    | none =>
      have hfalse : isTruthy (msg.get (lit "error")) = false := by
        rw [isTruthy]
        cases hget : msg.get (lit "error") with
        | none => rfl
        | some v =>
          rw [hget, Option.filter_some] at herror
          refine Bool.eq_false_iff.mpr fun htruthy => ?_
          rw [if_pos (show v.truthy = true from htruthy)] at herror
          cases herror
      rw [Bool.eq_false_iff.mpr hsetup, hfalse, Bool.false_or, Bool.false_or] at hread
      dsimp only
      rw [messageDispatch_of_readable hread]

/-- **A frame that meets the condition is dispatched.** -/
theorem dispatched_of_canTake (h : hs.canTake frame = true) : Dispatched hs frame (hs.handle other frame.data) := by
  have haudio (hbrace : frame.data.head? ≠ some 0x7b) (hear : hs.canHear (.audio frame.data) = true) :
      hs.handle other frame.data = ⟨hs.everyCall [.audio frame.data], false⟩ := by
    rw [SessionHandlers.handle, if_neg hbrace, handleMessage_of_ne_brace hbrace]
    exact callAll_of_canHear (by rw [List.all_cons, hear]; rfl)
  unfold SessionHandlers.canTake at h
  by_cases hkind : frame.isAudio = true
  · rw [if_pos hkind, Bool.and_eq_true, bne_iff_ne] at h
    rw [haudio h.1 h.2]
    exact ⟨rfl, fun _ => rfl, fun msg hfalse => absurd hkind (Bool.eq_false_iff.mp hfalse)⟩
  · rw [if_neg hkind] at h
    cases hmessage : frame.message? with
    | none =>
      rw [hmessage, Bool.or_eq_true, beq_iff_eq] at h
      refine ⟨?_, fun h => absurd h hkind, fun msg _ hmsg => nomatch hmessage.symm.trans hmsg⟩
      by_cases hbrace : frame.data.head? = some 0x7b
      · rw [SessionHandlers.handle, if_pos hbrace]
      · rw [haudio hbrace (h.resolve_left hbrace)]
    | some msg =>
      rw [hmessage, Bool.and_eq_true, beq_iff_eq, SessionHandlers.canRead, Bool.and_eq_true] at h
      obtain ⟨hbrace, hread, hear⟩ := h
      have hparse : parseJson (decodeUtf8 frame.data) = .ok msg := by
        unfold GeminiFrame.message? at hmessage
        cases hresult : parseJson (decodeUtf8 frame.data) with
        | error e =>
          rw [hresult] at hmessage
          cases hmessage
        | ok v =>
          rw [hresult] at hmessage
          rw [Option.some.inj hmessage]
      have hhandle : hs.handle other frame.data = ⟨hs.everyCall (calledFor msg), false⟩ := by
        rw [SessionHandlers.handle, if_pos hbrace, handleMessage_of_readable hbrace hparse hread,
          callAll_of_canHear hear]
      rw [hhandle]
      refine ⟨rfl, fun h => absurd h hkind, fun msg' _ hmsg => ?_⟩
      rw [Option.some.inj (hmessage.symm.trans hmsg)]

/-- **Every frame is dispatched** in a session all of whose frames meet the condition. -/
theorem every_frame_dispatched (hs : SessionHandlers ι) (other : Option Json → Option (List UInt8))
    (h : ∀ frame ∈ frames, hs.canTake frame = true) :
    List.Forall₂ (Dispatched hs) frames (hs.handleAll other frames) := by
  induction frames with
  | nil => exact .nil
  | cons frame frames ih =>
    obtain ⟨hframe, hframes⟩ := List.forall_mem_cons.mp h
    have hdispatched : Dispatched hs frame (hs.handle other frame.data) := dispatched_of_canTake hframe
    rw [SessionHandlers.handleAll, hdispatched.safe]
    exact .cons hdispatched (ih hframes)

/-! ## The handlers of the relay -/

/-- Who has registered a handler on a session of the relay. -/
inductive RelayHandler where
  | sentinel
  | relay
  deriving DecidableEq, Repr

/-- The handlers on a session of the relay: the sentinel's come first, and there is none for tool calls. -/
def relayHandlers : SessionHandlers RelayHandler where
  audio := [.sentinel, .relay]
  text := [.relay]
  toolCall := []
  interruption := [.sentinel, .relay]
  error := [.relay]
  ofSentinel i := i == .sentinel

/-- The signals that the handlers of the relay are called with. -/
def relaySignals (d : Delivery RelayHandler) : List Signal :=
  (d.calls.filter fun call => call.1 == .relay).map Prod.snd

/-- A signal that the sentinel can hear reaches the relay's handler, if there is one. -/
theorem relaySignals_andThen (h : signal.isOddAudio = false) (d : Delivery RelayHandler) :
    relaySignals ((relayHandlers.callEach signal (relayHandlers.handlersOf signal)).andThen d)
      = (if (relayHandlers.handlersOf signal).isEmpty then [] else [signal]) ++ relaySignals d := by
  have hear : relayHandlers.canHear signal = true := by
    rw [SessionHandlers.canHear, h, Bool.and_false]
    rfl
  rw [callEach_of_not_throws fun i hi => throwsOn_eq_false hi hear]
  unfold relaySignals Delivery.andThen
  dsimp only
  rw [if_neg Bool.false_ne_true, List.filter_append, List.map_append]
  refine congrArg (· ++ _) ?_
  cases signal <;> rfl

/-- **The relay's handlers are called** with the signals before the first one that makes the sentinel throw. -/
theorem relaySignals_callAll (signals : List Signal) : relaySignals (relayHandlers.callAll signals)
    = (reached signals).filter fun signal => !(relayHandlers.handlersOf signal).isEmpty := by
  induction signals with
  | nil => rfl
  | cons signal signals ih =>
    by_cases hodd : signal.isOddAudio = true
    · -- the sentinel throws, and nothing is called any more
      rw [reached, List.takeWhile_cons_of_neg (by rw [hodd]; decide), List.filter_nil]
      cases signal with
      | audio chunk =>
        have hthrows : relayHandlers.throwsOn .sentinel (.audio chunk) = true := hodd
        unfold SessionHandlers.callAll SessionHandlers.callEach SessionHandlers.handlersOf relayHandlers
        unfold relayHandlers at hthrows
        simp only [Delivery.andThen, hthrows, if_true]
        rfl
      | text _ | interruption | toolCall _ | error _ => exact absurd hodd Bool.false_ne_true
    · have heven : signal.isOddAudio = false := Bool.eq_false_iff.mpr hodd
      rw [SessionHandlers.callAll, relaySignals_andThen heven, ih, reached, reached,
        List.takeWhile_cons_of_pos (by rw [heven]; decide), List.filter_cons]
      cases hempty : (relayHandlers.handlersOf signal).isEmpty with
      | true => rfl
      | false => rfl

/-- The relay does nothing on a signal for which it has no handler. -/
theorem foldl_receive_filter (r : LiveRelay) (signals : List Signal) :
    (signals.filter fun signal => !(relayHandlers.handlersOf signal).isEmpty).foldl LiveRelay.receive r
      = signals.foldl LiveRelay.receive r := by
  induction signals generalizing r with
  | nil => rfl
  | cons signal signals ih =>
    cases signal with
    | toolCall _ => exact ih r
    | text _ | audio _ | interruption | error _ => exact ih _

/-- **What the relay makes of a message** is what its handlers make of the signals they are called with. -/
theorem onMessage_eq_foldl (settings : LiveSettings) (r : LiveRelay) (s : RelayedSession) (data : List UInt8) :
    r.onMessage settings s data = if s.monitoredAs.isSome then
      (relaySignals (relayHandlers.handle settings.otherData data)).foldl LiveRelay.receive r else r := by
  have hsignals : relaySignals (relayHandlers.handle settings.otherData data)
      = relaySignals (relayHandlers.callAll (handleMessage settings.otherData data)) := by
    rw [SessionHandlers.handle]
    split <;> rfl
  rw [LiveRelay.onMessage, hsignals, relaySignals_callAll, foldl_receive_filter]

/-! ## Frames of either kind -/

/-- Audio of two samples and a message with a tool call. -/
def plainFrames : List GeminiFrame :=
  [⟨true, [0, 1, 2, 3]⟩, jsonFrame (lit "\x7b\"toolCall\":\x7b\x7d\x7d")]

/-- Both are dispatched. -/
theorem plain_frames_dispatched :
    List.Forall₂ (Dispatched relayHandlers) plainFrames (relayHandlers.handleAll (fun _ => none) plainFrames) :=
  every_frame_dispatched relayHandlers (fun _ => none) (by decide +kernel)

/-- **Audio that begins with a brace** reaches no handler. -/
theorem brace_audio_is_lost : ¬ ∀ (ι : Type) (hs : SessionHandlers ι) (other : Option Json → Option (List UInt8))
    (frames : List GeminiFrame), List.Forall₂ (Dispatched hs) frames (hs.handleAll other frames) := by
  intro hclaim
  have hframes := hclaim RelayHandler relayHandlers (fun _ => none) [⟨true, [0x7b, 0]⟩]
  have hcalls : (relayHandlers.handleAll (fun _ => none) [⟨true, [0x7b, 0]⟩]).map (fun d => d.calls.length) = [0] := by
    decide +kernel
  obtain ⟨d, ds, hd, -, heq⟩ := List.forall₂_cons_left_iff.mp hframes
  rw [heq, List.map_cons, hd.audio rfl] at hcalls
  exact absurd (List.cons.inj hcalls).1 (by decide)

end DreamWeaver.Live
