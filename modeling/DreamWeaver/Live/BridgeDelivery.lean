import DreamWeaver.Live.FrameContents
import DreamWeaver.Live.RelaySteps

/-! # Delivery of what the model says

The relay passes the texts, the audio and the interruptions of Gemini on to the client. Tool calls have no
handler, a message that acknowledges the setup or reports an error is not read further, what looks like
JSON is not taken for audio, and whatever throws while a message is read takes the rest of the message with
it; an interruption is passed on behind an `await`, so that what arrives in the meantime overtakes it. In
every run without such messages the client gets everything once and in order. -/

namespace DreamWeaver.Live

open Transitions

variable {settings : LiveSettings} {other : Option Json → Option (List UInt8)} {r r' : LiveRelay}
  {a : RelayAction} {actions : List RelayAction} {past : List Signal}

/-! ## What a frame brings -/

namespace GeminiFrame

/-- The JSON of a frame. -/
def message? (frame : GeminiFrame) : Option Json := (parseJson (decodeUtf8 frame.data)).toOption

/-- What the model says in a frame. -/
def spoken (frame : GeminiFrame) : List Signal :=
  if frame.isAudio then [.audio frame.data] else frame.message?.elim [] spokenIn

/-- The interruption that a frame signals. -/
def interruptions (frame : GeminiFrame) : List Signal :=
  if frame.isAudio then [] else frame.message?.elim [] interruptionIn

/-- The tool call of a frame. -/
def toolCalls (frame : GeminiFrame) : List Signal :=
  if frame.isAudio then [] else frame.message?.elim [] toolCallIn

/-- Everything that a frame brings: the parts, the interruption and the tool call. -/
def contents (frame : GeminiFrame) : List Signal :=
  frame.spoken ++ frame.interruptions ++ frame.toolCalls

end GeminiFrame

/-- What an action brings for the client. -/
def RelayAction.received : RelayAction → List Signal
  | .message _ frame _ => frame.contents
  | _ => []

/-! ## Plain messages -/

/-- A text that is a string with a character, or nothing that counts as true. -/
def plainText (part : Json) : Bool :=
  match part.get (lit "text") with
  | some (.str text) => text != []
  | some v => !v.truthy
  | none => true

/-- Inline data that is not audio, or audio that consists of samples. -/
def plainData (inlineData : Json) : Bool :=
  (mimeType inlineData).isSome &&
    (!isAudioData inlineData || (inlineBytes inlineData).any fun bytes => bytes.length % 2 == 0)

/-- A part that can be read. -/
def plainPart : Json → Bool
  | .null => false
  | part => plainText part && ((inlineData? part).filter Json.truthy).all plainData

/-- **A message that the session reads whole**: its parts can be read, it has no tool call, and if it
acknowledges the setup or reports an error it brings nothing else. -/
def plainMessage (msg : Json) : Bool :=
  (toolCallIn msg).isEmpty &&
    if isTruthy (msg.get (lit "setupComplete")) || isTruthy (msg.get (lit "error")) then
      (spokenIn msg).isEmpty && (interruptionIn msg).isEmpty
    else (serverContent? msg).all fun content =>
      (turnParts content).isSome && (modelParts content).all plainPart

/-- **A frame that the session takes for what it is**: JSON begins with a brace and audio does not, and
audio consists of samples. -/
def GeminiFrame.plain (frame : GeminiFrame) : Bool :=
  if frame.isAudio then frame.data.head? != some 0x7b && frame.data.length % 2 == 0
  else frame.data.head? == some 0x7b && frame.message?.all plainMessage

/-- **The condition on an action**, while the client is open: a frame is plain, its session has its handlers,
and what the model says comes when no interruption is being assessed. -/
def LiveRelay.Bridging (r : LiveRelay) : RelayAction → Prop
  | .message i frame _ => r.clientWs = .opened ∧ frame.plain = true ∧
      (r.sessions[i]?.bind RelayedSession.monitoredAs).isSome = true ∧
        (r.assessing = 0 ∨ frame.spoken.isEmpty = true)
  | .assessed => r.clientWs = .opened
  | _ => True

instance (r : LiveRelay) (a : RelayAction) : Decidable (r.Bridging a) := by
  cases a <;> unfold LiveRelay.Bridging <;> infer_instance

/-- What the client was told of what the model says. -/
def LiveRelay.delivered (r : LiveRelay) : List Signal := r.toClient.filterMap ClientFrame.signal?

/-- The client was told everything once and in order, but for interruptions that are being assessed. -/
structure Bridged (received : List Signal) (r : LiveRelay) : Prop where
  inOrder : r.delivered <+: received
  complete : r.assessing = 0 → r.delivered = received

/-! ## Reading plain messages -/

theorem readableText_of_plain {part : Json} (h : plainText part = true) :
    readableText part = true ∧ saidText part = partText part := by
  unfold plainText at h
  unfold readableText saidText partText
  cases htext : part.get (lit "text") with
  | none => exact ⟨rfl, rfl⟩
  | some v =>
    rw [htext] at h
    cases v with
    | str text =>
      have hne : text ≠ [] := by simpa using h
      refine ⟨rfl, ?_⟩
      dsimp only
      rw [if_neg hne]
      rfl
    | null | bool _ | num _ | arr _ | obj _ => exact ⟨h, rfl⟩

theorem readableData_of_plain {inlineData : Json} (h : plainData inlineData = true) :
    readableData inlineData = true := by
  rw [plainData, Bool.and_eq_true, Bool.or_eq_true] at h
  rw [readableData, Bool.and_eq_true, Bool.or_eq_true]
  refine ⟨h.1, h.2.imp_right fun hany => ?_⟩
  obtain ⟨bytes, hbytes, -⟩ := Option.any_eq_true _ _ |>.mp hany
  rw [hbytes]
  rfl

/-- A plain part can be read, and it says what it contains. -/
theorem readablePart_of_plain {part : Json} (h : plainPart part = true) :
    readablePart part = true ∧ saidText part = partText part := by
  have hsplit : part ≠ .null ∧ plainText part = true ∧
      ((inlineData? part).filter Json.truthy).all plainData = true := by
    cases part with
    | null => cases h
    | bool _ | num _ | str _ | arr _ | obj _ =>
      rw [plainPart, Bool.and_eq_true] at h
      · exact ⟨(fun h => by cases h), h⟩
      · intro h
        cases h
  obtain ⟨hnull, htext, hdata⟩ := hsplit
  obtain ⟨hreadable, hsaid⟩ := readableText_of_plain htext
  refine ⟨readablePart_iff.mpr ⟨hnull, hreadable, ?_⟩, hsaid⟩
  cases hfound : (inlineData? part).filter Json.truthy with
  | none => rfl
  | some v =>
    rw [hfound] at hdata
    exact readableData_of_plain hdata

/-- **A plain message** gives what the model says and the interruption. -/
theorem messageDispatch_of_plain {msg : Json} (htool : toolCallIn msg = [])
    (h : (serverContent? msg).all (fun content =>
      (turnParts content).isSome && (modelParts content).all plainPart) = true) :
    (messageDispatch other msg).signals = spokenIn msg ++ interruptionIn msg := by
  have hread : readableContent msg = true ∧ saidIn msg = spokenIn msg := by
    unfold readableContent saidIn spokenIn
    cases hfound : serverContent? msg with
    | none => exact ⟨rfl, rfl⟩
    | some v =>
      rw [hfound, Option.all_some, Bool.and_eq_true, List.all_eq_true] at h
      rw [Option.all_some, Bool.and_eq_true, List.all_eq_true]
      refine ⟨⟨h.1, fun part hmem => (readablePart_of_plain (h.2 part hmem)).1⟩, ?_⟩
      refine List.flatMap_congr fun part hmem => ?_
      rw [(readablePart_of_plain (h.2 part hmem)).2]
  rw [messageDispatch_of_readable hread.1, hread.2, htool, List.append_nil]

/-! ## Plain frames -/

/-- A signal that says something: audio that consists of samples, or a text. -/
def Signal.isSpoken : Signal → Bool
  | .text _ => true
  | .audio chunk => chunk.length % 2 == 0
  | _ => false

theorem isSpoken_of_plainPart {part : Json} (h : plainPart part = true) :
    ∀ signal ∈ partText part ++ partAudio part, signal.isSpoken = true := by
  intro signal hmem
  rcases List.mem_append.mp hmem with hmem | hmem
  · obtain ⟨text, -, rfl⟩ := Option.map_eq_some_iff.mp (Option.mem_toList.mp hmem)
    rfl
  · obtain ⟨bytes, hbytes, rfl⟩ := Option.map_eq_some_iff.mp (Option.mem_toList.mp hmem)
    obtain ⟨v, hv, hbytes⟩ := Option.bind_eq_some_iff.mp hbytes
    obtain ⟨hv, haudio⟩ := Option.filter_eq_some_iff.mp hv
    have htruthy : v.truthy = true := by
      by_contra hfalsy
      rw [isAudioData_of_not_truthy (Bool.eq_false_iff.mpr hfalsy)] at haudio
      cases haudio
    have hdata : plainData v = true := by
      cases part with
      | null => cases h
      | bool _ | num _ | str _ | arr _ | obj _ =>
        rw [plainPart, Bool.and_eq_true, hv, Option.filter_some, if_pos htruthy] at h
        · exact h.2
        · intro h
          cases h
    rw [plainData, Bool.and_eq_true, Bool.or_eq_true, Bool.not_eq_true', haudio, hbytes] at hdata
    exact hdata.2.resolve_left (by decide)

/-- What the session makes of a message that is plain. -/
theorem plainMessage_cases {msg : Json} (h : plainMessage msg = true) : toolCallIn msg = [] ∧
    ((isTruthy (msg.get (lit "setupComplete")) || isTruthy (msg.get (lit "error"))) = true ∧
        spokenIn msg = [] ∧ interruptionIn msg = [] ∨
      (isTruthy (msg.get (lit "setupComplete")) || isTruthy (msg.get (lit "error"))) = false ∧
        (serverContent? msg).all (fun content =>
          (turnParts content).isSome && (modelParts content).all plainPart) = true) := by
  rw [plainMessage, Bool.and_eq_true, List.isEmpty_iff] at h
  refine ⟨h.1, ?_⟩
  by_cases hother : (isTruthy (msg.get (lit "setupComplete")) || isTruthy (msg.get (lit "error"))) = true
  · rw [if_pos hother, Bool.and_eq_true, List.isEmpty_iff, List.isEmpty_iff] at h
    exact Or.inl ⟨hother, h.2⟩
  · rw [if_neg hother] at h
    exact Or.inr ⟨Bool.eq_false_iff.mpr hother, h.2⟩

theorem isSpoken_of_plainMessage {msg : Json} (h : plainMessage msg = true) :
    ∀ signal ∈ spokenIn msg, signal.isSpoken = true := by
  intro signal hmem
  rcases (plainMessage_cases h).2 with ⟨-, hnone, -⟩ | ⟨-, hcontent⟩
  · rw [hnone] at hmem
    cases hmem
  · unfold spokenIn at hmem
    cases hfound : serverContent? msg with
    | none =>
      rw [hfound] at hmem
      cases hmem
    | some content =>
      rw [hfound, Option.all_some, Bool.and_eq_true] at hcontent
      rw [hfound, Option.elim_some] at hmem
      obtain ⟨part, hpart, hmem⟩ := List.mem_flatMap.mp hmem
      exact isSpoken_of_plainPart (List.all_eq_true.mp hcontent.2 part hpart) signal hmem

namespace GeminiFrame

variable {frame : GeminiFrame}

theorem plain_of_isAudio (haudio : frame.isAudio = true) (h : frame.plain = true) :
    frame.data.head? ≠ some 0x7b ∧ (Signal.audio frame.data).isSpoken = true := by
  rw [plain, if_pos haudio, Bool.and_eq_true, bne_iff_ne] at h
  exact h

theorem plain_of_json (hjson : ¬ frame.isAudio = true) (h : frame.plain = true) :
    frame.data.head? = some 0x7b ∧ ∀ msg, frame.message? = some msg → plainMessage msg = true := by
  rw [plain, if_neg hjson, Bool.and_eq_true, beq_iff_eq] at h
  refine ⟨h.1, fun msg hmsg => ?_⟩
  rw [hmsg, Option.all_some] at h
  exact h.2

/-- A plain frame brings no tool call. -/
theorem contents_of_plain (h : frame.plain = true) :
    frame.contents = frame.spoken ++ frame.interruptions := by
  rw [contents, List.append_right_eq_self, toolCalls]
  by_cases haudio : frame.isAudio = true
  · rw [if_pos haudio]
  · rw [if_neg haudio]
    cases hmsg : frame.message? with
    | none => rfl
    | some msg =>
      exact (plainMessage_cases ((plain_of_json haudio h).2 msg hmsg)).1

/-- What a plain frame says can be passed on. -/
theorem isSpoken_of_plain (h : frame.plain = true) : ∀ signal ∈ frame.spoken, signal.isSpoken = true := by
  intro signal hmem
  unfold spoken at hmem
  by_cases haudio : frame.isAudio = true
  · rw [if_pos haudio, List.mem_singleton] at hmem
    rw [hmem]
    exact (plain_of_isAudio haudio h).2
  · rw [if_neg haudio] at hmem
    cases hmsg : frame.message? with
    | none =>
      rw [hmsg] at hmem
      cases hmem
    | some msg =>
      rw [hmsg] at hmem
      exact isSpoken_of_plainMessage ((plain_of_json haudio h).2 msg hmsg) signal hmem

/-- **A plain frame is read whole**, or it reports an error and brings nothing. -/
theorem handleMessage_of_plain (h : frame.plain = true) :
    handleMessage other frame.data = frame.spoken ++ frame.interruptions ∨
      frame.spoken ++ frame.interruptions = [] ∧
        ∃ error, handleMessage other frame.data = [.error error] := by
  unfold spoken interruptions handleMessage
  by_cases haudio : frame.isAudio = true
  · left
    rw [if_neg (plain_of_isAudio haudio h).1, if_pos haudio, if_pos haudio, List.append_nil]
  · obtain ⟨hhead, hplain⟩ := plain_of_json haudio h
    rw [if_pos hhead, if_neg haudio, if_neg haudio]
    unfold message? at hplain ⊢
    cases hparse : parseJson (decodeUtf8 frame.data) with
    | error e => exact Or.inl rfl
    | ok msg =>
      obtain ⟨htool, hcases⟩ := plainMessage_cases (hplain msg (by rw [hparse]; rfl))
      dsimp only [Except.toOption, Option.elim_some]
      by_cases hsetup : isTruthy (msg.get (lit "setupComplete")) = true
      · left
        rcases hcases with ⟨-, hspoken, hinterruption⟩ | ⟨hnot, -⟩
        · rw [if_pos hsetup, hspoken, hinterruption]
          rfl
        · rw [hsetup, Bool.true_or] at hnot
          cases hnot
      · rw [if_neg hsetup]
        cases herror : (msg.get (lit "error")).filter Json.truthy with
        | some error =>
          right
          rcases hcases with ⟨-, hspoken, hinterruption⟩ | ⟨hnot, -⟩
          · rw [hspoken, hinterruption]
            exact ⟨rfl, error, rfl⟩
          · obtain ⟨hsome, htruthy⟩ := Option.filter_eq_some_iff.mp herror
            rw [hsome, isTruthy, isTruthy, Option.any_some, htruthy, Bool.or_true] at hnot
            cases hnot
        | none =>
          left
          rcases hcases with ⟨hyes, -⟩ | ⟨-, hcontent⟩
          · rw [Bool.or_eq_true] at hyes
            obtain ⟨v, hv, htruthy⟩ := exists_of_isTruthy (hyes.resolve_left hsetup)
            rw [hv, Option.filter_some, if_pos htruthy] at herror
            cases herror
          · exact messageDispatch_of_plain htool hcontent

end GeminiFrame

/-! ## Passing it on -/

/-- What says something reaches every handler. -/
theorem reached_eq_self {signals : List Signal} (h : ∀ signal ∈ signals, signal.isOddAudio = false) :
    reached signals = signals := by
  rw [reached, List.takeWhile_eq_self_iff]
  intro signal hmem
  rw [h signal hmem]
  rfl

theorem isOddAudio_of_isSpoken {signal : Signal} (h : signal.isSpoken = true) :
    signal.isOddAudio = false := by
  cases signal with
  | audio chunk =>
    have heven : chunk.length % 2 = 0 := by simpa [Signal.isSpoken] using h
    simp [Signal.isOddAudio, heven]
  | text _ | interruption | toolCall _ | error _ => rfl

/-- What an interruption adds while it is assessed. -/
theorem isOddAudio_of_mem_interruptions {frame : GeminiFrame} {signal : Signal}
    (h : signal ∈ frame.interruptions) : signal = .interruption := by
  unfold GeminiFrame.interruptions interruptionIn at h
  split at h
  · cases h
  · cases hmsg : frame.message? with
    | none =>
      rw [hmsg] at h
      cases h
    | some msg =>
      rw [hmsg, Option.elim_some] at h
      split at h
      · exact List.mem_singleton.mp h
      · cases h

namespace LiveRelay

/-- An open client is told what the model says. -/
theorem foldl_receive_spoken {signals : List Signal} (hspoken : ∀ signal ∈ signals, signal.isSpoken = true)
    (hopen : r.clientWs = .opened) : ∃ frames, frames.filterMap ClientFrame.signal? = signals ∧
      signals.foldl receive r = { r with toClient := r.toClient ++ frames } := by
  induction signals generalizing r with
  | nil => exact ⟨[], rfl, by rw [List.append_nil]; rfl⟩
  | cons signal signals ih =>
    have hone : ∃ frame, ClientFrame.signal? frame = some signal ∧
        r.receive signal = { r with toClient := r.toClient ++ [frame] } := by
      have hsaid := hspoken signal List.mem_cons_self
      have hsend : ∀ frame, r.sendClient frame = { r with toClient := r.toClient ++ [frame] } :=
        fun frame => if_pos hopen
      cases signal with
      | text text => exact ⟨textFrame text, signal?_textFrame text, hsend _⟩
      | audio chunk => exact ⟨.binary chunk, rfl, hsend _⟩
      | interruption | toolCall _ | error _ => cases hsaid
    obtain ⟨frame, hframe, heq⟩ := hone
    obtain ⟨frames, hframes, heq'⟩ := ih (r := r.receive signal)
      (fun s hs => hspoken s (List.mem_cons_of_mem _ hs)) (by rw [heq]; exact hopen)
    refine ⟨frame :: frames, ?_, ?_⟩
    · rw [List.filterMap_cons_some hframe, hframes]
    · rw [List.foldl_cons, heq', heq]
      dsimp only
      rw [List.append_assoc, List.singleton_append]

/-- Interruptions wait for their assessment. -/
theorem foldl_receive_interruptions {signals : List Signal} (h : ∀ signal ∈ signals, signal = .interruption)
    (r : LiveRelay) : signals.foldl receive r = { r with assessing := r.assessing + signals.length } := by
  induction signals generalizing r with
  | nil => rfl
  | cons signal signals ih =>
    obtain rfl := h signal List.mem_cons_self
    rw [List.foldl_cons, ih (fun s hs => h s (List.mem_cons_of_mem _ hs)), receive, List.length_cons]
    dsimp only
    rw [Nat.add_assoc, Nat.add_comm 1]

/-! ## The invariant -/

/-- What was received was passed on, or it is an interruption that is being assessed. -/
def BridgeKept (past : List Signal) (r : LiveRelay) : Prop :=
  past = r.delivered ++ List.replicate r.assessing .interruption

/-- Telling the client of something else changes nothing. -/
theorem BridgeKept.tell (h : BridgeKept past r) {more : List ClientFrame}
    (hmore : ∀ frame ∈ more, ClientFrame.signal? frame = none)
    (hclient : r'.toClient = r.toClient ++ more) (hassessing : r'.assessing = r.assessing) :
    BridgeKept past r' := by
  rw [BridgeKept, delivered, hclient, hassessing, List.filterMap_append,
    List.filterMap_eq_nil_iff.mpr hmore, List.append_nil]
  exact h

theorem BridgeKept.aside (h : BridgeKept past r) (haside : r.Aside r') : BridgeKept past r' := by
  obtain ⟨more, hmore, heq⟩ := haside.toClient
  exact h.tell hmore heq (by rw [haside.rest])

/-- **A plain frame** is passed on. -/
theorem BridgeKept.onMessage (h : BridgeKept past r) (hopen : r.clientWs = .opened) {frame : GeminiFrame}
    (hplain : frame.plain = true) {s : RelayedSession} (hattached : s.monitoredAs.isSome = true)
    (hready : r.assessing = 0 ∨ frame.spoken.isEmpty = true) :
    BridgeKept (past ++ frame.contents) (r.onMessage settings s frame.data) := by
  rw [LiveRelay.onMessage, if_pos hattached, frame.contents_of_plain hplain]
  have hread : handleMessage settings.otherData frame.data = _ ∨ _ := frame.handleMessage_of_plain hplain
  rcases hread with heq | ⟨hnone, e, heq⟩
  · have hspoken := frame.isSpoken_of_plain hplain
    have hreached : reached (frame.spoken ++ frame.interruptions) = frame.spoken ++ frame.interruptions := by
      refine reached_eq_self fun signal hmem => ?_
      rcases List.mem_append.mp hmem with hmem | hmem
      · exact isOddAudio_of_isSpoken (hspoken signal hmem)
      · rw [isOddAudio_of_mem_interruptions hmem]
        rfl
    obtain ⟨frames, hframes, hfold⟩ := foldl_receive_spoken hspoken hopen
    rw [heq, hreached, List.foldl_append, hfold,
      foldl_receive_interruptions fun signal hmem => isOddAudio_of_mem_interruptions hmem]
    have hinterruptions : frame.interruptions =
        List.replicate frame.interruptions.length .interruption :=
      List.eq_replicate_of_mem fun signal hmem => isOddAudio_of_mem_interruptions hmem
    show past ++ _ = (r.toClient ++ frames).filterMap ClientFrame.signal? ++ List.replicate _ _
    rw [List.filterMap_append, hframes, h, delivered]
    rcases hready with hzero | hempty
    · rw [hzero, Nat.zero_add, ← hinterruptions, List.replicate_zero, List.append_nil, List.append_assoc]
    · rw [List.isEmpty_iff.mp hempty, List.nil_append, List.append_nil, ← List.replicate_append_replicate,
        ← hinterruptions, List.append_assoc]
  · -- the message reports an error
    rw [hnone, List.append_nil, heq]
    obtain ⟨more, hmore, htell⟩ := r.exists_sendClient
      (systemError [(lit "message", .str (lit "Google API Error")), (lit "details", e)])
    show BridgeKept past (r.sendClient _)
    rw [htell]
    refine h.tell (fun f hf => ?_) rfl rfl
    rw [List.mem_singleton.mp (hmore hf)]
    exact signal?_systemError _

/-- **Every action that meets the condition keeps it.** -/
theorem BridgeKept.step (h : BridgeKept past r) (hbridging : r.Bridging a)
    (hstep : r.step settings a = some r') : BridgeKept (past ++ a.received) r' := by
  have hcases := step_cases hstep
  cases a with
  | message i frame now =>
    obtain ⟨s, hs, rfl⟩ := hcases
    obtain ⟨hopen, hplain, hattached, hready⟩ := hbridging
    rw [hs, Option.bind_some] at hattached
    exact h.onMessage hopen hplain hattached hready
  | assessed =>
    obtain ⟨hpos, rfl⟩ := hcases
    change BridgeKept (past ++ []) _
    obtain ⟨n, hn⟩ := Nat.exists_eq_add_one_of_ne_zero hpos.ne'
    rw [List.append_nil, assessed, sendClient, if_pos (by exact hbridging), BridgeKept, delivered,
      List.filterMap_append, h, hn, delivered, List.replicate_succ, List.append_assoc]
    rfl
  | binary chunk =>
    obtain ⟨-, rfl⟩ := hcases
    change BridgeKept (past ++ []) _
    rw [List.append_nil]
    unfold onBinary
    split
    · rw [onLiveSession_frame]
      exact h
    · exact h
  | text data env =>
    obtain ⟨-, rfl⟩ := hcases
    change BridgeKept (past ++ []) _
    rw [List.append_nil]
    rcases onText_cases settings r data env with haside | ⟨-, msg, config, -, -, heq⟩
    · exact h.aside haside
    · rw [heq]
      rcases startSession_cases settings { r with sessionId := setupSessionId msg r.sessionId } config
        ((msg.get (lit "traceId")).bind Json.text?) env with hstart | ⟨key, hstart⟩
      · rw [hstart]
        exact h
      · rw [hstart]
        exact h
  | started k =>
    obtain ⟨start, -, rfl⟩ := hcases
    change BridgeKept (past ++ []) _
    rw [List.append_nil]
    cases start.session with
    | none =>
      obtain ⟨more, ws, hmore, -, heq⟩ := started_none_frame { r with starting := r.starting.eraseIdx k }
      rw [heq]
      exact h.tell hmore rfl rfl
    | some i =>
      rw [started_some_frame]
      exact h
  | upstreamClosed i code reason =>
    obtain ⟨s, -, rfl⟩ := hcases
    change BridgeKept (past ++ []) _
    rw [List.append_nil]
    obtain ⟨more, ws, hmore, -, heq⟩ := onUpstreamClose_frame r i s code reason
    rw [heq]
    exact h.tell hmore rfl rfl
  | sleepCue payload =>
    change BridgeKept (past ++ []) _
    rw [List.append_nil]
    exact h.aside hcases
  | opened i | upstreamClosing i =>
    obtain ⟨s, hcases⟩ := hcases
    change BridgeKept (past ++ []) _
    obtain rfl := by first | exact hcases.2.2 | exact hcases.2
    rw [List.append_nil]
    exact h
  | clientClosed | clientFailed =>
    change BridgeKept (past ++ []) _
    rw [List.append_nil, hcases, onLiveSession_frame]
    exact h

end LiveRelay

/-- **What the model says is delivered**, in every run whose actions meet the condition. -/
theorem bridged {userId apiKey : Option Text} {now : ℤ}
    (hrun : runFrom (LiveRelay.step settings) (.connected userId apiKey now) actions = some r)
    (hbridging : Along (LiveRelay.step settings) LiveRelay.Bridging (.connected userId apiKey now) actions) :
    Bridged (actions.flatMap RelayAction.received) r := by
  have hkept : LiveRelay.BridgeKept [] (.connected userId apiKey now) := rfl
  have hend : LiveRelay.BridgeKept
      ([] ++ outputs (LiveRelay.step settings) (fun _ => RelayAction.received) _ actions) r :=
    run_outputs (fun _ _ _ _ h hok hstep => LiveRelay.BridgeKept.step h hok hstep) hkept hbridging hrun
  rw [List.nil_append, outputs_eq_flatMap hrun, LiveRelay.BridgeKept] at hend
  refine ⟨⟨_, hend.symm⟩, fun hzero => ?_⟩
  rw [hend, hzero, List.replicate_zero, List.append_nil]

/-- A frame of JSON. -/
def jsonFrame (text : Text) : GeminiFrame := ⟨false, encodeUtf8 text⟩

/-- The session of ana is set up and opens. -/
def openSession : List RelayAction := [.text setupText none, .started 0, .opened 0]

/-- The model says something, is interrupted, and says something again. -/
def toldAndInterrupted : List RelayAction := openSession ++
  [.message 0 (jsonFrame (lit "\x7b\"serverContent\":\x7b\"modelTurn\":\x7b\"parts\":[" ++
      lit "\x7b\"text\":\"Once\"\x7d]\x7d,\"interrupted\":true\x7d\x7d")) 0,
    .assessed, .message 0 ⟨true, [1, 0]⟩ 0]

theorem bridged_toldAndInterrupted : ∃ r,
    runFrom (LiveRelay.step plainSettings) relayOfAna toldAndInterrupted = some r ∧
      Bridged (toldAndInterrupted.flatMap RelayAction.received) r ∧ r.delivered.length = 3 := by
  have hlength : (runFrom (LiveRelay.step plainSettings) relayOfAna toldAndInterrupted).map
      (fun r => r.delivered.length) = some 3 := by
    rw [toldAndInterrupted]
    repeat rw [lit_ofList]
    decide +kernel
  have hbridging : Along (LiveRelay.step plainSettings) LiveRelay.Bridging relayOfAna toldAndInterrupted := by
    rw [toldAndInterrupted]
    repeat rw [lit_ofList]
    decide +kernel
  obtain ⟨r, hruns, hlength⟩ := Option.map_eq_some_iff.mp hlength
  exact ⟨r, hruns, bridged hruns hbridging, hlength⟩

/-- The model calls a tool. -/
def toolCalled : List RelayAction :=
  openSession ++ [.message 0 (jsonFrame (lit "\x7b\"toolCall\":\x7b\x7d\x7d")) 0]

/-- The client, which is open, is told nothing of the call. -/
theorem toolCalled_not_bridged : ∃ r,
    runFrom (LiveRelay.step plainSettings) relayOfAna toolCalled = some r ∧ r.clientWs = .opened ∧
      r.assessing = 0 ∧ r.delivered = [] ∧ (toolCalled.flatMap RelayAction.received).length = 1 ∧
        ¬ Bridged (toolCalled.flatMap RelayAction.received) r := by
  have hafter : (runFrom (LiveRelay.step plainSettings) relayOfAna toolCalled).map
      (fun r => (r.clientWs, r.assessing, r.delivered.isEmpty)) = some (.opened, 0, true) := by decide +kernel
  have hreceived : (toolCalled.flatMap RelayAction.received).length = 1 := by decide +kernel
  obtain ⟨r, hruns, hafter⟩ := Option.map_eq_some_iff.mp hafter
  obtain ⟨hopened, hafter⟩ := Prod.mk.inj hafter
  obtain ⟨hassessing, hdelivered⟩ := Prod.mk.inj hafter
  rw [List.isEmpty_iff] at hdelivered
  refine ⟨r, hruns, hopened, hassessing, hdelivered, hreceived, fun h => ?_⟩
  rw [← h.complete hassessing, hdelivered] at hreceived
  cases hreceived

end DreamWeaver.Live
