import DreamWeaver.Live.GeminiLiveRelay
import Mathlib.Data.List.Forall2

/-! # What the relay does at a time

Most of what happens changes no more than what the sessions have said, other than audio, and what the client
is told, other than what the model says: such a change is an `Aside`. What is left are the chunks of audio,
the start of a session, and the events of its socket. -/

namespace DreamWeaver.Live

/-! ## Audio in messages -/

/-- The chunk of audio that a message to Gemini carries. -/
def audioChunk? (msg : Json) : Option (List UInt8) :=
  let data := ((((msg.get (lit "realtime_input")).bind fun v =>
    v.get (lit "media_chunks")).bind Json.first).bind fun v => v.get (lit "data")).bind Json.text?
  data.map decodeBase64

/-- The audio that a session has sent. -/
def GeminiLiveSession.sentAudio (s : GeminiLiveSession) : List (List UInt8) :=
  s.sent.filterMap audioChunk?

/-- A chunk arrives as it was sent. -/
@[simp] theorem audioChunk?_realtimeInput (chunk : List UInt8) :
    audioChunk? (realtimeInput chunk) = some chunk := by
  show some (decodeBase64 (encodeBase64 chunk)) = some chunk
  rw [decodeBase64_encodeBase64]

theorem audioChunk?_clientContent (text : Text) : audioChunk? (clientContent text) = none := rfl

theorem audioChunk?_toolResponse (response : Json) :
    audioChunk? (.obj [(lit "tool_response", response)]) = none := rfl

theorem audioChunk?_setupMsg (liveModel : Option Text) (options : LiveSessionOptions) :
    audioChunk? (setupMsg liveModel options) = none := rfl

/-- What a session says, if it is open, is behind what it has said. -/
theorem GeminiLiveSession.exists_sendJson (s : GeminiLiveSession) (data : Json) :
    ∃ more, more ⊆ [data] ∧ s.sendJson data = { s with sent := s.sent ++ more } := by
  unfold sendJson
  split
  · exact ⟨[data], List.Subset.refl _, rfl⟩
  · exact ⟨[], List.nil_subset _, by rw [List.append_nil]⟩

namespace RelayedSession

variable {s s' s'' : RelayedSession}

/-- A session says something other than audio. -/
def Talks (s s' : RelayedSession) : Prop :=
  ∃ more, (∀ msg ∈ more, audioChunk? msg = none) ∧ s' = { s with sent := s.sent ++ more }

theorem Talks.refl (s : RelayedSession) : s.Talks s := by
  refine ⟨[], (fun _ h => nomatch h), ?_⟩
  rw [List.append_nil]

theorem Talks.trans (h : s.Talks s') (h' : s'.Talks s'') : s.Talks s'' := by
  obtain ⟨more, hmore, rfl⟩ := h
  obtain ⟨more', hmore', rfl⟩ := h'
  refine ⟨more ++ more', fun msg hmsg => ?_, ?_⟩
  · rcases List.mem_append.mp hmsg with hmsg | hmsg
    · exact hmore msg hmsg
    · exact hmore' msg hmsg
  · rw [← List.append_assoc]

/-- Talking adds no audio. -/
theorem Talks.sentAudio (h : s.Talks s') : s'.sentAudio = s.sentAudio := by
  obtain ⟨more, hmore, rfl⟩ := h
  unfold GeminiLiveSession.sentAudio
  rw [List.filterMap_append, List.filterMap_eq_nil_iff.mpr hmore, List.append_nil]

theorem Talks.readyState (h : s.Talks s') : s'.readyState = s.readyState := by
  obtain ⟨more, -, rfl⟩ := h
  rfl

theorem Talks.isOpen (h : s.Talks s') : s'.isOpen = s.isOpen := by
  obtain ⟨more, -, rfl⟩ := h
  rfl

theorem Talks.monitoredAs (h : s.Talks s') : s'.monitoredAs = s.monitoredAs := by
  obtain ⟨more, -, rfl⟩ := h
  rfl

theorem talks_sendJson (s : RelayedSession) {data : Json} (hdata : audioChunk? data = none) :
    s.Talks { s with toGeminiLiveSession := s.toGeminiLiveSession.sendJson data } := by
  obtain ⟨more, hmore, heq⟩ := s.toGeminiLiveSession.exists_sendJson data
  refine ⟨more, fun msg hmsg => ?_, ?_⟩
  · rw [List.mem_singleton.mp (hmore hmsg)]
    exact hdata
  · rw [heq]

theorem talks_sendText (s : RelayedSession) (text : Text) :
    s.Talks { s with toGeminiLiveSession := s.toGeminiLiveSession.sendText text } := by
  unfold GeminiLiveSession.sendText
  split
  · exact s.talks_sendJson (audioChunk?_clientContent text)
  · exact Talks.refl s

theorem talks_sendToolResponse (s : RelayedSession) (response : Json) :
    s.Talks { s with toGeminiLiveSession := s.toGeminiLiveSession.sendToolResponse response } := by
  unfold GeminiLiveSession.sendToolResponse
  split
  · exact s.talks_sendJson (audioChunk?_toolResponse response)
  · exact Talks.refl s

end RelayedSession

/-! ## Lists of sessions -/

/-- What relates a session to what it becomes relates the lists, if it relates a session to itself. -/
theorem forall₂_modify {α : Type} {R : α → α → Prop} {f : α → α} {l : List α} {i : ℕ}
    (hrefl : ∀ x, R x x) (hf : ∀ x, l[i]? = some x → R x (f x)) : List.Forall₂ R l (l.modify i f) := by
  induction l generalizing i with
  | nil => simp
  | cons x l ih =>
    have hsame : List.Forall₂ R l l := List.forall₂_same.mpr fun x _ => hrefl x
    cases i with
    | zero =>
      rw [List.modify_zero_cons]
      exact .cons (hf x rfl) hsame
    | succ i =>
      rw [List.modify_succ_cons]
      exact .cons (hrefl x) (ih fun y hy => hf y hy)

/-! ## What the client is told -/

/-- What a frame tells the client of what the model says. -/
def ClientFrame.signal? : ClientFrame → Option Signal
  | .binary chunk => some (.audio chunk)
  | .text msg =>
    let content := msg.get (lit "serverContent")
    let text := ((((content.bind fun v => v.get (lit "modelTurn")).bind fun v =>
      v.get (lit "parts")).bind Json.first).bind fun v => v.get (lit "text")).bind Json.text?
    match text with
    | some text => some (.text text)
    | none =>
      if isTruthy (content.bind fun v => v.get (lit "interrupted")) then some .interruption else none

theorem signal?_textFrame (text : Text) : (textFrame text).signal? = some (.text text) := rfl

theorem signal?_systemError (fields : List (Text × Json)) : (systemError fields).signal? = none := rfl

theorem signal?_sleepFrame (confidence : JsNumber) (cue : Option Text) :
    (sleepFrame confidence cue).signal? = none := rfl

namespace LiveRelay

variable {settings : LiveSettings} {r r' r'' : LiveRelay}

/-- What the client is told is behind what it was told. -/
theorem exists_sendClient (r : LiveRelay) (frame : ClientFrame) :
    ∃ more, more ⊆ [frame] ∧ r.sendClient frame = { r with toClient := r.toClient ++ more } := by
  unfold sendClient
  split
  · exact ⟨[frame], List.Subset.refl _, rfl⟩
  · exact ⟨[], List.nil_subset _, by rw [List.append_nil]⟩

/-- Closing the client does not mean that it has closed. -/
theorem exists_closeClient (r : LiveRelay) : ∃ ws, (ws = .closed → r.clientWs = .closed) ∧
    r.closeClient = { r with clientWs := ws } := by
  unfold closeClient
  split
  · exact ⟨.closing, (fun h => nomatch h), rfl⟩
  · exact ⟨r.clientWs, id, rfl⟩

/-! ## Asides -/

/-- The sessions say something other than audio, and the client is told something other than what the model
says. -/
structure Aside (r r' : LiveRelay) : Prop where
  sessions : List.Forall₂ RelayedSession.Talks r.sessions r'.sessions
  toClient : ∃ more, (∀ frame ∈ more, ClientFrame.signal? frame = none) ∧ r'.toClient = r.toClient ++ more
  rest : r' = { r with
    sessions := r'.sessions, toClient := r'.toClient, analyzed := r'.analyzed }

theorem Aside.refl (r : LiveRelay) : r.Aside r where
  sessions := List.forall₂_same.mpr fun s _ => RelayedSession.Talks.refl s
  toClient := ⟨[], (fun _ h => nomatch h), (List.append_nil _).symm⟩
  rest := rfl

theorem Aside.trans (h : r.Aside r') (h' : r'.Aside r'') : r.Aside r'' where
  sessions := by
    have htrans : ∀ {l l' l'' : List RelayedSession}, List.Forall₂ RelayedSession.Talks l l' →
        List.Forall₂ RelayedSession.Talks l' l'' → List.Forall₂ RelayedSession.Talks l l'' := by
      intro l l' l'' hl hl'
      induction hl generalizing l'' with
      | nil => exact hl'
      | cons hs _ ih =>
        obtain ⟨s'', l''', hs', hrest, rfl⟩ := List.forall₂_cons_left_iff.mp hl'
        exact .cons (hs.trans hs') (ih hrest)
    exact htrans h.sessions h'.sessions
  toClient := by
    obtain ⟨more, hmore, heq⟩ := h.toClient
    obtain ⟨more', hmore', heq'⟩ := h'.toClient
    refine ⟨more ++ more', fun frame hframe => ?_, by rw [heq', heq, List.append_assoc]⟩
    rcases List.mem_append.mp hframe with hframe | hframe
    · exact hmore frame hframe
    · exact hmore' frame hframe
  rest := by
    rw [h'.rest, h.rest]

theorem aside_sendClient (r : LiveRelay) {frame : ClientFrame} (hframe : frame.signal? = none) :
    r.Aside (r.sendClient frame) := by
  obtain ⟨more, hmore, heq⟩ := r.exists_sendClient frame
  rw [heq]
  refine ⟨(Aside.refl r).sessions, ⟨more, fun f hf => ?_, rfl⟩, rfl⟩
  rw [List.mem_singleton.mp (hmore hf)]
  exact hframe

/-- What is done to the session of the variable relates the lists of sessions. -/
theorem forall₂_onLiveSession {R : RelayedSession → RelayedSession → Prop}
    {f : GeminiLiveSession → GeminiLiveSession} (hrefl : ∀ s, R s s)
    (hf : ∀ s, R s { s with toGeminiLiveSession := f s.toGeminiLiveSession }) :
    List.Forall₂ R r.sessions (r.onLiveSession f).sessions := by
  unfold onLiveSession
  split
  · exact List.forall₂_same.mpr fun s _ => hrefl s
  · exact forall₂_modify hrefl fun s _ => hf s

theorem onLiveSession_of_some {i : ℕ} (h : r.liveSession = some i)
    (f : GeminiLiveSession → GeminiLiveSession) : r.onLiveSession f =
      r.updateSession i fun s => { s with toGeminiLiveSession := f s.toGeminiLiveSession } := by
  unfold onLiveSession
  rw [h]

/-- Nothing else is done. -/
theorem onLiveSession_frame (r : LiveRelay) (f : GeminiLiveSession → GeminiLiveSession) :
    r.onLiveSession f = { r with sessions := (r.onLiveSession f).sessions } := by
  unfold onLiveSession
  split <;> rfl

theorem aside_onLiveSession (r : LiveRelay) {f : GeminiLiveSession → GeminiLiveSession}
    (hf : ∀ s : RelayedSession, s.Talks { s with toGeminiLiveSession := f s.toGeminiLiveSession }) :
    r.Aside (r.onLiveSession f) := by
  rw [r.onLiveSession_frame f]
  exact ⟨forall₂_onLiveSession RelayedSession.Talks.refl hf, (Aside.refl r).toClient, rfl⟩

theorem aside_onToolResponse (r : LiveRelay) (msg : Json) : r.Aside (r.onToolResponse msg) := by
  unfold onToolResponse
  split
  · exact Aside.refl r
  · exact r.aside_onLiveSession fun s => s.talks_sendToolResponse _

theorem aside_onControl (r : LiveRelay) (msg : Json) : r.Aside (r.onControl msg) := by
  unfold onControl
  extract_lets text
  split
  · exact r.aside_onToolResponse msg
  · exact (r.aside_onLiveSession fun s => s.talks_sendText _).trans (aside_onToolResponse _ msg)
  · exact Aside.refl r

theorem aside_onSleepCue (payload : Json) (r : LiveRelay) : r.Aside (onSleepCue settings payload r) := by
  unfold onSleepCue
  extract_lets user
  split
  · split
    · rename_i confidence told paced _ _
      have htold : r.Aside told := r.aside_sendClient (signal?_sleepFrame _ _)
      have hpaced : r.Aside paced := htold.trans (told.aside_onLiveSession fun s => s.talks_sendText _)
      split
      · exact hpaced
      · refine hpaced.trans ⟨(Aside.refl _).sessions, (Aside.refl _).toClient, rfl⟩
    · exact Aside.refl r
  · exact Aside.refl r

theorem aside_iterate (payload : Json) (n : ℕ) (r : LiveRelay) :
    r.Aside ((onSleepCue settings payload)^[n] r) := by
  induction n generalizing r with
  | zero => exact Aside.refl r
  | succ n ih =>
    rw [Function.iterate_succ_apply]
    exact (aside_onSleepCue payload r).trans (ih _)

/-! ## Setup messages -/

/-- A text of the client with a setup. -/
def IsSetup (data : Text) : Prop := ∃ msg config, parseJson data = .ok msg ∧ setupOf msg = some config

/-- **A text is an aside**, unless it is a setup that finds the relay without an active session. -/
theorem onText_cases (settings : LiveSettings) (r : LiveRelay) (data : Text) (env : Option Text) :
    r.Aside (r.onText settings data env) ∨
      r.isSessionActive = false ∧ ∃ msg config, parseJson data = .ok msg ∧ setupOf msg = some config ∧
        r.onText settings data env =
          ({ r with sessionId := setupSessionId msg r.sessionId } : LiveRelay).startSession settings config
            ((msg.get (lit "traceId")).bind Json.text?) env := by
  unfold onText
  cases hmsg : parseJson data with
  | error e => exact Or.inl (Aside.refl r)
  | ok msg =>
    by_cases hactive : r.isSessionActive = true
    · left
      simp only [hactive, if_true]
      exact r.aside_onControl msg
    · cases hsetup : setupOf msg with
      | none =>
        left
        simp only [hactive, Bool.false_eq_true, if_false, hsetup]
        exact Aside.refl r
      | some config =>
        right
        refine ⟨Bool.eq_false_iff.mpr hactive, msg, config, rfl, hsetup, ?_⟩
        simp only [hactive, Bool.false_eq_true, if_false, hsetup]

/-- A start creates a session, unless there is no key. -/
theorem startSession_cases (settings : LiveSettings) (r : LiveRelay) (config : Json)
    (traceId env : Option Text) :
    r.startSession settings config traceId env =
        { r with starting := r.starting ++ [⟨none, traceId⟩] } ∨
      ∃ key, r.startSession settings config traceId env = { r with
        apiKey := some key
        starting := r.starting ++ [⟨some r.sessions.length, traceId⟩]
        sessions := r.sessions ++ [{ options := sessionOptions settings config }] } := by
  unfold startSession
  split
  · exact Or.inl rfl
  · exact Or.inr ⟨_, rfl⟩

/-! ## Starts -/

/-- A start that has failed closes the client. -/
theorem started_none_frame (r : LiveRelay) :
    ∃ more ws, (∀ frame ∈ more, ClientFrame.signal? frame = none) ∧
      (ws = .closed → r.clientWs = .closed) ∧
        r.started none = { r with toClient := r.toClient ++ more, clientWs := ws } := by
  unfold started
  obtain ⟨more, hmore, heq⟩ := r.exists_sendClient (systemError [(lit "message",
    .str (lit "Gemini API Key not configured (checked constructor and process.env)"))])
  obtain ⟨ws, hws, hclosed⟩ := (r.sendClient _).exists_closeClient
  rw [hclosed, heq] at *
  refine ⟨more, ws, fun frame hframe => ?_, hws, rfl⟩
  rw [List.mem_singleton.mp (hmore hframe)]
  exact signal?_systemError _

/-- A start that has succeeded activates the relay. -/
theorem started_some_frame (r : LiveRelay) (i : ℕ) : r.started (some i) = { r with
    liveSession := some i
    isSessionActive := true
    audioBufferQueue := []
    sessions := r.sessions.modify i fun s => { s with
      toGeminiLiveSession := r.audioBufferQueue.foldl GeminiLiveSession.sendAudio s.toGeminiLiveSession
      monitoredAs := some r.sessionId
      listening := true } } := by
  unfold started attach flush onLiveSession updateSession
  dsimp only
  rw [List.modify_modify_eq]
  rfl

/-! ## Messages of Gemini -/

/-- The handlers change what the client is told and the interruptions that are assessed. -/
theorem foldl_receive_frame (signals : List Signal) (r : LiveRelay) :
    ∃ frames n, signals.foldl receive r = { r with toClient := frames, assessing := n } := by
  induction signals generalizing r with
  | nil => exact ⟨_, _, rfl⟩
  | cons signal signals ih =>
    have hone : ∃ frames n, r.receive signal = { r with toClient := frames, assessing := n } := by
      have hsend : ∀ frame, ∃ frames n,
          r.sendClient frame = { r with toClient := frames, assessing := n } := by
        intro frame
        obtain ⟨more, -, heq⟩ := r.exists_sendClient frame
        exact ⟨_, _, heq⟩
      cases signal with
      | text text => exact hsend _
      | audio chunk => exact hsend _
      | interruption => exact ⟨_, _, rfl⟩
      | toolCall toolCall => exact ⟨_, _, rfl⟩
      | error error => exact hsend _
    obtain ⟨frames, n, heq⟩ := hone
    obtain ⟨frames', n', heq'⟩ := ih (r.receive signal)
    exact ⟨frames', n', by rw [List.foldl_cons, heq', heq]⟩

theorem onMessage_frame (settings : LiveSettings) (r : LiveRelay) (s : RelayedSession)
    (data : List UInt8) :
    ∃ frames n, r.onMessage settings s data = { r with toClient := frames, assessing := n } := by
  unfold onMessage
  split
  · exact foldl_receive_frame _ r
  · exact ⟨_, _, rfl⟩

/-- The end of a session closes the client that its handlers are attached for. -/
theorem onUpstreamClose_frame (r : LiveRelay) (i : ℕ) (s : RelayedSession) (code : ℕ) (reason : Text) :
    ∃ more ws, (∀ frame ∈ more, ClientFrame.signal? frame = none) ∧
      (ws = .closed → r.clientWs = .closed) ∧ r.onUpstreamClose i s code reason = { r with
        sessions := r.sessions.modify i fun s =>
          { s with toGeminiLiveSession := s.toGeminiLiveSession.onClose, listening := false }
        toClient := r.toClient ++ more
        clientWs := ws } := by
  unfold onUpstreamClose
  extract_lets closed told
  split
  · have htold : ∃ more, (∀ frame ∈ more, ClientFrame.signal? frame = none) ∧
        told = { closed with toClient := closed.toClient ++ more } := by
      unfold told
      split
      · obtain ⟨more, hmore, heq⟩ := closed.exists_sendClient (systemError _)
        refine ⟨more, fun frame hframe => ?_, heq⟩
        rw [List.mem_singleton.mp (hmore hframe)]
        exact signal?_systemError _
      · exact ⟨[], (fun _ h => nomatch h), by rw [List.append_nil]⟩
    obtain ⟨more, hmore, heq⟩ := htold
    obtain ⟨ws, hws, hclosed⟩ := told.exists_closeClient
    rw [heq] at hws hclosed
    exact ⟨more, ws, hmore, hws, by rw [heq, hclosed]; rfl⟩
  · exact ⟨[], r.clientWs, (fun _ h => nomatch h), id, by rw [List.append_nil]; rfl⟩

/-! ## Steps -/

/-- **What an action that happens does.** -/
theorem step_cases {a : RelayAction} (hstep : r.step settings a = some r') :
    match a with
    | .binary chunk => r.clientWs ≠ .closed ∧ r' = r.onBinary chunk
    | .text data env => r.clientWs ≠ .closed ∧ r' = r.onText settings data env
    | .started k => ∃ start, r.starting[k]? = some start ∧
        r' = ({ r with starting := r.starting.eraseIdx k } : LiveRelay).started start.session
    | .opened i => ∃ s, r.sessions[i]? = some s ∧ s.readyState = .connecting ∧
        r' = r.updateSession i fun s =>
          { s with toGeminiLiveSession := s.toGeminiLiveSession.onOpen settings.liveModel }
    | .message i frame _ => ∃ s, r.sessions[i]? = some s ∧ r' = r.onMessage settings s frame.data
    | .upstreamClosing i => ∃ s, r.sessions[i]? = some s ∧
        r' = r.updateSession i fun s => { s with readyState := .closing }
    | .upstreamClosed i code reason => ∃ s, r.sessions[i]? = some s ∧
        r' = r.onUpstreamClose i s code reason
    | .assessed => 0 < r.assessing ∧ r' = r.assessed
    | .sleepCue _ => r.Aside r'
    | .clientClosed => r' = { r.onLiveSession GeminiLiveSession.disconnect with clientWs := .closed }
    | .clientFailed => r' = { r.onLiveSession GeminiLiveSession.disconnect with clientWs := .closing } := by
  cases a with
  | binary chunk | text data env | clientClosed | clientFailed =>
    rw [step] at hstep
    split at hstep
    · cases hstep
    · rename_i hws
      first | exact ⟨hws, (Option.some.inj hstep).symm⟩ | exact (Option.some.inj hstep).symm
  | started k =>
    obtain ⟨start, hstart, rfl⟩ := Option.map_eq_some_iff.mp hstep
    exact ⟨start, hstart, rfl⟩
  | opened i =>
    obtain ⟨s, hs, hstep⟩ := Option.bind_eq_some_iff.mp hstep
    split at hstep
    · rename_i hconnecting
      exact ⟨s, hs, hconnecting, (Option.some.inj hstep).symm⟩
    · cases hstep
  | message i frame now | upstreamClosing i =>
    obtain ⟨s, hs, hstep⟩ := Option.bind_eq_some_iff.mp hstep
    split at hstep
    · exact ⟨s, hs, (Option.some.inj hstep).symm⟩
    · cases hstep
  | upstreamClosed i code reason =>
    obtain ⟨s, hs, hstep⟩ := Option.bind_eq_some_iff.mp hstep
    split at hstep
    · cases hstep
    · exact ⟨s, hs, (Option.some.inj hstep).symm⟩
  | assessed =>
    rw [step] at hstep
    split at hstep
    · rename_i hpos
      exact ⟨hpos, (Option.some.inj hstep).symm⟩
    · cases hstep
  | sleepCue payload =>
    obtain rfl := Option.some.inj hstep
    exact aside_iterate payload _ r

end LiveRelay

/-! ## The setup of ana -/

/-- Surroundings without texts of interest. -/
def plainSettings : LiveSettings := ⟨lit "prompt", lit "slower", none, fun _ => none⟩

/-- The relay when ana connects. -/
def relayOfAna : LiveRelay := .connected (some (lit "ana")) (some (lit "key")) 1700000000000

/-- A setup. -/
def setupConfig : Json := .obj [(lit "model", .str (lit "m"))]

/-- A setup message. -/
def setupText : Text := objectText [(lit "setup", objectText [(lit "model", quote (lit "m"))])]

theorem parseJson_setupText : parseJson setupText = .ok (.obj [(lit "setup", setupConfig)]) := by
  have hlength : setupText.length = 22 + 1 := by decide
  have hconfig : ReadsAs (readValue (22 + 1)) (objectText [(lit "model", quote (lit "m"))]) setupConfig :=
    readsAs_objectText_singleton (readsAs_quote 21 (lit "m")).before
  apply parseJson_of_readsBefore
  rw [hlength]
  exact (readsAs_objectText_singleton hconfig.before).before

/-- The relay when the setup of ana has come. -/
def relayStarting : LiveRelay := relayOfAna.startSession plainSettings setupConfig none none

theorem step_setupText : relayOfAna.step plainSettings (.text setupText none) = some relayStarting := by
  rw [LiveRelay.step, if_neg (by decide), LiveRelay.onText, parseJson_setupText]
  rfl

end DreamWeaver.Live
