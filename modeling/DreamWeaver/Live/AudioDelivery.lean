import DreamWeaver.Live.RelaySteps

/-! # Delivery of the client's audio

The relay buffers chunks of audio until the session is set up, and hands them to the session then, whose
`sendAudio` does nothing before its socket is open; chunks that come in between are handed over and dropped
as well. What is sent is what the client has said, up to the bound of the buffer, in every run in which no
chunk is handed to a session that is not open. -/

namespace DreamWeaver.Live

open Transitions

variable {settings : LiveSettings} {r r' : LiveRelay} {a : RelayAction} {actions : List RelayAction}
  {past : List (Bool × List UInt8)}

/-! ## What the client has said -/

namespace LiveRelay

/-- No session has opened. -/
def beforeOpen (r : LiveRelay) : Bool := r.sessions.all fun s => s.readyState = .connecting

/-- A session is open. -/
def IsOpen (r : LiveRelay) : Prop := ∃ s ∈ r.sessions, s.readyState = .opened

/-- A chunk of the client, and whether it comes before a session has opened. -/
def clientAudio (r : LiveRelay) : RelayAction → List (Bool × List UInt8)
  | .binary chunk => [(r.beforeOpen, chunk)]
  | _ => []

/-- The audio that was sent to Gemini. -/
def sentAudio (r : LiveRelay) : List (List UInt8) := r.sessions.flatMap fun s => s.sentAudio

/-- **The condition on an action**: a chunk comes while a session is active and open, or finds room in the
buffer; a setup comes while no session was created; and where a session is set up, the buffer is empty or
the session is open already. -/
def AudioReady (r : LiveRelay) : RelayAction → Prop
  | .binary _ => if r.isSessionActive then r.IsOpen
      else r.beforeOpen = true ∨ r.audioBufferQueue.length < 50
  | .text data _ => IsSetup data → r.isSessionActive = false → r.sessions = []
  | .started k => r.starting[k]?.bind Starting.session ≠ none → r.audioBufferQueue = [] ∨ r.IsOpen
  | _ => True

end LiveRelay

/-- The chunks that came before a session had opened. -/
def earlyAudio (past : List (Bool × List UInt8)) : List (List UInt8) :=
  (past.filter fun chunk => chunk.1).map Prod.snd

/-- The chunks that came afterwards. -/
def lateAudio (past : List (Bool × List UInt8)) : List (List UInt8) :=
  (past.filter fun chunk => !chunk.1).map Prod.snd

/-- What was sent and what is buffered are the last early chunks and the late ones; nothing is buffered
once a session is set up. -/
structure AudioDelivered (past : List (Bool × List UInt8)) (r : LiveRelay) : Prop where
  kept : r.sentAudio ++ r.audioBufferQueue = (earlyAudio past).rtake 50 ++ lateAudio past
  flushed : r.isSessionActive = true → r.audioBufferQueue = []

/-! ## What sending does -/

/-- A session of which nothing is heard has not sent audio, and has not gone back. -/
def Unheard (s s' : RelayedSession) : Prop :=
  s'.sentAudio = s.sentAudio ∧ (s'.readyState = .connecting → s.readyState = .connecting) ∧
    ((s.readyState = .opened → s.isOpen = true) → s'.readyState = .opened → s'.isOpen = true)

theorem Unheard.refl (s : RelayedSession) : Unheard s s := ⟨rfl, id, id⟩

theorem unheard_of_talks {s s' : RelayedSession} (h : s.Talks s') : Unheard s s' := by
  refine ⟨h.sentAudio, ?_, ?_⟩
  · rw [h.readyState]
    exact id
  · rw [h.readyState, h.isOpen]
    exact id

theorem unheard_disconnect (s : RelayedSession) :
    Unheard s { s with toGeminiLiveSession := s.toGeminiLiveSession.disconnect } := by
  unfold GeminiLiveSession.disconnect
  split
  · exact ⟨rfl, (fun h => nomatch h), (fun _ h => nomatch h)⟩
  · exact Unheard.refl s

theorem unheard_onOpen (s : RelayedSession) (liveModel : Option Text) :
    Unheard s { s with toGeminiLiveSession := s.toGeminiLiveSession.onOpen liveModel } := by
  refine ⟨?_, (fun h => nomatch h), fun _ _ => rfl⟩
  show (s.sent ++ [setupMsg liveModel s.options]).filterMap audioChunk? = _
  rw [List.filterMap_append, List.filterMap_cons_none (audioChunk?_setupMsg _ _), List.filterMap_nil,
    List.append_nil]
  rfl

/-- An open session sends what it is given. -/
theorem sendAudio_of_opened {s : GeminiLiveSession} (hstate : s.readyState = .opened)
    (hopen : s.isOpen = true) (chunk : List UInt8) :
    s.sendAudio chunk = { s with sent := s.sent ++ [realtimeInput chunk] } := by
  rw [GeminiLiveSession.sendAudio, if_pos hopen, GeminiLiveSession.sendJson, if_pos hstate]

theorem foldl_sendAudio_of_opened (chunks : List (List UInt8)) {s : GeminiLiveSession}
    (hstate : s.readyState = .opened) (hopen : s.isOpen = true) :
    chunks.foldl GeminiLiveSession.sendAudio s = { s with sent := s.sent ++ chunks.map realtimeInput } := by
  induction chunks generalizing s with
  | nil => rw [List.foldl_nil, List.map_nil, List.append_nil]
  | cons chunk chunks ih =>
    rw [List.foldl_cons, sendAudio_of_opened hstate hopen, ih (by exact hstate) (by exact hopen),
      List.map_cons, List.append_assoc, List.singleton_append]

/-- The chunks of the messages that carry them. -/
theorem filterMap_realtimeInput (chunks : List (List UInt8)) :
    (chunks.map realtimeInput).filterMap audioChunk? = chunks := by
  rw [List.filterMap_map]
  have hsome : (audioChunk? ∘ realtimeInput) = some := by
    funext chunk
    exact audioChunk?_realtimeInput chunk
  rw [hsome, List.filterMap_some]

/-! ## The invariant -/

/-- What is sent and what is buffered, and what makes it stay so: there is one session at most, nothing is
sent before it is set up, and a session that is open believes so. -/
structure AudioKept (past : List (Bool × List UInt8)) (r : LiveRelay) : Prop
    extends AudioDelivered past r where
  sole : r.sessions.length ≤ 1
  starting : ∀ start ∈ r.starting, ∀ i, start.session = some i → i < r.sessions.length
  active : r.isSessionActive = true → r.liveSession = some 0 ∧ r.sessions.length = 1
  unsent : r.isSessionActive = false → r.sentAudio = []
  honest : ∀ s ∈ r.sessions, s.readyState = .opened → s.isOpen = true
  onTime : r.beforeOpen = true → lateAudio past = []

theorem sentAudio_of_unheard {l l' : List RelayedSession} (h : List.Forall₂ Unheard l l') :
    l'.flatMap (fun s => s.sentAudio) = l.flatMap fun s => s.sentAudio := by
  induction h with
  | nil => rfl
  | cons hs _ ih => rw [List.flatMap_cons, List.flatMap_cons, ih, hs.1]

theorem mem_of_forall₂ {R : RelayedSession → RelayedSession → Prop} {l l' : List RelayedSession}
    (h : List.Forall₂ R l l') {s' : RelayedSession} (hs' : s' ∈ l') : ∃ s ∈ l, R s s' := by
  induction h with
  | nil => cases hs'
  | cons hs _ ih =>
    rcases List.mem_cons.mp hs' with rfl | hmem
    · exact ⟨_, List.mem_cons_self, hs⟩
    · obtain ⟨s, hmem, hR⟩ := ih hmem
      exact ⟨s, List.mem_cons_of_mem _ hmem, hR⟩

theorem beforeOpen_of_unheard {l l' : List RelayedSession} (h : List.Forall₂ Unheard l l')
    (hbefore : (l'.all fun s => decide (s.readyState = .connecting)) = true) :
    (l.all fun s => decide (s.readyState = .connecting)) = true := by
  induction h with
  | nil => rfl
  | cons hs _ ih =>
    rw [List.all_cons, Bool.and_eq_true, decide_eq_true_eq] at hbefore ⊢
    exact ⟨hs.2.1 hbefore.1, ih hbefore.2⟩

/-- **Where nothing is heard**, the invariant stays. -/
theorem AudioKept.quiet (h : AudioKept past r) (hsessions : List.Forall₂ Unheard r.sessions r'.sessions)
    (hqueue : r'.audioBufferQueue = r.audioBufferQueue)
    (hactive : r'.isSessionActive = r.isSessionActive) (hlive : r'.liveSession = r.liveSession)
    (hstarting : ∀ start ∈ r'.starting, start ∈ r.starting ∨ start.session = none) :
    AudioKept past r' := by
  have hsent : r'.sentAudio = r.sentAudio := sentAudio_of_unheard hsessions
  have hlength : r'.sessions.length = r.sessions.length := hsessions.length_eq.symm
  constructor
  · constructor
    · rw [hsent, hqueue]
      exact h.kept
    · rw [hactive, hqueue]
      exact h.flushed
  · rw [hlength]
    exact h.sole
  · intro start hmem i hi
    rw [hlength]
    rcases hstarting start hmem with hmem | hnone
    · exact h.starting start hmem i hi
    · rw [hnone] at hi
      cases hi
  · rw [hactive, hlive, hlength]
    exact h.active
  · rw [hactive, hsent]
    exact h.unsent
  · intro s' hs'
    obtain ⟨s, hs, hR⟩ := mem_of_forall₂ hsessions hs'
    exact hR.2.2 (h.honest s hs)
  · intro hbefore
    exact h.onTime (beforeOpen_of_unheard hsessions hbefore)

theorem AudioKept.aside (h : AudioKept past r) (haside : r.Aside r') : AudioKept past r' := by
  have hrest := haside.rest
  refine h.quiet (haside.sessions.imp fun _ _ => unheard_of_talks) ?_ ?_ ?_ fun start hmem => ?_
  · rw [hrest]
  · rw [hrest]
  · rw [hrest]
  · rw [hrest] at hmem
    exact Or.inl hmem

/-! ## Chunks -/

theorem earlyAudio_concat (early : Bool) (chunk : List UInt8) : earlyAudio (past ++ [(early, chunk)]) =
    earlyAudio past ++ if early then [chunk] else [] := by
  unfold earlyAudio
  rw [List.filter_append, List.map_append]
  cases early <;> rfl

theorem lateAudio_concat (early : Bool) (chunk : List UInt8) : lateAudio (past ++ [(early, chunk)]) =
    lateAudio past ++ if early then [] else [chunk] := by
  unfold lateAudio
  rw [List.filter_append, List.map_append]
  cases early <;> rfl

/-- **A chunk of the client** is sent, or it is buffered. -/
theorem AudioKept.binary (h : AudioKept past r) {chunk : List UInt8} (hready : r.AudioReady (.binary chunk)) :
    AudioKept (past ++ [(r.beforeOpen, chunk)]) (r.onBinary chunk) := by
  by_cases hactive : r.isSessionActive = true
  · -- the session is open, and nothing is buffered
    obtain ⟨hlive, hlength⟩ := h.active hactive
    obtain ⟨s, hs⟩ := List.length_eq_one_iff.mp hlength
    rw [LiveRelay.AudioReady, if_pos hactive] at hready
    obtain ⟨s', hmem, hstate⟩ := hready
    obtain rfl : s' = s := by
      rw [hs] at hmem
      exact List.mem_singleton.mp hmem
    have hopen : s'.isOpen = true := h.honest s' (by rw [hs]; exact List.mem_cons_self) hstate
    have hlate : r.beforeOpen = false := by
      rw [LiveRelay.beforeOpen, hs, List.all_cons, hstate]
      rfl
    have heq : r.onBinary chunk = { r with sessions :=
        [{ s' with sent := s'.sent ++ [realtimeInput chunk] }] } := by
      rw [LiveRelay.onBinary, if_pos (by rw [hactive, hlive]; rfl),
        LiveRelay.onLiveSession_of_some hlive, LiveRelay.updateSession, hs, List.modify_zero_cons,
        sendAudio_of_opened hstate hopen]
    have hsent : (r.onBinary chunk).sentAudio = r.sentAudio ++ [chunk] := by
      rw [heq, LiveRelay.sentAudio, LiveRelay.sentAudio, hs, List.flatMap_singleton, List.flatMap_singleton]
      show (s'.sent ++ [realtimeInput chunk]).filterMap audioChunk? = _
      rw [List.filterMap_append]
      congr 1
      exact filterMap_realtimeInput [chunk]
    have hkept := h.kept
    rw [h.flushed hactive, List.append_nil] at hkept
    rw [hlate]
    refine ⟨⟨?_, ?_⟩, ?_, ?_, ?_, ?_, ?_, ?_⟩
    · rw [hsent, earlyAudio_concat, lateAudio_concat, hkept, heq]
      simp [h.flushed hactive]
    · rw [heq]
      exact h.flushed
    · rw [heq]
      exact le_rfl
    · rw [heq]
      intro start hstart i hi
      have hlt := h.starting start hstart i hi
      rw [hlength] at hlt
      exact hlt
    · rw [heq]
      exact fun _ => ⟨hlive, rfl⟩
    · rw [heq]
      intro hinactive
      exact absurd (hactive.symm.trans hinactive) (by decide)
    · rw [heq]
      intro s hmem _
      rw [List.mem_singleton.mp hmem]
      exact hopen
    · rw [heq]
      intro hbefore
      rw [LiveRelay.beforeOpen, List.all_cons, Bool.and_eq_true, decide_eq_true_eq] at hbefore
      exact absurd (hstate.symm.trans hbefore.1) (by decide)
  · -- the chunk is buffered
    have heq : r.onBinary chunk =
        { r with audioBufferQueue := pushBounded 50 r.audioBufferQueue chunk } := by
      rw [LiveRelay.onBinary, if_neg (by simp [hactive])]
    have hinactive : r.isSessionActive = false := Bool.eq_false_iff.mpr hactive
    have hkept := h.kept
    rw [h.unsent hinactive, List.nil_append] at hkept
    rw [LiveRelay.AudioReady, if_neg hactive] at hready
    rw [heq]
    refine ⟨⟨?_, fun h' => absurd h' hactive⟩, h.sole, h.starting, h.active, h.unsent, h.honest, ?_⟩
    · show r.sentAudio ++ pushBounded 50 r.audioBufferQueue chunk = _
      rw [h.unsent hinactive, List.nil_append, earlyAudio_concat, lateAudio_concat]
      by_cases hbefore : r.beforeOpen = true
      · rw [h.onTime hbefore, List.append_nil] at hkept
        rw [h.onTime hbefore, hbefore, hkept, pushBounded_rtake (by decide)]
        simp
      · have hroom := hready.resolve_left hbefore
        rw [pushBounded_of_lt hroom, hkept, Bool.eq_false_iff.mpr hbefore]
        simp
    · intro hbefore
      rw [lateAudio_concat, h.onTime hbefore, show r.beforeOpen = true from hbefore]
      rfl

/-! ## Starts -/

/-- **A start for which a session is created** begins without audio. -/
theorem AudioKept.startSession (h : AudioKept past r) (hnone : r.sessions = []) (config : Json)
    (id : Text) (traceId env : Option Text) : AudioKept past
      (({ r with sessionId := id } : LiveRelay).startSession settings config traceId env) := by
  rcases LiveRelay.startSession_cases settings { r with sessionId := id } config traceId env with
    heq | ⟨key, heq⟩
  · rw [heq]
    refine h.quiet (List.forall₂_same.mpr fun s _ => .refl s) rfl rfl rfl fun start hmem => ?_
    rcases List.mem_append.mp hmem with hmem | hmem
    · exact Or.inl hmem
    · rw [List.mem_singleton.mp hmem]
      exact Or.inr rfl
  · have hinactive : ¬ r.isSessionActive = true := by
      intro hactive
      have hlength := (h.active hactive).2
      rw [hnone] at hlength
      cases hlength
    have hkept := h.kept
    rw [LiveRelay.sentAudio, hnone] at hkept
    rw [heq]
    refine ⟨⟨?_, h.flushed⟩, ?_, ?_, fun h' => absurd h' hinactive, ?_, ?_, fun _ => ?_⟩
    · show (r.sessions ++ _).flatMap _ ++ _ = _
      rw [hnone]
      exact hkept
    · show (r.sessions ++ _).length ≤ 1
      rw [hnone]
      exact le_rfl
    · intro start hmem i hi
      show i < (r.sessions ++ _).length
      rw [hnone]
      rcases List.mem_append.mp hmem with hmem | hmem
      · have hlt := h.starting start hmem i hi
        rw [hnone] at hlt
        exact absurd hlt (Nat.not_lt_zero i)
      · rw [List.mem_singleton.mp hmem, hnone] at hi
        obtain rfl := Option.some.inj hi
        exact Nat.zero_lt_one
    · intro _
      show (r.sessions ++ _).flatMap _ = _
      rw [hnone]
      rfl
    · intro s hmem hstate
      rw [hnone, List.nil_append, List.mem_singleton] at hmem
      rw [hmem] at hstate
      cases hstate
    · apply h.onTime
      rw [LiveRelay.beforeOpen, hnone]
      rfl

/-- **The session is set up**: what is buffered is sent. -/
theorem AudioKept.started (h : AudioKept past r) {i : ℕ} (hi : i < r.sessions.length)
    (hready : r.audioBufferQueue = [] ∨ r.IsOpen) : AudioKept past (r.started (some i)) := by
  have hsole := h.sole
  have hlength : r.sessions.length = 1 := by omega
  obtain ⟨s, hs⟩ := List.length_eq_one_iff.mp hlength
  obtain rfl : i = 0 := by omega
  -- the session after the flush
  obtain ⟨s', hstate, hopen, hsent, heq⟩ : ∃ s' : RelayedSession, s'.readyState = s.readyState ∧
      s'.isOpen = s.isOpen ∧ s'.sentAudio = s.sentAudio ++ r.audioBufferQueue ∧
        r.started (some 0) = { r with
          liveSession := some 0, isSessionActive := true, audioBufferQueue := [], sessions := [s'] } := by
    rw [LiveRelay.started_some_frame, hs, List.modify_zero_cons]
    rcases hready with hempty | ⟨s'', hmem, hstate⟩
    · refine ⟨_, ?_, ?_, ?_, rfl⟩
      · rw [hempty]
        rfl
      · rw [hempty]
        rfl
      · rw [hempty, List.append_nil]
        rfl
    · obtain rfl : s'' = s := by
        rw [hs] at hmem
        exact List.mem_singleton.mp hmem
      have hopen : s''.isOpen = true := h.honest s'' (by rw [hs]; exact List.mem_cons_self) hstate
      rw [foldl_sendAudio_of_opened _ hstate hopen]
      refine ⟨{ s'' with
        sent := s''.sent ++ r.audioBufferQueue.map realtimeInput
        monitoredAs := some r.sessionId
        listening := true }, rfl, rfl, ?_, rfl⟩
      show (s''.sent ++ _).filterMap audioChunk? = _
      rw [List.filterMap_append, filterMap_realtimeInput]
      rfl
  have hkept := h.kept
  rw [LiveRelay.sentAudio, hs, List.flatMap_singleton] at hkept
  rw [heq]
  refine ⟨⟨?_, fun _ => rfl⟩, le_rfl, ?_, fun _ => ⟨rfl, rfl⟩, fun h' => (nomatch h'), ?_, ?_⟩
  · rw [LiveRelay.sentAudio, List.flatMap_singleton, hsent, List.append_nil]
    exact hkept
  · intro start hmem j hj
    have hlt := h.starting start hmem j hj
    rw [hs] at hlt
    exact hlt
  · intro s'' hmem hstate'
    rw [List.mem_singleton.mp hmem] at hstate' ⊢
    rw [hopen]
    exact h.honest s (by rw [hs]; exact List.mem_cons_self) (hstate.symm.trans hstate')
  · intro hbefore
    apply h.onTime
    rw [LiveRelay.beforeOpen, List.all_cons, hstate] at hbefore
    rw [LiveRelay.beforeOpen, hs, List.all_cons]
    exact hbefore

/-! ## Runs -/

/-- **Every action that meets the condition keeps the audio.** -/
theorem AudioKept.step (h : AudioKept past r) (hready : r.AudioReady a)
    (hstep : r.step settings a = some r') : AudioKept (past ++ r.clientAudio a) r' := by
  have hcases := LiveRelay.step_cases hstep
  cases a with
  | binary chunk =>
    obtain ⟨-, rfl⟩ := hcases
    exact h.binary hready
  | text data env =>
    obtain ⟨-, rfl⟩ := hcases
    change AudioKept (past ++ []) _
    rw [List.append_nil]
    rcases LiveRelay.onText_cases settings r data env with haside | ⟨hinactive, msg, config, hmsg, hsetup, heq⟩
    · exact h.aside haside
    · rw [heq]
      exact h.startSession (hready ⟨msg, config, hmsg, hsetup⟩ hinactive) _ _ _ _
  | started k =>
    obtain ⟨start, hstart, rfl⟩ := hcases
    change AudioKept (past ++ []) _
    rw [List.append_nil]
    have herased : AudioKept past { r with starting := r.starting.eraseIdx k } :=
      h.quiet (List.forall₂_same.mpr fun s _ => .refl s) rfl rfl rfl fun _ hmem =>
        Or.inl (List.mem_of_mem_eraseIdx hmem)
    cases hsession : start.session with
    | none =>
      obtain ⟨more, ws, -, -, heq⟩ :=
        LiveRelay.started_none_frame { r with starting := r.starting.eraseIdx k }
      rw [heq]
      exact herased.quiet (List.forall₂_same.mpr fun s _ => .refl s) rfl rfl rfl fun _ => Or.inl
    | some i =>
      refine herased.started (h.starting start (List.mem_of_getElem? hstart) i hsession) ?_
      apply hready
      rw [hstart, Option.bind_some, hsession]
      exact Option.some_ne_none i
  | opened i =>
    obtain ⟨s, -, -, rfl⟩ := hcases
    change AudioKept (past ++ []) _
    rw [List.append_nil]
    exact h.quiet (forall₂_modify Unheard.refl fun s _ => unheard_onOpen s _) rfl rfl rfl fun _ => Or.inl
  | message i frame now =>
    obtain ⟨s, -, rfl⟩ := hcases
    change AudioKept (past ++ []) _
    rw [List.append_nil]
    obtain ⟨frames, n, heq⟩ := LiveRelay.onMessage_frame settings r s frame.data
    rw [heq]
    exact h.quiet (List.forall₂_same.mpr fun s _ => .refl s) rfl rfl rfl fun _ => Or.inl
  | upstreamClosing i =>
    obtain ⟨s, -, rfl⟩ := hcases
    change AudioKept (past ++ []) _
    rw [List.append_nil]
    have hclosing : ∀ s : RelayedSession, Unheard s { s with readyState := .closing } :=
      fun s => ⟨rfl, (fun h => nomatch h), fun _ h => nomatch h⟩
    exact h.quiet (forall₂_modify Unheard.refl fun s _ => hclosing s) rfl rfl rfl fun _ => Or.inl
  | upstreamClosed i code reason =>
    obtain ⟨s, -, rfl⟩ := hcases
    change AudioKept (past ++ []) _
    rw [List.append_nil]
    obtain ⟨more, ws, -, -, heq⟩ := LiveRelay.onUpstreamClose_frame r i s code reason
    rw [heq]
    have hclosed : ∀ s : RelayedSession, Unheard s
        { s with toGeminiLiveSession := s.toGeminiLiveSession.onClose, listening := false } :=
      fun s => ⟨rfl, (fun h => nomatch h), fun _ h => nomatch h⟩
    exact h.quiet (forall₂_modify Unheard.refl fun s _ => hclosed s) rfl rfl rfl fun _ => Or.inl
  | assessed =>
    obtain ⟨-, rfl⟩ := hcases
    change AudioKept (past ++ []) _
    rw [List.append_nil, LiveRelay.assessed]
    obtain ⟨more, -, heq⟩ :=
      LiveRelay.exists_sendClient { r with assessing := r.assessing - 1 } interruptedFrame
    rw [heq]
    exact h.quiet (List.forall₂_same.mpr fun s _ => .refl s) rfl rfl rfl fun _ => Or.inl
  | sleepCue payload =>
    change AudioKept (past ++ []) _
    rw [List.append_nil]
    exact h.aside hcases
  | clientClosed | clientFailed =>
    change AudioKept (past ++ []) _
    rw [List.append_nil, hcases, LiveRelay.onLiveSession_frame]
    exact h.quiet (LiveRelay.forall₂_onLiveSession Unheard.refl unheard_disconnect) rfl rfl rfl
      fun _ => Or.inl

/-- **The client's audio is delivered**, in every run whose actions meet the condition. -/
theorem audio_delivered {userId apiKey : Option Text} {now : ℤ}
    (hrun : runFrom (LiveRelay.step settings) (.connected userId apiKey now) actions = some r)
    (hready : Along (LiveRelay.step settings) LiveRelay.AudioReady (.connected userId apiKey now) actions) :
    AudioDelivered (outputs (LiveRelay.step settings) LiveRelay.clientAudio
      (.connected userId apiKey now) actions) r := by
  have hkept : AudioKept [] (.connected userId apiKey now) := {
    kept := rfl
    flushed := fun h => nomatch h
    sole := Nat.zero_le 1
    starting := fun _ h => nomatch h
    active := fun h => nomatch h
    unsent := fun _ => rfl
    honest := fun _ h => nomatch h
    onTime := fun _ => rfl }
  exact (run_outputs (fun _ _ _ _ h hok hstep => h.step hok hstep) hkept hready hrun).toAudioDelivered

/-- The session of ana opens, and then she speaks. -/
def spokenWhenOpen : List RelayAction :=
  [.text setupText none, .started 0, .opened 0, .binary [1, 0], .binary [2, 0]]

theorem audio_delivered_spokenWhenOpen : ∃ r,
    runFrom (LiveRelay.step plainSettings) relayOfAna spokenWhenOpen = some r ∧
      AudioDelivered (outputs (LiveRelay.step plainSettings) LiveRelay.clientAudio relayOfAna
        spokenWhenOpen) r := by
  have hrun := (runFrom_of_step step_setupText).trans (rfl : runFrom (LiveRelay.step plainSettings)
    relayStarting [.started 0, .opened 0, .binary [1, 0], .binary [2, 0]] = some _)
  refine ⟨_, hrun, audio_delivered hrun ⟨fun _ _ => rfl, fun r₁ h₁ => ⟨fun _ => Or.inl ?_,
    fun r₂ h₂ => ⟨trivial, fun r₃ h₃ => ⟨?_, fun r₄ h₄ => ⟨?_, fun _ _ => trivial⟩⟩⟩⟩⟩⟩
  · obtain rfl := Option.some.inj (step_setupText.symm.trans h₁)
    rfl
  · obtain rfl := Option.some.inj (step_setupText.symm.trans h₁)
    obtain rfl := Option.some.inj h₂
    obtain rfl := Option.some.inj h₃
    exact ⟨_, List.mem_cons_self, rfl⟩
  · obtain rfl := Option.some.inj (step_setupText.symm.trans h₁)
    obtain rfl := Option.some.inj h₂
    obtain rfl := Option.some.inj h₃
    obtain rfl := Option.some.inj h₄
    exact ⟨_, List.mem_cons_self, rfl⟩

/-- Ana speaks before the session is set up. -/
def spokenTooEarly : List RelayAction :=
  [.binary [1, 0], .text setupText none, .started 0, .opened 0]

/-- The chunk is taken from the buffer while the socket is connecting, and is sent nowhere. -/
theorem spokenTooEarly_not_delivered : ∃ r,
    runFrom (LiveRelay.step plainSettings) relayOfAna spokenTooEarly = some r ∧
      r.isSessionActive = true ∧ r.IsOpen ∧ r.sentAudio = [] ∧ r.audioBufferQueue = [] ∧
        ¬ AudioDelivered (outputs (LiveRelay.step plainSettings) LiveRelay.clientAudio relayOfAna
          spokenTooEarly) r := by
  have hspoken : relayOfAna.step plainSettings (.binary [1, 0]) =
      some { relayOfAna with audioBufferQueue := [[1, 0]] } := rfl
  have hsetup : LiveRelay.step plainSettings { relayOfAna with audioBufferQueue := [[1, 0]] }
      (.text setupText none) = some { relayStarting with audioBufferQueue := [[1, 0]] } := by
    rw [LiveRelay.step, if_neg (by decide), LiveRelay.onText, parseJson_setupText]
    rfl
  refine ⟨_, (runFrom_of_step hspoken).trans ((runFrom_of_step hsetup).trans rfl), rfl,
    ⟨_, List.mem_cons_self, rfl⟩, rfl, rfl, fun h => ?_⟩
  have hkept := h.kept
  rw [spokenTooEarly, outputs, hspoken, Option.elim_some, outputs, hsetup] at hkept
  cases hkept

end DreamWeaver.Live
