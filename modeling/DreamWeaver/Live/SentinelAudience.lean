import DreamWeaver.Live.RelaySteps
import DreamWeaver.Live.SentinelIsolation

/-! # Whom the sentinel hears

The relay connects the sentinel to the live session: its handlers are called with the audio that the
session receives, which is the model's. No chunk of the client comes to it. What the sentinel makes of a
relay session is therefore the same in every two runs with the same audio of the model, whatever the client
says, and it is not determined by the client's audio. -/

namespace DreamWeaver.Live

open Transitions

variable {settings : LiveSettings} {analysis : SignalAnalysis} {r r' : LiveRelay}

/-- `new Int16Array(chunk)` -/
def int16Array : List UInt8 → List ℤ
  | low :: high :: bytes =>
    let n := low.toNat + 256 * high.toNat
    (if n < 32768 then (n : ℤ) else n - 65536) :: int16Array bytes
  | _ => []

/-- What a signal is for the sentinel. -/
def Signal.liveEvent (now : ℤ) : Signal → Option LiveEvent
  | .audio chunk => some (.audio (int16Array chunk) now)
  | .interruption => some .interruption
  | _ => none

/-- What a message is for the sentinel. -/
def liveEvents (settings : LiveSettings) (frame : GeminiFrame) (now : ℤ) : List LiveEvent :=
  (reached (handleMessage settings.otherData frame.data)).filterMap (Signal.liveEvent now)

/-- What the sentinel is called with by an action of the relay. -/
def LiveRelay.heard (settings : LiveSettings) (r : LiveRelay) : RelayAction → List LiveAction
  | .started k =>
    match r.starting[k]? with
    | some ⟨some _, traceId⟩ => [⟨r.sessionId, .connect r.userId traceId⟩]
    | _ => []
  | .message i frame now =>
    match r.sessions[i]?.bind RelayedSession.monitoredAs with
    | some id => (liveEvents settings frame now).map fun event => ⟨id, event⟩
    | none => []
  | _ => []

/-- A relay with the sentinel that all relays share. -/
structure WatchedRelay where
  relay : LiveRelay
  world : LiveWorld

/-- What happens to a relay, or to the sentinel elsewhere: in other sessions, and where the publication of a
cue ends. -/
inductive WatchedAction where
  | relay (a : RelayAction)
  | sentinel (a : LiveAction)

/-- The relay and the sentinel after an action, if it can happen. -/
def WatchedRelay.step (settings : LiveSettings) (analysis : SignalAnalysis) (s : WatchedRelay) :
    WatchedAction → Option WatchedRelay
  | .relay a => (s.relay.step settings a).bind fun r =>
      (s.world.run analysis (s.relay.heard settings a)).map fun w => ⟨r, w⟩
  | .sentinel a => (s.world.step analysis a).map fun w => { s with world := w }

/-! ## What concerns the sentinel -/

/-- What concerns the sentinel in an action: a setup, a start that goes on, the audio and the interruptions of
the model, and what happens elsewhere. -/
inductive Concern where
  | setup (id traceId env : Option Text)
  | started (k : ℕ)
  | events (i : ℕ) (events : List LiveEvent)
  | elsewhere (a : LiveAction)
  deriving DecidableEq

/-- What concerns the sentinel in a text of the client. -/
def setupConcern (data : Text) (env : Option Text) : Option Concern :=
  match parseJson data with
  | .error _ => none
  | .ok msg => (LiveRelay.setupOf msg).map fun _ =>
    .setup ((msg.get (lit "sessionId")).bind Json.text?) ((msg.get (lit "traceId")).bind Json.text?) env

/-- **What concerns the sentinel in an action**: of the client nothing but its setup. -/
def WatchedAction.concern (settings : LiveSettings) : WatchedAction → Option Concern
  | .relay (.text data env) => setupConcern data env
  | .relay (.started k) => some (.started k)
  | .relay (.message i frame now) =>
    match liveEvents settings frame now with
    | [] => none
    | events => some (.events i events)
  | .relay _ => none
  | .sentinel a => some (.elsewhere a)

/-- What decides what the sentinel hears of a relay. -/
structure Audience where
  userId : Option Text
  sessionId : Text
  apiKey : Option Text
  isSessionActive : Bool
  starting : List Starting
  monitored : List (Option Text)

/-- What decides what the sentinel hears of a relay in a state. -/
def LiveRelay.audience (r : LiveRelay) : Audience where
  userId := r.userId
  sessionId := r.sessionId
  apiKey := r.apiKey
  isSessionActive := r.isSessionActive
  starting := r.starting
  monitored := r.sessions.map RelayedSession.monitoredAs

namespace Audience

/-- A setup that starts a session. -/
def startSession (u : Audience) (traceId env : Option Text) : Audience :=
  match LiveRelay.effectiveKey u.apiKey env with
  | none => { u with starting := u.starting ++ [⟨none, traceId⟩] }
  | some key =>
    { u with
      apiKey := some key
      starting := u.starting ++ [⟨some u.monitored.length, traceId⟩]
      monitored := u.monitored ++ [none] }

/-- What follows from what concerns the sentinel, and what it is called with. -/
def heed (u : Audience) : Concern → Audience × List LiveAction
  | .setup id traceId env =>
    if u.isSessionActive then (u, [])
    else (({ u with sessionId := orText id u.sessionId } : Audience).startSession traceId env, [])
  | .started k =>
    match u.starting[k]? with
    | some ⟨some i, traceId⟩ =>
      ({ u with
        starting := u.starting.eraseIdx k
        isSessionActive := true
        monitored := u.monitored.modify i fun _ => some u.sessionId },
        [⟨u.sessionId, .connect u.userId traceId⟩])
    | _ => ({ u with starting := u.starting.eraseIdx k }, [])
  | .events i events =>
    match u.monitored[i]?.join with
    | some id => (u, events.map fun event => ⟨id, event⟩)
    | none => (u, [])
  | .elsewhere a => (u, [a])

end Audience

/-- The sentinel, and what decides what it hears of a relay. -/
structure Watch where
  audience : Audience
  world : LiveWorld

/-- What the sentinel makes of what concerns it. -/
def Watch.follow (analysis : SignalAnalysis) (v : Watch) (c : Concern) : Option Watch :=
  (v.world.run analysis (v.audience.heed c).2).map fun w => ⟨(v.audience.heed c).1, w⟩

/-- The watch over a relay. -/
def WatchedRelay.watch (s : WatchedRelay) : Watch := ⟨s.relay.audience, s.world⟩

/-! ## What the relay does to the audience -/

namespace LiveRelay

theorem map_monitoredAs {l l' : List RelayedSession}
    (h : List.Forall₂ (fun s s' => s'.monitoredAs = s.monitoredAs) l l') :
    l'.map RelayedSession.monitoredAs = l.map RelayedSession.monitoredAs := by
  induction h with
  | nil => rfl
  | cons hs _ ih => rw [List.map_cons, List.map_cons, hs, ih]

/-- Nobody becomes an audience by what leaves the sessions monitored as they are. -/
theorem audience_of_sessions
    (h : List.Forall₂ (fun s s' => s'.monitoredAs = s.monitoredAs) r.sessions r'.sessions)
    (hrest : r' = { r with
      sessions := r'.sessions, toClient := r'.toClient, analyzed := r'.analyzed, clientWs := r'.clientWs }) :
    r'.audience = r.audience := by
  have hmonitored := map_monitoredAs h
  rw [hrest, audience, audience]
  dsimp only
  rw [hmonitored]

theorem audience_aside (h : r.Aside r') : r'.audience = r.audience := by
  refine audience_of_sessions (h.sessions.imp fun s s' hs => hs.monitoredAs) ?_
  have hrest := h.rest
  rw [hrest]

theorem audience_onLiveSession (r : LiveRelay) (f : GeminiLiveSession → GeminiLiveSession) :
    (r.onLiveSession f).audience = r.audience := by
  refine audience_of_sessions (forall₂_onLiveSession (fun _ => rfl) fun _ => rfl) ?_
  rw [onLiveSession_frame]

theorem audience_updateSession (r : LiveRelay) (i : ℕ) {f : RelayedSession → RelayedSession}
    (hf : ∀ s, (f s).monitoredAs = s.monitoredAs) : (r.updateSession i f).audience = r.audience :=
  audience_of_sessions (forall₂_modify (fun _ => rfl) fun s _ => hf s) rfl

/-- A list of sessions in which one is monitored now. -/
theorem map_modify_monitoredAs (l : List RelayedSession) (i : ℕ) (id : Text)
    {f : RelayedSession → RelayedSession} (hf : ∀ s, (f s).monitoredAs = some id) :
    (l.modify i f).map RelayedSession.monitoredAs =
      (l.map RelayedSession.monitoredAs).modify i fun _ => some id := by
  induction l generalizing i with
  | nil => simp
  | cons s l ih =>
    cases i with
    | zero => rw [List.modify_zero_cons, List.map_cons, List.map_cons, List.modify_zero_cons, hf]
    | succ i => rw [List.modify_succ_cons, List.map_cons, List.map_cons, List.modify_succ_cons, ih]

theorem audience_startSession (r : LiveRelay) (config : Json) (traceId env : Option Text) :
    (r.startSession settings config traceId env).audience = r.audience.startSession traceId env := by
  have hkey : r.audience.apiKey = r.apiKey := rfl
  unfold startSession Audience.startSession
  rw [hkey]
  cases effectiveKey r.apiKey env with
  | none => rfl
  | some key =>
    dsimp only
    rw [audience, audience]
    dsimp only
    rw [List.map_append, List.length_map]
    rfl

/-- **What an action does to the audience** follows from what concerns it. -/
theorem audience_step {a : RelayAction} (hstep : r.step settings a = some r') :
    match WatchedAction.concern settings (.relay a) with
    | none => r'.audience = r.audience ∧ r.heard settings a = []
    | some c => r.audience.heed c = (r'.audience, r.heard settings a) := by
  have hcases := step_cases hstep
  cases a with
  | binary chunk =>
    obtain ⟨-, rfl⟩ := hcases
    refine ⟨?_, rfl⟩
    unfold onBinary
    split
    · exact r.audience_onLiveSession _
    · rfl
  | text data env =>
    obtain ⟨-, rfl⟩ := hcases
    show match setupConcern data env with
      | none => _
      | some c => _
    unfold setupConcern onText
    cases hmsg : parseJson data with
    | error e => exact ⟨rfl, rfl⟩
    | ok msg =>
      dsimp only
      cases hsetup : setupOf msg with
      | none =>
        refine ⟨?_, rfl⟩
        by_cases hactive : r.isSessionActive = true
        · rw [if_pos hactive]
          exact audience_aside (r.aside_onControl msg)
        · rw [if_neg hactive]
      | some config =>
        show r.audience.heed _ = _
        by_cases hactive : r.isSessionActive = true
        · rw [if_pos hactive, audience_aside (r.aside_onControl msg)]
          exact if_pos hactive
        · rw [if_neg hactive]
          dsimp only
          rw [audience_startSession]
          exact if_neg hactive
  | started k =>
    obtain ⟨start, hstart, rfl⟩ := hcases
    obtain ⟨session, traceId⟩ := start
    show r.audience.heed (.started k) = _
    have haudience : r.audience.starting[k]? = some ⟨session, traceId⟩ := hstart
    rw [Audience.heed, haudience, heard, hstart]
    cases session with
    | none =>
      obtain ⟨more, ws, -, -, heq⟩ := started_none_frame { r with starting := r.starting.eraseIdx k }
      dsimp only
      rw [heq]
      rfl
    | some i =>
      have hmonitored := map_modify_monitoredAs r.sessions i r.sessionId (f := fun s => { s with
        toGeminiLiveSession := r.audioBufferQueue.foldl GeminiLiveSession.sendAudio s.toGeminiLiveSession
        monitoredAs := some r.sessionId
        listening := true }) fun _ => rfl
      dsimp only
      rw [started_some_frame, audience, audience]
      dsimp only
      rw [hmonitored]
  | message i frame now =>
    obtain ⟨s, hs, rfl⟩ := hcases
    obtain ⟨frames, n, heq⟩ := onMessage_frame settings r s frame.data
    have hjoin : r.audience.monitored[i]?.join = r.sessions[i]?.bind RelayedSession.monitoredAs := by
      show ((r.sessions.map RelayedSession.monitoredAs)[i]?).join = _
      rw [List.getElem?_map, hs]
      rfl
    rw [heq]
    show match (match liveEvents settings frame now with
        | [] => none
        | events => some (Concern.events i events)) with
      | none => _
      | some c => _
    unfold heard
    dsimp only
    cases hevents : liveEvents settings frame now with
    | nil =>
      refine ⟨rfl, ?_⟩
      split <;> rfl
    | cons event events =>
      show r.audience.heed _ = _
      rw [Audience.heed, hjoin]
      split
      · rfl
      · rfl
  | opened i =>
    obtain ⟨s, -, -, rfl⟩ := hcases
    exact ⟨r.audience_updateSession i fun _ => rfl, rfl⟩
  | upstreamClosing i =>
    obtain ⟨s, -, rfl⟩ := hcases
    exact ⟨r.audience_updateSession i fun _ => rfl, rfl⟩
  | upstreamClosed i code reason =>
    obtain ⟨s, -, rfl⟩ := hcases
    obtain ⟨more, ws, -, -, heq⟩ := onUpstreamClose_frame r i s code reason
    refine ⟨?_, rfl⟩
    rw [heq]
    exact r.audience_updateSession i fun _ => rfl
  | assessed =>
    obtain ⟨-, rfl⟩ := hcases
    refine ⟨?_, rfl⟩
    obtain ⟨more, -, heq⟩ := exists_sendClient { r with assessing := r.assessing - 1 } interruptedFrame
    rw [assessed, heq]
    rfl
  | sleepCue payload => exact ⟨audience_aside hcases, rfl⟩
  | clientClosed | clientFailed =>
    refine ⟨?_, rfl⟩
    rw [hcases]
    exact r.audience_onLiveSession _

end LiveRelay

/-! ## The sentinel hears what the relay passes on -/

namespace LiveWorld

variable {w w' : LiveWorld}

/-- Who is connected stays connected. -/
theorem connected_subset_step {a : LiveAction} (hstep : w.step analysis a = some w') :
    w.connected ⊆ w'.connected := by
  obtain ⟨id, event⟩ := a
  have hcases := step_cases hstep
  cases event with
  | connect userId traceId =>
    obtain ⟨-, rfl⟩ := hcases
    exact List.subset_cons_self _ _
  | audio pcm now =>
    obtain ⟨-, rfl⟩ := hcases
    cases hcue : (w.agent.hear analysis pcm).dueCue now with
    | none =>
      rw [hear_of_none hcue]
      exact List.Subset.refl _
    | some cue =>
      rw [hear_of_some hcue]
      exact List.Subset.refl _
  | interruption =>
    obtain ⟨-, rfl⟩ := hcases
    exact List.Subset.refl _
  | published now =>
    obtain ⟨-, rfl⟩ := hcases
    exact List.Subset.refl _

theorem connected_subset_run {trace : List LiveAction} (hrun : w.run analysis trace = some w') :
    w.connected ⊆ w'.connected := by
  induction trace generalizing w with
  | nil =>
    obtain rfl := Option.some.inj hrun
    exact List.Subset.refl _
  | cons a trace ih =>
    obtain ⟨w₁, hstep, hrest⟩ := Option.bind_eq_some_iff.mp hrun
    exact List.Subset.trans (connected_subset_step hstep) (ih hrest)

/-- The audio and the interruptions of a connected session are heard. -/
theorem exists_run {id : Text} {signals : List Signal} {now : ℤ} (hid : id ∈ w.connected) :
    ∃ w', w.run analysis ((signals.filterMap (Signal.liveEvent now)).map fun event => ⟨id, event⟩) =
      some w' := by
  induction signals generalizing w with
  | nil => exact ⟨w, rfl⟩
  | cons signal signals ih =>
    cases signal with
    | text _ | toolCall _ | error _ => exact ih hid
    | audio chunk =>
      have hstep : w.step analysis ⟨id, .audio (int16Array chunk) now⟩ =
          some (w.hear analysis id (int16Array chunk) now) := if_pos hid
      obtain ⟨w', hw'⟩ := ih (connected_subset_step hstep hid)
      refine ⟨w', ?_⟩
      show (w.step analysis _).bind _ = _
      rw [hstep]
      exact hw'
    | interruption =>
      have hstep : w.step analysis ⟨id, .interruption⟩ = some { w with agent := w.agent.interrupt } :=
        if_pos hid
      obtain ⟨w', hw'⟩ := ih (connected_subset_step hstep hid)
      refine ⟨w', ?_⟩
      show (w.step analysis _).bind _ = _
      rw [hstep]
      exact hw'

end LiveWorld

namespace Audience

/-- The session has an id, and whoever is monitored is connected. -/
structure Known (u : Audience) (connected : List Text) : Prop where
  named : u.sessionId ≠ []
  monitored : ∀ id, some id ∈ u.monitored → id ∈ connected

theorem Known.mono {u : Audience} {connected connected' : List Text} (h : u.Known connected)
    (hsubset : connected ⊆ connected') : u.Known connected' :=
  ⟨h.named, fun id hid => hsubset (h.monitored id hid)⟩

theorem known_startSession {u : Audience} {connected : List Text} (h : u.Known connected)
    (traceId env : Option Text) : (u.startSession traceId env).Known connected := by
  unfold startSession
  split
  · exact ⟨h.named, h.monitored⟩
  · refine ⟨h.named, fun id hid => ?_⟩
    rcases List.mem_append.mp hid with hid | hid
    · exact h.monitored id hid
    · cases List.mem_singleton.mp hid

end Audience

/-- An id that is taken or kept is not empty. -/
theorem orText_ne_nil {id : Option Text} {default : Text} (h : default ≠ []) : orText id default ≠ [] := by
  cases id with
  | none => exact h
  | some text =>
    cases text with
    | nil => exact h
    | cons c text => exact List.cons_ne_nil c text

/-- Whoever is monitored after a start was so, or is the session of the relay. -/
theorem mem_modify_some {l : List (Option Text)} {i : ℕ} {id id' : Text}
    (h : some id' ∈ l.modify i fun _ => some id) : id' = id ∨ some id' ∈ l := by
  obtain ⟨j, hj⟩ := List.mem_iff_getElem?.mp h
  rw [List.getElem?_modify] at hj
  obtain ⟨x, hx, heq⟩ := Option.map_eq_some_iff.mp hj
  split at heq
  · exact Or.inl (Option.some.inj heq).symm
  · exact Or.inr (List.mem_of_getElem? (hx.trans (congrArg some heq)))

namespace Watch

variable {v v' : Watch} {c : Concern}

/-- What the sentinel is called with leaves everybody known. -/
theorem known_follow (h : v.audience.Known v.world.connected) (hfollow : v.follow analysis c = some v') :
    v'.audience.Known v'.world.connected := by
  obtain ⟨w', hrun, rfl⟩ := Option.map_eq_some_iff.mp hfollow
  have hknown := h.mono (LiveWorld.connected_subset_run hrun)
  show (v.audience.heed c).1.Known w'.connected
  cases c with
  | setup id traceId env =>
    rw [Audience.heed]
    split
    · exact hknown
    · have hnamed : ({ v.audience with sessionId := orText id v.audience.sessionId } : Audience).Known
          w'.connected := ⟨orText_ne_nil hknown.named, hknown.monitored⟩
      exact Audience.known_startSession hnamed traceId env
  | started k =>
    rw [Audience.heed] at hrun ⊢
    split
    · rename_i i traceId hstart
      refine ⟨hknown.named, fun id hid => ?_⟩
      rcases mem_modify_some hid with rfl | hid
      · -- the session was connected just now
        rw [hstart] at hrun
        obtain ⟨w₁, hstep, hrest⟩ := Option.bind_eq_some_iff.mp hrun
        obtain ⟨-, rfl⟩ := LiveWorld.step_cases hstep
        exact LiveWorld.connected_subset_run hrest List.mem_cons_self
      · exact hknown.monitored id hid
    · exact ⟨hknown.named, hknown.monitored⟩
  | events i events =>
    rw [Audience.heed]
    split <;> exact hknown
  | elsewhere a => exact hknown

end Watch

namespace WatchedRelay

variable {s s' : WatchedRelay} {actions : List WatchedAction}

/-- **What the sentinel sees of a relay** follows from what concerns it in the actions. -/
theorem observes : Observes (step settings analysis) (Watch.follow analysis) watch
    (WatchedAction.concern settings) where
  unseen := by
    intro s a s' hstep hconcern
    cases a with
    | sentinel a => cases hconcern
    | relay a =>
      obtain ⟨r, hr, hstep⟩ := Option.bind_eq_some_iff.mp hstep
      obtain ⟨w, hw, rfl⟩ := Option.map_eq_some_iff.mp hstep
      have haudience := LiveRelay.audience_step hr
      rw [hconcern] at haudience
      obtain ⟨hsame, hheard⟩ := haudience
      rw [hheard] at hw
      obtain rfl := Option.some.inj hw
      show Watch.mk r.audience s.world = Watch.mk s.relay.audience s.world
      rw [hsame]
  seen := by
    intro s a s' c hstep hconcern
    cases a with
    | sentinel a =>
      obtain rfl := Option.some.inj hconcern
      obtain ⟨w, hw, rfl⟩ := Option.map_eq_some_iff.mp hstep
      show (s.world.run analysis [a]).map _ = _
      rw [LiveWorld.run, hw]
      rfl
    | relay a =>
      obtain ⟨r, hr, hstep⟩ := Option.bind_eq_some_iff.mp hstep
      obtain ⟨w, hw, rfl⟩ := Option.map_eq_some_iff.mp hstep
      have haudience := LiveRelay.audience_step hr
      rw [hconcern] at haudience
      have heed : s.relay.audience.heed c = (r.audience, s.relay.heard settings a) := haudience
      show (s.world.run analysis (s.relay.audience.heed c).2).map
        (fun w => Watch.mk (s.relay.audience.heed c).1 w) = some (Watch.mk r.audience w)
      rw [heed, hw]
      rfl

/-- The relay is known from the beginning. -/
theorem known_connected (userId apiKey : Option Text) (now : ℤ) (connected : List Text) :
    (LiveRelay.connected userId apiKey now).audience.Known connected :=
  ⟨List.cons_ne_nil _ _, fun _ hid => nomatch hid⟩

/-- **The sentinel refuses nothing**: whatever the relay can do, it can do with the sentinel. -/
theorem exists_step {userId apiKey : Option Text} {now : ℤ} {w : LiveWorld} {a : RelayAction}
    (hrun : runFrom (step settings analysis) ⟨.connected userId apiKey now, w⟩ actions = some s)
    (hstep : s.relay.step settings a = some r) :
    ∃ w', s.step settings analysis (.relay a) = some ⟨r, w'⟩ := by
  have hview := observes.run hrun
  have hknown : s.watch.audience.Known s.watch.world.connected :=
    run_invariant (I := fun v => v.audience.Known v.world.connected)
      (fun _ _ _ h _ hf => Watch.known_follow h hf)
      (known_connected userId apiKey now w.connected) along_true hview
  have hruns : ∃ w', s.world.run analysis (s.relay.heard settings a) = some w' := by
    cases a with
    | started k =>
      rw [LiveRelay.heard]
      split
      · rename_i traceId _
        have hconnect : s.world.step analysis ⟨s.relay.sessionId, .connect s.relay.userId traceId⟩ =
            some _ := if_neg hknown.named
        rw [LiveWorld.run, hconnect]
        exact ⟨_, rfl⟩
      · exact ⟨_, rfl⟩
    | message i frame now =>
      rw [LiveRelay.heard]
      cases hid : s.relay.sessions[i]?.bind RelayedSession.monitoredAs with
      | none => exact ⟨_, rfl⟩
      | some id =>
        obtain ⟨session, hsession, hmonitored⟩ := Option.bind_eq_some_iff.mp hid
        have hconnected : id ∈ s.world.connected := hknown.monitored id
          (List.mem_map.mpr ⟨session, List.mem_of_getElem? hsession, hmonitored⟩)
        exact LiveWorld.exists_run hconnected
    | _ => exact ⟨_, rfl⟩
  obtain ⟨w', hw'⟩ := hruns
  refine ⟨w', ?_⟩
  rw [step, hstep, Option.bind_some, hw']
  rfl

end WatchedRelay

/-! ## Two runs -/

/-- The sentinel is as confident, and has published the same cues for a session. -/
structure SameWatch (id : Text) (s₁ s₂ : WatchedRelay) : Prop where
  confidence : s₁.world.agent.confidence = s₂.world.agent.confidence
  cues : s₁.world.cuesFor id = s₂.world.cuesFor id

/-- **The sentinel watches the model**: in every two runs of a relay in which the audio and the
interruptions of the model are the same, the sentinel makes the same of every session, whatever the client
says. -/
theorem sentinel_watches {s s₁ s₂ : WatchedRelay} {actions₁ actions₂ : List WatchedAction} (id : Text)
    (hrun₁ : runFrom (WatchedRelay.step settings analysis) s actions₁ = some s₁)
    (hrun₂ : runFrom (WatchedRelay.step settings analysis) s actions₂ = some s₂)
    (hmodel : actions₁.filterMap (WatchedAction.concern settings) =
      actions₂.filterMap (WatchedAction.concern settings)) : SameWatch id s₁ s₂ := by
  have hwatch : s₁.watch = s₂.watch := WatchedRelay.observes.view_eq hrun₁ hrun₂ rfl hmodel
  have hworld : s₁.world = s₂.world := congrArg Watch.world hwatch
  exact ⟨by rw [hworld], by rw [hworld]⟩

/-- A chunk of audio of the client. -/
def WatchedAction.clientChunk : WatchedAction → Option (List UInt8)
  | .relay (.binary chunk) => some chunk
  | _ => none

/-- The relay of ana, with a sentinel that has not heard anything. -/
def watchedAna : WatchedRelay := ⟨relayOfAna, {}⟩

/-- Ana and the model each say something. -/
def saying (ofAna ofModel : List UInt8) : List WatchedAction :=
  [.relay (.text setupText none), .relay (.started 0), .relay (.opened 0), .relay (.binary ofAna),
    .relay (.message 0 ⟨true, ofModel⟩ 1700000000000)]

theorem sentinel_watches_saying : ∃ s₁ s₂,
    runFrom (WatchedRelay.step plainSettings silence) watchedAna (saying [1, 0] [0, 0]) = some s₁ ∧
      runFrom (WatchedRelay.step plainSettings silence) watchedAna (saying [9, 9] [0, 0]) = some s₂ ∧
        SameWatch relayOfAna.sessionId s₁ s₂ := by
  have hruns₁ : (runFrom (WatchedRelay.step plainSettings silence) watchedAna
      (saying [1, 0] [0, 0])).isSome = true := by decide +kernel
  have hruns₂ : (runFrom (WatchedRelay.step plainSettings silence) watchedAna
      (saying [9, 9] [0, 0])).isSome = true := by decide +kernel
  obtain ⟨s₁, h₁⟩ := Option.isSome_iff_exists.mp hruns₁
  obtain ⟨s₂, h₂⟩ := Option.isSome_iff_exists.mp hruns₂
  exact ⟨s₁, s₂, h₁, h₂, sentinel_watches _ h₁ h₂ (by decide +kernel)⟩

/-- Ana says the same, and the sentinel is more confident where the model is silent. -/
theorem modelHeard_not_same : ∃ s₁ s₂,
    runFrom (WatchedRelay.step plainSettings silence) watchedAna (saying [1, 0] [0, 0]) = some s₁ ∧
      runFrom (WatchedRelay.step plainSettings silence) watchedAna (saying [1, 0] [255, 127]) = some s₂ ∧
        (saying [1, 0] [0, 0]).filterMap WatchedAction.clientChunk =
          (saying [1, 0] [255, 127]).filterMap WatchedAction.clientChunk ∧
            ¬ SameWatch relayOfAna.sessionId s₁ s₂ := by
  have hruns₁ : (runFrom (WatchedRelay.step plainSettings silence) watchedAna
      (saying [1, 0] [0, 0])).isSome = true := by decide +kernel
  have hruns₂ : (runFrom (WatchedRelay.step plainSettings silence) watchedAna
      (saying [1, 0] [255, 127])).isSome = true := by decide +kernel
  have hconfidence : ((runFrom (WatchedRelay.step plainSettings silence) watchedAna
      (saying [1, 0] [0, 0])).get hruns₁).world.agent.confidence ≠
        ((runFrom (WatchedRelay.step plainSettings silence) watchedAna
          (saying [1, 0] [255, 127])).get hruns₂).world.agent.confidence := by decide +kernel +revert
  exact ⟨_, _, (Option.some_get hruns₁).symm, (Option.some_get hruns₂).symm, by decide,
    fun h => hconfidence h.confidence⟩

end DreamWeaver.Live
