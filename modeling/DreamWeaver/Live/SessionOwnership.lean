import DreamWeaver.Live.RelaySteps

/-! # Ownership of live sessions

A session that the relay has started is live while its socket is connecting or open. The relay has at most
one live session for a client, and none when the client has left, in every run in which a setup comes only
while no session is live, and the client leaves only while the one that is live is open and attached: a
start that is awaited does not keep a second setup from starting another session, and `disconnect` leaves a
socket that is connecting as it is. -/

namespace DreamWeaver.Live

open Transitions

variable {settings : LiveSettings} {r r' : LiveRelay} {a : RelayAction} {actions : List RelayAction}

/-- A session whose socket is connecting or open. -/
def RelayedSession.isLive (s : RelayedSession) : Bool := s.readyState.isLive

namespace LiveRelay

/-- How many sessions of the client are connecting or open. -/
def liveSessions (r : LiveRelay) : ℕ := r.sessions.countP RelayedSession.isLive

/-- **The condition on an action**: a setup for which a session is started comes while none is live, and
the client leaves while no session is live but the one that is open and attached. -/
def Orderly (r : LiveRelay) : RelayAction → Prop
  | .text data _ => IsSetup data → r.isSessionActive = false → r.liveSessions = 0
  | .clientClosed => ∀ i s, r.sessions[i]? = some s → s.isLive = true →
      r.liveSession = some i ∧ s.readyState = .opened
  | _ => True

/-- At most one session is connecting or open; once the client has left and no start is pending, every
session is closing or closed. -/
structure OwnsSession (r : LiveRelay) : Prop where
  atMostOne : r.liveSessions ≤ 1
  released : r.clientWs = .closed → r.starting = [] →
    ∀ s ∈ r.sessions, s.readyState = .closing ∨ s.readyState = .closed

/-! ## What becomes of live sessions -/

/-- A session that was not live stays so. -/
def Fades (s s' : RelayedSession) : Prop := s'.isLive = true → s.isLive = true

theorem countP_le_of_fades {l l' : List RelayedSession} (h : List.Forall₂ Fades l l') :
    l'.countP RelayedSession.isLive ≤ l.countP RelayedSession.isLive := by
  induction h with
  | nil => exact le_rfl
  | @cons s s' l l' hs _ ih =>
    rw [List.countP_cons, List.countP_cons]
    by_cases hlive : s'.isLive = true
    · rw [if_pos hlive, if_pos (hs hlive)]
      omega
    · rw [if_neg hlive]
      omega

theorem fades_of_talks {l l' : List RelayedSession} (h : List.Forall₂ RelayedSession.Talks l l') :
    List.Forall₂ Fades l l' := by
  refine h.imp fun s s' hs hlive => ?_
  rw [RelayedSession.isLive, hs.readyState] at hlive
  exact hlive

theorem fades_refl (l : List RelayedSession) : List.Forall₂ Fades l l :=
  List.forall₂_same.mpr fun _ _ h => h

/-- Sending leaves the state of the socket. -/
theorem readyState_sendAudio (s : GeminiLiveSession) (chunk : List UInt8) :
    (s.sendAudio chunk).readyState = s.readyState := by
  unfold GeminiLiveSession.sendAudio GeminiLiveSession.sendJson
  split
  · split <;> rfl
  · rfl

theorem readyState_foldl_sendAudio (chunks : List (List UInt8)) (s : GeminiLiveSession) :
    (chunks.foldl GeminiLiveSession.sendAudio s).readyState = s.readyState := by
  induction chunks generalizing s with
  | nil => rfl
  | cons chunk chunks ih => rw [List.foldl_cons, ih, readyState_sendAudio]

/-- What is done to the sessions by an action that starts none. -/
theorem fades_onLiveSession {f : GeminiLiveSession → GeminiLiveSession}
    (hf : ∀ s, (f s).readyState.isLive = true → s.readyState.isLive = true) :
    List.Forall₂ Fades r.sessions (r.onLiveSession f).sessions :=
  forall₂_onLiveSession (fun _ h => h) fun s => hf s.toGeminiLiveSession

theorem isLive_disconnect (s : GeminiLiveSession) (h : s.disconnect.readyState.isLive = true) :
    s.readyState.isLive = true := by
  unfold GeminiLiveSession.disconnect at h
  split at h
  · cases h
  · exact h

/-- **What an action does to the sessions**: none comes back to life, or a setup starts a new one. -/
theorem step_fades (hstep : r.step settings a = some r') :
    (List.Forall₂ Fades r.sessions r'.sessions ∧
        (a ≠ .clientClosed → r'.clientWs = .closed → r.clientWs = .closed)) ∨
      ∃ data env s, a = .text data env ∧ r.isSessionActive = false ∧ IsSetup data ∧
        r'.sessions = r.sessions ++ [s] ∧ r.clientWs ≠ .closed ∧ r'.clientWs = r.clientWs := by
  have hcases := step_cases hstep
  cases a with
  | binary chunk =>
    left
    obtain ⟨-, rfl⟩ := hcases
    unfold onBinary
    split
    · rw [onLiveSession_frame]
      refine ⟨fades_onLiveSession fun s hlive => ?_, fun _ => id⟩
      rwa [readyState_sendAudio] at hlive
    · exact ⟨fades_refl _, fun _ => id⟩
  | text data env =>
    obtain ⟨hws, rfl⟩ := hcases
    rcases onText_cases settings r data env with haside | ⟨hactive, msg, config, hmsg, hsetup, heq⟩
    · refine Or.inl ⟨fades_of_talks haside.sessions, fun _ => ?_⟩
      rw [haside.rest]
      exact id
    · rw [heq]
      rcases startSession_cases settings _ config _ env with hnone | ⟨key, hsome⟩
      · rw [hnone]
        exact Or.inl ⟨fades_refl _, fun _ => id⟩
      · rw [hsome]
        exact Or.inr ⟨data, env, _, rfl, hactive, ⟨msg, config, hmsg, hsetup⟩, rfl, hws, rfl⟩
  | started k =>
    left
    obtain ⟨start, -, rfl⟩ := hcases
    cases start.session with
    | none =>
      obtain ⟨more, ws, -, hws, heq⟩ := started_none_frame { r with starting := r.starting.eraseIdx k }
      rw [heq]
      exact ⟨fades_refl _, fun _ => hws⟩
    | some i =>
      rw [started_some_frame]
      refine ⟨forall₂_modify (fun _ h => h) fun s _ hlive => ?_, fun _ => id⟩
      rwa [RelayedSession.isLive, readyState_foldl_sendAudio] at hlive
  | opened i =>
    left
    obtain ⟨s, hs, hconnecting, rfl⟩ := hcases
    refine ⟨forall₂_modify (fun _ h => h) fun s' hs' _ => ?_, fun _ => id⟩
    obtain rfl : s = s' := Option.some.inj (hs.symm.trans hs')
    rw [RelayedSession.isLive, hconnecting]
    rfl
  | message i frame now =>
    left
    obtain ⟨s, -, rfl⟩ := hcases
    obtain ⟨frames, n, heq⟩ := onMessage_frame settings r s frame.data
    rw [heq]
    exact ⟨fades_refl _, fun _ => id⟩
  | upstreamClosing i =>
    left
    obtain ⟨s, -, rfl⟩ := hcases
    exact ⟨forall₂_modify (fun _ h => h) fun _ _ h => (nomatch h), fun _ => id⟩
  | upstreamClosed i code reason =>
    left
    obtain ⟨s, -, rfl⟩ := hcases
    obtain ⟨more, ws, -, hws, heq⟩ := onUpstreamClose_frame r i s code reason
    rw [heq]
    exact ⟨forall₂_modify (fun _ h => h) fun _ _ h => (nomatch h), fun _ => hws⟩
  | assessed =>
    left
    obtain ⟨-, rfl⟩ := hcases
    unfold assessed
    obtain ⟨more, -, heq⟩ := exists_sendClient { r with assessing := r.assessing - 1 } interruptedFrame
    rw [heq]
    exact ⟨fades_refl _, fun _ => id⟩
  | sleepCue payload =>
    left
    refine ⟨fades_of_talks hcases.sessions, fun _ => ?_⟩
    rw [hcases.rest]
    exact id
  | clientClosed =>
    left
    rw [hcases]
    exact ⟨fades_onLiveSession isLive_disconnect, fun h => absurd rfl h⟩
  | clientFailed =>
    left
    rw [hcases]
    exact ⟨fades_onLiveSession isLive_disconnect, fun _ h => nomatch h⟩

/-! ## Runs -/

/-- At most one session is live, and none once the client has left. -/
structure Sole (r : LiveRelay) : Prop where
  atMostOne : r.liveSessions ≤ 1
  released : r.clientWs = .closed → r.liveSessions = 0

/-- When the client leaves, the session that is open is disconnected. -/
theorem liveSessions_disconnect (hlive : ∀ i s, r.sessions[i]? = some s → s.isLive = true →
    r.liveSession = some i ∧ s.readyState = .opened) :
    (r.onLiveSession GeminiLiveSession.disconnect).liveSessions = 0 := by
  refine List.countP_eq_zero.mpr fun s' hs' hlive' => ?_
  obtain ⟨j, hj⟩ := List.mem_iff_getElem?.mp hs'
  unfold onLiveSession at hj
  split at hj
  · rename_i hnone
    obtain ⟨hsome, -⟩ := hlive j s' hj hlive'
    rw [hnone] at hsome
    cases hsome
  · rename_i i hi
    unfold updateSession at hj
    by_cases hij : i = j
    · subst hij
      rw [List.getElem?_modify_eq] at hj
      obtain ⟨s, hs, rfl⟩ := Option.map_eq_some_iff.mp hj
      obtain ⟨-, hopened⟩ := hlive i s hs (isLive_disconnect _ hlive')
      rw [RelayedSession.isLive, GeminiLiveSession.disconnect, if_pos hopened] at hlive'
      cases hlive'
    · rw [List.getElem?_modify_ne _ _ hij] at hj
      obtain ⟨hsome, -⟩ := hlive j s' hj hlive'
      exact hij (Option.some.inj (hi.symm.trans hsome))

/-- **Every orderly action keeps it so.** -/
theorem Sole.step (h : r.Sole) (horderly : r.Orderly a) (hstep : r.step settings a = some r') :
    r'.Sole := by
  rcases step_fades hstep with ⟨hfades, hws⟩ | ⟨data, env, s, rfl, hactive, hsetup, heq, hopen, hws⟩
  · have hle : r'.liveSessions ≤ r.liveSessions := countP_le_of_fades hfades
    refine ⟨hle.trans h.atMostOne, fun hclosed => ?_⟩
    by_cases hleaves : a = .clientClosed
    · subst hleaves
      have hr' := step_cases hstep
      rw [hr']
      exact liveSessions_disconnect horderly
    · exact Nat.le_zero.mp (hle.trans (h.released (hws hleaves hclosed)).le)
  · have hnone : r.liveSessions = 0 := horderly hsetup hactive
    refine ⟨?_, fun hclosed => absurd (hws.symm.trans hclosed) hopen⟩
    rw [liveSessions, heq, List.countP_append, ← liveSessions, hnone, Nat.zero_add]
    exact List.countP_le_length

theorem Sole.ownsSession (h : r.Sole) : r.OwnsSession where
  atMostOne := h.atMostOne
  released hclosed _ s hs := by
    have hdead : ¬ s.isLive = true := List.countP_eq_zero.mp (h.released hclosed) s hs
    unfold RelayedSession.isLive at hdead
    cases hstate : s.readyState with
    | connecting | opened => exact absurd (by rw [hstate]; rfl) hdead
    | closing => exact Or.inl rfl
    | closed => exact Or.inr rfl

end LiveRelay

/-- **The relay owns one session at a time**, in every run whose actions are orderly. -/
theorem session_owned {userId apiKey : Option Text} {now : ℤ}
    (hrun : runFrom (LiveRelay.step settings) (.connected userId apiKey now) actions = some r)
    (horderly : Along (LiveRelay.step settings) LiveRelay.Orderly (.connected userId apiKey now) actions) :
    r.OwnsSession := by
  have hsole : (LiveRelay.connected userId apiKey now).Sole := ⟨Nat.zero_le 1, fun _ => rfl⟩
  exact (run_invariant (fun _ _ _ h hok hstep => h.step hok hstep) hsole horderly hrun).ownsSession

/-- A session is set up and opens, and then the client leaves. -/
def wholeEvening : List RelayAction := [.text setupText none, .started 0, .opened 0, .clientClosed]

theorem session_owned_wholeEvening : ∃ r,
    runFrom (LiveRelay.step plainSettings) relayOfAna wholeEvening = some r ∧ r.OwnsSession := by
  have hrun := (runFrom_of_step step_setupText).trans (rfl : runFrom (LiveRelay.step plainSettings)
    relayStarting [.started 0, .opened 0, .clientClosed] = some _)
  refine ⟨_, hrun, session_owned hrun ⟨fun _ _ => rfl, fun r₁ h₁ => ⟨trivial, fun r₂ h₂ =>
    ⟨trivial, fun r₃ h₃ => ⟨fun i s hs _ => ?_, fun _ _ => trivial⟩⟩⟩⟩⟩
  obtain rfl := Option.some.inj (step_setupText.symm.trans h₁)
  obtain rfl := Option.some.inj h₂
  obtain rfl := Option.some.inj h₃
  cases i with
  | zero =>
    obtain rfl := Option.some.inj hs
    exact ⟨rfl, rfl⟩
  | succ i => cases hs

/-- The client leaves while the session is connecting: it is never closed. -/
theorem leftWhileConnecting_not_owned : ∃ r,
    runFrom (LiveRelay.step plainSettings) relayOfAna
        [.text setupText none, .started 0, .clientClosed] = some r ∧
      r.clientWs = .closed ∧ r.starting = [] ∧ r.liveSessions = 1 ∧ ¬ r.OwnsSession := by
  refine ⟨_, (runFrom_of_step step_setupText).trans rfl, rfl, rfl, rfl, fun h => ?_⟩
  rcases h.released rfl rfl _ List.mem_cons_self with hclosing | hclosed
  · cases hclosing
  · cases hclosed

end DreamWeaver.Live
