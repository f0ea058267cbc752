import DreamWeaver.Live.SleepSentinelAgent

/-! # Isolation of live sessions

All live sessions share one sentinel: its confidence, its envelope and its cooldown go on from one
session to the next, and its cues carry the id of the session that was connected last. The cues of a
session are those of its own audio and interruptions as long as it has the sentinel for itself: before
another session takes over for good, others do only what changes nothing. -/

namespace DreamWeaver.Live

variable {analysis : SignalAnalysis} {s : Text} {w w' w₁ : LiveWorld} {a : LiveAction}
  {trace : List LiveAction}

/-- What happens in one session. -/
def ownActions (s : Text) (trace : List LiveAction) : List LiveAction :=
  trace.filter fun a => a.sessionId = s

namespace LiveWorld

/-- An action of another session that changes nothing for a session: a connection while the session is
not connected yet, or an interruption when there is nothing to lower. -/
def Harmless (s : Text) (w : LiveWorld) (a : LiveAction) : Prop :=
  match a.event with
  | .connect _ _ => s ∉ w.connected
  | .interruption => w.agent.interrupt = w.agent
  | _ => False

/-- Another session connects, and nothing happens any more in the session. -/
def TakenOver (s : Text) (a : LiveAction) (rest : List LiveAction) : Prop :=
  (∃ userId traceId, a.event = .connect userId traceId) ∧ ∀ b ∈ rest, b.sessionId ≠ s

/-- **The condition on a run**: the session has the sentinel for itself until another takes over. -/
def Alone (analysis : SignalAnalysis) (s : Text) (w : LiveWorld) : List LiveAction → Prop
  | [] => True
  | a :: rest =>
    (a.sessionId = s ∧ ∀ w', w.step analysis a = some w' → w'.Alone analysis s rest) ∨
    (a.sessionId ≠ s ∧ w.Harmless s a ∧
      ∀ w', w.step analysis a = some w' → w'.Alone analysis s rest) ∨
    (a.sessionId ≠ s ∧ TakenOver s a rest)

/-! ## What the actions do -/

/-- What an action that happens does. -/
theorem step_cases {sessionId : Text} {event : LiveEvent}
    (hstep : w.step analysis ⟨sessionId, event⟩ = some w₁) :
    match event with
    | .connect userId traceId => sessionId ≠ [] ∧ w₁ = { w with
        agent := w.agent.monitorLiveSession sessionId userId traceId
        connected := sessionId :: w.connected }
    | .audio pcm now => sessionId ∈ w.connected ∧ w₁ = w.hear analysis sessionId pcm now
    | .interruption => sessionId ∈ w.connected ∧ w₁ = { w with agent := w.agent.interrupt }
    | .published now => (sessionId, now) ∈ w.publishing ∧ w₁ = { w with
        agent := w.agent.afterCue now
        publishing := w.publishing.erase (sessionId, now) } := by
  rw [step] at hstep
  cases event with
  | connect userId traceId =>
    by_cases hid : sessionId = []
    · simp [hid] at hstep
    · exact ⟨hid, by simpa [hid] using hstep.symm⟩
  | audio pcm now =>
    by_cases hs : sessionId ∈ w.connected
    · exact ⟨hs, by simpa [hs] using hstep.symm⟩
    · simp [hs] at hstep
  | interruption =>
    by_cases hs : sessionId ∈ w.connected
    · exact ⟨hs, by simpa [hs] using hstep.symm⟩
    · simp [hs] at hstep
  | published now =>
    by_cases hmem : (sessionId, now) ∈ w.publishing
    · exact ⟨hmem, by simpa [hmem] using hstep.symm⟩
    · simp [hmem] at hstep

variable {sessionId : Text} {pcm : List ℤ} {now : ℤ}

theorem hear_of_none (h : (w.agent.hear analysis pcm).dueCue now = none) :
    w.hear analysis sessionId pcm now = { w with agent := w.agent.hear analysis pcm } := by
  simp only [hear, h]

theorem hear_of_some {cue : SleepCue} (h : (w.agent.hear analysis pcm).dueCue now = some cue) :
    w.hear analysis sessionId pcm now = { w with
      agent := w.agent.hear analysis pcm
      publishing := w.publishing ++ [(sessionId, now)]
      cues := w.cues ++ [(sessionId, cue)] } := by
  simp only [hear, h]

/-- What is heard leaves the idea of whose session it is. -/
theorem toLiveIdentity_hear : (w.hear analysis sessionId pcm now).agent.toLiveIdentity =
    w.agent.toLiveIdentity := by
  cases hcue : (w.agent.hear analysis pcm).dueCue now with
  | none => rw [hear_of_none hcue]; rfl
  | some cue => rw [hear_of_some hcue]; rfl

/-- A cue carries the id of the session that was connected last. -/
theorem sessionId_dueCue {cue : SleepCue} {other : Text} (hne : other ≠ [])
    (hother : w.agent.liveSessionId = some other)
    (hcue : (w.agent.hear analysis pcm).dueCue now = some cue) : cue.sessionId = other := by
  rw [SleepSentinelAgent.dueCue] at hcue
  split at hcue
  · cases hcue
    show orText w.agent.liveSessionId _ = other
    rw [hother, orText_some hne]
  · cases hcue

/-! ## The world without the others -/

/-- Two worlds that are the same for a session: of whom the sentinel believes to hear matters once the
session is connected. -/
structure SameFor (s : Text) (w w' : LiveWorld) : Prop where
  detector : w.agent.toDetector = w'.agent.toDetector
  live : s ∈ w.connected → w.agent.toLiveIdentity = w'.agent.toLiveIdentity
  connected : s ∈ w.connected ↔ s ∈ w'.connected
  publishing : w.publishing = w'.publishing
  cues : w.cues = w'.cues

theorem SameFor.agent_eq (h : SameFor s w w') (hs : s ∈ w.connected) : w.agent = w'.agent := by
  have hdetector := h.detector
  have hlive := h.live hs
  cases hw : w.agent
  cases hw' : w'.agent
  simp_all

/-- Hearing the session is the same in both. -/
theorem SameFor.hear (h : SameFor s w w') (hs : s ∈ w.connected) :
    SameFor s (w.hear analysis s pcm now) (w'.hear analysis s pcm now) := by
  have hagent := h.agent_eq hs
  cases hcue : (w.agent.hear analysis pcm).dueCue now with
  | none =>
    rw [hear_of_none hcue, hear_of_none (by rw [← hagent]; exact hcue), hagent]
    exact ⟨rfl, fun _ => rfl, h.connected, h.publishing, h.cues⟩
  | some cue =>
    rw [hear_of_some hcue, hear_of_some (by rw [← hagent]; exact hcue), hagent, h.publishing,
      h.cues]
    exact ⟨rfl, fun _ => rfl, h.connected, rfl, rfl⟩

/-- **An action of the session does the same in both.** -/
theorem SameFor.step_own (h : SameFor s w w') (ha : a.sessionId = s)
    (hstep : w.step analysis a = some w₁) :
    ∃ w₁', w'.step analysis a = some w₁' ∧ SameFor s w₁ w₁' := by
  subst ha
  obtain ⟨sessionId, event⟩ := a
  have hcases := step_cases hstep
  rw [step]
  cases event with
  | connect userId traceId =>
    obtain ⟨hid, rfl⟩ := hcases
    exact ⟨_, if_neg hid, h.detector, fun _ => rfl, by simp, h.publishing, h.cues⟩
  | audio pcm now =>
    obtain ⟨hs, rfl⟩ := hcases
    exact ⟨_, if_pos (h.connected.mp hs), h.hear hs⟩
  | interruption =>
    obtain ⟨hs, rfl⟩ := hcases
    refine ⟨_, if_pos (h.connected.mp hs), ?_⟩
    rw [h.agent_eq hs]
    exact ⟨rfl, fun _ => rfl, h.connected, h.publishing, h.cues⟩
  | published now =>
    obtain ⟨hmem, rfl⟩ := hcases
    rw [h.publishing] at hmem
    refine ⟨_, if_pos hmem, ?_, h.live, h.connected, by rw [h.publishing], h.cues⟩
    show ({ w.agent.toDetector with confidence := literal (4 / 5), lastCueAtMs := now } : Detector) =
      { w'.agent.toDetector with confidence := literal (4 / 5), lastCueAtMs := now }
    rw [h.detector]

/-- A harmless action of another session changes nothing. -/
theorem SameFor.step_harmless (h : SameFor s w w') (ha : a.sessionId ≠ s) (hharmless : w.Harmless s a)
    (hstep : w.step analysis a = some w₁) : SameFor s w₁ w' := by
  obtain ⟨sessionId, event⟩ := a
  have hcases := step_cases hstep
  cases event with
  | connect userId traceId =>
    obtain ⟨-, rfl⟩ := hcases
    -- the session is not connected, neither before nor after
    have hnot : s ∉ sessionId :: w.connected := by
      rw [List.mem_cons, not_or]
      exact ⟨Ne.symm ha, hharmless⟩
    refine ⟨h.detector, fun hs => absurd hs hnot, ?_, h.publishing, h.cues⟩
    exact iff_of_false hnot fun hs => hharmless (h.connected.mpr hs)
  | interruption =>
    obtain ⟨-, rfl⟩ := hcases
    rw [show w.agent.interrupt = w.agent from hharmless]
    exact ⟨h.detector, h.live, h.connected, h.publishing, h.cues⟩
  | audio pcm now => exact absurd hharmless id
  | published now => exact absurd hharmless id

/-! ## After the session -/

/-- Another session has taken over. -/
def Lost (s : Text) (w : LiveWorld) : Prop :=
  ∃ other, w.agent.liveSessionId = some other ∧ other ≠ [] ∧ other ≠ s

/-- An action of another session leaves it taken over and adds no cue for the session. -/
theorem Lost.step (h : w.Lost s) (ha : a.sessionId ≠ s) (hstep : w.step analysis a = some w₁) :
    w₁.Lost s ∧ cuesFor s w₁ = cuesFor s w := by
  obtain ⟨sessionId, event⟩ := a
  have hcases := step_cases hstep
  cases event with
  | connect userId traceId =>
    obtain ⟨hid, rfl⟩ := hcases
    exact ⟨⟨sessionId, rfl, hid, ha⟩, rfl⟩
  | audio pcm now =>
    obtain ⟨-, rfl⟩ := hcases
    obtain ⟨other, hother, hne, hs⟩ := h
    have hlive : (w.hear analysis sessionId pcm now).agent.liveSessionId = some other := by
      rw [toLiveIdentity_hear, hother]
    refine ⟨⟨other, hlive, hne, hs⟩, ?_⟩
    cases hcue : (w.agent.hear analysis pcm).dueCue now with
    | none => rw [hear_of_none hcue]; rfl
    | some cue =>
      rw [hear_of_some hcue, cuesFor, List.filter_append, ← cuesFor]
      simp [sessionId_dueCue hne hother hcue, hs, show sessionId ≠ s from ha]
  | interruption =>
    obtain ⟨-, rfl⟩ := hcases
    exact ⟨h, rfl⟩
  | published now =>
    obtain ⟨-, rfl⟩ := hcases
    exact ⟨h, rfl⟩

/-- Nothing that happens then concerns the session. -/
theorem Lost.run (h : w.Lost s) (hothers : ∀ b ∈ trace, b.sessionId ≠ s)
    (hrun : w.run analysis trace = some w₁) : cuesFor s w₁ = cuesFor s w := by
  induction trace generalizing w with
  | nil =>
    cases hrun
    rfl
  | cons a trace ih =>
    obtain ⟨w₂, hstep, hrest⟩ := Option.bind_eq_some_iff.mp hrun
    obtain ⟨hlost, hcues⟩ := h.step (hothers a List.mem_cons_self) hstep
    rw [ih hlost (fun b hb => hothers b (List.mem_cons_of_mem _ hb)) hrest, hcues]

/-- **From worlds that are the same for a session**, a run that meets the condition and the session's
own actions lead to the same cues of the session. -/
theorem SameFor.run (h : SameFor s w w') (halone : w.Alone analysis s trace)
    (hrun : w.run analysis trace = some w₁) :
    ∃ w₁', w'.run analysis (ownActions s trace) = some w₁' ∧ cuesFor s w₁ = cuesFor s w₁' := by
  induction trace generalizing w w' with
  | nil =>
    cases hrun
    exact ⟨w', rfl, by rw [cuesFor, cuesFor, h.cues]⟩
  | cons a trace ih =>
    obtain ⟨w₂, hstep, hrest⟩ := Option.bind_eq_some_iff.mp hrun
    rcases halone with ⟨ha, halone⟩ | ⟨ha, hharmless, halone⟩ | ⟨ha, ⟨userId, traceId, hevent⟩, hothers⟩
    · -- an action of the session
      obtain ⟨w₂', hstep', hsame⟩ := h.step_own ha hstep
      obtain ⟨w₁', hrun', hcues⟩ := ih hsame (halone w₂ hstep) hrest
      refine ⟨w₁', ?_, hcues⟩
      rw [ownActions, List.filter_cons_of_pos (by simpa using ha), LiveWorld.run, hstep']
      exact hrun'
    · -- an action of another session that changes nothing
      have hown : ownActions s (a :: trace) = ownActions s trace :=
        List.filter_cons_of_neg (by simpa using ha)
      rw [hown]
      exact ih (h.step_harmless ha hharmless hstep) (halone w₂ hstep) hrest
    · -- another session takes over
      have hown : ownActions s (a :: trace) = [] := by
        rw [ownActions, List.filter_eq_nil_iff]
        intro b hb
        rcases List.mem_cons.mp hb with rfl | hb
        · simpa using ha
        · simpa using hothers b hb
      rw [hown]
      refine ⟨w', rfl, ?_⟩
      obtain ⟨sessionId, event⟩ := a
      obtain rfl : event = .connect userId traceId := hevent
      obtain ⟨hid, rfl⟩ := step_cases hstep
      have hlost : LiveWorld.Lost s { w with
          agent := w.agent.monitorLiveSession sessionId userId traceId
          connected := sessionId :: w.connected } := ⟨sessionId, rfl, hid, ha⟩
      rw [hlost.run hothers hrest, cuesFor, cuesFor, ← h.cues]

end LiveWorld

/-- The cues of a session in a run are those of its own actions alone. -/
def SentinelIsolated (analysis : SignalAnalysis) (s : Text) (trace : List LiveAction)
    (w : LiveWorld) : Prop :=
  ∃ w', LiveWorld.run analysis {} (ownActions s trace) = some w' ∧ w.cuesFor s = w'.cuesFor s

/-- **Isolation of live sessions**: in every run in which a session has the sentinel for itself. -/
theorem sentinel_isolated (hrun : LiveWorld.run analysis {} trace = some w)
    (halone : LiveWorld.Alone analysis s {} trace) : SentinelIsolated analysis s trace w := by
  have hsame : LiveWorld.SameFor s {} {} := ⟨rfl, fun _ => rfl, Iff.rfl, rfl, rfl⟩
  exact hsame.run halone hrun

/-- A session that nobody else interrupts has the sentinel for itself. -/
theorem alone_of_own (h : ∀ a ∈ trace, a.sessionId = s) (w : LiveWorld) :
    w.Alone analysis s trace := by
  induction trace generalizing w with
  | nil => trivial
  | cons a trace ih =>
    left
    exact ⟨h a List.mem_cons_self, fun w' _ => ih (fun b hb => h b (List.mem_cons_of_mem _ hb)) w'⟩

/-- An analysis that is right for silence: its root is 0, and nobody breathes. -/
def silence : SignalAnalysis := ⟨id, fun _ _ => ⟨false, none, none⟩⟩

/-- The child of ana is silent, until the sentinel is sure. -/
def silentEvening : List LiveAction :=
  ⟨lit "evening", .connect (some (lit "ana")) none⟩ ::
    List.replicate 32 ⟨lit "evening", .audio [0, 0] 1700000000000⟩

/-- A session of bob, of which nothing is heard. -/
def connectBob : LiveAction := ⟨lit "night", .connect (some (lit "bob")) none⟩

theorem sentinel_isolated_evening : ∃ w,
    LiveWorld.run silence {} (connectBob :: silentEvening) = some w ∧
      SentinelIsolated silence (lit "evening") (connectBob :: silentEvening) w := by
  have hother : connectBob.sessionId ≠ lit "evening" := by decide
  have hharmless : LiveWorld.Harmless (lit "evening") {} connectBob := List.not_mem_nil
  have halone : LiveWorld.Alone silence (lit "evening") {} (connectBob :: silentEvening) :=
    Or.inr (Or.inl ⟨hother, hharmless, fun w' _ => alone_of_own (by decide) w'⟩)
  have hruns : (LiveWorld.run silence {} (connectBob :: silentEvening)).isSome = true := by
    decide +kernel
  obtain ⟨w, hw⟩ := Option.isSome_iff_exists.mp hruns
  exact ⟨w, hw, sentinel_isolated hw halone⟩

/-- The silence of the child of ana is a cue for the session of bob, who has connected after her. -/
theorem silence_of_another :
    (LiveWorld.run silence {} (silentEvening.take 1 ++ connectBob :: silentEvening.drop 1)).map
        (fun w => (w.cuesFor (lit "night")).map fun cue => cue.2.sessionId) =
          some [lit "night"] ∧
      (LiveWorld.run silence {} (ownActions (lit "night")
        (silentEvening.take 1 ++ connectBob :: silentEvening.drop 1))).map
          (fun w => (w.cuesFor (lit "night")).length) = some 0 := by
  constructor <;> decide +kernel

end DreamWeaver.Live
