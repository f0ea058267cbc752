import DreamWeaver.Worker.LiveWebSocket

/-! # The rate limit

The worker lets at most 120 texts through in a rate window, and none once it has refused a message, in every
run in which each text that it takes for audio is an envelope of audio, and the client sends nothing within
the limits behind a message that was refused. A text is taken for audio where the name of the envelope
occurs in it, and a refusal closes the client without `isClosing`, so that messages under way are handled
as before. -/

namespace DreamWeaver.Worker

open Transitions

variable {platform : Platform} {w w' : LiveWebSocket} {a : WorkerAction} {actions : List WorkerAction}

/-- A document with a top-level `realtime_input`. -/
def isEnvelope (data : Text) : Bool :=
  match parseJson data with
  | .ok parsed => (parsed.get (lit "realtime_input")).isSome
  | .error _ => false

/-- A text, or bytes that hold one, which is not an envelope of audio. -/
def Payload.isPlainText (message : Payload) : Bool :=
  match convertBinary message with
  | .text data => !isEnvelope data
  | .binary _ => false

/-- What became of a message: it was let through, in the rate window that began at a time, or it was
refused with a close. -/
inductive Verdict where
  | accepted (plain : Bool) (windowStart : ℤ)
  | refused
  deriving DecidableEq

/-- **The limit is kept**: at most 120 plain texts in a window, and nothing behind a refusal. -/
structure RateLimited (verdicts : List Verdict) : Prop where
  perWindow : ∀ start, verdicts.count (.accepted true start) ≤ maxTextMessagesPerWindow
  final : verdicts.Pairwise fun v v' => v = .refused → v' = .refused

namespace LiveWebSocket

/-- What becomes of the message of an event; a closing worker ignores it. -/
def verdicts (platform : Platform) (w : LiveWebSocket) : WorkerAction → List Verdict
  | .clientMessage message now _ =>
    if w.isClosing then []
    else if (w.admits platform message now).isSome then
      [.accepted message.isPlainText (w.atChecks platform message now).textWindowStart]
    else [.refused]
  | _ => []

/-- A message was refused. -/
def hasRefused (w : LiveWebSocket) : Bool :=
  w.closeCalls.any fun call => call.side = .client && (call.code = 1008 || call.code = 1009)

/-- A message is too long, or a text in a window that is used up. -/
def OverLimit (platform : Platform) (w : LiveWebSocket) (message : Payload) (now : ℤ) : Prop :=
  maxTextBytes < (prepare platform.toUpperCase message).data.length ∨
    (prepare platform.toUpperCase message).isRealtimeAudio = false ∧
      now - w.textWindowStart ≤ textWindowMs ∧ maxTextMessagesPerWindow ≤ w.textCount

/-- **The condition on a message**: a text that is taken for audio is an envelope, and behind a refusal
only messages over the limits arrive. -/
def Limited (platform : Platform) (w : LiveWebSocket) : WorkerAction → Prop
  | .clientMessage message now _ => w.isClosing = false →
      (message.isPlainText = true → (prepare platform.toUpperCase message).isRealtimeAudio = false) ∧
        (w.hasRefused = true → w.OverLimit platform message now)
  | _ => True

/-! ## Windows -/

/-- What was let through in the windows up to the one that began at a time. -/
structure Counted (past : List Verdict) (start : ℤ) (textCount : ℕ) : Prop where
  perWindow : ∀ start, past.count (.accepted true start) ≤ maxTextMessagesPerWindow
  later : ∀ start', start < start' → past.count (.accepted true start') = 0
  current : past.count (.accepted true start) ≤ textCount

variable {past : List Verdict}

/-- A text is counted before it is let through. -/
theorem Counted.countText (h : Counted past w.textWindowStart w.textCount) (now : ℤ) :
    past.count (.accepted true (w.countText now).textWindowStart) < (w.countText now).textCount ∧
      w.textWindowStart ≤ (w.countText now).textWindowStart := by
  have hcurrent := h.current
  unfold LiveWebSocket.countText
  by_cases hover : textWindowMs < now - w.textWindowStart
  · rw [if_pos hover]
    have hlater : w.textWindowStart < now := by
      unfold textWindowMs at hover
      omega
    exact ⟨by rw [h.later now hlater]; exact Nat.zero_lt_one, hlater.le⟩
  · rw [if_neg hover]
    exact ⟨Nat.lt_succ_of_le hcurrent, le_rfl⟩

/-- A count that did not go back, in the same window or a later one. -/
theorem Counted.mono (h : Counted past w.textWindowStart w.textCount)
    (hstart : w.textWindowStart ≤ w'.textWindowStart)
    (hcurrent : past.count (.accepted true w'.textWindowStart) ≤ w'.textCount) :
    Counted past w'.textWindowStart w'.textCount where
  perWindow := h.perWindow
  later start' hlt := h.later start' (by omega)
  current := hcurrent

/-- A verdict that is not a plain text counts in no window. -/
theorem Counted.append_of_ne {start : ℤ} {textCount : ℕ} (h : Counted past start textCount) {v : Verdict}
    (hv : ∀ start, v ≠ .accepted true start) : Counted (past ++ [v]) start textCount := by
  have hsame : ∀ start, (past ++ [v]).count (.accepted true start) = past.count (.accepted true start) := by
    intro start
    rw [List.count_append, List.count_singleton, if_neg (by simpa using hv start), Nat.add_zero]
  refine ⟨fun start => ?_, fun start' hlt => ?_, ?_⟩
  · rw [hsame]
    exact h.perWindow start
  · rw [hsame]
    exact h.later start' hlt
  · rw [hsame]
    exact h.current

/-- A plain text counts in the window at hand. -/
theorem Counted.append {start : ℤ} {textCount : ℕ} (h : Counted past start textCount)
    (hroom : past.count (.accepted true start) < textCount) (hmax : textCount ≤ maxTextMessagesPerWindow) :
    Counted (past ++ [.accepted true start]) start textCount := by
  refine ⟨fun start' => ?_, fun start' hlt => ?_, ?_⟩
  · have hpast := h.perWindow start'
    rw [List.count_append, List.count_singleton]
    by_cases heq : start = start'
    · subst heq
      rw [if_pos (by simp)]
      omega
    · rw [if_neg (by simpa using heq)]
      exact hpast
  · rw [List.count_append, h.later start' hlt, List.count_singleton, if_neg (by simpa using hlt.ne)]
  · rw [List.count_append, List.count_singleton, if_pos (by simp)]
    omega

theorem Counted.atChecks (h : Counted past w.textWindowStart w.textCount) (message : Payload) (now : ℤ) :
    Counted past (w.atChecks platform message now).textWindowStart (w.atChecks platform message now).textCount := by
  unfold LiveWebSocket.atChecks
  dsimp only
  split
  · exact h
  · obtain ⟨hroom, hstart⟩ := h.countText now
    exact h.mono hstart hroom.le

/-! ## Verdicts -/

/-- The limit was kept so far, and a refusal shows in the calls of `close`. -/
structure WithinLimits (past : List Verdict) (w : LiveWebSocket) : Prop where
  counted : Counted past w.textWindowStart w.textCount
  refused : .refused ∈ past → w.hasRefused = true
  final : past.Pairwise fun v v' => v = .refused → v' = .refused

theorem hasRefused_mono (hcalls : w.closeCalls <+: w'.closeCalls) (h : w.hasRefused = true) :
    w'.hasRefused = true := by
  obtain ⟨call, hmem, hcall⟩ := List.any_eq_true.mp h
  exact List.any_eq_true.mpr ⟨call, hcalls.subset hmem, hcall⟩

theorem WithinLimits.uncounted (h : w.WithinLimits past) (hsame : w.Uncounted w') : w'.WithinLimits past where
  counted := by
    rw [hsame.textWindowStart, hsame.textCount]
    exact h.counted
  refused hmem := hasRefused_mono hsame.closeCalls (h.refused hmem)
  final := h.final

/-- What is let through is not too long, and a text finds room in its window. -/
theorem room_of_admits {message : Payload} {now : ℤ} {data : Text}
    (h : w.admits platform message now = some data) :
    (prepare platform.toUpperCase message).data.length ≤ maxTextBytes ∧
      ((prepare platform.toUpperCase message).isRealtimeAudio = false →
        (w.countText now).textCount ≤ maxTextMessagesPerWindow) := by
  unfold admits at h
  dsimp only at h
  by_cases hclosed : (w.isClosing || maxTextBytes < (prepare platform.toUpperCase message).data.length) = true
  · rw [if_pos hclosed] at h
    cases h
  rw [if_neg hclosed] at h
  rw [Bool.or_eq_true, not_or, decide_eq_true_eq] at hclosed
  refine ⟨not_lt.mp hclosed.2, fun haudio => ?_⟩
  rw [haudio, Bool.not_false, Bool.true_and] at h
  by_contra hover
  rw [if_pos (by simpa using hover)] at h
  cases h

theorem not_overLimit_of_admits {message : Payload} {now : ℤ} {data : Text}
    (h : w.admits platform message now = some data) : ¬ w.OverLimit platform message now := by
  obtain ⟨hshort, hroom⟩ := room_of_admits h
  rintro (hlong | ⟨haudio, hwindow, hused⟩)
  · omega
  · have hcount := hroom haudio
    rw [countText, if_neg (not_lt.mpr hwindow)] at hcount
    change w.textCount + 1 ≤ maxTextMessagesPerWindow at hcount
    omega

/-- **A message that is refused.** -/
theorem WithinLimits.refuse (h : w.WithinLimits past) (message : Payload) (now : ℤ) {code : ℕ}
    (hcode : code = 1008 ∨ code = 1009) (reason : Text) :
    ((w.atChecks platform message now).close platform .client code reason).WithinLimits
      (past ++ [.refused]) where
  counted := (h.counted.atChecks message now).append_of_ne fun _ heq => nomatch heq
  refused _ := by
    apply List.any_eq_true.mpr
    refine ⟨_, List.mem_append_right _ (List.mem_singleton.mpr rfl), ?_⟩
    rcases hcode with rfl | rfl <;> rfl
  final := List.pairwise_append.mpr
    ⟨h.final, List.pairwise_singleton _ _, fun _ _ v' hv' _ => List.mem_singleton.mp hv'⟩

/-- **A message that is let through.** -/
theorem WithinLimits.forward (h : w.WithinLimits past) {message : Payload} {now : ℤ} {data : Text}
    (hadmits : w.admits platform message now = some data)
    (hplain : message.isPlainText = true → (prepare platform.toUpperCase message).isRealtimeAudio = false)
    (hnone : w.hasRefused = false) (sends : Bool) :
    ((w.atChecks platform message now).forward platform data sends).WithinLimits
      (past ++ [.accepted message.isPlainText (w.atChecks platform message now).textWindowStart]) := by
  have hchecks := atChecks_rest platform w message now
  have hpast : Verdict.refused ∉ past := by
    intro hmem
    rw [h.refused hmem] at hnone
    cases hnone
  refine WithinLimits.uncounted ⟨?_, fun hmem => ?_, ?_⟩ (forward_uncounted platform _ data sends)
  · by_cases hisPlain : message.isPlainText = true
    · -- a plain text was counted
      obtain ⟨hshort, hroom⟩ := room_of_admits hadmits
      have hcounted : w.atChecks platform message now = w.countText now := by
        simp [atChecks, hplain hisPlain, not_lt.mpr hshort]
      obtain ⟨hbefore, hstart⟩ := h.counted.countText now
      rw [hcounted, hisPlain]
      exact (h.counted.mono hstart hbefore.le).append hbefore (hroom (hplain hisPlain))
    · refine (h.counted.atChecks message now).append_of_ne fun start heq => hisPlain ?_
      exact (Verdict.accepted.inj heq).1
  · rcases List.mem_append.mp hmem with hbefore | hnow
    · exact absurd hbefore hpast
    · exact nomatch List.mem_singleton.mp hnow
  · refine List.pairwise_append.mpr ⟨h.final, List.pairwise_singleton _ _, fun v hv v' _ hrefused => ?_⟩
    exact absurd (hrefused ▸ hv) hpast

/-- **Every event that meets the condition keeps the limit.** -/
theorem WithinLimits.step (h : w.WithinLimits past) (hlimited : w.Limited platform a)
    (hstep : w.step platform a = some w') : w'.WithinLimits (past ++ w.verdicts platform a) := by
  cases a with
  | clientMessage message now sends =>
    obtain rfl := Option.some.inj hstep
    change (w.onClientMessage platform message now sends).WithinLimits (past ++ ite _ _ (ite _ _ _))
    rcases onClientMessage_cases platform w message now sends with
      ⟨hclosing, -, heq⟩ | ⟨hopen, hnone, code, reason, hcode, heq⟩ | ⟨hopen, data, hsome, heq⟩
    · rw [if_pos hclosing, List.append_nil, heq]
      exact h
    · rw [hopen, hnone, heq]
      exact h.refuse message now hcode reason
    · obtain ⟨hplain, hover⟩ := hlimited hopen
      have hnone : w.hasRefused = false := by
        rw [← Bool.not_eq_true]
        exact fun hrefused => not_overLimit_of_admits hsome (hover hrefused)
      rw [hopen, hsome, heq]
      exact h.forward hsome hplain hnone sends
  | geminiOpened | geminiMessage | closed | failed =>
    change w'.WithinLimits (past ++ [])
    rw [List.append_nil]
    exact h.uncounted (step_uncounted rfl hstep)

end LiveWebSocket

/-- What becomes of the messages of a run. -/
def runVerdicts (platform : Platform) (start : ℤ) (actions : List WorkerAction) : List Verdict :=
  outputs (LiveWebSocket.step platform) (LiveWebSocket.verdicts platform) (.accepted start) actions

/-- **The rate limit is kept**, in every run whose messages meet the condition. -/
theorem rate_limited {start : ℤ}
    (hrun : runFrom (LiveWebSocket.step platform) (.accepted start) actions = some w)
    (hlimited : Along (LiveWebSocket.step platform) (LiveWebSocket.Limited platform) (.accepted start) actions) :
    RateLimited (runVerdicts platform start actions) := by
  have hcounted : LiveWebSocket.Counted [] start 0 := ⟨fun _ => Nat.zero_le _, fun _ _ => rfl, le_rfl⟩
  have hstart : (LiveWebSocket.accepted start).WithinLimits [] :=
    ⟨hcounted, fun hmem => (nomatch hmem), List.Pairwise.nil⟩
  have hend : w.WithinLimits ([] ++ runVerdicts platform start actions) :=
    run_outputs (fun _ _ _ _ h hok hstep => h.step hok hstep) hstart hlimited hrun
  rw [List.nil_append] at hend
  exact ⟨hend.counted.perWindow, hend.final⟩

instance {message : Payload} {now : ℤ} : Decidable (w.OverLimit platform message now) :=
  inferInstanceAs (Decidable (_ ∨ _ ∧ _ ∧ _))

instance : Decidable (w.Limited platform a) :=
  match a with
  | .clientMessage _ _ _ => inferInstanceAs (Decidable (_ → _ ∧ _))
  | .geminiOpened _ | .geminiMessage _ _ | .closed _ _ _ | .failed _ => isTrue trivial

/-- A text of the client. -/
def say (s : String) : WorkerAction := .clientMessage (.text (lit s)) 0 true

/-- A chunk of audio of the client. -/
def sound : WorkerAction := .clientMessage (.binary [1, 0]) 0 true

/-- As many texts as the window takes, audio in between, and one more text. -/
def talkative : List WorkerAction := .geminiOpened 0 :: sound :: List.replicate 121 (say "hello")

theorem rate_limited_talkative : ∃ w,
    runFrom (LiveWebSocket.step plainPlatform) (.accepted 0) talkative = some w ∧
      RateLimited (runVerdicts plainPlatform 0 talkative) := by
  have hsome : (runFrom (LiveWebSocket.step plainPlatform) (.accepted 0) talkative).isSome = true := by
    decide +kernel
  obtain ⟨w, hrun⟩ := Option.isSome_iff_exists.mp hsome
  exact ⟨w, hrun, rate_limited hrun (by decide +kernel)⟩

/-- The client names the envelope in 121 texts, then says as much as it may and one text more, and goes on
with audio. -/
def disguised : List WorkerAction :=
  List.replicate 121 (say "\x7b\"text\":\"realtime_input\"\x7d") ++ List.replicate 121 (say "hello") ++ [sound]

/-- All texts of the first kind are let through in one window, and so is the audio behind the refusal. -/
theorem disguised_not_limited :
    runVerdicts plainPlatform 0 disguised = List.replicate 241 (.accepted true 0) ++
        [.refused, .accepted false 0] ∧
      ¬ RateLimited (runVerdicts plainPlatform 0 disguised) := by
  have hverdicts : runVerdicts plainPlatform 0 disguised = List.replicate 241 (.accepted true 0) ++
      [.refused, .accepted false 0] := by
    rw [disguised, say, lit_ofList]
    decide +kernel
  refine ⟨hverdicts, fun h => ?_⟩
  rw [hverdicts] at h
  have hwindow := h.perWindow 0
  revert hwindow
  decide +kernel

end DreamWeaver.Worker
