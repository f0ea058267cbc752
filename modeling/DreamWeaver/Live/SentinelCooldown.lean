import DreamWeaver.Live.SentinelIsolation
import DreamWeaver.Foundations.Transitions

/-! # The cooldown of the sentinel

A chunk of audio raises a cue when the sentinel is confident and its last cue is more than 30 seconds
ago. The time of a cue is noted, and the confidence lowered, only when the publication has ended: until
then every chunk passes the same check. As long as no cue is due while a publication is awaited, the
time that the check reads is that of the last cue. -/

namespace DreamWeaver.Live

open Transitions

variable {analysis : SignalAnalysis} {w w' : LiveWorld} {a : LiveAction} {trace : List LiveAction}
  {past : List ℤ} {t : ℤ}

/-- `cueCooldownMs` -/
def cueCooldownMs : ℤ := 30000

@[simp] theorem Detector.lastCueAtMs_raise (x : JsNumber) (d : Detector) :
    (d.raise x).lastCueAtMs = d.lastCueAtMs := rfl

@[simp] theorem Detector.lastCueAtMs_lower (x : ℚ) (d : Detector) :
    (d.lower x).lastCueAtMs = d.lastCueAtMs := rfl

namespace LiveWorld

/-- The time at which an action publishes a cue, if it does. -/
def cueTimes (analysis : SignalAnalysis) (w : LiveWorld) (a : LiveAction) : List ℤ :=
  match a.event with
  | .audio pcm now => if ((w.agent.hear analysis pcm).dueCue now).isSome then [now] else []
  | _ => []

/-- **The condition of a step**: no cue is due while the publication of another is awaited. -/
def Unhurried (analysis : SignalAnalysis) (w : LiveWorld) (a : LiveAction) : Prop :=
  w.cueTimes analysis a ≠ [] → w.publishing = []

instance : Decidable (Unhurried analysis w a) := inferInstanceAs (Decidable (_ → _))

/-- The latest of the cues at these times is at `t`. -/
def Latest (past : List ℤ) (t : ℤ) : Prop := ∀ t' ∈ past, t' ≤ t

/-- **The invariant**: the cues are far apart, and the latest is the one that is noted, or the only one
whose publication is awaited. -/
structure Spaced (past : List ℤ) (w : LiveWorld) : Prop where
  apart : past.Pairwise fun t t' => t + cueCooldownMs < t'
  latest : (w.publishing = [] ∧ Latest past w.agent.lastCueAtMs) ∨
    ∃ sessionId t, w.publishing = [(sessionId, t)] ∧ Latest past t

/-! ## Steps -/

/-- Hearing a chunk does not touch the time of the last cue. -/
theorem lastCueAtMs_hear (analysis : SignalAnalysis) (agent : SleepSentinelAgent) (pcm : List ℤ) :
    (agent.hear analysis pcm).lastCueAtMs = agent.lastCueAtMs := by
  have hobserve : ∀ rms dtMs (d : Detector),
      (observeEnvelope analysis rms dtMs d).lastCueAtMs = d.lastCueAtMs := by
    intro rms dtMs d
    rw [observeEnvelope]
    exact (apply_ite Detector.lastCueAtMs _ _ _).trans (ite_self _)
  have hupdate : ∀ volume variance (d : Detector),
      (updateConfidence volume variance d).lastCueAtMs = d.lastCueAtMs := by
    intro volume variance d
    simp only [updateConfidence, apply_ite Detector.lastCueAtMs, Detector.lastCueAtMs_raise,
      Detector.lastCueAtMs_lower, ite_self]
  rw [SleepSentinelAgent.hear]
  exact (hupdate _ _ _).trans (hobserve _ _ _)

/-- A cue is due only when the cooldown is over. -/
theorem cooldown_of_dueCue {agent : SleepSentinelAgent} {now : ℤ}
    (h : (agent.dueCue now).isSome = true) : agent.lastCueAtMs + cueCooldownMs < now := by
  rw [SleepSentinelAgent.dueCue] at h
  by_cases hdue : (agent.confidence.exceeds (double (17 / 20)) &&
      decide (30000 < now - agent.lastCueAtMs)) = true
  · have hlate := of_decide_eq_true (Bool.and_eq_true_iff.mp hdue).2
    rw [cueCooldownMs]
    omega
  · rw [if_neg hdue] at h
    cases h

/-- A step that publishes nothing and leaves the cooldown alone. -/
theorem Spaced.of_same (h : Spaced past w) (hpublishing : w'.publishing = w.publishing)
    (hlast : w'.agent.lastCueAtMs = w.agent.lastCueAtMs) : Spaced (past ++ []) w' := by
  rw [List.append_nil]
  refine ⟨h.apart, ?_⟩
  rw [hpublishing, hlast]
  exact h.latest

/-- A cue that is due is later than all others by more than the cooldown. -/
theorem Spaced.concat (h : Spaced past w) (hnone : w.publishing = [])
    (hlate : w.agent.lastCueAtMs + cueCooldownMs < t) :
    (past ++ [t]).Pairwise (fun t t' => t + cueCooldownMs < t') ∧ Latest (past ++ [t]) t := by
  have hlatest : Latest past w.agent.lastCueAtMs := by
    rcases h.latest with ⟨-, hlatest⟩ | ⟨sessionId, t', hsome, -⟩
    · exact hlatest
    · rw [hnone] at hsome
      cases hsome
  constructor
  · rw [List.pairwise_append]
    refine ⟨h.apart, List.pairwise_singleton _ _, fun t₁ h₁ t₂ h₂ => ?_⟩
    have hle := hlatest t₁ h₁
    rw [List.mem_singleton.mp h₂]
    omega
  · intro t' ht'
    rcases List.mem_append.mp ht' with hold | hnew
    · have hle := hlatest t' hold
      rw [cueCooldownMs] at hlate
      omega
    · exact (List.mem_singleton.mp hnew).le

/-- **One step** that meets the condition keeps the cues apart. -/
theorem Spaced.step (h : Spaced past w) (hok : Unhurried analysis w a)
    (hstep : w.step analysis a = some w') : Spaced (past ++ w.cueTimes analysis a) w' := by
  obtain ⟨sessionId, event⟩ := a
  have hcases := step_cases hstep
  cases event with
  | connect userId traceId =>
    obtain ⟨-, rfl⟩ := hcases
    exact h.of_same rfl rfl
  | interruption =>
    obtain ⟨-, rfl⟩ := hcases
    exact h.of_same rfl rfl
  | published now =>
    obtain ⟨hmem, rfl⟩ := hcases
    -- the publication that ends is the only one, and its time is noted
    rcases h.latest with ⟨hnone, -⟩ | ⟨sessionId', t, hone, hlatest⟩
    · rw [hnone] at hmem
      cases hmem
    · rw [hone, List.mem_singleton] at hmem
      obtain ⟨rfl, rfl⟩ := Prod.mk.inj hmem
      rw [cueTimes, List.append_nil]
      refine ⟨h.apart, Or.inl ⟨?_, hlatest⟩⟩
      dsimp only
      rw [hone, List.erase_cons_head]
  | audio pcm now =>
    obtain ⟨-, rfl⟩ := hcases
    have htimes : w.cueTimes analysis ⟨sessionId, .audio pcm now⟩ =
        if ((w.agent.hear analysis pcm).dueCue now).isSome then [now] else [] := rfl
    rw [LiveWorld.hear, htimes]
    cases hdue : (w.agent.hear analysis pcm).dueCue now with
    | none => exact h.of_same rfl (lastCueAtMs_hear analysis w.agent pcm)
    | some cue =>
      have hsome : ((w.agent.hear analysis pcm).dueCue now).isSome = true := by rw [hdue]; rfl
      rw [if_pos hsome] at htimes
      have hnone : w.publishing = [] := hok (htimes ▸ List.cons_ne_nil _ _)
      have hlate := cooldown_of_dueCue hsome
      rw [lastCueAtMs_hear] at hlate
      obtain ⟨hapart, hlatest⟩ := h.concat hnone hlate
      refine ⟨hapart, Or.inr ⟨sessionId, now, ?_, hlatest⟩⟩
      dsimp only
      rw [hnone, List.nil_append]

end LiveWorld

/-! ## Runs -/

/-- The times of the cues that a run publishes. -/
def cueTimesOf (analysis : SignalAnalysis) (trace : List LiveAction) : List ℤ :=
  outputs (LiveWorld.step analysis) (LiveWorld.cueTimes analysis) {} trace

/-- The cooldown is kept: in any period of its length, at most one cue is published. -/
def CooldownKept (analysis : SignalAnalysis) (trace : List LiveAction) : Prop :=
  ∀ start : ℤ, ((cueTimesOf analysis trace).countP
    fun t => start ≤ t && t ≤ start + cueCooldownMs) ≤ 1

/-- Of numbers that are far apart, a period has at most one. -/
theorem countP_period_le_one {times : List ℤ} {period : ℤ}
    (h : times.Pairwise fun t t' => t + period < t') (start : ℤ) :
    (times.countP fun t => start ≤ t && t ≤ start + period) ≤ 1 := by
  induction times with
  | nil => exact Nat.zero_le 1
  | cons t times ih =>
    obtain ⟨hfirst, hrest⟩ := List.pairwise_cons.mp h
    rw [List.countP_cons]
    by_cases hin : (decide (start ≤ t) && decide (t ≤ start + period)) = true
    · -- the others are too late
      have hnone : (times.countP fun t => start ≤ t && t ≤ start + period) = 0 := by
        rw [List.countP_eq_zero]
        intro t' ht' hin'
        have hlate := hfirst t' ht'
        have hstart := of_decide_eq_true (Bool.and_eq_true_iff.mp hin).1
        have hend := of_decide_eq_true (Bool.and_eq_true_iff.mp hin').2
        omega
      rw [hnone, if_pos hin]
    · rw [if_neg hin]
      exact ih hrest

/-- **The cooldown of cues**: in every run in which no cue is due while a publication is awaited. -/
theorem cooldown_kept (hrun : runFrom (LiveWorld.step analysis) {} trace = some w)
    (hok : Along (LiveWorld.step analysis) (LiveWorld.Unhurried analysis) {} trace) :
    CooldownKept analysis trace := by
  have hinit : LiveWorld.Spaced [] {} :=
    ⟨List.Pairwise.nil, Or.inl ⟨rfl, fun t ht => absurd ht List.not_mem_nil⟩⟩
  have hspaced := @run_outputs _ _ _ _ _ (LiveWorld.cueTimes analysis) _ _ _ _ _
    (fun past s a s' h hok hstep => LiveWorld.Spaced.step h hok hstep) hinit hok hrun
  intro start
  rw [cueTimesOf]
  exact countP_period_le_one hspaced.apart start

/-- The child of ana stays silent after a cue that has been published, until the next. -/
def longEvening : List LiveAction :=
  silentEvening ++ ⟨lit "evening", .published 1700000000000⟩ ::
    List.replicate 2 ⟨lit "evening", .audio [0, 0] 1700000030001⟩

theorem cooldown_kept_longEvening :
    CooldownKept silence longEvening ∧
      cueTimesOf silence longEvening = [1700000000000, 1700000030001] := by
  have hruns : (runFrom (LiveWorld.step silence) {} longEvening).isSome = true := by decide +kernel
  obtain ⟨w, hw⟩ := Option.isSome_iff_exists.mp hruns
  refine ⟨cooldown_kept hw ?_, ?_⟩
  · decide +kernel
  · decide +kernel

/-- The publication of a cue is still awaited when the next chunk of the same silence is heard: it is
another cue, at the same time. -/
theorem impatient_not_kept :
    (runFrom (LiveWorld.step silence) {}
        (silentEvening ++ [⟨lit "evening", .audio [0, 0] 1700000000020⟩])).isSome = true ∧
      ¬ CooldownKept silence (silentEvening ++ [⟨lit "evening", .audio [0, 0] 1700000000020⟩]) := by
  have hruns : (runFrom (LiveWorld.step silence) {}
      (silentEvening ++ [⟨lit "evening", .audio [0, 0] 1700000000020⟩])).isSome = true := by
    decide +kernel
  have hcues : cueTimesOf silence (silentEvening ++ [⟨lit "evening", .audio [0, 0] 1700000000020⟩]) =
      [1700000000000, 1700000000020] := by
    decide +kernel
  refine ⟨hruns, fun h => ?_⟩
  have htwo := h 1700000000000
  rw [hcues] at htwo
  exact absurd htwo (by decide)

end DreamWeaver.Live
