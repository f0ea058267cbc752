import DreamWeaver.Live.SentinelIsolation
import DreamWeaver.Foundations.Transitions

/-! # The confidence of the sentinel

What the sentinel hears moves its confidence up and down between 0 and 1: a quiet chunk raises it, a loud
chunk and an interruption lower it. When the publication of a cue has ended, the confidence is set to 0.8,
whatever it has become in the meantime: that raises it if it has fallen below. -/

namespace DreamWeaver.Live

open Transitions

variable {analysis : SignalAnalysis} {w w' : LiveWorld} {a : LiveAction} {trace : List LiveAction}
  {x y : JsNumber} {d : Detector} {volume variance : JsNumber}

/-! ## Numbers between 0 and 1 -/

/-- A double between 0 and 1. -/
def IsShare (x : JsNumber) : Prop := ∃ c, x = .finite c ∧ 0 ≤ c ∧ c ≤ 1 ∧ double c = c

/-- A number is larger than another. -/
def Rises (x y : JsNumber) : Prop := ∃ b c, x = .finite b ∧ y = .finite c ∧ b < c

/-- A finite number is not larger than another. -/
def AtMost (y x : JsNumber) : Prop := ∃ b c, x = .finite b ∧ y = .finite c ∧ c ≤ b

theorem AtMost.not_rises (h : AtMost y x) : ¬ Rises x y := by
  rintro ⟨b, c, hx, hy, hlt⟩
  obtain ⟨b', c', hx', hy', hle⟩ := h
  obtain rfl := JsNumber.finite.inj (hx.symm.trans hx')
  obtain rfl := JsNumber.finite.inj (hy.symm.trans hy')
  exact absurd hle (not_le.mpr hlt)

theorem AtMost.trans {z : JsNumber} (h : AtMost z y) (h' : AtMost y x) : AtMost z x := by
  obtain ⟨b, c, hy, hz, hle⟩ := h
  obtain ⟨b', c', hx, hy', hle'⟩ := h'
  obtain rfl := JsNumber.finite.inj (hy.symm.trans hy')
  exact ⟨b', c, hx, hz, hle.trans hle'⟩

theorem IsShare.atMost_self (h : IsShare x) : AtMost x x := by
  obtain ⟨c, hc, -⟩ := h
  exact ⟨c, c, hc, hc, le_rfl⟩

/-- The double of a number between 0 and 1. -/
theorem isShare_literal {q : ℚ} (hzero : 0 ≤ q) (hone : q ≤ 1) : IsShare (literal q) := by
  obtain ⟨c, hc, hnonneg, hle⟩ := JsNumber.exists_ofExact_unit hzero hone
  have hsmall : |q| ≤ 2 ^ 1023 := by
    rw [abs_of_nonneg hzero]
    exact hone.trans (one_le_pow₀ one_le_two)
  rw [JsNumber.ofExact_of_abs_le hsmall] at hc
  obtain rfl := JsNumber.finite.inj hc
  exact ⟨_, rfl, hnonneg, hle, double_double q⟩

/-- What is not negative, rounded and cut at 1. -/
theorem isShare_atMost_ofExact {q : ℚ} (h : 0 ≤ q) : IsShare (JsNumber.atMost 1 (.ofExact q)) := by
  have hone : double (1 : ℚ) = 1 := by exact_mod_cast double_natCast (n := 1) (by norm_num)
  rcases JsNumber.ofExact_nonneg h with hinf | hfin
  · rw [hinf]
    exact ⟨1, rfl, zero_le_one, le_rfl, hone⟩
  · rw [hfin]
    refine ⟨min 1 (double q), rfl, le_min zero_le_one (double_nonneg h), min_le_left _ _, ?_⟩
    rcases min_choice 1 (double q) with hmin | hmin
    · rw [hmin, hone]
    · rw [hmin, double_double]

/-- A sum of two numbers between 0 and 1, cut at 1. -/
theorem IsShare.atMost_add (hx : IsShare x) (hy : IsShare y) : IsShare (JsNumber.atMost 1 (x.add y)) := by
  obtain ⟨b, rfl, hb, -⟩ := hx
  obtain ⟨c, rfl, hc, -⟩ := hy
  exact isShare_atMost_ofExact (add_nonneg hb hc)

/-- A difference of two numbers between 0 and 1, cut at 0. -/
theorem IsShare.noLess_sub (hx : IsShare x) (hy : IsShare y) :
    IsShare (JsNumber.noLess 0 (x.sub y)) ∧ AtMost (JsNumber.noLess 0 (x.sub y)) x := by
  obtain ⟨b, rfl, hb, hb', hbb⟩ := hx
  obtain ⟨c, rfl, hc, hc', hcc⟩ := hy
  have hlarge : (1 : ℚ) ≤ 2 ^ 1023 := one_le_pow₀ one_le_two
  have hneg : (JsNumber.finite (-1)).mul (.finite c) = .finite (-c) := by
    have habs : |-1 * c| ≤ 2 ^ 1023 := by
      rw [neg_one_mul, abs_neg, abs_of_nonneg hc]
      exact hc'.trans hlarge
    show JsNumber.ofExact (-1 * c) = _
    rw [JsNumber.ofExact_of_abs_le habs, neg_one_mul, double_neg, hcc]
  have hsub : (JsNumber.finite b).sub (.finite c) = .finite (double (b - c)) := by
    have habs : |b - c| ≤ 1 := by
      rw [abs_le]
      constructor <;> linarith
    rw [JsNumber.sub, hneg]
    show JsNumber.ofExact (b + -c) = _
    rw [← sub_eq_add_neg, JsNumber.ofExact_of_abs_le (habs.trans hlarge)]
  have hle : max 0 (double (b - c)) ≤ b := by
    refine max_le hb ?_
    rcases le_total c b with hcb | hbc
    · exact (double_mono (sub_nonneg.mpr hcb) (sub_le_self b hc)).trans_eq hbb
    · rw [← neg_sub, double_neg]
      exact (neg_nonpos.mpr (double_nonneg (sub_nonneg.mpr hbc))).trans hb
  rw [hsub]
  refine ⟨⟨_, rfl, le_max_left _ _, hle.trans hb', ?_⟩, ⟨b, _, rfl, rfl, hle⟩⟩
  rcases max_choice 0 (double (b - c)) with hmax | hmax
  · rw [hmax, double_zero]
  · rw [hmax, double_double]

/-! ## Rules -/

theorem isShare_raise (h : IsShare d.confidence) (hx : IsShare x) : IsShare (d.raise x).confidence :=
  h.atMost_add hx

theorem isShare_lower {q : ℚ} (h : IsShare d.confidence) (hzero : 0 ≤ q) (hone : q ≤ 1) :
    IsShare (d.lower q).confidence ∧ AtMost (d.lower q).confidence d.confidence :=
  h.noLess_sub (isShare_literal hzero hone)

@[simp] theorem Detector.silenceCounter_raise (x : JsNumber) (d : Detector) :
    (d.raise x).silenceCounter = d.silenceCounter := rfl

@[simp] theorem Detector.silenceCounter_lower (q : ℚ) (d : Detector) :
    (d.lower q).silenceCounter = d.silenceCounter := rfl

/-- The rise of a quiet chunk, with its bonus for a long silence. -/
theorem isShare_quiet (h : IsShare x) (counter : ℕ) :
    IsShare (JsNumber.atMost 1 ((x.add (literal (1 / 100))).add
      ((JsNumber.atMost (double (2 / 5)) ((JsNumber.finite counter).mul (literal (1 / 50)))).mul
        (literal (1 / 100))))) := by
  obtain ⟨b, rfl, hb, hb', -⟩ := h
  obtain ⟨s, hs, hs', hs'', -⟩ := isShare_literal (q := 1 / 50) (by norm_num) (by norm_num)
  obtain ⟨t, ht, ht', ht'', -⟩ := isShare_literal (q := 1 / 100) (by norm_num) (by norm_num)
  obtain ⟨l, hl, hl', hl'', -⟩ := isShare_literal (q := 2 / 5) (by norm_num) (by norm_num)
  have hlarge : (2 : ℚ) ≤ 2 ^ 1023 := le_self_pow₀ one_le_two (by decide)
  -- the bonus is between 0 and its bound, also where the product is infinite
  obtain ⟨bonus, hbonus, hbonus', hbonus''⟩ : ∃ c, JsNumber.atMost (double (2 / 5))
      ((JsNumber.finite counter).mul (literal (1 / 50))) = .finite c ∧ 0 ≤ c ∧ c ≤ 1 := by
    rw [hs, JsNumber.finite.inj hl]
    show ∃ c, JsNumber.atMost l (.ofExact (counter * s)) = .finite c ∧ _
    have hprod : 0 ≤ counter * s := mul_nonneg counter.cast_nonneg hs'
    rcases JsNumber.ofExact_nonneg hprod with hinf | hfin
    · rw [hinf]
      exact ⟨l, rfl, hl', hl''⟩
    · rw [hfin]
      exact ⟨min l (double (counter * s)), rfl, le_min hl' (double_nonneg hprod), (min_le_left _ _).trans hl''⟩
  obtain ⟨e, he, he'⟩ := JsNumber.exists_ofExact_nonneg (add_nonneg hb ht')
    ((add_le_add hb' ht'').trans (one_add_one_eq_two.trans_le hlarge))
  obtain ⟨f, hf, hf'⟩ := JsNumber.exists_ofExact_nonneg (mul_nonneg hbonus' ht')
    ((mul_le_one₀ hbonus'' ht' ht'').trans (one_le_two.trans hlarge))
  rw [hbonus, ht]
  show IsShare (JsNumber.atMost 1 ((JsNumber.ofExact (b + t)).add (.ofExact (bonus * t))))
  rw [he, hf]
  exact isShare_atMost_ofExact (add_nonneg he' hf')

/-! ## Chunks -/

/-- A chunk of audio is quiet. -/
def IsQuiet (analysis : SignalAnalysis) (pcm : List ℤ) : Prop :=
  (calculateRmsFromPcm16 analysis pcm).lt (double (1 / 20)) = true

variable (analysis) in
/-- The observation of the envelope leaves the confidence and the silence as they are. -/
theorem confidence_observeEnvelope (rms dtMs : JsNumber) (d : Detector) :
    (observeEnvelope analysis rms dtMs d).confidence = d.confidence := by
  rw [observeEnvelope]
  exact (apply_ite Detector.confidence _ _ _).trans (ite_self _)

/-- A loud chunk ends the silence, and the confidence does not rise. -/
theorem updateConfidence_loud (variance : JsNumber) (h : IsShare d.confidence)
    (hloud : volume.lt (double (1 / 20)) = false) :
    IsShare (updateConfidence volume variance d).confidence ∧
      AtMost (updateConfidence volume variance d).confidence d.confidence ∧
        (updateConfidence volume variance d).silenceCounter = 0 := by
  have hfirst := isShare_lower (d := { d with silenceCounter := 0 }) (q := 1 / 20) h (by norm_num) (by norm_num)
  have hsecond := isShare_lower (q := 1 / 10) hfirst.1 (by norm_num) (by norm_num)
  rw [updateConfidence, hloud]
  simp only [Bool.false_eq_true, if_false, Bool.false_and]
  split
  · exact ⟨hsecond.1, hsecond.2.trans hfirst.2, rfl⟩
  · exact ⟨hfirst.1, hfirst.2, rfl⟩

theorem isShare_ite {p : Prop} [Decidable p] {d₁ d₂ : Detector} (h₁ : IsShare d₁.confidence)
    (h₂ : IsShare d₂.confidence) : IsShare (if p then d₁ else d₂).confidence := by
  split
  · exact h₁
  · exact h₂

/-- A quiet chunk leaves the confidence between 0 and 1. -/
theorem updateConfidence_quiet (h : IsShare d.confidence) (hquiet : volume.lt (double (1 / 20)) = true) :
    IsShare (updateConfidence volume variance d).confidence := by
  have hstep : IsShare (literal (1 / 50)) := isShare_literal (by norm_num) (by norm_num)
  have hraise : ∀ {d' : Detector}, IsShare d'.confidence → IsShare (d'.raise (literal (1 / 50))).confidence :=
    fun h' => isShare_raise h' hstep
  have hlower : ∀ {d' : Detector}, IsShare d'.confidence → IsShare (d'.lower (1 / 10)).confidence :=
    fun h' => (isShare_lower h' (by norm_num) (by norm_num)).1
  -- each of the rules keeps the confidence between 0 and 1, whichever of them apply
  have hfirst := isShare_quiet h (d.silenceCounter + 1)
  rw [updateConfidence, hquiet]
  simp only [if_true, Bool.true_and]
  generalize hd : ({ d with silenceCounter := _, confidence := _ } : Detector) = d₁
  have hd₁ : IsShare d₁.confidence := by
    rw [← hd]
    exact hfirst
  refine isShare_ite (hraise ?_) ?_ <;> exact isShare_ite (hraise hd₁) (isShare_ite (hlower hd₁) hd₁)

namespace SleepSentinelAgent

variable {agent : SleepSentinelAgent} {pcm : List ℤ}

theorem isShare_hear (h : IsShare agent.confidence) : IsShare (agent.hear analysis pcm).confidence := by
  have hobserved : ∀ rms dtMs, IsShare (observeEnvelope analysis rms dtMs agent.toDetector).confidence :=
    fun rms dtMs => (confidence_observeEnvelope analysis rms dtMs agent.toDetector).symm ▸ h
  cases hquiet : (calculateRmsFromPcm16 analysis pcm).lt (double (1 / 20)) with
  | true => exact updateConfidence_quiet (hobserved _ _) hquiet
  | false => exact (updateConfidence_loud _ (hobserved _ _) hquiet).1

/-- A loud chunk does not raise the confidence, and ends the silence. -/
theorem hear_loud (h : IsShare agent.confidence) (hloud : ¬ IsQuiet analysis pcm) :
    AtMost (agent.hear analysis pcm).confidence agent.confidence ∧
      (agent.hear analysis pcm).silenceCounter = 0 := by
  have hconfidence := fun rms dtMs => confidence_observeEnvelope analysis rms dtMs agent.toDetector
  have hobserved : ∀ rms dtMs, IsShare (observeEnvelope analysis rms dtMs agent.toDetector).confidence :=
    fun rms dtMs => (hconfidence rms dtMs).symm ▸ h
  obtain ⟨-, hle, hsilence⟩ := updateConfidence_loud (calculateVarianceFromPcm16 pcm)
    (hobserved (calculateRmsFromPcm16 analysis pcm) (if pcm = [] then .finite 0
      else ((JsNumber.finite pcm.length).div (.finite 16000)).mul (.finite 1000)))
    (Bool.eq_false_iff.mpr hloud)
  rw [hconfidence] at hle
  exact ⟨hle, hsilence⟩

/-- An interruption does not raise the confidence. -/
theorem isShare_interrupt (h : IsShare agent.confidence) :
    IsShare agent.interrupt.confidence ∧ AtMost agent.interrupt.confidence agent.confidence :=
  isShare_lower (d := { agent.toDetector with silenceCounter := 0 }) h (by norm_num) (by norm_num)

end SleepSentinelAgent

/-! ## Steps -/

namespace LiveWorld

/-- What is said of the confidence, and of the silence, at a step. -/
structure Judged (analysis : SignalAnalysis) (w : LiveWorld) (a : LiveAction) (w' : LiveWorld) : Prop where
  bounded : ∃ c, w'.agent.confidence = .finite c ∧ 0 ≤ c ∧ c ≤ 1
  /-- It is a quiet chunk that the confidence rises at. -/
  rises : Rises w.agent.confidence w'.agent.confidence →
    ∃ pcm now, a.event = .audio pcm now ∧ IsQuiet analysis pcm
  loud : ∀ pcm now, a.event = .audio pcm now → ¬ IsQuiet analysis pcm → w'.agent.silenceCounter = 0
  interrupted : a.event = .interruption → w'.agent.silenceCounter = 0

/-- **The condition of a step**: where a publication ends, the confidence has not fallen below 0.8. -/
def StillSure (w : LiveWorld) (a : LiveAction) : Prop :=
  match a.event with
  | .published now => (a.sessionId, now) ∈ w.publishing → w.agent.confidence.atLeast (double (4 / 5)) = true
  | _ => True

instance : DecidablePred (StillSure w) := fun a =>
  match a with
  | ⟨_, .published _⟩ => inferInstanceAs (Decidable (_ → _))
  | ⟨_, .connect _ _⟩ => isTrue trivial
  | ⟨_, .audio _ _⟩ => isTrue trivial
  | ⟨_, .interruption⟩ => isTrue trivial

theorem agent_hear (w : LiveWorld) (sessionId : Text) (pcm : List ℤ) (now : ℤ) :
    (w.hear analysis sessionId pcm now).agent = w.agent.hear analysis pcm := by
  cases hcue : (w.agent.hear analysis pcm).dueCue now with
  | none => rw [hear_of_none hcue]
  | some cue => rw [hear_of_some hcue]

/-- Every step leaves the confidence between 0 and 1. -/
theorem isShare_step (h : IsShare w.agent.confidence) (hstep : w.step analysis a = some w') :
    IsShare w'.agent.confidence := by
  obtain ⟨sessionId, event⟩ := a
  have hcases := step_cases hstep
  cases event with
  | connect userId traceId =>
    obtain ⟨-, rfl⟩ := hcases
    exact h
  | audio pcm now =>
    obtain ⟨-, rfl⟩ := hcases
    rw [agent_hear]
    exact SleepSentinelAgent.isShare_hear h
  | interruption =>
    obtain ⟨-, rfl⟩ := hcases
    exact (SleepSentinelAgent.isShare_interrupt h).1
  | published now =>
    obtain ⟨-, rfl⟩ := hcases
    exact isShare_literal (by norm_num) (by norm_num)

/-- A number between 0 and 1 does not rise to another exactly when it is at least that. -/
theorem not_rises_literal_iff (h : IsShare x) (q : ℚ) :
    ¬ Rises x (literal q) ↔ x.atLeast (double q) = true := by
  obtain ⟨c, rfl, -⟩ := h
  rw [JsNumber.atLeast, decide_eq_true_iff, ← not_lt, not_iff_not]
  constructor
  · rintro ⟨b, b', hb, hb', hlt⟩
    rwa [JsNumber.finite.inj hb, JsNumber.finite.inj hb']
  · exact fun hlt => ⟨c, double q, rfl, rfl, hlt⟩

/-- **One step** is as is said exactly when it meets the condition. -/
theorem judged_iff (h : IsShare w.agent.confidence) :
    (∀ w', w.step analysis a = some w' → Judged analysis w a w') ↔ StillSure w a := by
  obtain ⟨sessionId, event⟩ := a
  have hbounded : ∀ w', w.step analysis ⟨sessionId, event⟩ = some w' →
      ∃ c, w'.agent.confidence = .finite c ∧ 0 ≤ c ∧ c ≤ 1 := by
    intro w' hstep
    obtain ⟨c, hc, hzero, hone, -⟩ := isShare_step h hstep
    exact ⟨c, hc, hzero, hone⟩
  cases event with
  | connect userId traceId =>
    refine iff_of_true (fun w' hstep => ⟨hbounded w' hstep, fun hrises => ?_, nofun, nofun⟩) trivial
    obtain ⟨-, rfl⟩ := step_cases hstep
    exact absurd hrises h.atMost_self.not_rises
  | audio pcm now =>
    refine iff_of_true (fun w' hstep => ⟨hbounded w' hstep, fun hrises => ⟨pcm, now, rfl, ?_⟩, ?_, nofun⟩) trivial
    · by_contra hloud
      obtain ⟨-, rfl⟩ := step_cases hstep
      rw [agent_hear] at hrises
      exact (SleepSentinelAgent.hear_loud h hloud).1.not_rises hrises
    · intro pcm' now' hevent hloud
      obtain ⟨rfl, -⟩ := LiveEvent.audio.inj hevent
      obtain ⟨-, rfl⟩ := step_cases hstep
      rw [agent_hear]
      exact (SleepSentinelAgent.hear_loud h hloud).2
  | interruption =>
    refine iff_of_true (fun w' hstep => ⟨hbounded w' hstep, fun hrises => ?_, nofun, fun _ => ?_⟩) trivial
    · obtain ⟨-, rfl⟩ := step_cases hstep
      exact absurd hrises (SleepSentinelAgent.isShare_interrupt h).2.not_rises
    · obtain ⟨-, rfl⟩ := step_cases hstep
      rfl
  | published now =>
    constructor
    · intro hjudged hmem
      rw [← not_rises_literal_iff h]
      intro hrises
      obtain ⟨pcm, now', hevent, -⟩ := (hjudged _ (if_pos hmem)).rises hrises
      cases hevent
    · intro hsure w' hstep
      refine ⟨hbounded w' hstep, fun hrises => ?_, nofun, nofun⟩
      obtain ⟨hmem, rfl⟩ := step_cases hstep
      exact absurd hrises ((not_rises_literal_iff h _).2 (hsure hmem))

/-- **A run** from a state whose confidence is between 0 and 1. -/
theorem along_judged_iff (h : IsShare w.agent.confidence) :
    Along (step analysis) (fun w a => ∀ w', w.step analysis a = some w' → Judged analysis w a w') w trace ↔
      Along (step analysis) StillSure w trace :=
  along_iff (I := fun w => IsShare w.agent.confidence) (fun _ _ _ h hstep => isShare_step h hstep)
    (fun _ _ h => judged_iff h) h

theorem isShare_init : IsShare ({} : LiveWorld).agent.confidence := ⟨0, rfl, le_rfl, zero_le_one, double_zero⟩

end LiveWorld

/-! ## Runs -/

/-- Every step of a run is as is said of the confidence. -/
def ConfidenceJudged (analysis : SignalAnalysis) (trace : List LiveAction) : Prop :=
  Along (LiveWorld.step analysis) (fun w a => ∀ w', w.step analysis a = some w' → w.Judged analysis a w') {} trace

/-- **The confidence of the sentinel** is as is said in a run exactly when it has not fallen below 0.8 where a
publication ends. -/
theorem confidenceJudged_iff (analysis : SignalAnalysis) (trace : List LiveAction) :
    ConfidenceJudged analysis trace ↔
      Along (LiveWorld.step analysis) LiveWorld.StillSure {} trace :=
  LiveWorld.along_judged_iff LiveWorld.isShare_init

/-- The child of ana speaks while the cue of her silence is published. -/
def awakeAgain : List LiveAction :=
  silentEvening ++ [⟨lit "evening", .interruption⟩, ⟨lit "evening", .published 1700000000000⟩]

/-- The end of the publication raises the confidence again. -/
theorem publication_raises :
    (runFrom (LiveWorld.step silence) {} awakeAgain).isSome = true ∧ ¬ ConfidenceJudged silence awakeAgain := by
  refine ⟨by decide +kernel, fun h => ?_⟩
  have hsure : Along (LiveWorld.step silence) LiveWorld.StillSure {} awakeAgain :=
    (LiveWorld.along_judged_iff LiveWorld.isShare_init).1 h
  exact absurd hsure (by decide +kernel)

end DreamWeaver.Live
