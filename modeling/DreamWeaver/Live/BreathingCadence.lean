import DreamWeaver.Live.SentinelConfidence

/-! # The analysis of the breathing

The sentinel keeps the loudness of the chunks that it hears in an envelope of about 16 seconds, and analyses the
envelope now and then, once it holds 256 values. The chunks have a constant length in practice, and the longer
they are, the fewer of them fill 16 seconds: from 1001 samples on, the envelope never holds 256 values. -/

namespace DreamWeaver.Live

variable {analysis : SignalAnalysis} {d : Detector} {rms dtMs : JsNumber} {pcm : List ℤ} {n : ℕ}

/-! ## When the envelope is analysed -/

/-- `dtMs` -/
def chunkMs (length : ℕ) : JsNumber :=
  if length = 0 then .finite 0 else ((JsNumber.finite length).div (.finite 16000)).mul (.finite 1000)

/-- `sampleRateHz` -/
def envelopeRate (dtMs : JsNumber) (d : Detector) : JsNumber :=
  if dtMs.exceeds 0 then (JsNumber.finite 1000).div dtMs else d.lastEnvelopeSampleRateHz

/-- `Math.max(64, Math.floor(sampleRateHz * 16))` -/
def maxSamples (rate : JsNumber) : JsNumber := JsNumber.noLess 64 (rate.mul (.finite 16)).floor

/-- `Math.max(16, Math.floor(sampleRateHz))` -/
def analysisPeriod (rate : JsNumber) : JsNumber := JsNumber.noLess 16 rate.floor

/-- The envelope after a chunk. -/
def nextEnvelope (rms dtMs : JsNumber) (d : Detector) : List JsNumber :=
  window (maxSamples (envelopeRate dtMs d)) (d.envelopeRms ++ [rms])

/-- The envelope is analysed after a chunk. -/
def isAnalysed (rms dtMs : JsNumber) (d : Detector) : Bool :=
  256 ≤ (nextEnvelope rms dtMs d).length && match analysisPeriod (envelopeRate dtMs d) with
    | .finite m => m ≤ ((d.envelopeSamplesSinceLastAnalysis + 1 : ℕ) : ℚ)
    | _ => false

/-- **The analysis** is made of the envelope when it is analysed, and only then. -/
theorem observeEnvelope_eq : observeEnvelope analysis rms dtMs d =
    if isAnalysed rms dtMs d then { d with
      lastEnvelopeSampleRateHz := envelopeRate dtMs d
      envelopeRms := nextEnvelope rms dtMs d
      envelopeSamplesSinceLastAnalysis := 0
      latestBreathing := some (analysis.analyzeBreathingCadence (nextEnvelope rms dtMs d) (envelopeRate dtMs d)) }
    else { d with
      lastEnvelopeSampleRateHz := envelopeRate dtMs d
      envelopeRms := nextEnvelope rms dtMs d
      envelopeSamplesSinceLastAnalysis := d.envelopeSamplesSinceLastAnalysis + 1 } := rfl

/-- The fields that say what is in the envelope, and when it was analysed. -/
structure EnvelopeState where
  envelopeRms : List JsNumber
  lastEnvelopeSampleRateHz : JsNumber
  envelopeSamplesSinceLastAnalysis : ℕ

/-- The envelope of a detector. -/
def Detector.envelopeState (d : Detector) : EnvelopeState :=
  ⟨d.envelopeRms, d.lastEnvelopeSampleRateHz, d.envelopeSamplesSinceLastAnalysis⟩

@[simp] theorem Detector.envelopeState_raise (x : JsNumber) (d : Detector) :
    (d.raise x).envelopeState = d.envelopeState := rfl

@[simp] theorem Detector.envelopeState_lower (q : ℚ) (d : Detector) :
    (d.lower q).envelopeState = d.envelopeState := rfl

/-- The judgement of a chunk leaves the envelope as it is. -/
theorem envelopeState_updateConfidence (volume variance : JsNumber) (d : Detector) :
    (updateConfidence volume variance d).envelopeState = d.envelopeState := by
  simp only [updateConfidence, apply_ite Detector.envelopeState, Detector.envelopeState_raise,
    Detector.envelopeState_lower]
  simp only [Detector.envelopeState, ite_self]

namespace SleepSentinelAgent

variable {agent : SleepSentinelAgent}

/-- The envelope after a chunk. -/
def envelopeAfter (analysis : SignalAnalysis) (agent : SleepSentinelAgent) (pcm : List ℤ) : List JsNumber :=
  nextEnvelope (calculateRmsFromPcm16 analysis pcm) (chunkMs pcm.length) agent.toDetector

/-- The envelope is analysed at a chunk. -/
def analyses (analysis : SignalAnalysis) (agent : SleepSentinelAgent) (pcm : List ℤ) : Bool :=
  isAnalysed (calculateRmsFromPcm16 analysis pcm) (chunkMs pcm.length) agent.toDetector

/-- The duration that the handler of a chunk computes. -/
theorem chunkMs_length (pcm : List ℤ) : (if pcm = [] then JsNumber.finite 0
    else ((JsNumber.finite pcm.length).div (.finite 16000)).mul (.finite 1000)) = chunkMs pcm.length :=
  if_congr List.length_eq_zero_iff.symm rfl rfl

/-- A chunk leaves the envelope as the observation of the envelope has it. -/
theorem envelopeState_hear (analysis : SignalAnalysis) (agent : SleepSentinelAgent) (pcm : List ℤ) :
    (agent.hear analysis pcm).envelopeState =
      (observeEnvelope analysis (calculateRmsFromPcm16 analysis pcm) (chunkMs pcm.length)
        agent.toDetector).envelopeState := by
  rw [← chunkMs_length]
  exact envelopeState_updateConfidence _ _ _

theorem envelopeRms_hear (analysis : SignalAnalysis) (agent : SleepSentinelAgent) (pcm : List ℤ) :
    (agent.hear analysis pcm).envelopeRms = agent.envelopeAfter analysis pcm := by
  have h := congrArg EnvelopeState.envelopeRms (envelopeState_hear analysis agent pcm)
  rw [observeEnvelope_eq] at h
  exact h.trans ((apply_ite (fun d : Detector => d.envelopeState.envelopeRms) _ _ _).trans (ite_self _))

theorem rate_hear (analysis : SignalAnalysis) (agent : SleepSentinelAgent) (pcm : List ℤ) :
    (agent.hear analysis pcm).lastEnvelopeSampleRateHz = envelopeRate (chunkMs pcm.length) agent.toDetector := by
  have h := congrArg EnvelopeState.lastEnvelopeSampleRateHz (envelopeState_hear analysis agent pcm)
  rw [observeEnvelope_eq] at h
  exact h.trans ((apply_ite (fun d : Detector => d.envelopeState.lastEnvelopeSampleRateHz) _ _ _).trans (ite_self _))

theorem samples_hear (analysis : SignalAnalysis) (agent : SleepSentinelAgent) (pcm : List ℤ) :
    (agent.hear analysis pcm).envelopeSamplesSinceLastAnalysis =
      if agent.analyses analysis pcm then 0 else agent.envelopeSamplesSinceLastAnalysis + 1 := by
  have h := congrArg EnvelopeState.envelopeSamplesSinceLastAnalysis (envelopeState_hear analysis agent pcm)
  rw [observeEnvelope_eq] at h
  exact h.trans (apply_ite (fun d : Detector => d.envelopeState.envelopeSamplesSinceLastAnalysis) _ _ _)

end SleepSentinelAgent

/-! ## Chunks of a constant length -/

/-- The whole number that a number is. -/
def countOf : JsNumber → ℕ
  | .finite m => ⌊m⌋.toNat
  | _ => 0

/-- The sample rate of the envelope for chunks of a length. -/
def rateOf (length : ℕ) : JsNumber := envelopeRate (chunkMs length) {}

/-- The number of chunks of a length that fill the envelope. -/
def fullWindow (length : ℕ) : ℕ := countOf (maxSamples (rateOf length))

/-- The number of chunks of a length after which the envelope is to be analysed again. -/
def periodOf (length : ℕ) : ℕ := countOf (analysisPeriod (rateOf length))

/-- The duration of a chunk, where it is finite. -/
def msOf (length : ℕ) : ℚ := double (double (length / 16000) * 1000)

section Durations

variable {length length' : ℕ}

theorem msOf_mono (h : length ≤ length') : msOf length ≤ msOf length' := by
  have hcast : (length : ℚ) / 16000 ≤ length' / 16000 := by
    have hle : (length : ℚ) ≤ length' := Nat.cast_le.mpr h
    linarith
  have hzero : (0 : ℚ) ≤ length / 16000 := by positivity
  have hinner := double_mono hzero hcast
  exact double_mono (mul_nonneg (double_nonneg hzero) (by norm_num)) (by linarith)

theorem chunkMs_pos (h : 0 < length) :
    chunkMs length = .posInfinity ∨ chunkMs length = .finite (msOf length) := by
  have hzero : (0 : ℚ) ≤ length / 16000 := by positivity
  have hdiv : (JsNumber.finite length).div (.finite 16000) = .ofExact (length / 16000) := by
    rw [JsNumber.div, if_neg (by norm_num)]
  rw [chunkMs, if_neg h.ne', hdiv]
  rcases JsNumber.ofExact_nonneg hzero with hinf | hfin
  · exact .inl (by rw [hinf]; rfl)
  · rw [hfin]
    exact JsNumber.ofExact_nonneg (mul_nonneg (double_nonneg hzero) (by norm_num))

theorem msOf_one_le (h : 0 < length) : 1 / 16 ≤ msOf length :=
  le_trans (by decide +kernel : (1 / 16 : ℚ) ≤ msOf 1) (msOf_mono h)

/-- The rate of chunks of a finite duration. -/
theorem rateOf_finite (h : 0 < length) (hfin : chunkMs length = .finite (msOf length)) :
    rateOf length = .finite (double (1000 / msOf length)) := by
  have hms := msOf_one_le h
  have hpos : 0 < msOf length := lt_of_lt_of_le (by norm_num) hms
  have hexceeds : (JsNumber.finite (msOf length)).exceeds 0 = true := by
    simp [JsNumber.exceeds, JsNumber.atLeast, hpos.le, hpos.ne']
  have hsmall : |1000 / msOf length| ≤ 2 ^ 1023 := by
    rw [abs_of_pos (by positivity), div_le_iff₀ hpos]
    have hlarge : (16000 : ℚ) ≤ 2 ^ 1023 :=
      le_trans (by norm_num : (16000 : ℚ) ≤ 2 ^ 14) (pow_le_pow_right₀ one_le_two (by decide))
    exact (by linarith : (1000 : ℚ) ≤ 16000 * msOf length).trans (mul_le_mul_of_nonneg_right hlarge hpos.le)
  rw [rateOf, envelopeRate, hfin, hexceeds, if_pos rfl, JsNumber.div, if_neg hpos.ne',
    JsNumber.ofExact_of_abs_le hsmall]

/-- The rate of chunks that are not empty is not negative, and falls with their length. -/
theorem rateOf_le (h : 0 < length) (hle : length ≤ length') :
    ∃ rate, rateOf length' = .finite rate ∧ 0 ≤ rate ∧ rate ≤ double (1000 / msOf length) := by
  have hpos : 0 < msOf length := lt_of_lt_of_le (by norm_num) (msOf_one_le h)
  rcases chunkMs_pos (h.trans_le hle) with hinf | hfin
  -- the duration may overflow, which makes the rate 0
  · refine ⟨0, ?_, le_rfl, double_nonneg (by positivity)⟩
    rw [rateOf, envelopeRate, hinf]
    rfl
  · have hpos' : 0 < msOf length' := hpos.trans_le (msOf_mono hle)
    refine ⟨_, rateOf_finite (h.trans_le hle) hfin, double_nonneg (by positivity), ?_⟩
    exact double_mono (by positivity) (div_le_div_of_nonneg_left (by norm_num) hpos (msOf_mono hle))

/-- The number of values that the envelope has room for, at a rate. -/
theorem maxSamples_finite {rate : ℚ} (hzero : 0 ≤ rate) (hsmall : rate ≤ 2 ^ 1000) :
    maxSamples (.finite rate) = .finite ((max 64 ⌊double (rate * 16)⌋ : ℤ) : ℚ) := by
  have habs : |rate * 16| ≤ 2 ^ 1023 := by
    rw [abs_of_nonneg (by positivity)]
    have hprod : rate * 16 ≤ 2 ^ 1000 * 2 ^ 4 := mul_le_mul hsmall (by norm_num) (by norm_num) (by positivity)
    rw [← pow_add] at hprod
    exact hprod.trans (pow_le_pow_right₀ one_le_two (by decide))
  rw [maxSamples, JsNumber.mul, JsNumber.ofExact_of_abs_le habs, JsNumber.floor, JsNumber.noLess]
  push_cast
  rfl

theorem analysisPeriod_finite (rate : ℚ) :
    analysisPeriod (.finite rate) = .finite ((max 16 ⌊rate⌋ : ℤ) : ℚ) := by
  rw [analysisPeriod, JsNumber.floor, JsNumber.noLess]
  push_cast
  rfl

/-- **Long chunks**: the envelope has not room for 256 values. -/
theorem maxSamples_long (h : 1000 < length) :
    ∃ m : ℕ, maxSamples (rateOf length) = .finite m ∧ m < 256 := by
  obtain ⟨rate, hrate, hzero, hle⟩ := rateOf_le (by norm_num : 0 < 1001) h
  have hbound : double (1000 / msOf 1001) ≤ 2 ^ 1000 :=
    le_trans (by decide +kernel : double (1000 / msOf 1001) ≤ 2 ^ 4) (pow_le_pow_right₀ one_le_two (by decide))
  have hfloor : ⌊double (rate * 16)⌋ ≤ 255 := by
    have hmono := double_mono (by positivity) (mul_le_mul_of_nonneg_right hle (by norm_num : (0 : ℚ) ≤ 16))
    -- at 1001 samples there is room for 255 values, and the room shrinks with the length
    exact (Int.floor_le_floor hmono).trans (by decide +kernel)
  have hnonneg : 0 ≤ max 64 ⌊double (rate * 16)⌋ := le_max_of_le_left (by norm_num)
  refine ⟨(max 64 ⌊double (rate * 16)⌋).toNat, ?_, by omega⟩
  rw [hrate, maxSamples_finite hzero (hle.trans hbound)]
  exact congrArg JsNumber.finite (by exact_mod_cast (Int.toNat_of_nonneg hnonneg).symm)

/-- The room and the period at a rate of at least 16. -/
theorem room_of_rate {rate : ℚ} (hlow : 16 ≤ rate) (hhigh : rate ≤ 2 ^ 1000) (hdouble : double rate = rate) :
    ∃ m p : ℕ, maxSamples (.finite rate) = .finite m ∧ analysisPeriod (.finite rate) = .finite p ∧
      256 ≤ m ∧ 0 < p ∧ p ≤ m := by
  have hzero : 0 ≤ rate := le_trans (by norm_num) hlow
  have hlarge : 256 ≤ ⌊double (rate * 16)⌋ := by
    have hmono := double_mono (by norm_num) (by push_cast; linarith : ((256 : ℕ) : ℚ) ≤ rate * 16)
    rw [double_natCast (by norm_num)] at hmono
    exact Int.le_floor.mpr (by exact_mod_cast hmono)
  have hperiod : ⌊rate⌋ ≤ ⌊double (rate * 16)⌋ := by
    refine Int.floor_le_floor ?_
    have hmono := double_mono hzero (by linarith : rate ≤ rate * 16)
    rwa [hdouble] at hmono
  refine ⟨(max 64 ⌊double (rate * 16)⌋).toNat, (max 16 ⌊rate⌋).toNat, ?_, ?_, by omega, by omega, by omega⟩
  · rw [maxSamples_finite hzero hhigh]
    exact congrArg JsNumber.finite (by exact_mod_cast (Int.toNat_of_nonneg (by omega)).symm)
  · rw [analysisPeriod_finite]
    exact congrArg JsNumber.finite (by exact_mod_cast (Int.toNat_of_nonneg (by omega)).symm)

/-- Short chunks have a finite duration. -/
theorem chunkMs_short (h : length ≤ 1000) (hpos : 0 < length) : chunkMs length = .finite (msOf length) := by
  have hlarge : (1000 : ℚ) ≤ 2 ^ 1023 :=
    le_trans (by norm_num : (1000 : ℚ) ≤ 2 ^ 10) (pow_le_pow_right₀ one_le_two (by decide))
  have hcast : (length : ℚ) ≤ 1000 := by exact_mod_cast h
  have hzero : (0 : ℚ) ≤ length / 16000 := by positivity
  have hone : (length : ℚ) / 16000 ≤ (1 : ℕ) := by
    push_cast
    linarith
  have hdouble := double_mono hzero hone
  rw [double_natCast (by norm_num)] at hdouble
  have hsmall : |(length : ℚ) / 16000| ≤ 2 ^ 1023 := by
    rw [abs_of_nonneg hzero]
    exact le_trans (by linarith) hlarge
  have hsmall' : |double ((length : ℚ) / 16000) * 1000| ≤ 2 ^ 1023 := by
    rw [abs_of_nonneg (mul_nonneg (double_nonneg hzero) (by norm_num))]
    push_cast at hdouble
    exact le_trans (by linarith) hlarge
  rw [chunkMs, if_neg hpos.ne', JsNumber.div, if_neg (by norm_num), JsNumber.ofExact_of_abs_le hsmall]
  exact JsNumber.ofExact_of_abs_le hsmall'

/-- **Short chunks**: the envelope has room for 256 values, and for those of a period. -/
theorem maxSamples_short (h : length ≤ 1000) :
    ∃ m p : ℕ, maxSamples (rateOf length) = .finite m ∧ analysisPeriod (rateOf length) = .finite p ∧
      256 ≤ m ∧ 0 < p ∧ p ≤ m := by
  rcases Nat.eq_zero_or_pos length with rfl | hpos
  · have hrate : rateOf 0 = .finite 50 := by decide +kernel
    rw [hrate]
    -- an empty chunk has no duration, so the rate stays what it was at first
    refine room_of_rate (by norm_num) ?_ (by exact_mod_cast double_natCast (n := 50) (by norm_num))
    exact le_trans (by norm_num : (50 : ℚ) ≤ 2 ^ 6) (pow_le_pow_right₀ one_le_two (by decide))
  · have hms := msOf_one_le hpos
    -- a chunk of 1000 samples takes 62.5 milliseconds, which makes 16 values a second
    have hms' : msOf length ≤ 125 / 2 := (msOf_mono h).trans (by decide +kernel)
    have hmspos : 0 < msOf length := lt_of_lt_of_le (by norm_num) hms
    rw [rateOf_finite hpos (chunkMs_short h hpos)]
    refine room_of_rate ?_ ?_ (double_double _)
    · have hmono := double_mono (by norm_num)
        ((le_div_iff₀ hmspos).mpr (by push_cast; linarith) : ((16 : ℕ) : ℚ) ≤ 1000 / msOf length)
      rw [double_natCast (by norm_num)] at hmono
      exact_mod_cast hmono
    · have hmono := double_mono (by positivity)
        ((div_le_iff₀ hmspos).mpr (by push_cast; linarith) : 1000 / msOf length ≤ ((16000 : ℕ) : ℚ))
      rw [double_natCast (by norm_num)] at hmono
      exact hmono.trans (le_trans (by norm_num : ((16000 : ℕ) : ℚ) ≤ 2 ^ 14) (pow_le_pow_right₀ one_le_two (by decide)))

end Durations

/-! ## Runs -/

/-- The sentinel after the first chunks that it hears. -/
def heard (analysis : SignalAnalysis) (chunks : ℕ → List ℤ) : ℕ → SleepSentinelAgent
  | 0 => {}
  | t + 1 => (heard analysis chunks t).hear analysis (chunks t)

/-- The envelope is analysed at a chunk. -/
def AnalysedAt (analysis : SignalAnalysis) (chunks : ℕ → List ℤ) (t : ℕ) : Prop :=
  (heard analysis chunks t).analyses analysis (chunks t) = true

/-- The analysis is reached: once the envelope is full, it has been made, and it is made again in every period. -/
structure AnalysisReached (analysis : SignalAnalysis) (chunks : ℕ → List ℤ) (length : ℕ) : Prop where
  first : ∀ t, fullWindow length ≤ t → ∃ u < t, AnalysedAt analysis chunks u
  again : ∀ t, fullWindow length ≤ t → ∃ u, t ≤ u ∧ u < t + periodOf length ∧ AnalysedAt analysis chunks u

section Runs

variable {chunks : ℕ → List ℤ} {length m p t : ℕ}

/-- The rate does not change. -/
theorem rate_heard (hlength : ∀ t, (chunks t).length = length) (t : ℕ) :
    envelopeRate (chunkMs length) (heard analysis chunks t).toDetector = rateOf length := by
  rw [rateOf, envelopeRate, envelopeRate]
  by_cases hexceeds : (chunkMs length).exceeds 0 = true
  · rw [if_pos hexceeds, if_pos hexceeds]
  · rw [if_neg hexceeds, if_neg hexceeds]
    induction t with
    | zero => rfl
    | succ t ih =>
      rw [heard, SleepSentinelAgent.rate_hear, hlength, envelopeRate, if_neg hexceeds, ih]

theorem length_window (m : ℕ) (envelope : List JsNumber) :
    (window (.finite m) envelope).length = min envelope.length m := by
  rw [window, Int.floor_natCast, Int.toNat_natCast, List.length_drop]
  omega

variable (analysis) in
/-- The envelope after a chunk. -/
theorem length_envelopeAfter (hlength : ∀ t, (chunks t).length = length)
    (hmax : maxSamples (rateOf length) = .finite m) (t : ℕ) :
    ((heard analysis chunks t).envelopeAfter analysis (chunks t)).length =
      min ((heard analysis chunks t).envelopeRms.length + 1) m := by
  rw [SleepSentinelAgent.envelopeAfter, nextEnvelope, hlength, rate_heard hlength, hmax, length_window,
    List.length_append, List.length_singleton]

/-- **The envelope** holds the values of all chunks that it has room for. -/
theorem length_heard (hlength : ∀ t, (chunks t).length = length)
    (hmax : maxSamples (rateOf length) = .finite m) (t : ℕ) :
    (heard analysis chunks t).envelopeRms.length = min t m := by
  induction t with
  | zero => exact (Nat.zero_min m).symm
  | succ t ih =>
    rw [heard, SleepSentinelAgent.envelopeRms_hear, length_envelopeAfter analysis hlength hmax, ih]
    omega

/-- **When the envelope is analysed.** -/
theorem analysedAt_iff (hlength : ∀ t, (chunks t).length = length) (hmax : maxSamples (rateOf length) = .finite m)
    (hperiod : analysisPeriod (rateOf length) = .finite p) (t : ℕ) :
    AnalysedAt analysis chunks t ↔
      256 ≤ min (t + 1) m ∧ p ≤ (heard analysis chunks t).envelopeSamplesSinceLastAnalysis + 1 := by
  have hlen := length_envelopeAfter analysis hlength hmax t
  rw [SleepSentinelAgent.envelopeAfter, length_heard hlength hmax] at hlen
  rw [AnalysedAt, SleepSentinelAgent.analyses, isAnalysed, hlen, hlength, rate_heard hlength, hperiod,
    Bool.and_eq_true, decide_eq_true_iff, decide_eq_true_iff, Nat.cast_le]
  refine and_congr_left fun _ => ?_
  omega

/-- A chunk at which the envelope is not analysed is counted. -/
theorem samples_succ (hnot : ¬ AnalysedAt analysis chunks t) :
    (heard analysis chunks (t + 1)).envelopeSamplesSinceLastAnalysis =
      (heard analysis chunks t).envelopeSamplesSinceLastAnalysis + 1 :=
  (SleepSentinelAgent.samples_hear _ _ _).trans (if_neg hnot)

variable (analysis) in
/-- Until the envelope holds 256 values, all chunks are counted. -/
theorem samples_early (hlength : ∀ t, (chunks t).length = length) (hmax : maxSamples (rateOf length) = .finite m)
    (hperiod : analysisPeriod (rateOf length) = .finite p) (ht : t ≤ 255) :
    (heard analysis chunks t).envelopeSamplesSinceLastAnalysis = t := by
  induction t with
  | zero => rfl
  | succ t ih =>
    have hnot : ¬ AnalysedAt analysis chunks t := fun h => by
      -- an analysis asks for 256 values, and there are `t + 1`
      have henough := ((analysedAt_iff hlength hmax hperiod t).1 h).1
      omega
    rw [samples_succ hnot, ih (by omega)]

variable (analysis) in
/-- **Once the envelope holds 256 values**, it is analysed when the chunks of a period are counted. -/
theorem analysed_within (hlength : ∀ t, (chunks t).length = length) (hmax : maxSamples (rateOf length) = .finite m)
    (hperiod : analysisPeriod (rateOf length) = .finite p) (hroom : 256 ≤ m) {k : ℕ} (ht : 255 ≤ t)
    (hk : p ≤ (heard analysis chunks t).envelopeSamplesSinceLastAnalysis + 1 + k) :
    ∃ u, t ≤ u ∧ u ≤ t + k ∧ AnalysedAt analysis chunks u := by
  induction k generalizing t with
  | zero => exact ⟨t, le_rfl, le_rfl, (analysedAt_iff hlength hmax hperiod t).2 ⟨by omega, hk⟩⟩
  | succ k ih =>
    -- either this chunk is analysed, or it is counted and one fewer is needed
    by_cases hnow : AnalysedAt analysis chunks t
    · exact ⟨t, le_rfl, by omega, hnow⟩
    · have hcount := samples_succ hnow
      obtain ⟨u, hlow, hhigh, hu⟩ := ih (t := t + 1) (by omega) (by omega)
      exact ⟨u, by omega, by omega, hu⟩

/-- Short chunks reach the analysis. -/
theorem reached_short (hlength : ∀ t, (chunks t).length = length) (hshort : length ≤ 1000) :
    AnalysisReached analysis chunks length := by
  obtain ⟨m, p, hmax, hperiod, hroom, hpos, hle⟩ := maxSamples_short hshort
  have hwindow : fullWindow length = m := by
    rw [fullWindow, hmax, countOf, Int.floor_natCast, Int.toNat_natCast]
  have hcount : periodOf length = p := by
    rw [periodOf, hperiod, countOf, Int.floor_natCast, Int.toNat_natCast]
  constructor
  · intro t ht
    have hearly := samples_early analysis hlength hmax hperiod (le_refl 255)
    obtain ⟨u, -, hu, hanalysed⟩ := analysed_within (k := p - 256) analysis hlength hmax hperiod hroom
      (le_refl 255) (by omega)
    exact ⟨u, by omega, hanalysed⟩
  · intro t ht
    obtain ⟨u, hlow, hu, hanalysed⟩ := analysed_within (k := p - 1) analysis hlength hmax hperiod hroom
      (by omega : 255 ≤ t) (by omega)
    exact ⟨u, hlow, by omega, hanalysed⟩

/-- Long chunks never reach it. -/
theorem not_reached_long (hlength : ∀ t, (chunks t).length = length) (hlong : 1000 < length) :
    ¬ AnalysisReached analysis chunks length := by
  obtain ⟨m, hmax, hroom⟩ := maxSamples_long hlong
  intro h
  obtain ⟨u, -, hu⟩ := h.first _ le_rfl
  have hlen := length_envelopeAfter analysis hlength hmax u
  rw [AnalysedAt, SleepSentinelAgent.analyses, isAnalysed, Bool.and_eq_true, decide_eq_true_iff] at hu
  rw [SleepSentinelAgent.envelopeAfter] at hlen
  omega

/-- **The analysis of the breathing is reached** by chunks of a constant length exactly when they have no more than
1000 samples. -/
theorem analysisReached_iff (analysis : SignalAnalysis) (chunks : ℕ → List ℤ) (length : ℕ)
    (hlength : ∀ t, (chunks t).length = length) : AnalysisReached analysis chunks length ↔ length ≤ 1000 :=
  ⟨fun h => not_lt.mp fun hlong => not_reached_long hlength hlong h, reached_short hlength⟩

end Runs

/-- The chunks of 20 milliseconds. -/
theorem analysisReached_short : AnalysisReached silence (fun _ => List.replicate 320 0) 320 :=
  (analysisReached_iff silence (fun _ => List.replicate 320 0) 320 fun _ => List.length_replicate).2 (by norm_num)

/-- The chunks of the microphone do not reach the analysis. -/
theorem microphone_not_reached : ¬ AnalysisReached silence (fun _ => List.replicate 1024 0) 1024 :=
  not_reached_long (fun _ => List.length_replicate) (by norm_num)

end DreamWeaver.Live
