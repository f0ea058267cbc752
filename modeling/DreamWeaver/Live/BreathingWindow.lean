import DreamWeaver.Live.BreathingCadence
import DreamWeaver.Live.FourierMagnitudes

/-! # The window of the analysis

`analyzeBreathingCadence` analyses the last values of the envelope, as many as the next power of two up to 512
says. Between 257 and 511 values, that is more than the envelope holds: the transform is fed with values that are
not there. -/

namespace DreamWeaver.Live

variable {analysis : SignalAnalysis} {chunks : ℕ → List ℤ} {envelope : List JsNumber} {n p t : ℕ}

/-! ## The window -/

/-- `while (p < n) p <<= 1`, from a number on that is not 0. -/
def nextPowerOfTwoFrom (n p : ℕ) : ℕ := if 0 < p ∧ p < n then nextPowerOfTwoFrom n (2 * p) else p
termination_by n - p

/-- `nextPowerOfTwo` -/
def nextPowerOfTwo (n : ℕ) : ℕ := nextPowerOfTwoFrom n 1

/-- The length `n` of the window. -/
def analysisWindow (envelope : List JsNumber) : ℕ := nextPowerOfTwo (min 512 envelope.length)

/-- `xs.slice(start)`: a negative start counts from the end. -/
def sliceFrom (xs : List JsNumber) (start : ℤ) : List JsNumber :=
  xs.drop (if start < 0 then xs.length + start else start).toNat

/-- `slice` -/
def windowSlice (envelope : List JsNumber) : List JsNumber :=
  sliceFrom envelope (envelope.length - analysisWindow envelope)

/-- `slice[i] - mean`, NaN where the value is not there. -/
def centred (slice : List JsNumber) (i : ℕ) : JsNumber :=
  match slice[i]? with
  | some value => value.sub ((sumOf slice).div (.finite slice.length))
  | none => .nan

/-- The weight `w` of a value. -/
def hannWeight (math : MathFunctions JsNumber) (n i : ℕ) : JsNumber :=
  (JsNumber.finite (1 / 2)).mul ((JsNumber.finite 1).sub
    (math.cos ((((JsNumber.finite 2).mul math.pi).mul (.finite i)).div (.finite ((n : ℤ) - 1 : ℤ)))))

/-- `input`, that the transform is fed with. -/
def transformInput (math : MathFunctions JsNumber) (envelope : List JsNumber) : List JsNumber :=
  (List.range (analysisWindow envelope)).map fun i =>
    (centred (windowSlice envelope) i).mul (hannWeight math (analysisWindow envelope) i)

/-- `analyzeBreathingCadence`: what is found in the spectrum of the input, at the frequency of a bin, is left open. -/
def analyzeBreathingCadence (math : MathFunctions JsNumber) (judge : List JsNumber → JsNumber → Breathing)
    (envelope : List JsNumber) (rate : JsNumber) : Breathing :=
  if analysisWindow envelope < 256 then ⟨false, none, none⟩
  else judge (transformInput math envelope) (rate.div (.finite (analysisWindow envelope)))

/-- The loop ends at a power of two, the first that is large enough. -/
theorem nextPowerOfTwoFrom_spec (n k : ℕ) :
    ∃ l, nextPowerOfTwoFrom n (2 ^ k) = 2 ^ l ∧ n ≤ 2 ^ l ∧ (l = k ∨ 2 ^ l < 2 * n) := by
  -- the distance to `n` falls with every doubling
  induction hrest : n - 2 ^ k using Nat.strong_induction_on generalizing k with
  | _ rest ih =>
    rw [nextPowerOfTwoFrom]
    by_cases hlt : 2 ^ k < n
    · have hdouble : 2 ^ (k + 1) = 2 * 2 ^ k := pow_succ' 2 k
      have hpos := Nat.two_pow_pos k
      rw [if_pos ⟨hpos, hlt⟩, ← hdouble]
      obtain ⟨l, heq, hle, hmin⟩ := ih (n - 2 ^ (k + 1)) (by omega) (k + 1) rfl
      refine ⟨l, heq, hle, .inr ?_⟩
      rcases hmin with rfl | hmin
      · omega
      · exact hmin
    · rw [if_neg fun h => hlt h.2]
      exact ⟨k, rfl, not_lt.mp hlt, .inl rfl⟩

/-- **The next power of two** of a number that is larger than 1. -/
theorem nextPowerOfTwo_spec (hn : 1 < n) : ∃ l, nextPowerOfTwo n = 2 ^ l ∧ n ≤ 2 ^ l ∧ 2 ^ l < 2 * n := by
  obtain ⟨l, heq, hle, rfl | hmin⟩ := nextPowerOfTwoFrom_spec n 0
  · exact absurd hle (by omega)
  · exact ⟨l, heq, hle, hmin⟩

/-- **The window** of an envelope with at least 256 values is not longer than the envelope exactly when that has
256, or at least 512. -/
theorem analysisWindow_le_iff (h : 256 ≤ envelope.length) :
    (∃ l, analysisWindow envelope = 2 ^ l) ∧
      (analysisWindow envelope ≤ envelope.length ↔ envelope.length = 256 ∨ 512 ≤ envelope.length) := by
  obtain ⟨l, heq, hle, hlt⟩ := nextPowerOfTwo_spec (n := min 512 envelope.length) (by omega)
  rw [analysisWindow, heq]
  refine ⟨⟨l, rfl⟩, ?_⟩
  -- the power is 256 or 512
  have hlow : 8 ≤ l := by
    by_contra hsmall
    have hpow := Nat.pow_le_pow_right Nat.two_pos (by omega : l ≤ 7)
    omega
  have hhigh : l ≤ 9 := by
    by_contra hlarge
    have hpow := Nat.pow_le_pow_right Nat.two_pos (by omega : 10 ≤ l)
    omega
  interval_cases l <;> omega

/-- The analysis of at least 256 values is not broken off. -/
theorem analyzeBreathingCadence_of_enough (math : MathFunctions JsNumber)
    (judge : List JsNumber → JsNumber → Breathing) (rate : JsNumber) (h : 256 ≤ envelope.length) :
    analyzeBreathingCadence math judge envelope rate =
      judge (transformInput math envelope) (rate.div (.finite (analysisWindow envelope))) := by
  obtain ⟨l, heq, hle, -⟩ := nextPowerOfTwo_spec (n := min 512 envelope.length) (by omega)
  refine if_neg ?_
  rw [analysisWindow, heq]
  omega

/-! ## What is read -/

/-- What is said of an analysis: the length of the window is a power of two and not larger than the number of
values that are held, and each value that is read is the loudness of a chunk that was heard. -/
structure ReadsSamples (analysis : SignalAnalysis) (chunks : ℕ → List ℤ) (t : ℕ) (envelope : List JsNumber) :
    Prop where
  power : ∃ l, analysisWindow envelope = 2 ^ l
  held : analysisWindow envelope ≤ envelope.length
  observed : ∀ i < analysisWindow envelope, ∃ u ≤ t,
    (windowSlice envelope)[i]? = some (calculateRmsFromPcm16 analysis (chunks u))

/-- The envelope that is analysed at a chunk. -/
def envelopeAt (analysis : SignalAnalysis) (chunks : ℕ → List ℤ) (t : ℕ) : List JsNumber :=
  (heard analysis chunks t).envelopeAfter analysis (chunks t)

/-- **The envelope** holds the loudness of chunks that were heard. -/
theorem observed_envelopeAt (t : ℕ) : ∀ v ∈ envelopeAt analysis chunks t, ∃ u ≤ t,
    v = calculateRmsFromPcm16 analysis (chunks u) := by
  have hwindow : ∀ (max : JsNumber) (envelope : List JsNumber), ∀ v ∈ window max envelope, v ∈ envelope := by
    intro max envelope v hv
    unfold window at hv
    split at hv
    · exact List.mem_of_mem_drop hv
    · exact hv
  induction t with
  | zero =>
    intro v hv
    obtain rfl := List.mem_singleton.mp (hwindow _ _ v hv)
    exact ⟨0, le_rfl, rfl⟩
  | succ t ih =>
    intro v hv
    rcases List.mem_append.mp (hwindow _ _ v hv) with hold | hnew
    · rw [heard, SleepSentinelAgent.envelopeRms_hear] at hold
      obtain ⟨u, hu, hloud⟩ := ih v hold
      exact ⟨u, hu.trans t.le_succ, hloud⟩
    · exact ⟨t + 1, le_rfl, List.mem_singleton.mp hnew⟩

/-- A window that is not longer than the envelope reads its last values. -/
theorem mem_of_windowSlice (h : analysisWindow envelope ≤ envelope.length) {i : ℕ}
    (hi : i < analysisWindow envelope) : ∃ v ∈ envelope, (windowSlice envelope)[i]? = some v := by
  -- the start of the slice is not negative
  have hstart : ¬ ((envelope.length : ℤ) - analysisWindow envelope < 0) := by omega
  have hget : i < (windowSlice envelope).length := by
    rw [windowSlice, sliceFrom, if_neg hstart, List.length_drop]
    omega
  exact ⟨_, List.mem_of_mem_drop (List.getElem_mem hget), List.getElem?_eq_getElem hget⟩

/-- A window that is longer than the envelope feeds the transform with NaN. -/
theorem nan_mem_transformInput (math : MathFunctions JsNumber)
    (h : envelope.length < analysisWindow envelope) : .nan ∈ transformInput math envelope := by
  have hlen : (windowSlice envelope).length ≤ envelope.length := by
    rw [windowSlice, sliceFrom, List.length_drop]
    omega
  -- the position after the last value of the envelope is read, too
  refine List.mem_map.mpr ⟨envelope.length, List.mem_range.mpr h, ?_⟩
  rw [centred, List.getElem?_eq_none hlen]
  rfl

theorem enough_of_analysedAt (h : AnalysedAt analysis chunks t) : 256 ≤ (envelopeAt analysis chunks t).length :=
  of_decide_eq_true (Bool.and_eq_true_iff.mp h).1

/-- An analysis reads samples exactly when its envelope has a length of 256, or of at least 512. -/
theorem readsSamples_iff (h : AnalysedAt analysis chunks t) :
    ReadsSamples analysis chunks t (envelopeAt analysis chunks t) ↔
      (envelopeAt analysis chunks t).length = 256 ∨ 512 ≤ (envelopeAt analysis chunks t).length := by
  obtain ⟨hpower, hle⟩ := analysisWindow_le_iff (enough_of_analysedAt h)
  rw [← hle]
  refine ⟨fun h => h.held, fun hheld => ⟨hpower, hheld, fun i hi => ?_⟩⟩
  obtain ⟨v, hv, hget⟩ := mem_of_windowSlice hheld hi
  obtain ⟨u, hu, rfl⟩ := observed_envelopeAt t v hv
  exact ⟨u, hu, hget⟩

/-- **The analyses of a run read samples only** exactly when at each of them the envelope has 256 values, or at
least 512. -/
theorem analyses_read_iff (analysis : SignalAnalysis) (chunks : ℕ → List ℤ) :
    (∀ t, AnalysedAt analysis chunks t → ReadsSamples analysis chunks t (envelopeAt analysis chunks t)) ↔
      ∀ t, AnalysedAt analysis chunks t →
        (envelopeAt analysis chunks t).length = 256 ∨ 512 ≤ (envelopeAt analysis chunks t).length :=
  forall_congr' fun _ => forall_congr' readsSamples_iff

/-- Chunks of 20 milliseconds are analysed again when the envelope has about 300 values: the window has 512. -/
theorem missing_analysed : ∃ t, AnalysedAt silence (fun _ => List.replicate 320 0) t ∧
    ¬ ReadsSamples silence (fun _ => List.replicate 320 0) t
        (envelopeAt silence (fun _ => List.replicate 320 0) t) ∧
      ∀ math, .nan ∈ transformInput math (envelopeAt silence (fun _ => List.replicate 320 0) t) := by
  have hlength : ∀ t : ℕ, ((fun _ => List.replicate 320 0 : ℕ → List ℤ) t).length = 320 :=
    fun _ => List.length_replicate
  have hmax : maxSamples (rateOf 320) = .finite ((800 : ℕ) : ℚ) := by
    rw [(by decide +kernel : maxSamples (rateOf 320) = .finite 800), Nat.cast_ofNat]
  have hperiod : analysisPeriod (rateOf 320) = .finite ((50 : ℕ) : ℚ) := by
    rw [(by decide +kernel : analysisPeriod (rateOf 320) = .finite 50), Nat.cast_ofNat]
  -- the rate is 50 values a second, so one of the 50 chunks after the first 256 is analysed
  obtain ⟨t, hlow, hhigh, hanalysed⟩ := analysed_within (t := 256) (k := 49) silence hlength hmax
    hperiod (by norm_num) (by norm_num) (by omega)
  have hlen := length_envelopeAfter silence hlength hmax t
  rw [length_heard hlength hmax] at hlen
  have hnot : ¬ ReadsSamples silence (fun _ => List.replicate 320 0) t
      (envelopeAt silence (fun _ => List.replicate 320 0) t) := fun h => by
    have hfits := (readsSamples_iff hanalysed).1 h
    rw [envelopeAt, hlen] at hfits
    omega
  refine ⟨t, hanalysed, hnot, fun math => nan_mem_transformInput math ?_⟩
  by_contra hheld
  exact hnot ((readsSamples_iff hanalysed).2
    ((analysisWindow_le_iff (enough_of_analysedAt hanalysed)).2.1 (not_lt.mp hheld)))

end DreamWeaver.Live
