import DreamWeaver.Foundations.FourierTransform
import DreamWeaver.Foundations.Loops
import Mathlib.Analysis.SpecialFunctions.Complex.Log
import Mathlib.Analysis.SpecialFunctions.Trigonometric.Basic

/-! # The spectrum of the envelope

`SleepSentinelAgent.fftMagnitudes` (`api/src/domain/agents/SleepSentinelAgent.ts`) makes a fast Fourier transform in
place, on the arrays `re` and `im`: it reorders the values, and then joins them in rounds. The arithmetic is left
open: the program makes it on doubles, and over exact numbers its result is the discrete Fourier transform. The
shifts of lengths and positions double and halve them, as they do below `2 ^ 30`: the sentinel has 512 values at
most. -/

namespace DreamWeaver.Live

/-- The constant and the functions of `Math` that the transform uses. -/
structure MathFunctions (R : Type) where
  pi : R
  cos : R → R
  sin : R → R
  sqrt : R → R

/-- `re` and `im` -/
structure Spectrum (R : Type) where
  re : List R
  im : List R

section Transform

variable {R : Type} [Add R] [Sub R] [Mul R] [Div R] [Neg R] [NatCast R]

/-! ## Reordering -/

/-- The exchange of `xs[i]` and `xs[j]`. -/
def exchange (xs : List R) (i j : ℕ) : Option (List R) := do
  let tr ← xs[i]?
  let xj ← xs[j]?
  let xs ← write xs i xj
  write xs j tr

/-- `while (j >= m && m > 0) { j -= m; m >>= 1 }` and `j += m`. -/
def advance (j m : ℕ) : ℕ := if m ≤ j ∧ 0 < m then advance (j - m) (m / 2) else j + m
termination_by m

/-- A pass of the reordering loop, with its counter `i` and the position `j`. -/
def reorderPass (n : ℕ) (state : Spectrum R × ℕ) (i : ℕ) : Option (Spectrum R × ℕ) := do
  let (s, j) := state
  let s ← if i < j then do
      let re ← exchange s.re i j
      let im ← exchange s.im i j
      pure ⟨re, im⟩
    else pure s
  pure (s, advance j (n / 2))

/-- The reordering loop. -/
def reorder (s : Spectrum R) : Option (Spectrum R × ℕ) :=
  (List.range s.re.length).foldlM (reorderPass s.re.length) (s, 0)

/-! ## Rounds -/

/-- A complex number, as its two parts. -/
structure Twiddle (R : Type) where
  re : R
  im : R

/-- `wlenRe` and `wlenIm` -/
def lenTwiddle (math : MathFunctions R) (len : ℕ) : Twiddle R :=
  let ang := -((2 : ℕ) : R) * math.pi / (len : R)
  ⟨math.cos ang, math.sin ang⟩

/-- A pass of the loop over `k`. -/
def butterfly (wlen : Twiddle R) (half i : ℕ) (state : Spectrum R × Twiddle R) (k : ℕ) :
    Option (Spectrum R × Twiddle R) := do
  let (⟨re, im⟩, w) := state
  let uRe ← re[i + k]?
  let uIm ← im[i + k]?
  let tRe ← re[i + k + half]?
  let tIm ← im[i + k + half]?
  let vRe := tRe * w.re - tIm * w.im
  let vIm := tRe * w.im + tIm * w.re
  let re ← write re (i + k) (uRe + vRe)
  let im ← write im (i + k) (uIm + vIm)
  let re ← write re (i + k + half) (uRe - vRe)
  let im ← write im (i + k + half) (uIm - vIm)
  pure (⟨re, im⟩, ⟨w.re * wlen.re - w.im * wlen.im, w.re * wlen.im + w.im * wlen.re⟩)

/-- A pass of the loop over `i`. -/
def joinBlocks (wlen : Twiddle R) (len : ℕ) (s : Spectrum R) (i : ℕ) : Option (Spectrum R) := do
  let one : Twiddle R := ⟨((1 : ℕ) : R), ((0 : ℕ) : R)⟩
  let (s, _) ← (List.range (len / 2)).foldlM (butterfly wlen (len / 2) i) (s, one)
  pure s

/-- The loop over `i = 0, len, 2 * len, ...` below `n`. -/
def round (math : MathFunctions R) (n len : ℕ) (s : Spectrum R) : Option (Spectrum R) :=
  (List.range' 0 ((n + len - 1) / len) len).foldlM (joinBlocks (lenTwiddle math len) len) s

/-- The loop over `len`, from a length on that is not 0. -/
def rounds (math : MathFunctions R) (n len : ℕ) (s : Spectrum R) : Option (Spectrum R) :=
  if 0 < len ∧ len ≤ n then do
    let s ← round math n len s
    rounds math n (2 * len) s
  else some s
termination_by n + 1 - len

/-- The arrays `re` and `im` before the loops. -/
def ofInput (input : List R) : Spectrum R := ⟨input, List.replicate input.length ((0 : ℕ) : R)⟩

/-- The loops on the arrays. -/
def transform (math : MathFunctions R) (input : List R) : Option (Spectrum R) := do
  let (s, _) ← reorder (ofInput input)
  rounds math input.length 2 s

/-- `mags[i]` -/
def magnitude (math : MathFunctions R) (n : ℕ) (s : Spectrum R) (i : ℕ) : Option R := do
  let re ← s.re[i]?
  let im ← s.im[i]?
  pure (math.sqrt (re * re + im * im) / (n : R))

/-- `fftMagnitudes`, `none` where a position outside of an array is read or written. -/
def fftMagnitudes (math : MathFunctions R) (input : List R) : Option (List R) := do
  let s ← transform math input
  (List.range (input.length / 2 + 1)).mapM (magnitude math input.length s)

end Transform

/-! ## Exact numbers -/

section Exact

open Complex (I)

/-- Exact arithmetic. -/
noncomputable def exactMath : MathFunctions ℝ := ⟨Real.pi, Real.cos, Real.sin, Real.sqrt⟩

/-- `exp (-2 * pi * i / n)` -/
noncomputable def rootOfUnity (n : ℕ) : ℂ := Complex.exp (-2 * Real.pi * I / n)

/-- The arrays of the real and the imaginary parts of complex numbers. -/
def ofComplex (n : ℕ) (z : ℕ → ℂ) : Spectrum ℝ :=
  ⟨tabulate n fun p => (z p).re, tabulate n fun p => (z p).im⟩

/-- The parts of a complex number. -/
def partsOf (w : ℂ) : Twiddle ℝ := ⟨w.re, w.im⟩

variable {n i j k half m s : ℕ} {z z' x : ℕ → ℂ} {w wlen : ℂ}

theorem ofComplex_congr (h : ∀ p < n, z p = z' p) : ofComplex n z = ofComplex n z' := by
  rw [ofComplex, ofComplex, tabulate_congr fun p hp => by rw [h p hp],
    tabulate_congr (f := fun p => (z p).im) fun p hp => by rw [h p hp]]

theorem isDyadicRoot_rootOfUnity : IsDyadicRoot fun s => rootOfUnity (2 ^ s) where
  square s := by
    rw [rootOfUnity, rootOfUnity, ← Complex.exp_nat_mul]
    congr 1
    push_cast
    field_simp
    ring
  half s := by
    rw [rootOfUnity, ← Complex.exp_nat_mul]
    have hangle : ((2 ^ s : ℕ) : ℂ) * (-2 * Real.pi * I / (2 ^ (s + 1) : ℕ)) = -(Real.pi * I) := by
      push_cast
      field_simp
      ring
    rw [hangle, Complex.exp_neg, Complex.exp_pi_mul_I]
    norm_num

/-- The twiddle factor of a round is its root of unity. -/
theorem lenTwiddle_exact (len : ℕ) : lenTwiddle exactMath len = partsOf (rootOfUnity len) := by
  have hangle : (-2 * Real.pi * I / len : ℂ) = ((-((2 : ℕ) : ℝ) * Real.pi / (len : ℝ) : ℝ) : ℂ) * I := by
    push_cast
    ring
  rw [partsOf, rootOfUnity, hangle, Complex.exp_ofReal_mul_I_re, Complex.exp_ofReal_mul_I_im]
  rfl

/-- The parts of an array in which a value was written. -/
theorem tabulate_update {α : Type} (part : ℂ → α) (z : ℕ → ℂ) (p : ℕ) (v : ℂ) :
    tabulate n (Function.update (fun q => part (z q)) p (part v)) =
      tabulate n fun q => part (Function.update z p v q) :=
  congrArg (tabulate n) (Function.comp_update part z p v).symm

/-- An exchange in both arrays. -/
theorem exchange_tabulate (part : ℂ → ℝ) (z : ℕ → ℂ) (hi : i < n) (hj : j < n) :
    exchange (tabulate n fun p => part (z p)) i j =
      some (tabulate n fun p => part (Function.update (Function.update z i (z j)) j (z i) p)) := by
  rw [exchange, getElem?_tabulate _ hi, getElem?_tabulate _ hj]
  show (write _ i (part (z j))).bind (fun xs => write xs j (part (z i))) = _
  rw [write_tabulate _ _ hi, Option.bind_some, tabulate_update, write_tabulate _ _ hj, tabulate_update]

/-- **A pair of values**, of the arrays. -/
theorem butterfly_ofComplex (h : i + k + half < n) :
    butterfly (partsOf wlen) half i (ofComplex n z, partsOf w) k =
      some (ofComplex n
        (Function.update (Function.update z (i + k) (z (i + k) + z (i + k + half) * w)) (i + k + half)
          (z (i + k) - z (i + k + half) * w)), partsOf (w * wlen)) := by
  have hfirst : i + k < n := by omega
  rw [butterfly, ofComplex]
  simp only [partsOf, getElem?_tabulate _ h, getElem?_tabulate _ hfirst, Option.bind_eq_bind, Option.bind_some]
  -- the values that are written are the parts of the sum and the difference
  generalize z (i + k) = u
  generalize z (i + k + half) = t
  rw [← Complex.mul_re, ← Complex.mul_im, ← Complex.add_re, ← Complex.add_im, ← Complex.sub_re, ← Complex.sub_im]
  have hre := fun (z : ℕ → ℂ) (p : ℕ) (v : ℂ) => tabulate_update (n := n) Complex.re z p v
  have him := fun (z : ℕ → ℂ) (p : ℕ) (v : ℂ) => tabulate_update (n := n) Complex.im z p v
  simp only [write_tabulate _ _ hfirst, Option.bind_some, hre, him, write_tabulate _ _ h]
  rw [Complex.mul_re w, Complex.mul_im w]
  rfl

/-- **A pair of blocks** is joined. -/
theorem joinBlocks_ofComplex (b : ℕ) (h : 2 * half * (b + 1) ≤ n) (hhalf : 0 < half) :
    joinBlocks (partsOf w) (2 * half) (ofComplex n (joined w half z b 0)) (2 * half * b) =
      some (ofComplex n (joined w half z (b + 1) 0)) := by
  have hloop := foldlM_range (n := half) (butterfly (partsOf w) half (2 * half * b))
    (fun k => (ofComplex n (joined w half z b k), partsOf (w ^ k))) fun k hk => by
      have hbound : 2 * half * b + k + half < n := by
        rw [Nat.mul_succ] at h
        omega
      rw [butterfly_ofComplex hbound, joined_succ hk, pow_succ]
  -- the twiddle factor starts at 1
  have hone : partsOf (w ^ 0) = ⟨((1 : ℕ) : ℝ), ((0 : ℕ) : ℝ)⟩ := by
    rw [partsOf, pow_zero, Complex.one_re, Complex.one_im, Nat.cast_one, Nat.cast_zero]
  rw [joinBlocks, Nat.mul_div_cancel_left half two_pos, ← hone, hloop, joined_half hhalf]
  rfl

/-- **A round** of the arrays. -/
theorem round_ofComplex (hhalf : 0 < half) (hn : 2 * half ∣ n) :
    round exactMath n (2 * half) (ofComplex n z) =
      some (ofComplex n (butterflies (rootOfUnity (2 * half)) half z)) := by
  obtain ⟨c, rfl⟩ := hn
  have hcount : (2 * half * c + 2 * half - 1) / (2 * half) = c := by
    rw [Nat.add_sub_assoc (by omega), Nat.mul_add_div (by omega), Nat.div_eq_of_lt (by omega), Nat.add_zero]
  have hloop := foldlM_range' (n := c) (joinBlocks (partsOf (rootOfUnity (2 * half))) (2 * half))
    (fun b => ofComplex (2 * half * c) (joined (rootOfUnity (2 * half)) half z b 0)) (2 * half) fun b hb =>
      joinBlocks_ofComplex b (Nat.mul_le_mul_left _ hb) hhalf
  rw [joined_zero] at hloop
  rw [round, hcount, lenTwiddle_exact, hloop]
  exact congrArg some (ofComplex_congr fun p hp => joined_all hp)

/-- **The rounds**: from the values after `s` rounds on, they make the transform. -/
theorem rounds_ofComplex (hs : s ≤ m) :
    rounds exactMath (2 ^ m) (2 ^ (s + 1)) (ofComplex (2 ^ m) (afterRounds (fun s => rootOfUnity (2 ^ s)) m x s)) =
      some (ofComplex (2 ^ m) (dft (rootOfUnity (2 ^ m)) (2 ^ m) x)) := by
  -- the loop ends after round `m`, so the induction goes down from there
  induction hs using Nat.decreasingInduction with
  | self =>
    have hend : ¬ (0 < 2 ^ (m + 1) ∧ 2 ^ (m + 1) ≤ 2 ^ m) := fun h =>
      absurd h.2 (not_le.mpr (Nat.pow_lt_pow_right one_lt_two m.lt_succ_self))
    rw [rounds, if_neg hend]
    exact congrArg some (ofComplex_congr fun p hp => afterRounds_self _ x hp)
  | of_succ s hs ih =>
    have hnext : 0 < 2 ^ (s + 1) ∧ 2 ^ (s + 1) ≤ 2 ^ m :=
      ⟨Nat.two_pow_pos _, Nat.pow_le_pow_right two_pos hs⟩
    have hround := round_ofComplex (z := afterRounds (fun s => rootOfUnity (2 ^ s)) m x s) (Nat.two_pow_pos s)
      (pow_succ' 2 s ▸ pow_dvd_pow 2 hs : 2 * 2 ^ s ∣ 2 ^ m)
    rw [← pow_succ'] at hround
    rw [rounds, if_pos hnext, hround]
    show rounds exactMath (2 ^ m) (2 * 2 ^ (s + 1)) _ = _
    rw [← pow_succ', ← ih]
    congr 1
    exact ofComplex_congr fun p _ => butterflies_afterRounds isDyadicRoot_rootOfUnity hs x p

/-! ## The reordering loop -/

/-- **The counter** goes through the reversals of the numbers. -/
theorem advance_bitReverse (m i : ℕ) : advance (bitReverse m i) (2 ^ m / 2) = bitReverse m (i + 1) := by
  induction m generalizing i with
  | zero => rw [advance, if_neg (by omega)]; rfl
  | succ m ih =>
    rw [pow_succ, Nat.mul_div_cancel _ two_pos]
    -- the last bit of the number is the first of the counter: if it is set, the loop takes it away and goes on
    -- with the rest
    rcases Nat.even_or_odd' i with ⟨i, rfl | rfl⟩
    · have hlt := bitReverse_lt m i
      rw [bitReverse_double, bitReverse_double_add_one, advance, if_neg (by omega), Nat.add_comm]
    · rw [bitReverse_double_add_one, advance, if_pos ⟨Nat.le_add_right _ _, Nat.two_pow_pos m⟩,
        Nat.add_sub_cancel_left, ih, show 2 * i + 1 + 1 = 2 * (i + 1) by ring, bitReverse_double]

/-- A pass of the reordering loop. -/
theorem reorderPass_ofComplex (hi : i < 2 ^ m) :
    reorderPass (2 ^ m) (ofComplex (2 ^ m) (permuted (bitReverse m) x i), bitReverse m i) i =
      some (ofComplex (2 ^ m) (permuted (bitReverse m) x (i + 1)), bitReverse m (i + 1)) := by
  have hinv : ∀ q < 2 ^ m, bitReverse m (bitReverse m q) = q := fun q hq => bitReverse_bitReverse hq
  rw [reorderPass]
  by_cases hlt : i < bitReverse m i
  · have hexchange := fun part => exchange_tabulate part (permuted (bitReverse m) x i) hi (bitReverse_lt m i)
    have hnext := ofComplex_congr fun p hp => permuted_exchange hinv x hlt hi hp
    simp only [if_pos hlt, advance_bitReverse, ← hnext]
    rw [ofComplex, hexchange, hexchange]
    rfl
  · have hnext := ofComplex_congr fun p hp => permuted_stay hinv x hlt hi hp
    simp only [if_neg hlt, advance_bitReverse, ← hnext]
    rfl

/-- **The reordering loop** is the reversal of bits. -/
theorem reorder_ofComplex (m : ℕ) (x : ℕ → ℂ) :
    reorder (ofComplex (2 ^ m) x) = some (ofComplex (2 ^ m) fun p => x (bitReverse m p), bitReverse m (2 ^ m)) := by
  have hlen : (ofComplex (2 ^ m) x).re.length = 2 ^ m := length_tabulate _ _
  have hloop := foldlM_range (n := 2 ^ m) (reorderPass (2 ^ m))
    (fun i => (ofComplex (2 ^ m) (permuted (bitReverse m) x i), bitReverse m i))
    fun i hi => reorderPass_ofComplex hi
  have hstart : ofComplex (2 ^ m) (permuted (bitReverse m) x 0) = ofComplex (2 ^ m) x :=
    ofComplex_congr fun p _ => permuted_zero _ x p
  have hend : ofComplex (2 ^ m) (permuted (bitReverse m) x (2 ^ m)) = ofComplex (2 ^ m) fun p => x (bitReverse m p) :=
    ofComplex_congr fun p hp => permuted_all x hp
  -- before the first pass nothing is exchanged, after the last everything is
  rw [hstart, hend, bitReverse_zero_right] at hloop
  rw [reorder, hlen, hloop]

/-! ## The result -/

/-- The arrays of an input, as complex numbers. -/
theorem ofInput_eq (input : List ℝ) :
    ofInput input = ofComplex input.length fun t => ((input.getD t 0 : ℝ) : ℂ) := by
  rw [ofInput, ofComplex, replicate_eq_tabulate, Nat.cast_zero]
  simp only [Complex.ofReal_re, Complex.ofReal_im, tabulate_getD]

/-- **The discrete Fourier transform** of an input at an index. -/
noncomputable def fourierSum (input : List ℝ) (k : ℕ) : ℂ :=
  ∑ t ∈ Finset.range input.length, (input.getD t 0 : ℂ) * Complex.exp (-2 * Real.pi * I * k * t / input.length)

theorem dft_eq_fourierSum (input : List ℝ) (k : ℕ) :
    dft (rootOfUnity input.length) input.length (fun t => ((input.getD t 0 : ℝ) : ℂ)) k = fourierSum input k := by
  refine Finset.sum_congr rfl fun t _ => ?_
  rw [rootOfUnity, ← Complex.exp_nat_mul]
  congr 2
  push_cast
  ring

/-- What is said of the transform of an input of `2 ^ m` numbers: no position outside of the arrays is read or
written, the first loop puts the values in bit-reversed order, and the result is the discrete Fourier transform. -/
structure Transformed (m : ℕ) (input : List ℝ) : Prop where
  reordered : ∃ s j, reorder (ofInput input) = some (s, j) ∧ s.re.length = 2 ^ m ∧ s.im.length = 2 ^ m ∧
    ∀ p < 2 ^ m, s.re[p]? = input[bitReverse m p]? ∧ s.im[p]? = some 0
  transform : ∃ s, transform exactMath input = some s ∧ s.re.length = 2 ^ m ∧ s.im.length = 2 ^ m ∧
    ∀ k < 2 ^ m, s.re[k]? = some (fourierSum input k).re ∧ s.im[k]? = some (fourierSum input k).im
  magnitudes : fftMagnitudes exactMath input =
    some ((List.range (2 ^ m / 2 + 1)).map fun k => ‖fourierSum input k‖ / (2 ^ m : ℕ))

theorem transform_ofComplex {input : List ℝ} (h : input.length = 2 ^ m) :
    Live.transform exactMath input = some (ofComplex (2 ^ m) (fourierSum input)) := by
  have hrounds := rounds_ofComplex (x := fun t => ((input.getD t 0 : ℝ) : ℂ)) (Nat.zero_le m)
  have hstart : (ofComplex (2 ^ m) fun p => ((input.getD (bitReverse m p) 0 : ℝ) : ℂ)) = ofComplex (2 ^ m)
      (afterRounds (fun s => rootOfUnity (2 ^ s)) m (fun t => ((input.getD t 0 : ℝ) : ℂ)) 0) :=
    ofComplex_congr fun p _ => (afterRounds_zero _ m (fun t => ((input.getD t 0 : ℝ) : ℂ)) p).symm
  have hend : ofComplex (2 ^ m) (dft (rootOfUnity (2 ^ m)) (2 ^ m) fun t => ((input.getD t 0 : ℝ) : ℂ)) =
      ofComplex (2 ^ m) (fourierSum input) := by
    rw [← h]
    exact ofComplex_congr fun k _ => dft_eq_fourierSum input k
  rw [Live.transform, ofInput_eq, h, reorder_ofComplex, hstart]
  show rounds exactMath (2 ^ m) (2 ^ (0 + 1)) _ = _
  rw [hrounds, hend]

/-- **The fast Fourier transform** of every input whose length is a power of two. -/
theorem fft_transforms (m : ℕ) (input : List ℝ) (h : input.length = 2 ^ m) : Transformed m input where
  reordered := by
    refine ⟨_, _, by rw [ofInput_eq, h, reorder_ofComplex], length_tabulate _ _, length_tabulate _ _, fun p hp => ?_⟩
    have hq : bitReverse m p < input.length := h ▸ bitReverse_lt m p
    refine ⟨?_, getElem?_tabulate _ hp⟩
    show (tabulate _ _)[p]? = _
    rw [getElem?_tabulate _ hp, Complex.ofReal_re, List.getD_eq_getElem _ _ hq, List.getElem?_eq_getElem hq]
  transform :=
    ⟨_, transform_ofComplex h, length_tabulate _ _, length_tabulate _ _, fun k hk =>
      ⟨getElem?_tabulate _ hk, getElem?_tabulate _ hk⟩⟩
  magnitudes := by
    rw [fftMagnitudes, transform_ofComplex h, h]
    refine mapM_some fun k hk => ?_
    have hk' : k < 2 ^ m := by
      have hpos := Nat.two_pow_pos m
      have hmem := List.mem_range.mp hk
      omega
    have hre : (ofComplex (2 ^ m) (fourierSum input)).re[k]? = some (fourierSum input k).re := getElem?_tabulate _ hk'
    have him : (ofComplex (2 ^ m) (fourierSum input)).im[k]? = some (fourierSum input k).im := getElem?_tabulate _ hk'
    rw [magnitude, hre, him, Complex.norm_def, Complex.normSq_apply]
    rfl

/-- The transform of a pulse. -/
theorem fft_transforms_pulse : Transformed 2 [1, 0, 0, 0] := fft_transforms 2 [1, 0, 0, 0] rfl

end Exact

end DreamWeaver.Live
