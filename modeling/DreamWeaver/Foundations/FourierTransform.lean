import DreamWeaver.Foundations.BitReversal
import Mathlib.Algebra.BigOperators.Group.Finset.Basic
import Mathlib.Algebra.BigOperators.Ring.Finset
import Mathlib.Tactic.Ring

/-! # The fast Fourier transform

The discrete Fourier transform of `2 ^ m` values is made in `m` rounds from the values in bit-reversed order: after
`s` rounds, every block of `2 ^ s` values is the transform of the values whose positions have the same last `m - s`
bits, and a round joins two neighbouring blocks. -/

namespace DreamWeaver

variable {R : Type*} [CommRing R] {w : R} {n m s p : ℕ} {x z : ℕ → R}

/-- **The discrete Fourier transform** of `n` values at a frequency, for a root of unity. -/
def dft (w : R) (n : ℕ) (x : ℕ → R) (k : ℕ) : R := ∑ t ∈ Finset.range n, x t * w ^ (k * t)

/-- The transform of twice as many values, from those at even and those at odd positions. -/
theorem dft_double (w : R) (n : ℕ) (x : ℕ → R) (k : ℕ) :
    dft w (2 * n) x k =
      dft (w ^ 2) n (fun t => x (2 * t)) k + dft (w ^ 2) n (fun t => x (2 * t + 1)) k * w ^ k := by
  induction n with
  | zero => simp [dft]
  | succ n ih =>
    have hdouble : dft w (2 * (n + 1)) x k =
        dft w (2 * n) x k + x (2 * n) * w ^ (k * (2 * n)) + x (2 * n + 1) * w ^ (k * (2 * n + 1)) := by
      rw [dft, Nat.mul_succ, Finset.sum_range_succ, Finset.sum_range_succ, ← dft]
    rw [hdouble, ih]
    simp only [dft, Finset.sum_range_succ]
    ring

/-- The frequencies of `n` values repeat after `n`. -/
theorem dft_add_period (h : w ^ n = 1) (k : ℕ) : dft w n x (k + n) = dft w n x k := by
  refine Finset.sum_congr rfl fun t _ => ?_
  rw [add_mul, pow_add, pow_mul w n, h, one_pow, mul_one]

/-! ## Rounds -/

/-- The roots of unity of the rounds: each is a square root of the one before, and the half of its powers is -1. -/
structure IsDyadicRoot (w : ℕ → R) : Prop where
  square : ∀ s, w (s + 1) ^ 2 = w s
  half : ∀ s, w (s + 1) ^ 2 ^ s = -1

theorem IsDyadicRoot.pow_eq_one {w : ℕ → R} (h : IsDyadicRoot w) (s : ℕ) : w s ^ 2 ^ s = 1 := by
  rw [← h.square s, ← pow_mul, mul_comm, pow_mul, h.half s, neg_one_sq]

/-- The value at a position after the blocks of `half` values were joined in pairs. -/
def butterflies (w : R) (half : ℕ) (z : ℕ → R) (p : ℕ) : R :=
  if p % (2 * half) < half then z p + z (p + half) * w ^ (p % (2 * half))
  else z (p - half) - z p * w ^ (p % (2 * half) - half)

/-- The value at a position after `s` rounds. -/
def afterRounds (w : ℕ → R) (m : ℕ) (x : ℕ → R) (s p : ℕ) : R :=
  dft (w s) (2 ^ s) (fun t => x (t * 2 ^ (m - s) + bitReverse (m - s) (p / 2 ^ s))) (p % 2 ^ s)

/-- At first, the values are in bit-reversed order. -/
theorem afterRounds_zero (w : ℕ → R) (m : ℕ) (x : ℕ → R) (p : ℕ) : afterRounds w m x 0 p = x (bitReverse m p) := by
  simp [afterRounds, dft, Nat.mod_one]

/-- At last, they are the transform. -/
theorem afterRounds_self (w : ℕ → R) (x : ℕ → R) (hp : p < 2 ^ m) :
    afterRounds w m x m p = dft (w m) (2 ^ m) x p := by
  simp [afterRounds, Nat.mod_eq_of_lt hp]

/-- The even and the odd half of the values of a block. -/
theorem afterRounds_succ {w : ℕ → R} (h : IsDyadicRoot w) (hs : s < m) (b k : ℕ) :
    dft (w (s + 1)) (2 ^ (s + 1)) (fun t => x (t * 2 ^ (m - (s + 1)) + bitReverse (m - (s + 1)) b)) k =
      dft (w s) (2 ^ s) (fun t => x (t * 2 ^ (m - s) + bitReverse (m - s) (2 * b))) k +
        dft (w s) (2 ^ s) (fun t => x (t * 2 ^ (m - s) + bitReverse (m - s) (2 * b + 1))) k * w (s + 1) ^ k := by
  -- one bit fewer is reversed: it says which half a value is in
  obtain ⟨l, hl⟩ : ∃ l, m - s = l + 1 := ⟨m - s - 1, by omega⟩
  rw [show m - (s + 1) = l by omega, hl, pow_succ', dft_double, h.square]
  congr 2
  · funext t
    rw [bitReverse_double, pow_succ']
    congr 2
    ring
  · congr 1
    funext t
    rw [bitReverse_double_add_one, pow_succ']
    congr 1
    ring

/-- The values of a block after `s` rounds. -/
theorem afterRounds_block (w : ℕ → R) (m : ℕ) (x : ℕ → R) {c q : ℕ} (hq : q < 2 ^ s) :
    afterRounds w m x s (2 ^ s * c + q) =
      dft (w s) (2 ^ s) (fun t => x (t * 2 ^ (m - s) + bitReverse (m - s) c)) q := by
  rw [afterRounds, Nat.mul_add_div (Nat.two_pow_pos s), Nat.div_eq_of_lt hq, Nat.add_zero, Nat.mul_add_mod,
    Nat.mod_eq_of_lt hq]

/-- **A round.** -/
theorem butterflies_afterRounds {w : ℕ → R} (h : IsDyadicRoot w) (hs : s < m) (x : ℕ → R) (p : ℕ) :
    butterflies (w (s + 1)) (2 ^ s) (afterRounds w m x s) p = afterRounds w m x (s + 1) p := by
  -- the block of a position, and its place there
  obtain ⟨c, q, hq, rfl⟩ : ∃ c q, q < 2 ^ s ∧ p = 2 ^ s * c + q :=
    ⟨p / 2 ^ s, p % 2 ^ s, Nat.mod_lt _ (Nat.two_pow_pos s), (Nat.div_add_mod _ _).symm⟩
  have hpow : 2 ^ (s + 1) = 2 * 2 ^ s := pow_succ' 2 s
  -- a block of the half size is the first or the second half of its block
  rcases Nat.even_or_odd' c with ⟨b, rfl | rfl⟩
  · have hpos : 2 ^ s * (2 * b) + q = 2 ^ (s + 1) * b + q := by rw [hpow]; ring
    have hmod : (2 ^ s * (2 * b) + q) % (2 * 2 ^ s) = q := by
      rw [hpos, hpow, Nat.mul_add_mod, Nat.mod_eq_of_lt (by omega)]
    rw [butterflies, hmod, if_pos hq, show 2 ^ s * (2 * b) + q + 2 ^ s = 2 ^ s * (2 * b + 1) + q by ring,
      afterRounds_block w m x hq, afterRounds_block w m x hq, hpos, afterRounds_block w m x (by omega),
      afterRounds_succ h hs]
  · have hpos : 2 ^ s * (2 * b + 1) + q = 2 ^ (s + 1) * b + (q + 2 ^ s) := by rw [hpow]; ring
    have hmod : (2 ^ s * (2 * b + 1) + q) % (2 * 2 ^ s) = q + 2 ^ s := by
      rw [hpos, hpow, Nat.mul_add_mod, Nat.mod_eq_of_lt (by omega)]
    have hbefore : 2 ^ s * (2 * b + 1) + q - 2 ^ s = 2 ^ s * (2 * b) + q := by
      rw [Nat.mul_succ]
      omega
    rw [butterflies, hmod, if_neg (by omega), Nat.add_sub_cancel, hbefore, afterRounds_block w m x hq,
      afterRounds_block w m x hq, hpos, afterRounds_block w m x (by omega), afterRounds_succ h hs,
      dft_add_period (h.pow_eq_one s), dft_add_period (h.pow_eq_one s), pow_add, h.half s]
    ring

/-! ## A round in place -/

/-- The values after the first `b` pairs of blocks, and the first `k` pairs of values of the next, were joined. -/
def joined (w : R) (half : ℕ) (z : ℕ → R) (b k p : ℕ) : R :=
  if p / (2 * half) < b ∨ p / (2 * half) = b ∧ p % half < k then butterflies w half z p else z p

variable {half b k : ℕ}

theorem joined_zero (w : R) (half : ℕ) (z : ℕ → R) : joined w half z 0 0 = z := by
  funext p
  exact if_neg fun h => h.elim (Nat.not_lt_zero _) fun h => Nat.not_lt_zero _ h.2

/-- After all pairs of values of a pair of blocks, the next is to be joined. -/
theorem joined_half (hhalf : 0 < half) : joined w half z b half = joined w half z (b + 1) 0 := by
  funext p
  have hlt : p % half < half := Nat.mod_lt p hhalf
  rw [joined, joined]
  exact if_congr (by omega) rfl rfl

/-- After all pairs of blocks, the round is made. -/
theorem joined_all (hp : p < 2 * half * b) : joined w half z b 0 p = butterflies w half z p :=
  if_pos (.inl (Nat.div_lt_of_lt_mul hp))

/-- The two positions of a pair of values. -/
theorem pair_iff (hk : k < half) :
    p / (2 * half) = b ∧ p % half = k ↔ p = 2 * half * b + k ∨ p = 2 * half * b + k + half := by
  have hp := Nat.div_add_mod p (2 * half)
  constructor
  · rintro ⟨rfl, hmod⟩
    have hsplit : p % half = p % (2 * half) % half := (Nat.mod_mul_left_mod p 2 half).symm
    have hlt : p % (2 * half) < 2 * half := Nat.mod_lt p (by omega)
    -- the place in the pair of blocks is in the first block or the second
    rcases lt_or_ge (p % (2 * half)) half with hlow | hhigh
    · rw [Nat.mod_eq_of_lt hlow] at hsplit
      omega
    · have hrest : p % (2 * half) - half < half := by omega
      rw [Nat.mod_eq_sub_mod hhigh, Nat.mod_eq_of_lt hrest] at hsplit
      omega
  · have hblock : ∀ q, q < 2 * half → (2 * half * b + q) / (2 * half) = b := fun q hq => by
      rw [Nat.mul_add_div (by omega), Nat.div_eq_of_lt hq, Nat.add_zero]
    rintro (rfl | rfl)
    · refine ⟨hblock k (by omega), ?_⟩
      rw [Nat.mul_comm 2, Nat.mul_assoc, Nat.mul_add_mod, Nat.mod_eq_of_lt hk]
    · refine ⟨by rw [Nat.add_assoc]; exact hblock _ (by omega), ?_⟩
      rw [Nat.add_mod_right, Nat.mul_comm 2, Nat.mul_assoc, Nat.mul_add_mod, Nat.mod_eq_of_lt hk]

/-- **A pair of values** is joined in place. -/
theorem joined_succ (hk : k < half) :
    Function.update
        (Function.update (joined w half z b k) (2 * half * b + k)
          (joined w half z b k (2 * half * b + k) + joined w half z b k (2 * half * b + k + half) * w ^ k))
        (2 * half * b + k + half)
        (joined w half z b k (2 * half * b + k) - joined w half z b k (2 * half * b + k + half) * w ^ k) =
      joined w half z b (k + 1) := by
  have hfirst := (pair_iff hk).2 (.inl (rfl : 2 * half * b + k = 2 * half * b + k))
  have hsecond := (pair_iff hk).2 (.inr (rfl : 2 * half * b + k + half = 2 * half * b + k + half))
  -- neither of the two was joined before
  have hold : ∀ q, q / (2 * half) = b ∧ q % half = k → joined w half z b k q = z q :=
    fun q hq => if_neg (by omega)
  have hmod : (2 * half * b + k) % (2 * half) = k := by
    rw [Nat.mul_add_mod, Nat.mod_eq_of_lt (by omega)]
  have hmod' : (2 * half * b + k + half) % (2 * half) = k + half := by
    rw [Nat.add_assoc, Nat.mul_add_mod, Nat.mod_eq_of_lt (by omega)]
  rw [hold _ hfirst, hold _ hsecond]
  funext p
  by_cases hp₂ : p = 2 * half * b + k + half
  · subst hp₂
    rw [Function.update_self, joined, if_pos (by omega), butterflies, hmod', if_neg (by omega),
      Nat.add_sub_cancel, Nat.add_sub_cancel]
  · rw [Function.update_of_ne hp₂]
    by_cases hp₁ : p = 2 * half * b + k
    · subst hp₁
      rw [Function.update_self, joined, if_pos (by omega), butterflies, hmod, if_pos hk]
    · rw [Function.update_of_ne hp₁, joined, joined]
      have hother : ¬ (p / (2 * half) = b ∧ p % half = k) := fun h => ((pair_iff hk).1 h).elim hp₁ hp₂
      exact if_congr (by omega) rfl rfl

end DreamWeaver
