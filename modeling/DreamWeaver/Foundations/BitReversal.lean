import Mathlib.Data.Nat.Bitwise

/-! # The reversal of bits

`bitReverse m i` has the last `m` bits of `i` in the opposite order. It is its own inverse on the numbers below
`2 ^ m`, and its recursion takes the bits of `i` from the last to the first. -/

namespace DreamWeaver

/-- The last `m` bits of a number, in the opposite order. -/
def bitReverse : ℕ → ℕ → ℕ
  | 0, _ => 0
  | m + 1, i => 2 ^ m * (i % 2) + bitReverse m (i / 2)

variable {m i b : ℕ}

@[simp] theorem bitReverse_zero_left (i : ℕ) : bitReverse 0 i = 0 := rfl

@[simp] theorem bitReverse_zero_right (m : ℕ) : bitReverse m 0 = 0 := by
  induction m with
  | zero => rfl
  | succ m ih => rw [bitReverse, Nat.zero_mod, Nat.zero_div, ih, Nat.mul_zero]

theorem bitReverse_lt (m i : ℕ) : bitReverse m i < 2 ^ m := by
  induction m generalizing i with
  | zero => exact Nat.one_pos
  | succ m ih =>
    rw [bitReverse, pow_succ]
    have hbit : 2 ^ m * (i % 2) ≤ 2 ^ m * 1 := Nat.mul_le_mul_left _ (by omega)
    have hrest := ih (i / 2)
    omega

/-- **The bits of the reversal.** -/
theorem testBit_bitReverse (m i b : ℕ) :
    (bitReverse m i).testBit b = (decide (b < m) && i.testBit (m - 1 - b)) := by
  induction m generalizing i with
  | zero => simp
  | succ m ih =>
    rw [bitReverse, Nat.testBit_two_pow_mul_add _ (bitReverse_lt m _), ih]
    -- the bit is one of the rest, the last bit of the number, or beyond them
    rcases lt_trichotomy b m with hlt | rfl | hgt
    · rw [if_pos hlt, ← Nat.testBit_succ, show (m - 1 - b).succ = m + 1 - 1 - b by omega]
      simp [hlt, Nat.lt_succ_of_lt hlt]
    · simp [Nat.testBit_zero]
    · rw [if_neg (by omega), decide_eq_false (by omega), Bool.false_and]
      exact Nat.testBit_lt_two_pow ((Nat.mod_lt i Nat.two_pos).trans_le (Nat.le_self_pow (by omega) 2))

/-- The reversal is its own inverse. -/
theorem bitReverse_bitReverse (h : i < 2 ^ m) : bitReverse m (bitReverse m i) = i := by
  refine Nat.eq_of_testBit_eq fun b => ?_
  rw [testBit_bitReverse, testBit_bitReverse]
  by_cases hb : b < m
  · rw [show m - 1 - (m - 1 - b) = b by omega]
    simp [hb, show m - 1 - b < m by omega]
  · rw [decide_eq_false hb, Bool.false_and]
    exact (Nat.testBit_lt_two_pow (h.trans_le (Nat.pow_le_pow_right Nat.two_pos (by omega)))).symm

theorem bitReverse_double (m i : ℕ) : bitReverse (m + 1) (2 * i) = bitReverse m i := by
  rw [bitReverse, show 2 * i % 2 = 0 by omega, show 2 * i / 2 = i by omega, Nat.mul_zero, Nat.zero_add]

theorem bitReverse_double_add_one (m i : ℕ) : bitReverse (m + 1) (2 * i + 1) = 2 ^ m + bitReverse m i := by
  rw [bitReverse, show (2 * i + 1) % 2 = 1 by omega, show (2 * i + 1) / 2 = i by omega, Nat.mul_one]

/-! ## Permutations in place

A permutation that is its own inverse is made in place: at each position, from the first to the last, the value is
exchanged with that at the image of the position, if that comes later. -/

section InPlace

variable {α : Type*} {f : ℕ → ℕ} {n p : ℕ}

/-- The values after the first `i` positions. -/
def permuted (f : ℕ → ℕ) (x : ℕ → α) (i p : ℕ) : α := if p < i ∨ f p < i then x (f p) else x p

theorem permuted_zero (f : ℕ → ℕ) (x : ℕ → α) (p : ℕ) : permuted f x 0 p = x p :=
  if_neg fun h => h.elim (Nat.not_lt_zero _) (Nat.not_lt_zero _)

theorem permuted_all (x : ℕ → α) (hp : p < n) : permuted f x n p = x (f p) := if_pos (.inl hp)

/-- The values are exchanged. -/
theorem permuted_exchange (hinv : ∀ q < n, f (f q) = q) (x : ℕ → α) (hi : i < f i) (hn : i < n) (hp : p < n) :
    Function.update (Function.update (permuted f x i) i (permuted f x i (f i))) (f i) (permuted f x i i) p =
      permuted f x (i + 1) p := by
  have hback := hinv i hn
  have hfirst : permuted f x i i = x i := if_neg (by omega)
  have hsecond : permuted f x i (f i) = x (f i) := if_neg (by omega)
  -- neither position was exchanged before: the other of the two comes later
  rw [hfirst, hsecond]
  by_cases hp₂ : p = f i
  · subst hp₂
    rw [Function.update_self, permuted, if_pos (by omega), hback]
  · rw [Function.update_of_ne hp₂]
    by_cases hp₁ : p = i
    · subst hp₁
      rw [Function.update_self, permuted, if_pos (by omega)]
    · rw [Function.update_of_ne hp₁, permuted, permuted]
      have hother : f p ≠ i := fun h => hp₂ (h ▸ (hinv p hp).symm)
      exact if_congr (by omega) rfl rfl

/-- The value stays: it was exchanged before, or is where it belongs. -/
theorem permuted_stay (hinv : ∀ q < n, f (f q) = q) (x : ℕ → α) (hi : ¬ i < f i) (hn : i < n) (hp : p < n) :
    permuted f x i p = permuted f x (i + 1) p := by
  have hback := hinv i hn
  rw [permuted, permuted]
  -- a fixed point is the only position for which this pass makes a difference
  by_cases hlast : p = i ∧ f p = i
  · rw [if_neg (by omega), if_pos (by omega), hlast.2, hlast.1]
  · have hother : f p = i → f i = p := fun h => h ▸ hinv p hp
    refine if_congr ?_ rfl rfl
    constructor
    · omega
    · rintro (h | h)
      · by_cases hpi : p = i
        · subst hpi
          omega
        · omega
      · by_cases hfi : f p = i
        · have hpf := hother hfi
          omega
        · omega

end InPlace

end DreamWeaver
