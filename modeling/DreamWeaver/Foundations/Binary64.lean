import Mathlib.Data.Int.Log
import Mathlib.Data.Rat.Floor
import Mathlib.Algebra.Order.Floor.Ring
import Mathlib.Tactic.Linarith
import Mathlib.Tactic.NormNum
import Mathlib.Tactic.Ring
import Mathlib.Tactic.GCongr

/-! # Double-precision arithmetic on exact values

A finite double is modelled by the rational number it denotes, and an operation of the language on
doubles is the exact operation followed by `double`: rounding to the nearest multiple of the unit in
the last place, ties to even. Two facts carry the uses of it: integers up to `2 ^ 53` are not
changed, and the relative error of normal numbers is at most `2 ^ (-53)`. Magnitudes beyond the
largest double do not occur in the development and are not modelled. -/

namespace DreamWeaver

/-! ## Rounding to an integer -/

/-- The nearest integer, ties to even. -/
def roundHalfEven (x : ℚ) : ℤ :=
  if x - ⌊x⌋ < 1 / 2 then ⌊x⌋
  else if 1 / 2 < x - ⌊x⌋ then ⌊x⌋ + 1
  else if ⌊x⌋ % 2 = 0 then ⌊x⌋ else ⌊x⌋ + 1

/-- `|roundHalfEven x - x| ≤ 1 / 2`. -/
theorem abs_roundHalfEven_sub_le (x : ℚ) : |(roundHalfEven x : ℚ) - x| ≤ 1 / 2 := by
  have hfloor := Int.floor_le x
  unfold roundHalfEven
  split
  · rw [abs_le]
    constructor <;> linarith
  · split
    · have hlt := Int.lt_floor_add_one x
      rw [abs_le]
      push_cast
      constructor <;> linarith
    · have hhalf : x - ⌊x⌋ = 1 / 2 := by linarith
      split <;>
      · rw [abs_le]
        push_cast
        constructor <;> linarith

/-- An integer is its own nearest integer. -/
@[simp] theorem roundHalfEven_intCast (n : ℤ) : roundHalfEven (n : ℚ) = n := by
  simp [roundHalfEven]

/-- Rounding does not depend on the sign. -/
theorem roundHalfEven_neg (x : ℚ) : roundHalfEven (-x) = -roundHalfEven x := by
  have hlow := Int.floor_le x
  have hhigh := Int.lt_floor_add_one x
  have hlow' := Int.floor_le (-x)
  have hhigh' := Int.lt_floor_add_one (-x)
  -- the two floors add up to zero at an integer, and to one less elsewhere
  have hsum : ⌊x⌋ + ⌊-x⌋ ≤ 0 := by
    have hle : (⌊x⌋ : ℚ) + ⌊-x⌋ ≤ 0 := by linarith
    exact_mod_cast hle
  have hsum' : -2 < ⌊x⌋ + ⌊-x⌋ := by
    have hlt : (-2 : ℚ) < ⌊x⌋ + ⌊-x⌋ := by linarith
    exact_mod_cast hlt
  rcases (by omega : ⌊-x⌋ = -⌊x⌋ ∨ ⌊-x⌋ = -⌊x⌋ - 1) with hfloor | hfloor
  · have hx : x = ⌊x⌋ := by
      rw [hfloor] at hlow'
      push_cast at hlow'
      linarith
    rw [hx, ← Int.cast_neg, roundHalfEven_intCast, roundHalfEven_intCast]
  · unfold roundHalfEven
    rw [hfloor]
    push_cast
    by_cases hless : x - ⌊x⌋ < 1 / 2
    · rw [if_neg (by linarith), if_pos (by linarith), if_pos hless]
      omega
    · by_cases hmore : 1 / 2 < x - ⌊x⌋
      · rw [if_pos (by linarith), if_neg hless, if_pos hmore]
        omega
      · rw [if_neg (by linarith), if_neg (by linarith), if_neg hless, if_neg hmore]
        by_cases heven : ⌊x⌋ % 2 = 0
        · rw [if_neg (by omega), if_pos heven]
          omega
        · rw [if_pos (by omega), if_neg heven]
          omega

/-- Rounding is monotone. -/
theorem roundHalfEven_mono {x y : ℚ} (h : x ≤ y) : roundHalfEven x ≤ roundHalfEven y := by
  by_contra hlt
  have hgap : (roundHalfEven y : ℚ) + 1 ≤ roundHalfEven x := by
    exact_mod_cast Int.add_one_le_of_lt (not_le.mp hlt)
  have hx := (abs_le.mp (abs_roundHalfEven_sub_le x)).2
  have hy := (abs_le.mp (abs_roundHalfEven_sub_le y)).1
  have hxy : x = y := by linarith
  exact hlt (hxy ▸ le_rfl)

/-! ## Rounding to a double -/

/-- The exponent of the last place of the doubles next to a number. -/
def ulpExponent (x : ℚ) : ℤ := max (Int.log 2 |x|) (-1022) - 52

/-- The double nearest to a number. -/
def double (x : ℚ) : ℚ := roundHalfEven (x / 2 ^ ulpExponent x) * 2 ^ ulpExponent x

/-- The double next to a negated number. -/
theorem double_neg (x : ℚ) : double (-x) = -double x := by
  have hexp : ulpExponent (-x) = ulpExponent x := by rw [ulpExponent, abs_neg, ulpExponent]
  rw [double, hexp, neg_div, roundHalfEven_neg, double]
  push_cast
  ring

/-- Zero, or at least the smallest normal double in magnitude. -/
def Normal (x : ℚ) : Prop := x = 0 ∨ (2 : ℚ) ^ (-1022 : ℤ) ≤ |x|

/-- A multiple of the last place is a double. -/
theorem double_eq_self_of_multiple {x : ℚ} (m : ℤ) (h : x = m * 2 ^ ulpExponent x) :
    double x = x := by
  have hne : (2 : ℚ) ^ ulpExponent x ≠ 0 := (zpow_pos two_pos _).ne'
  have hquot : x / 2 ^ ulpExponent x = m := by
    rw [div_eq_iff hne]
    exact h
  rw [double, hquot, roundHalfEven_intCast]
  exact h.symm

/-- Zero is a double. -/
@[simp] theorem double_zero : double 0 = 0 :=
  double_eq_self_of_multiple 0 (by simp)

/-- The rounding error is at most half a unit in the last place. -/
theorem abs_double_sub_le_ulp (x : ℚ) : |double x - x| ≤ 2 ^ (ulpExponent x) / 2 := by
  have hpos : (0 : ℚ) < 2 ^ ulpExponent x := zpow_pos two_pos _
  have hsplit : double x - x =
      (roundHalfEven (x / 2 ^ ulpExponent x) - x / 2 ^ ulpExponent x) * 2 ^ ulpExponent x := by
    rw [double, sub_mul, div_mul_cancel₀ _ hpos.ne']
  rw [hsplit, abs_mul, abs_of_pos hpos]
  calc |(roundHalfEven (x / 2 ^ ulpExponent x) : ℚ) - x / 2 ^ ulpExponent x| * 2 ^ ulpExponent x
      ≤ 1 / 2 * 2 ^ ulpExponent x :=
        mul_le_mul_of_nonneg_right (abs_roundHalfEven_sub_le _) hpos.le
    _ = 2 ^ ulpExponent x / 2 := by ring

/-- **Relative error**: `|double x - x| ≤ |x| / 2 ^ 53` for a normal `x`. -/
theorem abs_double_sub_le {x : ℚ} (hx : Normal x) : |double x - x| ≤ |x| / 2 ^ 53 := by
  rcases hx with rfl | hx
  · simp
  · have hpos : 0 < |x| := lt_of_lt_of_le (zpow_pos two_pos _) hx
    have hlog : -1022 ≤ Int.log 2 |x| := (Int.zpow_le_iff_le_log one_lt_two hpos).mp hx
    have hexp : ulpExponent x = Int.log 2 |x| - 52 := by rw [ulpExponent, max_eq_left hlog]
    have hself : (2 : ℚ) ^ Int.log 2 |x| ≤ |x| := Int.zpow_log_le_self one_lt_two hpos
    calc |double x - x| ≤ 2 ^ ulpExponent x / 2 := abs_double_sub_le_ulp x
      _ = 2 ^ Int.log 2 |x| / 2 ^ 53 := by
          rw [hexp, zpow_sub₀ two_ne_zero]
          norm_num
          ring
      _ ≤ |x| / 2 ^ 53 := by gcongr

/-! ## Accumulated errors -/

/-- `x` differs from `y` by at most `k` parts in `2 ^ 53`, and `y` is zero or not tiny. -/
structure Approx (k : ℕ) (x y : ℚ) : Prop where
  close : |x - y| ≤ k * y / 2 ^ 53
  not_tiny : y = 0 ∨ 1 / 10 ^ 9 ≤ y

namespace Approx

variable {k l : ℕ} {x x' y y' : ℚ}

theorem nonneg (h : Approx k x y) : 0 ≤ y := by
  rcases h.not_tiny with rfl | hy
  · exact le_rfl
  · exact le_trans (by norm_num) hy

/-- A number is close to itself. -/
theorem refl (hy : y = 0 ∨ 1 / 10 ^ 9 ≤ y) : Approx 0 y y := ⟨by simp, hy⟩

theorem mono (h : Approx k x y) (hkl : k ≤ l) : Approx l x y where
  close := by
    have hcast : (k : ℚ) ≤ l := by exact_mod_cast hkl
    have := h.nonneg
    exact h.close.trans (by gcongr)
  not_tiny := h.not_tiny

/-- Errors of sums. -/
theorem add (h : Approx k x y) (h' : Approx k x' y') : Approx k (x + x') (y + y') where
  close := by
    calc |x + x' - (y + y')| = |(x - y) + (x' - y')| := by ring_nf
      _ ≤ |x - y| + |x' - y'| := abs_add_le _ _
      _ ≤ k * y / 2 ^ 53 + k * y' / 2 ^ 53 := add_le_add h.close h'.close
      _ = k * (y + y') / 2 ^ 53 := by ring
  not_tiny := by
    have hy := h.nonneg
    have hy' := h'.nonneg
    rcases h.not_tiny with rfl | hbig
    · rw [zero_add]
      exact h'.not_tiny
    · exact Or.inr (hbig.trans (le_add_of_nonneg_right hy'))

/-- Errors of multiples. -/
theorem nat_mul (h : Approx k x y) (n : ℕ) : Approx k (n * x) (n * y) where
  close := by
    have hn : (0 : ℚ) ≤ n := n.cast_nonneg
    calc |n * x - n * y| = n * |x - y| := by rw [← mul_sub, abs_mul, abs_of_nonneg hn]
      _ ≤ n * (k * y / 2 ^ 53) := mul_le_mul_of_nonneg_left h.close hn
      _ = k * (n * y) / 2 ^ 53 := by ring
  not_tiny := by
    rcases Nat.eq_zero_or_pos n with rfl | hn
    · exact Or.inl (by simp)
    rcases h.not_tiny with rfl | hbig
    · exact Or.inl (by simp)
    · have hone : (1 : ℚ) ≤ n := by exact_mod_cast hn
      exact Or.inr (hbig.trans (le_mul_of_one_le_left h.nonneg hone))

/-- **Rounding to a double adds two parts.** -/
theorem double (h : Approx k x y) (hk : k ≤ 2 ^ 20) : Approx (k + 2) (double x) y := by
  have hy := h.nonneg
  have hkq : (k : ℚ) ≤ 2 ^ 20 := by exact_mod_cast hk
  have hclose : |x - y| ≤ y / 2 := by
    refine h.close.trans ?_
    rw [div_le_div_iff₀ (by norm_num) (by norm_num)]
    nlinarith
  obtain ⟨hlow, hhigh⟩ := abs_le.mp hclose
  have hnormal : Normal x := by
    rcases h.not_tiny with rfl | hbig
    · exact Or.inl (by linarith)
    · right
      have hsmall : (2 : ℚ) ^ (-1022 : ℤ) ≤ 1 / 10 ^ 9 / 2 := by
        calc (2 : ℚ) ^ (-1022 : ℤ) ≤ 2 ^ (-31 : ℤ) := zpow_le_zpow_right₀ one_le_two (by norm_num)
          _ ≤ 1 / 10 ^ 9 / 2 := by norm_num
      have hx : y / 2 ≤ x := by linarith
      rw [abs_of_nonneg (by linarith)]
      linarith
  have hround := abs_double_sub_le hnormal
  have habs : |x| ≤ 2 * y := by
    rw [abs_of_nonneg (by linarith)]
    linarith
  refine ⟨?_, h.not_tiny⟩
  calc |DreamWeaver.double x - y| ≤ |DreamWeaver.double x - x| + |x - y| := abs_sub_le _ _ _
    _ ≤ |x| / 2 ^ 53 + k * y / 2 ^ 53 := add_le_add hround h.close
    _ ≤ 2 * y / 2 ^ 53 + k * y / 2 ^ 53 := by gcongr
    _ = (k + 2 : ℕ) * y / 2 ^ 53 := by push_cast; ring

end Approx

/-! ## Rounding on a grid -/

/-- A grid point above a number stays above it after rounding on a finer grid. -/
theorem double_le_of_le_grid {x b : ℚ} (m : ℤ) (hb : b = m * 2 ^ ulpExponent x) (h : x ≤ b) :
    double x ≤ b := by
  have hpos : (0 : ℚ) < 2 ^ ulpExponent x := zpow_pos two_pos _
  have hquot : x / 2 ^ ulpExponent x ≤ m := by rwa [div_le_iff₀ hpos, ← hb]
  have hround : roundHalfEven (x / 2 ^ ulpExponent x) ≤ m := by
    simpa using roundHalfEven_mono hquot
  rw [double, hb]
  exact mul_le_mul_of_nonneg_right (by exact_mod_cast hround) hpos.le

/-- A grid point below a number stays below it after rounding. -/
theorem le_double_of_grid_le {x b : ℚ} (m : ℤ) (hb : b = m * 2 ^ ulpExponent x) (h : b ≤ x) :
    b ≤ double x := by
  have hpos : (0 : ℚ) < 2 ^ ulpExponent x := zpow_pos two_pos _
  have hquot : (m : ℚ) ≤ x / 2 ^ ulpExponent x := by rwa [le_div_iff₀ hpos, ← hb]
  have hround : m ≤ roundHalfEven (x / 2 ^ ulpExponent x) := by
    simpa using roundHalfEven_mono hquot
  rw [double, hb]
  exact mul_le_mul_of_nonneg_right (by exact_mod_cast hround) hpos.le

/-- A power of two is a point of every finer grid of powers of two. -/
theorem zpow_two_eq_mul {e l : ℤ} (h : e ≤ l) : (2 : ℚ) ^ l = ((2 ^ (l - e).toNat : ℤ) : ℚ) * 2 ^ e := by
  push_cast
  rw [← zpow_natCast, ← zpow_add₀ two_ne_zero]
  congr 1
  omega

/-- **Rounding to a double is monotone** on the numbers that are not negative. -/
theorem double_mono {x y : ℚ} (hx : 0 ≤ x) (h : x ≤ y) : double x ≤ double y := by
  rcases hx.eq_or_lt with rfl | hpos
  · rw [double_zero]
    exact le_double_of_grid_le 0 (by simp) h
  have hy : 0 < y := hpos.trans_le h
  have hlog : Int.log 2 x ≤ Int.log 2 y := Int.log_mono_right hpos h
  have hexp : ulpExponent x ≤ ulpExponent y := by
    rw [ulpExponent, ulpExponent, abs_of_pos hpos, abs_of_pos hy]
    omega
  rcases hexp.eq_or_lt with heq | hlt
  · rw [double, double, heq]
    refine mul_le_mul_of_nonneg_right ?_ (zpow_pos two_pos _).le
    exact_mod_cast roundHalfEven_mono (div_le_div_of_nonneg_right h (zpow_pos two_pos _).le)
  · -- a power of two lies between the two numbers, on both grids
    have hxexp : ulpExponent x = max (Int.log 2 x) (-1022) - 52 := by
      rw [ulpExponent, abs_of_pos hpos]
    have hyexp : ulpExponent y = max (Int.log 2 y) (-1022) - 52 := by
      rw [ulpExponent, abs_of_pos hy]
    have hxlog : Int.log 2 x < Int.log 2 y := by omega
    have hbelow : (2 : ℚ) ^ Int.log 2 y ≤ y := Int.zpow_log_le_self one_lt_two hy
    have habove : x ≤ (2 : ℚ) ^ Int.log 2 y := by
      have := (Int.lt_zpow_iff_log_lt one_lt_two hpos).mpr hxlog
      exact this.le
    exact (double_le_of_le_grid _ (zpow_two_eq_mul (by omega)) habove).trans
      (le_double_of_grid_le _ (zpow_two_eq_mul (by omega)) hbelow)

theorem double_nonneg {x : ℚ} (h : 0 ≤ x) : 0 ≤ double x := double_zero.symm.trans_le (double_mono le_rfl h)

/-- A positive number is below the power of two behind its last place. -/
theorem lt_zpow_ulpExponent {x : ℚ} (hx : 0 < x) : x < 2 ^ (ulpExponent x + 53) := by
  have hlog : Int.log 2 x < ulpExponent x + 53 := by
    rw [ulpExponent, abs_of_pos hx]
    omega
  exact (Int.lt_zpow_iff_log_lt one_lt_two hx).mpr hlog

/-- **What was rounded is not rounded again.** -/
theorem double_double (x : ℚ) : double (double x) = double x := by
  have hpositive : ∀ x : ℚ, 0 < x → double (double x) = double x := by
    intro x hx
    have hle : double x ≤ 2 ^ (ulpExponent x + 53) :=
      double_le_of_le_grid _ (zpow_two_eq_mul (by omega)) (lt_zpow_ulpExponent hx).le
    have hnonneg : 0 ≤ double x := le_double_of_grid_le 0 (by simp) hx.le
    rcases hnonneg.eq_or_lt with hzero | hpos
    · rw [← hzero, double_zero]
    have hlow : -1074 ≤ ulpExponent x := by
      unfold ulpExponent
      omega
    rcases hle.lt_or_eq with hlt | heq
    · -- the result lies on a finer grid
      have hlog : Int.log 2 (double x) < ulpExponent x + 53 :=
        (Int.lt_zpow_iff_log_lt one_lt_two hpos).mp hlt
      have hexp : ulpExponent (double x) ≤ ulpExponent x := by
        have hdef : ulpExponent (double x) = max (Int.log 2 (double x)) (-1022) - 52 := by
          rw [ulpExponent, abs_of_pos hpos]
        omega
      refine double_eq_self_of_multiple
        (roundHalfEven (x / 2 ^ ulpExponent x) * 2 ^ (ulpExponent x - ulpExponent (double x)).toNat) ?_
      calc double x = roundHalfEven (x / 2 ^ ulpExponent x) * 2 ^ ulpExponent x := rfl
        _ = roundHalfEven (x / 2 ^ ulpExponent x) *
            (((2 ^ (ulpExponent x - ulpExponent (double x)).toNat : ℤ) : ℚ) * 2 ^ ulpExponent (double x)) := by
          rw [← zpow_two_eq_mul hexp]
        _ = _ := by rw [Int.cast_mul, mul_assoc]
    · -- the result is the next power of two
      have hexp : ulpExponent (double x) = ulpExponent x + 1 := by
        have hlog : Int.log 2 (double x) = ulpExponent x + 53 := by
          have hpow := Int.log_zpow (R := ℚ) one_lt_two (ulpExponent x + 53)
          rw [heq]
          exact_mod_cast hpow
        rw [ulpExponent, abs_of_pos hpos, hlog]
        omega
      refine double_eq_self_of_multiple _ (heq.trans (zpow_two_eq_mul ?_))
      omega
  rcases lt_trichotomy x 0 with hneg | rfl | hpos
  · have hself := hpositive (-x) (by linarith)
    rw [double_neg, double_neg] at hself
    exact neg_inj.mp hself
  · rw [double_zero, double_zero]
  · exact hpositive x hpos

/-- Below the overflow threshold, the nearest double is the largest one at most. -/
theorem double_le_largest {x : ℚ} (hx : 0 < x) (h : x < 2 ^ 1024 - 2 ^ 970) :
    double x ≤ 2 ^ 1024 - 2 ^ 971 := by
  have hpow : x < 2 ^ 1024 := h.trans (sub_lt_self _ (pow_pos two_pos _))
  have hlog : Int.log 2 x < (1024 : ℕ) := by
    refine (Int.lt_zpow_iff_log_lt one_lt_two hx).mp ?_
    rw [zpow_natCast]
    exact hpow
  have hexp : ulpExponent x ≤ 971 := by
    rw [ulpExponent, abs_of_pos hx]
    omega
  rcases hexp.lt_or_eq with hlt | heq
  · -- the number lies in a lower binade
    have hle : double x ≤ (2 : ℚ) ^ ((1023 : ℕ) : ℤ) := by
      refine double_le_of_le_grid _ (zpow_two_eq_mul (by omega)) ?_
      refine (lt_zpow_ulpExponent hx).le.trans ?_
      exact zpow_le_zpow_right₀ one_le_two (by omega)
    rw [zpow_natCast] at hle
    have hsmall : (2 : ℚ) ^ 971 < 2 ^ 1023 := pow_lt_pow_right₀ one_lt_two (by decide)
    have hdouble : (2 : ℚ) ^ 1024 = 2 ^ 1023 + 2 ^ 1023 := by rw [← two_mul, ← pow_succ']
    rw [hdouble, add_sub_assoc]
    exact hle.trans (le_add_of_nonneg_right (sub_nonneg.mpr hsmall.le))
  · -- in the topmost binade, half a unit is the threshold
    have hsplit : (2 : ℚ) ^ 1024 - 2 ^ 970 = (2 ^ 53 - 1 / 2) * 2 ^ 971 := by
      have h971 : (2 : ℚ) ^ 971 = 2 * 2 ^ 970 := by rw [← pow_succ']
      have h1024 : (2 : ℚ) ^ 1024 = 2 ^ 53 * 2 ^ 971 := by rw [← pow_add]
      rw [h1024, sub_mul, h971, ← mul_assoc (1 / 2), div_mul_cancel₀ _ two_ne_zero, one_mul]
    have hpos : (0 : ℚ) < 2 ^ 971 := pow_pos two_pos _
    have hunit : (2 : ℚ) ^ ulpExponent x = 2 ^ 971 := by
      rw [heq]
      exact zpow_natCast 2 971
    have hquot : x / 2 ^ 971 < 2 ^ 53 - 1 / 2 := (div_lt_iff₀ hpos).mpr (h.trans_eq hsplit)
    have hround := (abs_le.mp (abs_roundHalfEven_sub_le (x / 2 ^ 971))).2
    have hint : roundHalfEven (x / 2 ^ 971) ≤ 2 ^ 53 - 1 := by
      have hlt : (roundHalfEven (x / 2 ^ 971) : ℚ) < 2 ^ 53 := by linarith
      have hlt' : roundHalfEven (x / 2 ^ 971) < 2 ^ 53 := by exact_mod_cast hlt
      omega
    have hcast : (roundHalfEven (x / 2 ^ 971) : ℚ) ≤ 2 ^ 53 - 1 := by exact_mod_cast hint
    have hlargest : (2 : ℚ) ^ 1024 - 2 ^ 971 = (2 ^ 53 - 1) * 2 ^ 971 := by
      have h1024 : (2 : ℚ) ^ 1024 = 2 ^ 53 * 2 ^ 971 := by rw [← pow_add]
      rw [sub_mul, h1024, one_mul]
    rw [double, hunit, hlargest]
    exact mul_le_mul_of_nonneg_right hcast hpos.le

/-- Below the overflow threshold, the nearest double is below it too. -/
theorem double_lt_threshold {x : ℚ} (hx : 0 < x) (h : x < 2 ^ 1024 - 2 ^ 970) :
    double x < 2 ^ 1024 - 2 ^ 970 :=
  (double_le_largest hx h).trans_lt (sub_lt_sub_left (pow_lt_pow_right₀ one_lt_two (by decide)) _)

/-- **Integers up to `2 ^ 53` are doubles.** -/
theorem double_intCast {n : ℤ} (hn : |n| ≤ 2 ^ 53) : double n = n := by
  rcases eq_or_ne n 0 with rfl | hzero
  · simp
  have habs : |(n : ℚ)| = (n.natAbs : ℚ) := by
    rw [Nat.cast_natAbs, Int.cast_abs]
  have hle : n.natAbs ≤ 2 ^ 53 := by
    rw [Int.abs_eq_natAbs] at hn
    exact_mod_cast hn
  have hexp : ulpExponent (n : ℚ) = (Nat.log 2 n.natAbs : ℤ) - 52 := by
    rw [ulpExponent, habs, Int.log_natCast, max_eq_left (by omega)]
  rcases Nat.lt_or_ge (Nat.log 2 n.natAbs) 53 with hlog | hlog
  · refine double_eq_self_of_multiple (n * 2 ^ (52 - Nat.log 2 n.natAbs)) ?_
    rw [hexp]
    have hcancel : (2 : ℚ) ^ (52 - Nat.log 2 n.natAbs) * 2 ^ ((Nat.log 2 n.natAbs : ℤ) - 52) = 1 := by
      rw [← zpow_natCast, ← zpow_add₀ two_ne_zero]
      have : ((52 - Nat.log 2 n.natAbs : ℕ) : ℤ) + ((Nat.log 2 n.natAbs : ℤ) - 52) = 0 := by omega
      rw [this, zpow_zero]
    push_cast
    rw [mul_assoc, hcancel, mul_one]
  · have hge : 2 ^ 53 ≤ n.natAbs := by
      have := Nat.pow_log_le_self 2 (Int.natAbs_ne_zero.mpr hzero)
      exact (Nat.pow_le_pow_right two_pos hlog).trans this
    have heq : n.natAbs = 2 ^ 53 := le_antisymm hle hge
    have hexp1 : ulpExponent (n : ℚ) = 1 := by
      rw [hexp, heq, Nat.log_pow one_lt_two]
      norm_num
    refine double_eq_self_of_multiple (n / 2) ?_
    have heven : n = n / 2 * 2 := by omega
    rw [hexp1, zpow_one]
    exact_mod_cast heven

/-- Natural numbers up to `2 ^ 53` are doubles. -/
theorem double_natCast {n : ℕ} (hn : n ≤ 2 ^ 53) : double (n : ℚ) = n := by
  have h := double_intCast (n := n) (by rw [Nat.abs_cast]; exact_mod_cast hn)
  exact_mod_cast h

/-- **Halves of integers up to `2 ^ 52` are doubles.** -/
theorem double_half {n : ℤ} (hn : |n| < 2 ^ 52) : double ((n : ℚ) / 2) = n / 2 := by
  rcases eq_or_ne n 0 with rfl | hzero
  · simp
  have hpos : 0 < |(n : ℚ) / 2| := by
    rw [abs_pos]
    exact div_ne_zero (Int.cast_ne_zero.mpr hzero) two_ne_zero
  have hlt : |(n : ℚ) / 2| < 2 ^ ((51 : ℕ) : ℤ) := by
    have hcast : |(n : ℚ)| < 2 ^ 52 := by exact_mod_cast hn
    rw [abs_div, abs_of_pos (two_pos : (0 : ℚ) < 2), div_lt_iff₀ two_pos, zpow_natCast]
    linarith
  have hlog : Int.log 2 |(n : ℚ) / 2| < (51 : ℕ) := (Int.lt_zpow_iff_log_lt one_lt_two hpos).mp hlt
  have hexp : ulpExponent ((n : ℚ) / 2) ≤ -1 := by
    unfold ulpExponent
    omega
  refine double_eq_self_of_multiple (n * 2 ^ (-1 - ulpExponent ((n : ℚ) / 2)).toNat) ?_
  have hunit := zpow_two_eq_mul hexp
  calc (n : ℚ) / 2 = n * 2 ^ (-1 : ℤ) := by rw [zpow_neg_one, div_eq_mul_inv]
    _ = n * (((2 ^ (-1 - ulpExponent ((n : ℚ) / 2)).toNat : ℤ) : ℚ) * 2 ^ ulpExponent ((n : ℚ) / 2)) := by
      rw [← hunit]
    _ = _ := by rw [Int.cast_mul, mul_assoc]

end DreamWeaver
