import DreamWeaver.Foundations.JsValue
import DreamWeaver.Foundations.IsoDate

/-! # Arithmetic on numbers

The operators on numbers beyond addition, and the functions of `Math` that the program uses. There
is one zero: where the sign of a zero divisor matters, it is positive. -/

namespace DreamWeaver

namespace JsNumber

/-- The infinity of a sign. -/
def infinite (negative : Bool) : JsNumber := if negative then .negInfinity else .posInfinity

/-- `x * y` -/
def mul : JsNumber → JsNumber → JsNumber
  | .finite x, .finite y => .ofExact (x * y)
  | .nan, _ => .nan
  | _, .nan => .nan
  | .finite x, .posInfinity => if x = 0 then .nan else infinite (x < 0)
  | .finite x, .negInfinity => if x = 0 then .nan else infinite (0 < x)
  | .posInfinity, .finite y => if y = 0 then .nan else infinite (y < 0)
  | .negInfinity, .finite y => if y = 0 then .nan else infinite (0 < y)
  | .posInfinity, y => y
  | .negInfinity, .posInfinity => .negInfinity
  | .negInfinity, .negInfinity => .posInfinity

/-- `x / y` -/
def div : JsNumber → JsNumber → JsNumber
  | .finite x, .finite y =>
    if y = 0 then (if x = 0 then .nan else infinite (x < 0)) else .ofExact (x / y)
  | .nan, _ => .nan
  | _, .nan => .nan
  | .finite _, _ => .finite 0
  | .posInfinity, .finite y => infinite (y < 0)
  | .negInfinity, .finite y => infinite (0 ≤ y)
  | _, _ => .nan

/-- `Math.round(x)`: halves go up. -/
def round : JsNumber → JsNumber
  | .finite x => .finite ⌊x + 1 / 2⌋
  | x => x

/-- `Math.min(100, Math.max(0, x))` -/
def percent : JsNumber → JsNumber
  | .nan => .nan
  | .negInfinity => .finite 0
  | .posInfinity => .finite 100
  | .finite x => .finite (min 100 (max 0 x))

/-- `Math.min(bound, x)` -/
def atMost (bound : ℚ) : JsNumber → JsNumber
  | .nan => .nan
  | .negInfinity => .negInfinity
  | .posInfinity => .finite bound
  | .finite x => .finite (min bound x)

/-- `Math.max(bound, x)` -/
def noLess (bound : ℚ) : JsNumber → JsNumber
  | .nan => .nan
  | .negInfinity => .finite bound
  | .posInfinity => .posInfinity
  | .finite x => .finite (max bound x)

/-- `Math.floor(x)` -/
def floor : JsNumber → JsNumber
  | .finite x => .finite ⌊x⌋
  | x => x

/-- `Math.abs(x)` -/
def abs : JsNumber → JsNumber
  | .nan => .nan
  | .finite x => .finite |x|
  | _ => .posInfinity

/-- `x - y` -/
def sub (x y : JsNumber) : JsNumber := x.add (.mul (.finite (-1)) y)

/-- `bound < x` for a finite bound. -/
def exceeds (x : JsNumber) (bound : ℚ) : Bool := x.atLeast bound && x != .finite bound

/-- `x || 0` -/
def orZero : Option JsNumber → JsNumber
  | none => .finite 0
  | some .nan => .finite 0
  | some x => x

/-- The integer part of a number, the nearer to zero. -/
def trunc (x : ℚ) : ℤ := if 0 ≤ x then ⌊x⌋ else ⌈x⌉

/-- `new Date(x)`, `none` for an invalid date. -/
def toDate : JsNumber → Option Time
  | .finite x => if h : |trunc x| ≤ 8640000000000000 then some ⟨trunc x, h⟩ else none
  | _ => none

/-! ## Results that are numbers -/

section Numbers

variable {x : JsNumber} {a b : ℚ}

theorem ofExact_ne_nan (a : ℚ) : JsNumber.ofExact a ≠ .nan := by
  unfold JsNumber.ofExact
  split
  · split <;> exact JsNumber.noConfusion
  · exact JsNumber.noConfusion

/-- A sum of a number that is not NaN with a finite one is not NaN. -/
theorem add_finite_ne_nan (hx : x ≠ .nan) (b : ℚ) : x.add (.finite b) ≠ .nan := by
  cases x with
  | nan => exact absurd rfl hx
  | finite a => exact ofExact_ne_nan _
  | negInfinity => exact JsNumber.noConfusion
  | posInfinity => exact JsNumber.noConfusion

theorem orZero_ne_nan (value : Option JsNumber) : orZero value ≠ .nan := by
  cases value with
  | none => exact JsNumber.noConfusion
  | some x => cases x <;> exact JsNumber.noConfusion

/-- A value that is not NaN is its own `x || 0`. -/
theorem orZero_some (hx : x ≠ .nan) : orZero (some x) = x := by
  cases x with
  | nan => exact absurd rfl hx
  | finite a => rfl
  | negInfinity => rfl
  | posInfinity => rfl

/-- What is not negative is rounded to its double, or to an infinity. -/
theorem ofExact_nonneg (h : 0 ≤ a) :
    JsNumber.ofExact a = .posInfinity ∨ JsNumber.ofExact a = .finite (double a) := by
  unfold JsNumber.ofExact
  split
  · exact .inl (if_neg (not_lt.mpr h))
  · exact .inr rfl

/-- What is neither negative nor too large is rounded to a number that is not negative. -/
theorem exists_ofExact_nonneg (hzero : 0 ≤ a) (hsmall : a ≤ 2 ^ 1023) :
    ∃ c, JsNumber.ofExact a = .finite c ∧ 0 ≤ c :=
  ⟨double a, JsNumber.ofExact_of_abs_le (by rwa [abs_of_nonneg hzero]), double_nonneg hzero⟩

/-- What lies between 0 and 1 is rounded to a number between 0 and 1. -/
theorem exists_ofExact_unit (hzero : 0 ≤ a) (hone : a ≤ 1) :
    ∃ c, JsNumber.ofExact a = .finite c ∧ 0 ≤ c ∧ c ≤ 1 := by
  have hsmall : |a| ≤ 2 ^ 1023 := by
    rw [abs_of_nonneg hzero]
    exact hone.trans (one_le_pow₀ one_le_two)
  refine ⟨double a, JsNumber.ofExact_of_abs_le hsmall, ?_, ?_⟩
  · exact double_nonneg hzero
  · have hmono := double_mono hzero hone
    rwa [show (1 : ℚ) = (1 : ℕ) from Nat.cast_one.symm, double_natCast (by norm_num)] at hmono

theorem infinite_ne_nan (negative : Bool) : infinite negative ≠ .nan := by
  cases negative <;> exact JsNumber.noConfusion

/-- A number and one more are no more than the largest number. -/
theorem exists_add_one (ha : JsNumber.ofExact a = .finite a) (hnonneg : 0 ≤ a) :
    ∃ c, (JsNumber.finite a).add (.finite 1) = .finite c := by
  have hlarge : ¬ 2 ^ 1024 - 2 ^ 970 ≤ |a + 1| := by
    have hbelow : a ≤ 2 ^ 1024 - 2 ^ 971 := by
      rcases hnonneg.eq_or_lt with rfl | hpos
      · exact sub_nonneg.mpr (pow_le_pow_right₀ one_le_two (by decide))
      · unfold JsNumber.ofExact at ha
        split at ha
        · split at ha <;> cases ha
        · rename_i hsmall
          rw [abs_of_pos hpos, not_le] at hsmall
          rw [← JsNumber.finite.inj ha]
          exact double_le_largest hpos hsmall
    have hgap : (2 : ℚ) ^ 970 + 2 ^ 970 = 2 ^ 971 := by rw [← two_mul, ← pow_succ']
    have hone : (1 : ℚ) < 2 ^ 970 := one_lt_pow₀ one_lt_two (by decide)
    rw [not_le, abs_of_nonneg (add_nonneg hnonneg zero_le_one)]
    generalize (2 : ℚ) ^ 1024 = threshold at hbelow ⊢
    generalize (2 : ℚ) ^ 970 = gap at hgap hone ⊢
    rw [← hgap] at hbelow
    linarith only [hbelow, hone]
  exact ⟨double (a + 1), if_neg hlarge⟩

theorem div_finite_ne_nan (hx : x ≠ .nan) (hb : b ≠ 0) : x.div (.finite b) ≠ .nan := by
  cases x with
  | nan => exact absurd rfl hx
  | finite a =>
    rw [div, if_neg hb]
    exact ofExact_ne_nan _
  | negInfinity => exact infinite_ne_nan _
  | posInfinity => exact infinite_ne_nan _

theorem mul_finite_ne_nan (hx : x ≠ .nan) (hb : b ≠ 0) : x.mul (.finite b) ≠ .nan := by
  cases x with
  | nan => exact absurd rfl hx
  | finite a => exact ofExact_ne_nan _
  | negInfinity =>
    rw [mul, if_neg hb]
    exact infinite_ne_nan _
  | posInfinity =>
    rw [mul, if_neg hb]
    exact infinite_ne_nan _

theorem round_ne_nan (hx : x ≠ .nan) : x.round ≠ .nan := by
  cases x with
  | nan => exact absurd rfl hx
  | finite a => exact JsNumber.noConfusion
  | negInfinity => exact JsNumber.noConfusion
  | posInfinity => exact JsNumber.noConfusion

end Numbers

/-! ## Halves of integers -/

/-- Half of an integer. -/
def half (n : ℤ) : JsNumber := .finite (n / 2)

variable {m n : ℤ}

theorem half_injective : Function.Injective half := by
  intro m n h
  have heq : (m : ℚ) / 2 = n / 2 := JsNumber.finite.inj h
  have hcast : (m : ℚ) = n := by linarith
  exact_mod_cast hcast

/-- A half that is not too large is exact. -/
theorem ofExact_half (hn : |n| < 2 ^ 52) : JsNumber.ofExact ((n : ℚ) / 2) = half n := by
  have hsmall : |(n : ℚ) / 2| ≤ 2 ^ 1023 := by
    have hcast : |(n : ℚ)| < 2 ^ 52 := by exact_mod_cast hn
    have hpow : (2 : ℚ) ^ 52 ≤ 2 ^ 1023 := pow_le_pow_right₀ one_le_two (by decide)
    rw [abs_div, abs_of_pos (two_pos : (0 : ℚ) < 2)]
    exact (half_le_self (abs_nonneg _)).trans (hcast.le.trans hpow)
  rw [JsNumber.ofExact_of_abs_le hsmall, double_half hn, half]

/-- **Halves are added exactly.** -/
theorem half_add_half (h : |m + n| < 2 ^ 52) : (half m).add (half n) = half (m + n) := by
  rw [← ofExact_half h]
  show JsNumber.ofExact (m / 2 + n / 2) = _
  rw [← add_div]
  push_cast
  rfl

/-- **Rounding to tenths** does not change a half. -/
theorem roundTenth_half (h : |n| < 2 ^ 48) :
    (((half n).mul (.finite 10)).round).div (.finite 10) = half n := by
  have hmul : (half n).mul (.finite 10) = .finite ((5 * n : ℤ) : ℚ) := by
    show JsNumber.ofExact ((n : ℚ) / 2 * 10) = _
    have hten : |5 * n * 2| < 2 ^ 52 := by
      rw [abs_lt] at h ⊢
      omega
    have hexact := ofExact_half hten
    rw [half] at hexact
    have heq : (n : ℚ) / 2 * 10 = ((5 * n * 2 : ℤ) : ℚ) / 2 := by
      push_cast
      ring
    rw [heq, hexact]
    congr 1
    push_cast
    ring
  have hround : (JsNumber.finite ((5 * n : ℤ) : ℚ)).round = .finite ((5 * n : ℤ) : ℚ) := by
    rw [round, Int.floor_intCast_add]
    norm_num
  have hdiv : (JsNumber.finite ((5 * n : ℤ) : ℚ)).div (.finite 10) =
      JsNumber.ofExact (((5 * n : ℤ) : ℚ) / 10) := by
    rw [div, if_neg (by norm_num)]
  have heq : ((5 * n : ℤ) : ℚ) / 10 = n / 2 := by
    push_cast
    ring
  rw [hmul, hround, hdiv, heq, ofExact_half (h.trans (by norm_num))]

end JsNumber

end DreamWeaver
