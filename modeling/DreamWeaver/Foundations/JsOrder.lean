import DreamWeaver.Foundations.JsArithmetic

/-! # Comparisons of numbers

`x <= y` on numbers, the infinities and NaN among them, and `Math.min`. Rounding and multiplication by a positive
number keep the order. -/

namespace DreamWeaver.JsNumber

/-- `x <= y`; nothing is compared with NaN. -/
def Le : JsNumber → JsNumber → Prop
  | .nan, _ => False
  | _, .nan => False
  | .negInfinity, _ => True
  | _, .posInfinity => True
  | .finite x, .finite y => x ≤ y
  | _, _ => False

/-- `0 < x` -/
def Pos : JsNumber → Prop
  | .finite x => 0 < x
  | .posInfinity => True
  | _ => False

/-- `Math.min(x, y)` -/
def least : JsNumber → JsNumber → JsNumber
  | .nan, _ => .nan
  | _, .nan => .nan
  | .posInfinity, y => y
  | x, .posInfinity => x
  | .finite x, .finite y => .finite (min x y)
  | _, _ => .negInfinity

variable {x y z : JsNumber} {a b : ℚ}

attribute [local simp] Le Pos least

theorem Le.ne_nan_left (h : x.Le y) : x ≠ .nan := by
  rintro rfl
  exact h

theorem Le.ne_nan_right (h : x.Le y) : y ≠ .nan := by
  rintro rfl
  cases x <;> exact h

theorem le_self (hx : x ≠ .nan) : x.Le x := by
  cases x with
  | nan => exact absurd rfl hx
  | finite a => exact le_rfl (a := a)
  | posInfinity => trivial
  | negInfinity => trivial

theorem Le.trans (hxy : x.Le y) (hyz : y.Le z) : x.Le z := by
  cases x <;> cases y <;> cases z <;> simp_all
  exact hxy.trans hyz

theorem Le.antisymm (hxy : x.Le y) (hyx : y.Le x) : x = y := by
  cases x <;> cases y <;> simp_all
  exact le_antisymm hxy hyx

theorem le_posInfinity (hx : x ≠ .nan) : x.Le .posInfinity := by
  cases x with
  | nan => exact absurd rfl hx
  | finite a => trivial
  | posInfinity => trivial
  | negInfinity => trivial

theorem Pos.ne_nan (h : x.Pos) : x ≠ .nan := by
  rintro rfl
  exact h

/-- The smaller of two numbers is at most the second. -/
theorem least_le_right (hx : x ≠ .nan) (hy : y ≠ .nan) : (least x y).Le y := by
  cases x <;> cases y <;> simp_all

/-- The smaller of two numbers grows with the first. -/
theorem least_mono (h : x.Le y) (hz : z ≠ .nan) : (least x z).Le (least y z) := by
  cases x <;> cases y <;> cases z <;> simp_all

/-- **Rounding keeps the order** of numbers that are not negative. -/
theorem ofExact_mono (ha : 0 ≤ a) (h : a ≤ b) : (ofExact a).Le (ofExact b) := by
  by_cases hb : 2 ^ 1024 - 2 ^ 970 ≤ |b|
  · have hlarge : ofExact b = .posInfinity := by
      rw [ofExact, if_pos hb, if_neg (not_lt.mpr (ha.trans h))]
    rw [hlarge]
    exact le_posInfinity (ofExact_ne_nan a)
  · have hsmall : ¬ 2 ^ 1024 - 2 ^ 970 ≤ |a| := by
      rw [abs_of_nonneg ha]
      rw [abs_of_nonneg (ha.trans h)] at hb
      exact fun hle => hb (hle.trans h)
    rw [ofExact, ofExact, if_neg hb, if_neg hsmall]
    exact double_mono ha h

theorem Pos.mono (hx : x.Pos) (h : x.Le y) : y.Pos := by
  cases x <;> cases y <;> simp_all
  exact hx.trans_le h

theorem mul_posInfinity (hx : x.Pos) : x.mul .posInfinity = .posInfinity := by
  cases x with
  | finite a =>
    have ha : 0 < a := hx
    rw [mul, if_neg ha.ne', infinite, if_neg]
    simpa using ha.le
  | posInfinity => rfl
  | nan => cases hx
  | negInfinity => cases hx

theorem posInfinity_mul (hx : x.Pos) : mul .posInfinity x = .posInfinity := by
  cases x with
  | finite a =>
    have ha : 0 < a := hx
    rw [mul, if_neg ha.ne', infinite, if_neg]
    simpa using ha.le
  | posInfinity => rfl
  | nan => cases hx
  | negInfinity => cases hx

/-- A product of positive numbers is not NaN. -/
theorem mul_ne_nan (hx : x.Pos) (hy : y.Pos) : x.mul y ≠ .nan := by
  cases x with
  | finite a =>
    cases y with
    | finite b => exact ofExact_ne_nan _
    | posInfinity =>
      rw [mul_posInfinity hx]
      exact JsNumber.noConfusion
    | nan => cases hy
    | negInfinity => cases hy
  | posInfinity =>
    rw [posInfinity_mul hy]
    exact JsNumber.noConfusion
  | nan => cases hx
  | negInfinity => cases hx

/-- **Multiplication by a positive number keeps the order** of positive numbers. -/
theorem mul_mono (hx : x.Pos) (hy : y.Pos) (h : y.Le z) : (x.mul y).Le (x.mul z) := by
  cases x with
  | nan => cases hx
  | negInfinity => cases hx
  | posInfinity =>
    rw [posInfinity_mul hy, posInfinity_mul (hy.mono h)]
    trivial
  | finite a =>
    cases z with
    | posInfinity =>
      rw [mul_posInfinity hx]
      exact le_posInfinity (mul_ne_nan hx hy)
    | finite c =>
      cases y with
      | finite b =>
        exact ofExact_mono (mul_nonneg (le_of_lt hx) (le_of_lt hy)) (mul_le_mul_of_nonneg_left h (le_of_lt hx))
      | posInfinity => cases h
      | nan => cases hy
      | negInfinity => cases hy
    | nan => exact absurd rfl h.ne_nan_right
    | negInfinity => cases hy.mono h

end DreamWeaver.JsNumber
