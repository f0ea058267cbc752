import DreamWeaver.Foundations.JsText
import DreamWeaver.Foundations.Binary64

/-! # JavaScript values

The values that untrusted parties hand to the program: JSON documents, numbers including the
non-finite ones, and thrown errors. Optional values (`undefined`) are `Option`.

Programs read a parsed document by chains such as `value?.parts?.[0]?.text` and `a || b`. A value that
is not an object has none of the properties that they ask for; only `null` and `undefined` make a program
throw that asks without `?.`. -/

namespace DreamWeaver

/-- A JavaScript number, with exact finite values. -/
inductive JsNumber where
  | nan
  | negInfinity
  | posInfinity
  | finite (value : ℚ)
  deriving DecidableEq, Repr

/-- `x < bound` for a finite bound; every comparison with `NaN` is false. -/
def JsNumber.lt (x : JsNumber) (bound : ℚ) : Bool :=
  match x with
  | .nan => false
  | .negInfinity => true
  | .posInfinity => false
  | .finite value => decide (value < bound)

/-- The number an exact result is rounded to: an infinity beyond the largest double. -/
def JsNumber.ofExact (x : ℚ) : JsNumber :=
  if 2 ^ 1024 - 2 ^ 970 ≤ |x| then (if x < 0 then .negInfinity else .posInfinity)
  else .finite (double x)

/-- `x + y` -/
def JsNumber.add : JsNumber → JsNumber → JsNumber
  | .finite x, .finite y => .ofExact (x + y)
  | .nan, _ => .nan
  | _, .nan => .nan
  | .posInfinity, .negInfinity => .nan
  | .negInfinity, .posInfinity => .nan
  | .finite _, y => y
  | x, _ => x

/-- `bound <= x` for a finite bound; every comparison with `NaN` is false. -/
def JsNumber.atLeast (x : JsNumber) (bound : ℚ) : Bool :=
  match x with
  | .nan => false
  | .negInfinity => false
  | .posInfinity => true
  | .finite value => decide (bound ≤ value)

/-- Below the largest double an exact result is rounded to a double. -/
theorem JsNumber.ofExact_of_abs_le {x : ℚ} (hx : |x| ≤ 2 ^ 1023) :
    JsNumber.ofExact x = .finite (double x) := by
  rw [JsNumber.ofExact, if_neg]
  have hdouble : (2 : ℚ) ^ 1024 = 2 ^ 1023 + 2 ^ 1023 := by rw [← two_mul, ← pow_succ']
  have hsmall : (2 : ℚ) ^ 970 < 2 ^ 1023 := pow_lt_pow_right₀ one_lt_two (by decide)
  rw [not_le, hdouble, add_sub_assoc]
  exact lt_of_le_of_lt hx (lt_add_of_pos_right _ (sub_pos.mpr hsmall))

/-- The rounding of a negated number. -/
theorem JsNumber.ofExact_neg {x y : ℚ} (h : JsNumber.ofExact x = .finite y) :
    JsNumber.ofExact (-x) = .finite (-y) := by
  unfold JsNumber.ofExact at h ⊢
  rw [abs_neg]
  by_cases hlarge : 2 ^ 1024 - 2 ^ 970 ≤ |x|
  · rw [if_pos hlarge] at h
    split at h <;> cases h
  · rw [if_neg hlarge] at h ⊢
    rw [double_neg, JsNumber.finite.inj h]

/-- **A number that was rounded is not rounded again.** -/
theorem JsNumber.ofExact_ofExact {x y : ℚ} (h : JsNumber.ofExact x = .finite y) :
    JsNumber.ofExact y = .finite y := by
  have hsmall : |y| < 2 ^ 1024 - 2 ^ 970 ∧ y = double x := by
    unfold JsNumber.ofExact at h
    by_cases hlarge : 2 ^ 1024 - 2 ^ 970 ≤ |x|
    · rw [if_pos hlarge] at h
      split at h <;> cases h
    rw [if_neg hlarge] at h
    obtain rfl := JsNumber.finite.inj h
    refine ⟨?_, rfl⟩
    rcases lt_trichotomy x 0 with hneg | rfl | hpos
    · have hbound := double_lt_threshold (neg_pos.mpr hneg) (by rwa [not_le, abs_of_neg hneg] at hlarge)
      rw [double_neg] at hbound
      have hnonneg : 0 ≤ double (-x) := le_double_of_grid_le 0 (by simp) (neg_pos.mpr hneg).le
      rw [double_neg] at hnonneg
      rwa [abs_of_nonpos (by linarith)]
    · rw [double_zero, abs_zero]
      rwa [not_le, abs_zero] at hlarge
    · have hbound := double_lt_threshold hpos (by rwa [not_le, abs_of_pos hpos] at hlarge)
      rwa [abs_of_nonneg (le_double_of_grid_le 0 (by simp) hpos.le)]
  obtain ⟨hlt, hy⟩ := hsmall
  rw [JsNumber.ofExact, if_neg (not_le.mpr hlt), hy, double_double]

/-- A JSON document. An object is the list of its entries. -/
inductive Json where
  | null
  | bool (b : Bool)
  | num (value : JsNumber)
  | str (text : Text)
  | arr (items : List Json)
  | obj (fields : List (Text × Json))
  deriving Inhabited

/-- `fields[key]`, `none` for `undefined`. -/
def Json.field? (fields : List (Text × Json)) (key : Text) : Option Json :=
  (fields.find? fun entry => entry.1 == key).map Prod.snd

/-- A thrown error: its name and its message. -/
structure JsError where
  name : Text
  message : Text
  deriving DecidableEq, Repr

/-- What goes on after a step that did not throw. -/
theorem exists_of_bind_ok {α β : Type} {x : Except JsError α} {f : α → Except JsError β} {b : β}
    (h : x >>= f = .ok b) : ∃ a, x = .ok a ∧ f a = .ok b := by
  cases x with
  | error e => cases h
  | ok a => exact ⟨a, rfl, h⟩

/-- `value || default` on an optional string: the empty string is falsy too. -/
def orText (value : Option Text) (default : Text) : Text :=
  match value with
  | none => default
  | some [] => default
  | some (c :: s) => c :: s

@[simp] theorem orText_none (default : Text) : orText none default = default := rfl

/-- A non-empty string is taken as it is. -/
theorem orText_some {s : Text} (hs : s ≠ []) (default : Text) : orText (some s) default = s := by
  cases s with
  | nil => exact absurd rfl hs
  | cons c s => rfl

/-- A string is taken over a non-empty default exactly when it is not empty. -/
theorem orText_some_eq_iff {s default : Text} (hdefault : default ≠ []) :
    orText (some s) default = s ↔ s ≠ [] := by
  cases s with
  | nil => exact iff_of_false hdefault (by simp)
  | cons c s => exact iff_of_true rfl (List.cons_ne_nil c s)

/-! ## Reading untrusted values -/

/-- `value?.[key]`, `none` for `undefined`. -/
def Json.get (v : Json) (key : Text) : Option Json :=
  match v with
  | .obj fields => Json.field? fields key
  | _ => none

/-- `value?.[0]`: an array and a string have a first element, and an object may have the key. -/
def Json.first (v : Json) : Option Json :=
  match v with
  | .arr items => items.head?
  | .str (c :: _) => some (.str [c])
  | .obj fields => Json.field? fields (lit "0")
  | _ => none

/-- `value[key] = v` on an object that has the key. -/
def Json.withField (value : Json) (key : Text) (v : Json) : Json :=
  match value with
  | .obj fields => .obj (fields.map fun e => if e.1 = key then (key, v) else e)
  | value => value

/-- What a condition makes of a value. -/
def Json.truthy : Json → Bool
  | .null => false
  | .bool b => b
  | .num .nan => false
  | .num (.finite x) => x != 0
  | .num _ => true
  | .str text => !text.isEmpty
  | .arr _ => true
  | .obj _ => true

/-- What a condition makes of a value that may be `undefined`. -/
def isTruthy (v : Option Json) : Bool := v.any Json.truthy

/-- `a || b` -/
def firstTruthy (a b : Option Json) : Option Json := if isTruthy a then a else b

/-- The value of a field under its name in camel case or, else, in snake case. -/
def Json.either (v : Json) (camel snake : Text) : Option Json := firstTruthy (v.get camel) (v.get snake)

/-- A value that counts as true is defined. -/
theorem exists_of_isTruthy {v : Option Json} (h : isTruthy v = true) :
    ∃ w, v = some w ∧ w.truthy = true := by
  cases v with
  | none => exact absurd h (by simp [isTruthy])
  | some w => exact ⟨w, rfl, h⟩

/-- The text of a value, if it is a string. -/
def Json.text? : Json → Option Text
  | .str text => some text
  | _ => none

end DreamWeaver
