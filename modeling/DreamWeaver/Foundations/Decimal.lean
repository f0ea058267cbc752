import DreamWeaver.Foundations.JsValue
import Mathlib.Data.Nat.Digits.Lemmas

/-! # Numbers as decimal text

The number formats that pass through string-valued stores: `toString` on integers, `toFixed(6)`,
`parseInt`, `parseFloat`, and the strict integer syntax of a Redis counter. The lemmas say that
reading gives back what was written: an integer exactly, and a number written with six decimals as
the double next to these decimals. -/

namespace DreamWeaver

/-! ## Digits -/

/-- The value of a unit as a digit, for radices up to 36; 36 for any other unit. -/
def digitValue (c : CodeUnit) : ℕ :=
  if 48 ≤ c && c ≤ 57 then c.toNat - 48
  else if 97 ≤ foldAscii c && foldAscii c ≤ 122 then (foldAscii c).toNat - 87
  else 36

/-- A digit of the given radix. -/
def isDigit (radix : ℕ) (c : CodeUnit) : Bool := digitValue c < radix

/-- The number that a run of digits denotes. -/
def digitsValue (radix : ℕ) (ds : Text) : ℕ := Nat.ofDigits radix (ds.map digitValue).reverse

/-- The unit of a decimal digit. -/
def digitUnit (d : ℕ) : CodeUnit := UInt16.ofNat (48 + d)

/-- `n.toString()` for a natural number. -/
def showNat (n : ℕ) : Text := if n = 0 then [48] else (Nat.digits 10 n).reverse.map digitUnit

/-- `n.toString()` for an integer. -/
def showInt : ℤ → Text
  | .ofNat n => showNat n
  | .negSucc n => 45 :: showNat (n + 1)

/-- A decimal digit reads back as its value. -/
theorem digitValue_digitUnit {d : ℕ} (hd : d < 10) : digitValue (digitUnit d) = d := by
  interval_cases d <;> rfl

@[simp] theorem digitsValue_nil (radix : ℕ) : digitsValue radix [] = 0 := rfl

/-- The value of two runs of digits, one after the other. -/
theorem digitsValue_append (radix : ℕ) (a b : Text) :
    digitsValue radix (a ++ b) = digitsValue radix a * radix ^ b.length + digitsValue radix b := by
  rw [digitsValue, List.map_append, List.reverse_append, Nat.ofDigits_append, List.length_reverse,
    List.length_map, digitsValue, digitsValue, add_comm, mul_comm]

/-- Every unit of a formatted number is a decimal digit. -/
theorem isDigit_of_mem_showNat {n : ℕ} {c : CodeUnit} (hc : c ∈ showNat n) :
    isDigit 10 c = true := by
  unfold showNat at hc
  split at hc
  · rw [List.mem_singleton.mp hc]
    rfl
  · obtain ⟨d, hd, rfl⟩ := List.mem_map.mp hc
    have hlt : d < 10 := Nat.digits_lt_base (by norm_num) (List.mem_reverse.mp hd)
    rw [isDigit, digitValue_digitUnit hlt, decide_eq_true hlt]

/-- A formatted number is not empty. -/
theorem showNat_ne_nil (n : ℕ) : showNat n ≠ [] := by
  unfold showNat
  split
  · simp
  · rename_i hn
    simpa [Nat.digits_eq_nil_iff_eq_zero] using hn

/-- **A formatted number reads back as itself.** -/
@[simp] theorem digitsValue_showNat (n : ℕ) : digitsValue 10 (showNat n) = n := by
  unfold showNat
  split
  · rename_i hn
    rw [hn]
    rfl
  · have hdigits : ((Nat.digits 10 n).reverse.map digitUnit).map digitValue =
        (Nat.digits 10 n).reverse := by
      rw [List.map_map]
      refine List.map_congr_left (g := id) (fun d hd => ?_) |>.trans (List.map_id _)
      exact digitValue_digitUnit (Nat.digits_lt_base (by norm_num) (List.mem_reverse.mp hd))
    rw [digitsValue, hdigits, List.reverse_reverse, Nat.ofDigits_digits]

/-- Formatting is injective. -/
theorem showNat_injective : Function.Injective showNat := fun m n h => by
  rw [← digitsValue_showNat m, h, digitsValue_showNat]

/-- The leading digits of a text that begins with a formatted number and goes on otherwise. -/
theorem takeWhile_showNat_append (n : ℕ) {rest : Text}
    (hrest : ∀ c, rest.head? = some c → isDigit 10 c = false) :
    (showNat n ++ rest).takeWhile (isDigit 10) = showNat n := by
  rw [List.takeWhile_append_of_pos fun c hc => isDigit_of_mem_showNat hc]
  cases rest with
  | nil => simp
  | cons c rest => rw [List.takeWhile_cons, hrest c rfl]; simp

/-! ## Reading numbers -/

/-- A sign at the front of a text, and the rest of it. -/
def splitSign : Text → Bool × Text
  | 45 :: s => (true, s)
  | 43 :: s => (false, s)
  | s => (false, s)

/-- `x` or `-x`. -/
def signed (negative : Bool) (x : ℚ) : ℚ := if negative then -x else x

/-- The radix and the digits of an integer literal: hexadecimal after `0x`, else decimal. -/
def splitRadix : Text → ℕ × Text
  | 48 :: 120 :: s => (16, s)
  | 48 :: 88 :: s => (16, s)
  | s => (10, s)

/-- `parseInt(s)` -/
def parseInt (s : Text) : JsNumber :=
  let (negative, unsigned) := splitSign (trimStart s)
  let (radix, body) := splitRadix unsigned
  let digits := body.takeWhile (isDigit radix)
  if digits.isEmpty then .nan else .ofExact (signed negative (digitsValue radix digits))

/-- The exponent part of a decimal literal, 0 if there is none. -/
def readExponent : Text → ℤ
  | c :: s =>
    let (negative, unsigned) := splitSign s
    let digits := unsigned.takeWhile (isDigit 10)
    if (c == 101 || c == 69) && !digits.isEmpty then
      if negative then -digitsValue 10 digits else digitsValue 10 digits
    else 0
  | [] => 0

/-- The digits after a decimal point, if one follows, and the rest. -/
def splitFraction : Text → Text × Text
  | 46 :: s => (s.takeWhile (isDigit 10), s.dropWhile (isDigit 10))
  | s => ([], s)

/-- `parseFloat(s)` -/
def parseFloat (s : Text) : JsNumber :=
  let (negative, unsigned) := splitSign (trimStart s)
  if (lit "Infinity").isPrefixOf unsigned then
    if negative then .negInfinity else .posInfinity
  else
    let digits := unsigned.takeWhile (isDigit 10)
    let (fraction, rest) := splitFraction (unsigned.dropWhile (isDigit 10))
    if digits.isEmpty && fraction.isEmpty then .nan
    else .ofExact (signed negative (digitsValue 10 (digits ++ fraction)) *
      10 ^ (readExponent rest - fraction.length))

/-- A run of decimal digits that does not begin with zero. -/
def isCanonical (ds : Text) : Bool := ds.all (isDigit 10) && ds.head?.any (· != 48)

/-- The integer of a strict literal: an optional minus sign and digits without a leading zero. -/
def strictLiteral : Text → Option ℤ
  | [48] => some 0
  | 45 :: ds => if isCanonical ds then some (-digitsValue 10 ds) else none
  | ds => if isCanonical ds then some (digitsValue 10 ds) else none

/-- The integer that a store with 64-bit counters reads in a text: a strict literal in range. -/
def strictInteger (s : Text) : Option ℤ :=
  (strictLiteral s).filter fun v => -2 ^ 63 ≤ v && v ≤ 2 ^ 63 - 1

/-! ## Fixed decimals -/

/-- A natural number with leading zeros up to `k` digits. -/
def padTo (k n : ℕ) : Text := List.replicate (k - (showNat n).length) 48 ++ showNat n

/-- The text of `n / 10 ^ k` with `k` decimals. -/
def decimals (k n : ℕ) : Text := showNat (n / 10 ^ k) ++ 46 :: padTo k (n % 10 ^ k)

/-- The number of units of the `k`-th decimal place nearest to a number, the larger one of two. -/
def placesOf (k : ℕ) (x : ℚ) : ℕ := (round (x * 10 ^ k)).toNat

/-- `x.toFixed(k)` for a positive `k`; `showOther` formats the numbers from `10 ^ 21` on. -/
def toFixed (showOther : ℚ → Text) (k : ℕ) : JsNumber → Text
  | .nan => lit "NaN"
  | .posInfinity => lit "Infinity"
  | .negInfinity => lit "-Infinity"
  | .finite x =>
    if 10 ^ 21 ≤ |x| then showOther x
    else if x < 0 then 45 :: decimals k (placesOf k (-x)) else decimals k (placesOf k x)

/-- `x.toString()`; `showOther` formats the numbers that are not integers up to `2 ^ 53` in magnitude. -/
def numberToString (showOther : ℚ → Text) : JsNumber → Text
  | .nan => lit "NaN"
  | .posInfinity => lit "Infinity"
  | .negInfinity => lit "-Infinity"
  | .finite x => if x.den = 1 ∧ |x| ≤ 2 ^ 53 then showInt x.num else showOther x

/-! ## Reading back -/

/-- The decimal digits are the units from `0` to `9`. -/
theorem isDigit_ten_iff {c : CodeUnit} : isDigit 10 c = true ↔ 48 ≤ c.toNat ∧ c.toNat ≤ 57 := by
  have hiff : (48 ≤ c && c ≤ 57) = true ↔ 48 ≤ c.toNat ∧ c.toNat ≤ 57 := by
    simp [UInt16.le_iff_toNat_le]
  rw [isDigit, digitValue, decide_eq_true_eq]
  split
  · rename_i h
    rw [hiff] at h
    omega
  · rename_i h
    rw [← hiff]
    split
    · rename_i hletter
      have hge : 97 ≤ (foldAscii c).toNat := by
        simpa [UInt16.le_iff_toNat_le] using (Bool.and_eq_true_iff.mp hletter).1
      exact iff_of_false (by omega) h
    · exact iff_of_false (by omega) h

/-- A decimal digit is not white space. -/
theorem isWhite_of_isDigit {c : CodeUnit} (hc : isDigit 10 c = true) : isWhite c = false := by
  obtain ⟨hlo, hhi⟩ := isDigit_ten_iff.mp hc
  refine isWhite_of_isWordUnit ?_
  simp only [isWordUnit, Bool.or_eq_true, Bool.and_eq_true, decide_eq_true_eq,
    UInt16.le_iff_toNat_le]
  exact Or.inl (Or.inl (Or.inl ⟨hlo, hhi⟩))

section Digits

variable {c : CodeUnit} {s : Text} (hc : isDigit 10 c = true)
include hc

/-- A text that begins with a digit has no white space to trim. -/
theorem trimStart_of_isDigit : trimStart (c :: s) = c :: s := by
  simp [trimStart, isWhite_of_isDigit hc]

/-- A text that begins with a digit has no sign. -/
theorem splitSign_of_isDigit : splitSign (c :: s) = (false, c :: s) := by
  unfold splitSign
  split
  · rename_i heq
    cases heq
    exact absurd hc (by decide)
  · rename_i heq
    cases heq
    exact absurd hc (by decide)
  · rfl

/-- A text that begins with a digit does not spell an infinity. -/
theorem not_infinity_of_isDigit : (lit "Infinity").isPrefixOf (c :: s) = false := by
  have hlit : lit "Infinity" = 73 :: lit "nfinity" := by decide
  rw [Bool.eq_false_iff, ne_eq, List.isPrefixOf_iff_prefix, hlit, List.cons_prefix_cons]
  rintro ⟨rfl, -⟩
  exact absurd hc (by decide)

end Digits

/-- A formatted number begins with a digit. -/
theorem exists_cons_showNat (n : ℕ) : ∃ c s, showNat n = c :: s ∧ isDigit 10 c = true := by
  obtain ⟨c, s, h⟩ := List.exists_cons_of_ne_nil (showNat_ne_nil n)
  exact ⟨c, s, h, isDigit_of_mem_showNat (by rw [h]; exact List.mem_cons_self)⟩

/-- The number of a positive numeral does not begin with zero. -/
theorem head?_showNat_ne_zero {n : ℕ} (hn : n ≠ 0) : (showNat n).head?.any (· != 48) = true := by
  have hne : Nat.digits 10 n ≠ [] := Nat.digits_ne_nil_iff_ne_zero.mpr hn
  have hlast := Nat.getLast_digit_ne_zero 10 hn
  have hlt : (Nat.digits 10 n).getLast hne < 10 :=
    Nat.digits_lt_base (by norm_num) (List.getLast_mem hne)
  rw [showNat, if_neg hn, List.head?_map, List.head?_reverse, List.getLast?_eq_some_getLast hne]
  generalize (Nat.digits 10 n).getLast hne = d at hlast hlt
  interval_cases d <;> first | exact absurd rfl hlast | rfl

/-- A formatted number has no radix mark. -/
theorem splitRadix_showNat (n : ℕ) : splitRadix (showNat n) = (10, showNat n) := by
  unfold splitRadix
  split
  · rename_i s heq
    exact absurd (isDigit_of_mem_showNat (n := n) (c := 120) (by rw [heq]; simp)) (by decide)
  · rename_i s heq
    exact absurd (isDigit_of_mem_showNat (n := n) (c := 88) (by rw [heq]; simp)) (by decide)
  · rfl

/-- **`parseInt` reads a formatted number.** -/
theorem parseInt_showNat (n : ℕ) : parseInt (showNat n) = .ofExact n := by
  obtain ⟨c, s, hcons, hc⟩ := exists_cons_showNat n
  have hdigits : (showNat n).takeWhile (isDigit 10) = showNat n :=
    List.takeWhile_eq_self_iff.mpr fun c hc => isDigit_of_mem_showNat hc
  unfold parseInt
  rw [show trimStart (showNat n) = showNat n by rw [hcons, trimStart_of_isDigit hc],
    show splitSign (showNat n) = (false, showNat n) by rw [hcons, splitSign_of_isDigit hc]]
  simp only [splitRadix_showNat, hdigits, digitsValue_showNat, signed]
  simp [showNat_ne_nil]

/-- **A counter reads a formatted number.** -/
theorem strictInteger_showNat {n : ℕ} (hn : n < 2 ^ 63) : strictInteger (showNat n) = some (n : ℤ) := by
  have hall : (showNat n).all (isDigit 10) = true :=
    List.all_eq_true.mpr fun c hc => isDigit_of_mem_showNat hc
  rcases Nat.eq_zero_or_pos n with rfl | hpos
  · rfl
  have hcanonical : isCanonical (showNat n) = true := by
    rw [isCanonical, hall, head?_showNat_ne_zero hpos.ne']
    rfl
  have hvalue : strictLiteral (showNat n) = some (n : ℤ) := by
    unfold strictLiteral
    split
    · rename_i heq
      exact absurd (heq ▸ hcanonical) (by decide)
    · rename_i heq
      exact absurd (isDigit_of_mem_showNat (n := n) (c := 45) (by rw [heq]; simp)) (by decide)
    · rw [if_pos hcanonical, digitsValue_showNat]
  have hrange : (-2 ^ 63 ≤ (n : ℤ) && (n : ℤ) ≤ 2 ^ 63 - 1) = true := by
    simp only [Bool.and_eq_true, decide_eq_true_eq]
    omega
  rw [strictInteger, hvalue, Option.filter_some, hrange, if_pos rfl]

/-! ## Reading decimals back -/

/-- A remainder fills its places. -/
theorem length_padTo {k n : ℕ} (hk : 0 < k) (hn : n < 10 ^ k) : (padTo k n).length = k := by
  have hlen : (showNat n).length ≤ k := by
    unfold showNat
    split
    · exact hk
    · rw [List.length_map, List.length_reverse]
      exact (Nat.digits_length_le_iff (by norm_num) _).mpr hn
  rw [padTo, List.length_append, List.length_replicate]
  omega

/-- Leading zeros do not change the value. -/
theorem digitsValue_padTo (k n : ℕ) : digitsValue 10 (padTo k n) = n := by
  have hzero : ∀ j, digitsValue 10 (List.replicate j 48) = 0 := by
    intro j
    induction j with
    | zero => rfl
    | succ j ih => rw [List.replicate_succ', digitsValue_append, ih]; rfl
  rw [padTo, digitsValue_append, hzero, zero_mul, zero_add, digitsValue_showNat]

/-- Every unit of the places is a digit. -/
theorem isDigit_of_mem_padTo {k n : ℕ} {c : CodeUnit} (hc : c ∈ padTo k n) :
    isDigit 10 c = true := by
  rcases List.mem_append.mp hc with h | h
  · rw [List.eq_of_mem_replicate h]
    rfl
  · exact isDigit_of_mem_showNat h

/-- **`parseFloat` reads decimals as the double next to them.** -/
theorem parseFloat_decimals {k : ℕ} (hk : 0 < k) (n : ℕ) :
    parseFloat (decimals k n) = .ofExact (n / 10 ^ k) := by
  obtain ⟨c, s, hcons, hc⟩ := exists_cons_showNat (n / 10 ^ k)
  have hpoint : ∀ c, (46 :: padTo k (n % 10 ^ k) : Text).head? = some c → isDigit 10 c = false := by
    rintro c ⟨⟩
    rfl
  have htake := takeWhile_showNat_append (n / 10 ^ k) hpoint
  have hdrop : (showNat (n / 10 ^ k) ++ 46 :: padTo k (n % 10 ^ k)).dropWhile (isDigit 10) =
      46 :: padTo k (n % 10 ^ k) := by
    rw [List.dropWhile_append_of_pos fun c hc => isDigit_of_mem_showNat hc]
    rfl
  have hpad : (padTo k (n % 10 ^ k)).takeWhile (isDigit 10) = padTo k (n % 10 ^ k) :=
    List.takeWhile_eq_self_iff.mpr fun c hc => isDigit_of_mem_padTo hc
  have hrest : (padTo k (n % 10 ^ k)).dropWhile (isDigit 10) = [] :=
    List.dropWhile_eq_nil_iff.mpr fun c hc => isDigit_of_mem_padTo hc
  have hlen : (padTo k (n % 10 ^ k)).length = k :=
    length_padTo hk (Nat.mod_lt _ (by positivity))
  have hvalue : digitsValue 10 (showNat (n / 10 ^ k) ++ padTo k (n % 10 ^ k)) = n := by
    rw [digitsValue_append, hlen, digitsValue_showNat, digitsValue_padTo, Nat.div_add_mod']
  have hinfinity : (lit "Infinity").isPrefixOf (showNat (n / 10 ^ k) ++ 46 :: padTo k (n % 10 ^ k)) =
      false := by
    rw [hcons, List.cons_append]
    exact not_infinity_of_isDigit hc
  have hsign : splitSign (trimStart (decimals k n)) = (false, decimals k n) := by
    rw [decimals, hcons, List.cons_append, trimStart_of_isDigit hc, splitSign_of_isDigit hc]
  have hempty : (showNat (n / 10 ^ k)).isEmpty = false := by rw [hcons]; rfl
  unfold parseFloat
  rw [hsign]
  simp only [decimals, hinfinity, htake, hdrop, splitFraction, hpad, hrest, hvalue, hlen,
    readExponent, signed]
  rw [hempty]
  simp [zpow_neg, div_eq_mul_inv]

end DreamWeaver
