import DreamWeaver.Foundations.JsonText
import Mathlib.Data.Nat.Prime.Basic

/-! # Shortest decimals

A number is written with the fewest decimal digits that read back as it, in the layout of
`Number.prototype.toString`. What is written reads back as the same number. -/

namespace DreamWeaver

/-! ## Numerals -/

/-- A fraction behind a decimal point. -/
def fractionText : Text → Text
  | [] => []
  | c :: s => 46 :: c :: s

/-- An exponent with its sign. -/
def powerText : Option ℤ → Text
  | none => []
  | some p => 101 :: (if p < 0 then 45 else 43) :: showNat p.natAbs

/-- Digits, a fraction if there is one, and an exponent if there is one. -/
def numeral (digits fraction : Text) (power : Option ℤ) : Text :=
  digits ++ fractionText fraction ++ powerText power

/-- The digits of a numeral: zero, or digits that do not begin with zero. -/
def IsWhole (digits : Text) : Prop := digits = [48] ∨ isCanonical digits = true

/-- Where a number ends: no digit, decimal point or exponent follows. -/
def EndsNumber (rest : Text) : Prop :=
  ∀ c, rest.head? = some c → isDigit 10 c = false ∧ c ≠ 46 ∧ c ≠ 101 ∧ c ≠ 69

theorem EndsValue.endsNumber {rest : Text} (h : EndsValue rest) : EndsNumber rest := by
  intro c hc
  rcases h c hc with rfl | rfl | rfl <;> decide

/-- The digits in front of a number. -/
def wholeDigits : Text → Text
  | 48 :: _ => [48]
  | t => t.takeWhile (isDigit 10)

/-- What is behind the sign of a number. -/
def readUnsigned (negative : Bool) (unsigned : Text) : Option (JsNumber × Text) :=
  let digits := wholeDigits unsigned
  if digits.isEmpty then none
  else do
    let (fraction, s) ← readFraction (unsigned.drop digits.length)
    let (power, rest) ← readPower s
    return (.ofExact (signed negative (digitsValue 10 (digits ++ fraction)) *
      10 ^ (power - fraction.length)), rest)

theorem readNumber_minus (t : Text) : readNumber (45 :: t) = readUnsigned true t := rfl

theorem readNumber_of_isDigit {c : CodeUnit} (hc : isDigit 10 c = true) (t : Text) :
    readNumber (c :: t) = readUnsigned false (c :: t) := by
  have hminus : c ≠ 45 := by
    rintro rfl
    exact absurd hc (by decide)
  unfold readNumber
  split
  rename_i heq
  split at heq
  · rename_i heq'
    exact absurd (List.cons.inj heq').1 hminus
  · obtain ⟨rfl, rfl⟩ := Prod.mk.inj heq
    rfl

/-- Digits are taken up to what is no digit. -/
theorem takeWhile_digits {digits rest : Text} (hdigits : ∀ c ∈ digits, isDigit 10 c = true)
    (hrest : ∀ c, rest.head? = some c → isDigit 10 c = false) :
    (digits ++ rest).takeWhile (isDigit 10) = digits := by
  rw [List.takeWhile_append_of_pos hdigits]
  cases rest with
  | nil => exact List.append_nil _
  | cons c rest => rw [List.takeWhile_cons_of_neg (by rw [hrest c rfl]; exact Bool.false_ne_true), List.append_nil]

theorem dropWhile_digits {digits rest : Text} (hdigits : ∀ c ∈ digits, isDigit 10 c = true)
    (hrest : ∀ c, rest.head? = some c → isDigit 10 c = false) :
    (digits ++ rest).dropWhile (isDigit 10) = rest := by
  have hsplit := List.takeWhile_append_dropWhile (p := isDigit 10) (l := digits ++ rest)
  rw [takeWhile_digits hdigits hrest] at hsplit
  exact List.append_cancel_left hsplit

/-- An exponent is read. -/
theorem readPower_powerText (power : Option ℤ) {rest : Text} (hrest : EndsNumber rest) :
    readPower (powerText power ++ rest) = some (power.getD 0, rest) := by
  cases power with
  | none =>
    cases rest with
    | nil => rfl
    | cons c rest =>
      obtain ⟨-, -, hlower, hupper⟩ := hrest c rfl
      change readPower (c :: rest) = _
      rw [readPower, if_neg (by simp [hlower, hupper])]
      rfl
  | some p =>
    have hdigits : ∀ c ∈ showNat p.natAbs, isDigit 10 c = true := fun c hc => isDigit_of_mem_showNat hc
    have hend : ∀ c, rest.head? = some c → isDigit 10 c = false := fun c hc => (hrest c hc).1
    have htake := takeWhile_digits hdigits hend
    have hdrop := dropWhile_digits hdigits hend
    have hne : (showNat p.natAbs).isEmpty = false := by simpa using showNat_ne_nil p.natAbs
    have hsign : splitSign ((if p < 0 then 45 else 43) :: (showNat p.natAbs ++ rest)) =
        (decide (p < 0), showNat p.natAbs ++ rest) := by
      by_cases hneg : p < 0
      · rw [if_pos hneg, decide_eq_true hneg]
        rfl
      · rw [if_neg hneg, decide_eq_false hneg]
        rfl
    have hvalue : readExponent (101 :: (if p < 0 then 45 else 43) :: (showNat p.natAbs ++ rest)) = p := by
      rw [readExponent, hsign]
      dsimp only
      rw [htake, hne, digitsValue_showNat]
      by_cases hneg : p < 0
      · rw [decide_eq_true hneg, if_pos (by decide), if_pos rfl]
        omega
      · rw [decide_eq_false hneg, if_pos (by decide), if_neg Bool.false_ne_true]
        omega
    change readPower (101 :: (if p < 0 then 45 else 43) :: (showNat p.natAbs ++ rest)) = _
    rw [readPower, if_pos (Or.inl rfl), hvalue, hsign]
    dsimp only
    rw [htake, hne, if_neg Bool.false_ne_true, hdrop]
    rfl

/-- A fraction is read. -/
theorem readFraction_fractionText {fraction : Text} (hfraction : ∀ c ∈ fraction, isDigit 10 c = true)
    {rest : Text} (hrest : ∀ c, rest.head? = some c → isDigit 10 c = false ∧ c ≠ 46) :
    readFraction (fractionText fraction ++ rest) = some (fraction, rest) := by
  cases fraction with
  | nil =>
    change readFraction rest = _
    unfold readFraction
    split
    · exact absurd rfl (hrest 46 rfl).2
    · rfl
  | cons c fraction =>
    have hend : ∀ c, rest.head? = some c → isDigit 10 c = false := fun c hc => (hrest c hc).1
    change readFraction (46 :: ((c :: fraction) ++ rest)) = _
    rw [readFraction, takeWhile_digits hfraction hend, dropWhile_digits hfraction hend]
    rfl

/-- **A numeral is read as the number that it denotes.** -/
theorem readUnsigned_numeral (negative : Bool) {digits fraction : Text} (hdigits : IsWhole digits)
    (hfraction : ∀ c ∈ fraction, isDigit 10 c = true) (power : Option ℤ) {rest : Text}
    (hrest : EndsNumber rest) :
    readUnsigned negative (numeral digits fraction power ++ rest) =
      some (.ofExact (signed negative (digitsValue 10 (digits ++ fraction)) *
        10 ^ (power.getD 0 - fraction.length)), rest) := by
  have hpower : ∀ c, (powerText power ++ rest).head? = some c → isDigit 10 c = false ∧ c ≠ 46 := by
    intro c hc
    cases power with
    | none =>
      obtain ⟨hdigit, hpoint, -⟩ := hrest c hc
      exact ⟨hdigit, hpoint⟩
    | some p =>
      obtain rfl : 101 = c := Option.some.inj hc
      decide
  have hbehind : ∀ c, (fractionText fraction ++ (powerText power ++ rest)).head? = some c →
      isDigit 10 c = false := by
    intro c hc
    cases fraction with
    | nil => exact (hpower c hc).1
    | cons d fraction =>
      obtain rfl : 46 = c := Option.some.inj hc
      decide
  have hwhole : wholeDigits (digits ++ (fractionText fraction ++ (powerText power ++ rest))) = digits := by
    rcases hdigits with rfl | hcanonical
    · rfl
    · obtain ⟨hall, hfirst⟩ := Bool.and_eq_true_iff.mp hcanonical
      cases digits with
      | nil => cases hfirst
      | cons c digits =>
        have hzero : c ≠ 48 := by simpa using hfirst
        unfold wholeDigits
        split
        · rename_i heq
          exact absurd (List.cons.inj heq).1 hzero
        · exact takeWhile_digits (List.all_eq_true.mp hall) hbehind
  have hne : digits.isEmpty = false := by
    rcases hdigits with rfl | hcanonical
    · rfl
    · cases digits with
      | nil => cases hcanonical
      | cons c digits => rfl
  rw [numeral, List.append_assoc, List.append_assoc, readUnsigned, hwhole, List.drop_left]
  dsimp only
  rw [hne, if_neg Bool.false_ne_true, readFraction_fractionText hfraction hpower, Option.bind_eq_bind,
    Option.bind_some]
  dsimp only
  rw [readPower_powerText power hrest, Option.bind_eq_bind, Option.bind_some]
  rfl

/-! ## Layouts -/

/-- A decimal `digits * 10 ^ exponent`. -/
structure ShortDecimal where
  digits : ℕ
  exponent : ℤ
  deriving DecidableEq

/-- Leading zeros count nothing. -/
theorem digitsValue_replicate_zero (n : ℕ) : digitsValue 10 (List.replicate n 48) = 0 := by
  induction n with
  | zero => rfl
  | succ n ih =>
    have hcons : List.replicate (n + 1) (48 : CodeUnit) = [48] ++ List.replicate n 48 := rfl
    have hfront : digitsValue 10 [48] = 0 := rfl
    rw [hcons, digitsValue_append, ih, hfront, zero_mul]

/-- The first digits of a canonical run of digits. -/
theorem isCanonical_take {ds : Text} (h : isCanonical ds = true) {n : ℕ} (hn : 0 < n) :
    isCanonical (ds.take n) = true := by
  obtain ⟨hall, hfirst⟩ := Bool.and_eq_true_iff.mp h
  refine Bool.and_eq_true_iff.mpr ⟨?_, ?_⟩
  · exact List.all_eq_true.mpr fun c hc => List.all_eq_true.mp hall c (List.mem_of_mem_take hc)
  · rw [List.head?_take, if_neg hn.ne']
    exact hfirst

theorem isCanonical_append {ds zeros : Text} (h : isCanonical ds = true)
    (hzeros : ∀ c ∈ zeros, isDigit 10 c = true) : isCanonical (ds ++ zeros) = true := by
  obtain ⟨hall, hfirst⟩ := Bool.and_eq_true_iff.mp h
  refine Bool.and_eq_true_iff.mpr ⟨?_, ?_⟩
  · rw [List.all_append, hall, List.all_eq_true.mpr hzeros]
    rfl
  · cases ds with
    | nil => cases hfirst
    | cons c ds => exact hfirst

theorem isCanonical_showNat {n : ℕ} (hn : n ≠ 0) : isCanonical (showNat n) = true :=
  Bool.and_eq_true_iff.mpr
    ⟨List.all_eq_true.mpr fun _ hc => isDigit_of_mem_showNat hc, head?_showNat_ne_zero hn⟩

namespace ShortDecimal

/-- The number that it denotes. -/
def value (d : ShortDecimal) : ℚ := d.digits * 10 ^ d.exponent

/-- The digits as the language lays them out: plainly, or with an exponent where the number is large
or small. -/
def layout (d : ShortDecimal) : Text :=
  let ds := showNat d.digits
  -- the place of the decimal point, counted from the first digit
  let n := d.exponent + ds.length
  if ds.length ≤ n ∧ n ≤ 21 then numeral (ds ++ List.replicate (n - ds.length).toNat 48) [] none
  else if 0 < n ∧ n ≤ 21 then numeral (ds.take n.toNat) (ds.drop n.toNat) none
  else if -6 < n ∧ n ≤ 0 then numeral [48] (List.replicate (-n).toNat 48 ++ ds) none
  else numeral (ds.take 1) (ds.drop 1) (some (n - 1))

/-- What a layout is: a numeral of the number. -/
structure IsLayout (d : ShortDecimal) (text digits fraction : Text) (power : Option ℤ) : Prop where
  text_eq : text = numeral digits fraction power
  whole : IsWhole digits
  fraction_digits : ∀ c ∈ fraction, isDigit 10 c = true
  value_eq : (digitsValue 10 (digits ++ fraction) : ℚ) * 10 ^ (power.getD 0 - fraction.length) = d.value

/-- **A layout denotes the number.** -/
theorem exists_isLayout {d : ShortDecimal} (hd : d.digits ≠ 0) :
    ∃ digits fraction power, d.IsLayout d.layout digits fraction power := by
  have hcanonical := isCanonical_showNat hd
  have hdigit : ∀ c ∈ showNat d.digits, isDigit 10 c = true := fun _ hc => isDigit_of_mem_showNat hc
  have hzero : ∀ (k : ℕ), ∀ c ∈ List.replicate k (48 : CodeUnit), isDigit 10 c = true := by
    intro k c hc
    rw [List.eq_of_mem_replicate hc]
    rfl
  have hten : (10 : ℚ) ≠ 0 := by norm_num
  unfold layout
  dsimp only
  generalize hn : d.exponent + (showNat d.digits).length = n
  by_cases hplain : (showNat d.digits).length ≤ n ∧ n ≤ 21
  · refine ⟨_, _, _, if_pos hplain, Or.inr (isCanonical_append hcanonical (hzero _)),
      fun _ hc => (nomatch hc), ?_⟩
    have hexponent : ((n - (showNat d.digits).length).toNat : ℤ) = d.exponent := by omega
    rw [List.append_nil, digitsValue_append, digitsValue_replicate_zero, digitsValue_showNat,
      List.length_replicate, value, ← hexponent]
    simp
  rw [if_neg hplain]
  by_cases hpoint : 0 < n ∧ n ≤ 21
  · refine ⟨_, _, _, if_pos hpoint, Or.inr (isCanonical_take hcanonical (by omega)),
      fun c hc => hdigit c (List.mem_of_mem_drop hc), ?_⟩
    have hexponent : (0 : ℤ) - ((showNat d.digits).length - n.toNat : ℕ) = d.exponent := by omega
    rw [List.take_append_drop, digitsValue_showNat, List.length_drop, Option.getD_none, hexponent, value]
  rw [if_neg hpoint]
  by_cases hsmall : -6 < n ∧ n ≤ 0
  · refine ⟨_, _, _, if_pos hsmall, Or.inl rfl, fun c hc => ?_, ?_⟩
    · rcases List.mem_append.mp hc with hz | hds
      · exact hzero _ c hz
      · exact hdigit c hds
    · have hexponent : (0 : ℤ) - ((-n).toNat + (showNat d.digits).length : ℕ) = d.exponent := by omega
      have hfront : digitsValue 10 [48] = 0 := rfl
      rw [digitsValue_append, digitsValue_append, digitsValue_replicate_zero, digitsValue_showNat, hfront,
        List.length_append, List.length_replicate, Option.getD_none, hexponent, value]
      simp
  · rw [if_neg hsmall]
    refine ⟨_, _, _, rfl, Or.inr (isCanonical_take hcanonical one_pos),
      fun c hc => hdigit c (List.mem_of_mem_drop hc), ?_⟩
    have hlength := List.length_pos_of_ne_nil (showNat_ne_nil d.digits)
    have hexponent : n - 1 - ((showNat d.digits).length - 1 : ℕ) = d.exponent := by omega
    rw [List.take_append_drop, digitsValue_showNat, List.length_drop, Option.getD_some, hexponent, value]

/-- **A layout is read as its number**, behind a minus sign or not. -/
theorem readUnsigned_layout {d : ShortDecimal} (hd : d.digits ≠ 0) (negative : Bool) {rest : Text}
    (hrest : EndsNumber rest) :
    readUnsigned negative (d.layout ++ rest) = some (.ofExact (signed negative d.value), rest) := by
  obtain ⟨digits, fraction, power, h⟩ := exists_isLayout hd
  rw [h.text_eq, readUnsigned_numeral negative h.whole h.fraction_digits power hrest, ← h.value_eq]
  cases negative with
  | false => rfl
  | true => rw [signed, signed, if_pos rfl, if_pos rfl, neg_mul]

/-- A layout begins with a digit. -/
theorem exists_cons_layout {d : ShortDecimal} (hd : d.digits ≠ 0) :
    ∃ c t, d.layout = c :: t ∧ isDigit 10 c = true := by
  obtain ⟨digits, fraction, power, h⟩ := exists_isLayout hd
  rw [h.text_eq, numeral, List.append_assoc]
  rcases h.whole with rfl | hcanonical
  · exact ⟨48, _, rfl, by decide⟩
  · obtain ⟨hall, hfirst⟩ := Bool.and_eq_true_iff.mp hcanonical
    cases digits with
    | nil => cases hfirst
    | cons c digits => exact ⟨c, _, rfl, List.all_eq_true.mp hall c List.mem_cons_self⟩

/-! ## The shortest decimal -/

/-- The decimals of `k` digits next to a positive number, the nearer one first. -/
def nextTo (k : ℕ) (x : ℚ) : List ShortDecimal :=
  let exponent := Int.log 10 x + 1 - k
  let low := ⌊x / 10 ^ exponent⌋₊
  let near := if x / 10 ^ exponent - low ≤ 1 / 2 then [low, low + 1] else [low + 1, low]
  near.map fun s => if s = 10 ^ k then ⟨1, exponent + k⟩ else ⟨s, exponent⟩

/-- All digits of a positive double, which has a power of two as its denominator. -/
def exact (x : ℚ) : ShortDecimal := ⟨(x * 10 ^ Nat.log 2 x.den).num.toNat, -Nat.log 2 x.den⟩

/-- The shortest decimal that reads as a positive double. Seventeen digits always suffice. -/
def shortest (x : ℚ) : ShortDecimal :=
  (((List.range 17).flatMap fun k => nextTo (k + 1) x).find? fun d =>
    JsNumber.ofExact d.value = .finite x).getD (exact x)

/-- The denominator of a double is a power of two. -/
theorem exists_den_eq_two_pow {x : ℚ} (hx : double x = x) : ∃ k, x.den = 2 ^ k := by
  have hmultiple : ∃ (m : ℤ) (e : ℕ), x = m / ((2 ^ e : ℕ) : ℤ) := by
    have hx' : x = roundHalfEven (x / 2 ^ ulpExponent x) * 2 ^ ulpExponent x := hx.symm
    generalize roundHalfEven (x / 2 ^ ulpExponent x) = m at hx'
    generalize ulpExponent x = e at hx'
    rcases le_total 0 e with hpos | hneg
    · refine ⟨m * 2 ^ e.toNat, 0, ?_⟩
      obtain ⟨n, rfl⟩ := Int.eq_ofNat_of_zero_le hpos
      rw [hx']
      simp
    · refine ⟨m, (-e).toNat, ?_⟩
      have hexponent : e = -((-e).toNat : ℤ) := by omega
      rw [hx', hexponent, zpow_neg, zpow_natCast, ← hexponent]
      push_cast
      rw [div_eq_mul_inv]
  obtain ⟨m, e, rfl⟩ := hmultiple
  have hdvd : (m / ((2 ^ e : ℕ) : ℤ) : ℚ).den ∣ 2 ^ e := by exact_mod_cast Rat.den_dvd m ((2 ^ e : ℕ) : ℤ)
  obtain ⟨k, -, hk⟩ := (Nat.dvd_prime_pow Nat.prime_two).mp hdvd
  exact ⟨k, hk⟩

/-- All digits denote the double. -/
theorem exact_value {x : ℚ} (hpos : 0 < x) (hx : double x = x) : (exact x).value = x := by
  obtain ⟨k, hk⟩ := exists_den_eq_two_pow hx
  have hlog : Nat.log 2 x.den = k := by rw [hk, Nat.log_pow one_lt_two]
  have hinteger : x * 10 ^ k = ((x.num * 5 ^ k : ℤ) : ℚ) := by
    have hnum : x * (2 ^ k : ℕ) = x.num := by
      rw [← hk]
      exact Rat.mul_den_eq_num x
    have hten : (10 : ℚ) = 2 * 5 := by norm_num
    push_cast at hnum ⊢
    rw [hten, mul_pow, ← mul_assoc, hnum]
  have hnum : 0 ≤ x.num * 5 ^ k := mul_nonneg (Rat.num_nonneg.mpr hpos.le) (by positivity)
  have hdigits : (((x * 10 ^ k).num.toNat : ℕ) : ℚ) = x * 10 ^ k := by
    rw [hinteger, Rat.num_intCast]
    have hcast : ((x.num * 5 ^ k).toNat : ℤ) = x.num * 5 ^ k := Int.toNat_of_nonneg hnum
    exact_mod_cast congrArg (fun z : ℤ => (z : ℚ)) hcast
  have hne : (10 : ℚ) ^ k ≠ 0 := by positivity
  rw [value, exact, hlog]
  dsimp only
  rw [hdigits, zpow_neg, zpow_natCast, mul_inv_cancel_right₀ hne]

/-- **The shortest decimal reads as the double.** -/
theorem ofExact_shortest {x : ℚ} (hpos : 0 < x) (hx : JsNumber.ofExact x = .finite x) :
    JsNumber.ofExact (shortest x).value = .finite x := by
  unfold shortest
  cases hfind : (((List.range 17).flatMap fun k => nextTo (k + 1) x).find? fun d =>
      JsNumber.ofExact d.value = .finite x) with
  | some d =>
    have hd := List.find?_some hfind
    exact of_decide_eq_true hd
  | none =>
    have hdouble : double x = x := by
      unfold JsNumber.ofExact at hx
      split at hx
      · split at hx <;> cases hx
      · exact JsNumber.finite.inj hx
    rw [Option.getD_none, exact_value hpos hdouble]
    exact hx

theorem digits_shortest_ne_zero {x : ℚ} (hpos : 0 < x) (hx : JsNumber.ofExact x = .finite x) :
    (shortest x).digits ≠ 0 := by
  intro hzero
  have hvalue := ofExact_shortest hpos hx
  rw [value, hzero, Nat.cast_zero, zero_mul, JsNumber.ofExact_of_abs_le (by rw [abs_zero]; positivity),
    double_zero] at hvalue
  exact hpos.ne (JsNumber.finite.inj hvalue)

end ShortDecimal

/-- How `JSON.stringify` writes a number. -/
def numberText : JsNumber → Text
  | .finite x =>
    if x = 0 then [48]
    else if x < 0 then 45 :: (ShortDecimal.shortest (-x)).layout
    else (ShortDecimal.shortest x).layout
  | _ => lit "null"

/-- **A number is read back.** -/
theorem readNumber_numberText {x : ℚ} (hx : JsNumber.ofExact x = .finite x) {rest : Text}
    (hrest : EndsNumber rest) : readNumber (numberText (.finite x) ++ rest) = some (.finite x, rest) := by
  unfold numberText
  dsimp only
  rcases lt_trichotomy x 0 with hneg | rfl | hpos
  · have hx' := JsNumber.ofExact_neg hx
    have hdigits := ShortDecimal.digits_shortest_ne_zero (neg_pos.mpr hneg) hx'
    have hvalue := JsNumber.ofExact_neg (ShortDecimal.ofExact_shortest (neg_pos.mpr hneg) hx')
    rw [if_neg hneg.ne, if_pos hneg, List.cons_append, readNumber_minus,
      ShortDecimal.readUnsigned_layout hdigits true hrest, signed, if_pos rfl, hvalue, neg_neg]
  · have hzero : (0 : ℚ) = signed false (digitsValue 10 ([48] ++ [])) *
        10 ^ ((none : Option ℤ).getD 0 - ([] : Text).length) := by
      have hdigits : digitsValue 10 ([48] ++ []) = 0 := rfl
      rw [hdigits, Nat.cast_zero, signed, if_neg Bool.false_ne_true, zero_mul]
    have hnone : ∀ c ∈ ([] : Text), isDigit 10 c = true := fun _ hc => by cases hc
    have hread := readUnsigned_numeral false (Or.inl rfl) hnone none hrest
    rw [← hzero, hx] at hread
    rw [if_pos rfl]
    exact hread
  · have hdigits := ShortDecimal.digits_shortest_ne_zero hpos hx
    have hread := ShortDecimal.readUnsigned_layout hdigits false hrest
    obtain ⟨c, t, hlayout, hc⟩ := ShortDecimal.exists_cons_layout hdigits
    rw [if_neg hpos.ne', if_neg hpos.not_gt]
    rw [hlayout] at hread ⊢
    rw [List.cons_append] at hread ⊢
    rw [readNumber_of_isDigit hc, hread, signed, if_neg Bool.false_ne_true,
      ShortDecimal.ofExact_shortest hpos hx]

end DreamWeaver
