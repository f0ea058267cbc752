import DreamWeaver.Foundations.JsText
import Mathlib.Tactic.IntervalCases

/-! # Base64

`btoa` on bytes, and the decoder of the platform, which ignores what is not in the alphabet and stops at
the padding. Three bytes are four digits of six bits. -/

namespace DreamWeaver

/-- The digits that bytes are written with. -/
def toSextets : List UInt8 → List ℕ
  | [] => []
  | [a] => [a.toNat / 4, a.toNat % 4 * 16]
  | [a, b] => [a.toNat / 4, a.toNat % 4 * 16 + b.toNat / 16, b.toNat % 16 * 4]
  | a :: b :: c :: bytes =>
    a.toNat / 4 :: (a.toNat % 4 * 16 + b.toNat / 16) :: (b.toNat % 16 * 4 + c.toNat / 64) ::
      c.toNat % 64 :: toSextets bytes

/-- The bytes of digits; bits that make no byte are dropped. -/
def ofSextets : List ℕ → List UInt8
  | [] => []
  | [_] => []
  | [w, x] => [UInt8.ofNat (w * 4 + x / 16)]
  | [w, x, y] => [UInt8.ofNat (w * 4 + x / 16), UInt8.ofNat (x % 16 * 16 + y / 4)]
  | w :: x :: y :: z :: digits =>
    UInt8.ofNat (w * 4 + x / 16) :: UInt8.ofNat (x % 16 * 16 + y / 4) ::
      UInt8.ofNat (y % 4 * 64 + z) :: ofSextets digits

/-- The unit of a digit. -/
def base64Unit (n : ℕ) : CodeUnit :=
  if n < 26 then UInt16.ofNat (65 + n)
  else if n < 52 then UInt16.ofNat (71 + n)
  else if n < 62 then UInt16.ofNat (n - 4)
  else if n = 62 then 43 else 47

/-- The digit of a unit of the alphabet, or of its variant for URLs. -/
def base64Digit (c : CodeUnit) : Option ℕ :=
  if 65 ≤ c && c ≤ 90 then some (c.toNat - 65)
  else if 97 ≤ c && c ≤ 122 then some (c.toNat - 71)
  else if 48 ≤ c && c ≤ 57 then some (c.toNat + 4)
  else if c == 43 || c == 45 then some 62
  else if c == 47 || c == 95 then some 63
  else none

/-- The padding behind so many digits. -/
def base64Padding (digits : ℕ) : Text := List.replicate ((4 - digits % 4) % 4) 61

/-- `btoa` -/
def encodeBase64 (bytes : List UInt8) : Text :=
  (toSextets bytes).map base64Unit ++ base64Padding (toSextets bytes).length

/-- `Buffer.from(text, 'base64')` -/
def decodeBase64 (s : Text) : List UInt8 :=
  ofSextets ((s.takeWhile fun c => c != 61).filterMap base64Digit)

theorem lt_of_mem_toSextets {bytes : List UInt8} {n : ℕ} (h : n ∈ toSextets bytes) : n < 64 := by
  fun_induction toSextets bytes with
  | case1 => cases h
  | case2 a =>
    have ha := a.toNat_lt
    simp only [List.mem_cons, List.not_mem_nil, or_false] at h
    omega
  | case3 a b =>
    have ha := a.toNat_lt
    have hb := b.toNat_lt
    simp only [List.mem_cons, List.not_mem_nil, or_false] at h
    omega
  | case4 a b c bytes ih =>
    have ha := a.toNat_lt
    have hb := b.toNat_lt
    have hc := c.toNat_lt
    simp only [List.mem_cons] at h
    rcases h with h | h | h | h | h
    · omega
    · omega
    · omega
    · omega
    · exact ih h

/-- The digits of bytes make the bytes. -/
theorem ofSextets_toSextets (bytes : List UInt8) : ofSextets (toSextets bytes) = bytes := by
  have hfirst : ∀ (a : UInt8) (n : ℕ), n < 16 →
      UInt8.ofNat (a.toNat / 4 * 4 + (a.toNat % 4 * 16 + n) / 16) = a := by
    intro a n hn
    rw [show a.toNat / 4 * 4 + (a.toNat % 4 * 16 + n) / 16 = a.toNat by omega]
    exact UInt8.ofNat_toNat
  have hsecond : ∀ (b : UInt8) (m n : ℕ), n < 4 →
      UInt8.ofNat ((m * 16 + b.toNat / 16) % 16 * 16 + (b.toNat % 16 * 4 + n) / 4) = b := by
    intro b m n hn
    have hb := b.toNat_lt
    rw [show (m * 16 + b.toNat / 16) % 16 * 16 + (b.toNat % 16 * 4 + n) / 4 = b.toNat by omega]
    exact UInt8.ofNat_toNat
  have hthird : ∀ (c : UInt8) (m : ℕ),
      UInt8.ofNat ((m * 4 + c.toNat / 64) % 4 * 64 + c.toNat % 64) = c := by
    intro c m
    have hc := c.toNat_lt
    rw [show (m * 4 + c.toNat / 64) % 4 * 64 + c.toNat % 64 = c.toNat by omega]
    exact UInt8.ofNat_toNat
  fun_induction toSextets bytes with
  | case1 => rfl
  | case2 a => rw [ofSextets, show a.toNat % 4 * 16 = a.toNat % 4 * 16 + 0 from rfl,
      hfirst a 0 (by decide)]
  | case3 a b =>
    have hb := b.toNat_lt
    rw [ofSextets, hfirst a _ (by omega), show b.toNat % 16 * 4 = b.toNat % 16 * 4 + 0 from rfl,
      hsecond b _ 0 (by decide)]
  | case4 a b c bytes ih =>
    have hb := b.toNat_lt
    have hc := c.toNat_lt
    rw [ofSextets, hfirst a _ (by omega), hsecond b _ _ (by omega), hthird c, ih]

/-- A digit is read back from its unit, which is not the padding. -/
theorem base64Digit_base64Unit {n : ℕ} (hn : n < 64) :
    base64Digit (base64Unit n) = some n ∧ base64Unit n ≠ 61 := by
  interval_cases n <;> decide

/-- **The bytes are read back.** -/
theorem decodeBase64_encodeBase64 (bytes : List UInt8) : decodeBase64 (encodeBase64 bytes) = bytes := by
  have hunits : ∀ c ∈ (toSextets bytes).map base64Unit, (c != 61) = true := by
    intro c hc
    obtain ⟨n, hn, rfl⟩ := List.mem_map.mp hc
    exact bne_iff_ne.mpr (base64Digit_base64Unit (lt_of_mem_toSextets hn)).2
  have hpadding : (base64Padding (toSextets bytes).length).takeWhile (fun c => c != 61) = [] := by
    rw [base64Padding]
    cases (4 - (toSextets bytes).length % 4) % 4 with
    | zero => rfl
    | succ k => rw [List.replicate_succ, List.takeWhile_cons_of_neg (by simp)]
  have hdigits : ((toSextets bytes).map base64Unit).filterMap base64Digit = toSextets bytes := by
    rw [List.filterMap_map]
    refine (List.filterMap_congr fun n hn => ?_).trans List.filterMap_some
    exact (base64Digit_base64Unit (lt_of_mem_toSextets hn)).1
  rw [decodeBase64, encodeBase64, List.takeWhile_append_of_pos hunits, hpadding, List.append_nil,
    hdigits, ofSextets_toSextets]

/-- Every three bytes begun are four units. -/
theorem length_encodeBase64 (bytes : List UInt8) :
    (encodeBase64 bytes).length = (bytes.length + 2) / 3 * 4 := by
  have hlength : (toSextets bytes).length = bytes.length + (bytes.length + 2) / 3 := by
    fun_induction toSextets bytes with
    | case1 => rfl
    | case2 | case3 => simp only [List.length_cons, List.length_nil]
    | case4 a b c bytes ih =>
      simp only [List.length_cons]
      omega
  rw [encodeBase64, List.length_append, List.length_map, base64Padding, List.length_replicate,
    hlength]
  omega

end DreamWeaver
