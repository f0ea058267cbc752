import DreamWeaver.Foundations.JsonText

/-! # UTF-8

`decodeUtf8` reads bytes as text the way `TextDecoder` and `Buffer.toString` do: every maximal part of a
broken sequence becomes one replacement character. `encodeUtf8` writes text as bytes; half of a surrogate
pair is written as the replacement character. -/

namespace DreamWeaver

/-- The replacement character. -/
def replacement : CodeUnit := 0xFFFD

/-- A byte that continues a sequence. -/
def isContinuation (b : UInt8) : Bool := 0x80 ≤ b && b ≤ 0xBF

/-- The second byte of a sequence of three bytes, behind a lead byte. -/
def isSecondOfThree (lead b : UInt8) : Bool :=
  if lead = 0xE0 then 0xA0 ≤ b && b ≤ 0xBF
  else if lead = 0xED then 0x80 ≤ b && b ≤ 0x9F
  else isContinuation b

/-- The second byte of a sequence of four bytes, behind a lead byte. -/
def isSecondOfFour (lead b : UInt8) : Bool :=
  if lead = 0xF0 then 0x90 ≤ b && b ≤ 0xBF
  else if lead = 0xF4 then 0x80 ≤ b && b ≤ 0x8F
  else isContinuation b

/-- The bits that a continuation byte adds. -/
def lowBits (b : UInt8) : ℕ := b.toNat % 64

/-- The pair of units of a code point beyond the first plane. -/
def surrogates (point : ℕ) : List CodeUnit :=
  [UInt16.ofNat (0xD800 + (point - 0x10000) / 0x400), UInt16.ofNat (0xDC00 + (point - 0x10000) % 0x400)]

/-- The units of the character, or of the broken sequence, that a byte begins, and the bytes behind it. -/
def readChar (b : UInt8) (rest : List UInt8) : Text × List UInt8 :=
  if b < 0x80 then ([UInt16.ofNat b.toNat], rest)
  else if 0xC2 ≤ b ∧ b ≤ 0xDF then
    match rest with
    | c :: rest' =>
      if isContinuation c then ([UInt16.ofNat (b.toNat % 32 * 64 + lowBits c)], rest')
      else ([replacement], rest)
    | [] => ([replacement], [])
  else if 0xE0 ≤ b ∧ b ≤ 0xEF then
    match rest with
    | c :: d :: rest'' =>
      if isSecondOfThree b c then
        if isContinuation d then
          ([UInt16.ofNat (b.toNat % 16 * 4096 + lowBits c * 64 + lowBits d)], rest'')
        else ([replacement], d :: rest'')
      else ([replacement], rest)
    | [c] => ([replacement], if isSecondOfThree b c then [] else [c])
    | [] => ([replacement], [])
  else if 0xF0 ≤ b ∧ b ≤ 0xF4 then
    match rest with
    | c :: d :: e :: rest''' =>
      if isSecondOfFour b c then
        if isContinuation d then
          if isContinuation e then
            (surrogates (b.toNat % 8 * 262144 + lowBits c * 4096 + lowBits d * 64 + lowBits e), rest''')
          else ([replacement], e :: rest''')
        else ([replacement], d :: e :: rest''')
      else ([replacement], rest)
    | [c, d] =>
      ([replacement],
        if isSecondOfFour b c then (if isContinuation d then [] else [d]) else [c, d])
    | [c] => ([replacement], if isSecondOfFour b c then [] else [c])
    | [] => ([replacement], [])
  else ([replacement], rest)

/-- Bytes as text, up to so many characters. -/
def decodeChars : ℕ → List UInt8 → Text
  | 0, _ => []
  | _ + 1, [] => []
  | n + 1, b :: rest => (readChar b rest).1 ++ decodeChars n (readChar b rest).2

/-- Bytes as text. -/
def decodeUtf8 (bytes : List UInt8) : Text := decodeChars bytes.length bytes

/-- `new TextDecoder().decode(bytes)`: a byte order mark at the front is dropped. -/
def textDecode : List UInt8 → Text
  | 0xEF :: 0xBB :: 0xBF :: bytes => decodeUtf8 bytes
  | bytes => decodeUtf8 bytes

/-- The bytes of a code point. -/
def encodePoint (n : ℕ) : List UInt8 :=
  if n < 0x80 then [UInt8.ofNat n]
  else if n < 0x800 then [UInt8.ofNat (0xC0 + n / 64), UInt8.ofNat (0x80 + n % 64)]
  else if n < 0x10000 then
    [UInt8.ofNat (0xE0 + n / 4096), UInt8.ofNat (0x80 + n / 64 % 64), UInt8.ofNat (0x80 + n % 64)]
  else
    [UInt8.ofNat (0xF0 + n / 262144), UInt8.ofNat (0x80 + n / 4096 % 64),
      UInt8.ofNat (0x80 + n / 64 % 64), UInt8.ofNat (0x80 + n % 64)]

/-- The code point of a pair of units. -/
def pairPoint (c d : CodeUnit) : ℕ := 0x10000 + (c.toNat - 0xD800) * 0x400 + (d.toNat - 0xDC00)

/-- The bytes of one unit: half of a pair is replaced. -/
def encodeUnit (c : CodeUnit) : List UInt8 :=
  if isHighSurrogate c || isLowSurrogate c then encodePoint replacement.toNat else encodePoint c.toNat

/-- Text as bytes. -/
def encodeUtf8 : Text → List UInt8
  | [] => []
  | [c] => encodeUnit c
  | c :: d :: s =>
    if isHighSurrogate c && isLowSurrogate d then encodePoint (pairPoint c d) ++ encodeUtf8 s
    else encodeUnit c ++ encodeUtf8 (d :: s)

/-- The bytes of a code point: one to four. -/
theorem length_encodePoint_pos (n : ℕ) : 0 < (encodePoint n).length := by
  unfold encodePoint
  repeat' split
  all_goals exact Nat.succ_pos _

/-- A text has no more units than bytes. -/
theorem length_le_length_encodeUtf8 (s : Text) : s.length ≤ (encodeUtf8 s).length := by
  have hunit : ∀ c, 0 < (encodeUnit c).length := by
    intro c
    unfold encodeUnit
    split
    · exact length_encodePoint_pos _
    · exact length_encodePoint_pos _
  fun_induction encodeUtf8 s with
  | case1 => exact le_rfl
  | case2 c => exact hunit c
  | case3 c d s hpair ih =>
    -- a pair has four bytes
    have hfour : (encodePoint (pairPoint c d)).length = 4 := by
      have hlarge : 0x10000 ≤ pairPoint c d := by
        unfold pairPoint
        omega
      rw [encodePoint, if_neg (by omega), if_neg (by omega), if_neg (by omega)]
      rfl
    rw [List.length_append, hfour]
    simp only [List.length_cons]
    omega
  | case4 c d s hpair ih =>
    have hpos := hunit c
    rw [List.length_append, List.length_cons]
    omega

end DreamWeaver
