import DreamWeaver.Foundations.Utf8

/-! # Text in chunks of bytes

A `TextDecoder` in streaming mode keeps the bytes of a character that is not complete for the next chunk. What it
yields for chunks is, joined, what the bytes decode to, up to the last character that is complete: it does not
depend on where the bytes are cut. What was encoded is read back, with the halves of surrogate pairs replaced. -/

namespace DreamWeaver

variable {b : UInt8} {rest more x y : List UInt8} {n : ℕ}

/-! ## Characters -/

/-- Bytes behind the lead byte of a sequence of three that do not complete it. -/
def isPartialThree (b : UInt8) : List UInt8 → Bool
  | [] => true
  | [c] => isSecondOfThree b c
  | _ :: _ :: _ => false

/-- Bytes behind the lead byte of a sequence of four that do not complete it. -/
def isPartialFour (b : UInt8) : List UInt8 → Bool
  | [] => true
  | [c] => isSecondOfFour b c
  | [c, d] => isSecondOfFour b c && isContinuation d
  | _ :: _ :: _ :: _ => false

/-- The bytes begin a character and do not complete it. -/
def isPartial (b : UInt8) (rest : List UInt8) : Bool :=
  if 0xC2 ≤ b ∧ b ≤ 0xDF then rest.isEmpty
  else if 0xE0 ≤ b ∧ b ≤ 0xEF then isPartialThree b rest
  else if 0xF0 ≤ b ∧ b ≤ 0xF4 then isPartialFour b rest
  else false

/-- **A character is read in the same way whatever follows**, once it is complete. -/
theorem readChar_append (h : isPartial b rest = false) (more : List UInt8) :
    readChar b (rest ++ more) = ((readChar b rest).1, (readChar b rest).2 ++ more) := by
  unfold readChar
  by_cases hascii : b < 0x80
  · simp [hascii]
  rw [if_neg hascii, if_neg hascii]
  unfold isPartial at h
  by_cases htwo : 0xC2 ≤ b ∧ b ≤ 0xDF
  · rw [if_pos htwo] at h
    rw [if_pos htwo, if_pos htwo]
    cases rest with
    | nil => cases h
    | cons c rest =>
      dsimp only [List.cons_append]
      split <;> rfl
  rw [if_neg htwo] at h
  rw [if_neg htwo, if_neg htwo]
  by_cases hthree : 0xE0 ≤ b ∧ b ≤ 0xEF
  · rw [if_pos hthree] at h
    rw [if_pos hthree, if_pos hthree]
    rcases rest with _ | ⟨c, _ | ⟨d, rest⟩⟩
    · cases h
    · -- the second byte does not belong to the sequence
      have hsecond : isSecondOfThree b c = false := h
      cases more <;> simp [hsecond]
    · dsimp only [List.cons_append]
      split
      · split <;> rfl
      · rfl
  rw [if_neg hthree] at h
  rw [if_neg hthree, if_neg hthree]
  by_cases hfour : 0xF0 ≤ b ∧ b ≤ 0xF4
  · rw [if_pos hfour] at h
    rw [if_pos hfour, if_pos hfour]
    rcases rest with _ | ⟨c, _ | ⟨d, _ | ⟨e, rest⟩⟩⟩
    · cases h
    · have hsecond : isSecondOfFour b c = false := h
      rcases more with _ | ⟨d, _ | ⟨e, more⟩⟩ <;> simp [hsecond]
    · have hbroken : (isSecondOfFour b c && isContinuation d) = false := h
      by_cases hsecond : isSecondOfFour b c = true
      · rw [hsecond, Bool.true_and] at hbroken
        cases more <;> simp [hsecond, hbroken]
      · cases more <;> simp [hsecond]
    · dsimp only [List.cons_append]
      split
      · split
        · split <;> rfl
        · rfl
      · rfl
  · rw [if_neg hfour, if_neg hfour]

/-- What is complete stays complete. -/
theorem isPartial_append (h : isPartial b rest = false) (more : List UInt8) : isPartial b (rest ++ more) = false := by
  unfold isPartial at h ⊢
  split_ifs at h ⊢
  · cases rest with
    | nil => cases h
    | cons c rest => rfl
  · rcases rest with _ | ⟨c, _ | ⟨d, rest⟩⟩
    · cases h
    · cases more <;> simp_all [isPartialThree]
    · rfl
  · rcases rest with _ | ⟨c, _ | ⟨d, _ | ⟨e, rest⟩⟩⟩
    · cases h
    · rcases more with _ | ⟨d, _ | ⟨e, more⟩⟩ <;> simp_all [isPartialFour]
    · cases more <;> simp_all [isPartialFour]
    · rfl
  · rfl

/-- What is read of a character shortens the bytes. -/
theorem length_readChar_le (b : UInt8) (rest : List UInt8) : (readChar b rest).2.length ≤ rest.length := by
  unfold readChar
  split_ifs
  · exact le_rfl
  · rcases rest with _ | ⟨c, rest⟩
    · exact le_rfl
    · dsimp only
      split_ifs <;> simp
  · rcases rest with _ | ⟨c, _ | ⟨d, rest⟩⟩
    · exact le_rfl
    · dsimp only
      split_ifs <;> simp
    · dsimp only
      split_ifs <;> simp <;> omega
  · rcases rest with _ | ⟨c, _ | ⟨d, _ | ⟨e, rest⟩⟩⟩
    · exact le_rfl
    · dsimp only
      split_ifs <;> simp
    · dsimp only
      split_ifs <;> simp
    · dsimp only
      split_ifs <;> simp <;> omega
  · exact le_rfl

/-! ## Complete characters -/

/-- The complete characters that bytes begin with, up to so many, and the bytes behind them. -/
def readChars : ℕ → List UInt8 → Text × List UInt8
  | 0, bytes => ([], bytes)
  | _ + 1, [] => ([], [])
  | n + 1, b :: rest =>
    if isPartial b rest then ([], b :: rest)
    else ((readChar b rest).1 ++ (readChars n (readChar b rest).2).1, (readChars n (readChar b rest).2).2)

/-- The complete characters that bytes begin with, and the bytes behind them. -/
def readComplete (bytes : List UInt8) : Text × List UInt8 := readChars bytes.length bytes

theorem readChars_of_le (h : x.length ≤ n) : readChars n x = readComplete x := by
  induction hx : x.length using Nat.strongRecOn generalizing x n with
  | ind m ih =>
    subst hx
    rcases x with _ | ⟨b, rest⟩
    · cases n <;> rfl
    · obtain ⟨n, rfl⟩ : ∃ k, n = k + 1 := ⟨n - 1, by simp at h; omega⟩
      have hshort := length_readChar_le b rest
      rw [List.length_cons] at h
      rw [readComplete, List.length_cons, readChars, readChars, ih _ (by simp; omega) (by omega) rfl,
        ← ih _ (by simp; omega) hshort rfl]

@[simp] theorem readComplete_nil : readComplete [] = ([], []) := rfl

theorem readComplete_of_cut (h : isPartial b rest = true) : readComplete (b :: rest) = ([], b :: rest) := by
  rw [readComplete, List.length_cons, readChars, if_pos h]

theorem readComplete_cons (h : isPartial b rest = false) : readComplete (b :: rest) =
    ((readChar b rest).1 ++ (readComplete (readChar b rest).2).1, (readComplete (readChar b rest).2).2) := by
  rw [readComplete, List.length_cons, readChars, h, if_neg Bool.false_ne_true,
    readChars_of_le (length_readChar_le b rest)]

/-- **What is read does not depend on where the bytes are cut.** -/
theorem readComplete_append (x y : List UInt8) : readComplete (x ++ y) =
    ((readComplete x).1 ++ (readComplete ((readComplete x).2 ++ y)).1, (readComplete ((readComplete x).2 ++ y)).2) := by
  induction hx : x.length using Nat.strongRecOn generalizing x with
  | ind m ih =>
    rcases x with _ | ⟨b, rest⟩
    · simp
    · cases hpartial : isPartial b rest with
      | true => rw [readComplete_of_cut hpartial, List.nil_append]
      | false =>
        -- the first character is read the same with more bytes behind it, and the rest is shorter
        have hmore : isPartial b (rest ++ y) = false := isPartial_append hpartial y
        have hshort := length_readChar_le b rest
        rw [List.length_cons] at hx
        rw [List.cons_append, readComplete_cons hmore, readComplete_cons hpartial, readChar_append hpartial,
          ih _ (by omega) _ rfl]
        simp

/-- What is read of the beginning of bytes begins what is read of them. -/
theorem readComplete_prefix (h : x <+: y) : (readComplete x).1 <+: (readComplete y).1 := by
  obtain ⟨more, rfl⟩ := h
  rw [readComplete_append]
  exact List.prefix_append _ _

/-! ## The decoder -/

/-- A byte order mark at the front is dropped. -/
def dropMark : Text → Text
  | 0xFEFF :: s => s
  | s => s

theorem dropMark_append {s : Text} (h : s ≠ []) (t : Text) : dropMark (s ++ t) = dropMark s ++ t := by
  rcases s with _ | ⟨c, s⟩
  · exact absurd rfl h
  · by_cases hc : c = 0xFEFF
    · subst hc
      rfl
    · rw [List.cons_append, dropMark, dropMark, List.cons_append] <;> simpa using hc

theorem dropMark_prefix {s t : Text} (h : s <+: t) : dropMark s <+: dropMark t := by
  rcases s with _ | ⟨c, s⟩
  · exact List.nil_prefix
  · obtain ⟨more, rfl⟩ := h
    rw [dropMark_append (List.cons_ne_nil c s)]
    exact List.prefix_append _ _

/-- A `TextDecoder`: the bytes that it keeps, and whether it is beyond the place of a byte order mark. -/
structure TextDecoder where
  pending : List UInt8
  started : Bool

namespace TextDecoder

/-- `new TextDecoder()` -/
def fresh : TextDecoder := ⟨[], false⟩

variable (decoder : TextDecoder)

/-- The text of `decode(chunk, { stream: true })`. -/
def decode (chunk : List UInt8) : Text :=
  let text := (readComplete (decoder.pending ++ chunk)).1
  if decoder.started then text else dropMark text

/-- The decoder behind it. -/
def next (chunk : List UInt8) : TextDecoder where
  pending := (readComplete (decoder.pending ++ chunk)).2
  started := decoder.started || !(readComplete (decoder.pending ++ chunk)).1.isEmpty

/-- The texts of chunks. -/
def decodeAll : TextDecoder → List (List UInt8) → List Text
  | _, [] => []
  | decoder, chunk :: chunks => decoder.decode chunk :: decodeAll (decoder.next chunk) chunks

/-- What is kept is not complete. -/
theorem readComplete_rest (x : List UInt8) : readComplete (readComplete x).2 = ([], (readComplete x).2) := by
  have happend := readComplete_append x []
  rw [List.append_nil, List.append_nil] at happend
  have hfirst := congrArg Prod.fst happend
  have hsecond := congrArg Prod.snd happend
  exact Prod.ext (List.self_eq_append_right.mp hfirst) hsecond.symm

variable {decoder}

/-- **The texts of chunks** are, joined, the complete characters of all bytes, without a byte order mark. -/
theorem flatten_decodeAll (h : readComplete decoder.pending = ([], decoder.pending)) (chunks : List (List UInt8)) :
    (decoder.decodeAll chunks).flatten =
      if decoder.started then (readComplete (decoder.pending ++ chunks.flatten)).1
      else dropMark (readComplete (decoder.pending ++ chunks.flatten)).1 := by
  induction chunks generalizing decoder with
  | nil =>
    rw [List.flatten_nil, List.append_nil, h]
    cases decoder.started <;> rfl
  | cons chunk chunks ih =>
    rw [decodeAll, List.flatten_cons, ih (readComplete_rest _), List.flatten_cons, ← List.append_assoc,
      readComplete_append (decoder.pending ++ chunk), decode, next]
    dsimp only
    cases hstarted : decoder.started with
    | true => simp
    | false =>
      cases htext : (readComplete (decoder.pending ++ chunk)).1 with
      | nil =>
        -- no character is complete yet, so that the mark may still come
        simp [dropMark]
      | cons c text =>
        -- the place of a mark is behind the first character
        simp [← dropMark_append (List.cons_ne_nil c text)]

/-- The texts of all chunks from the beginning. -/
theorem flatten_decodeAll_fresh (chunks : List (List UInt8)) :
    (fresh.decodeAll chunks).flatten = dropMark (readComplete chunks.flatten).1 :=
  flatten_decodeAll rfl chunks

end TextDecoder

/-! ## What was encoded -/

/-- The units of a code point. -/
def pointUnits (n : ℕ) : Text := if n < 0x10000 then [UInt16.ofNat n] else surrogates n

/-- Bytes are one complete character. -/
def IsChar (bytes : List UInt8) (units : Text) : Prop :=
  ∃ b rest, bytes = b :: rest ∧ ∀ more, isPartial b (rest ++ more) = false ∧ readChar b (rest ++ more) = (units, more)

theorem IsChar.readComplete {bytes : List UInt8} {units : Text} (h : IsChar bytes units) (more : List UInt8) :
    readComplete (bytes ++ more) = (units ++ (readComplete more).1, (readComplete more).2) := by
  obtain ⟨b, rest, rfl, hchar⟩ := h
  obtain ⟨hwhole, hread⟩ := hchar more
  rw [List.cons_append, readComplete_cons hwhole, hread]

theorem isContinuation_iff {c : UInt8} : isContinuation c = true ↔ 0x80 ≤ c.toNat ∧ c.toNat ≤ 0xBF := by
  simp [isContinuation, UInt8.le_iff_toNat_le]

section Encoded

variable {b c d e : UInt8}

theorem isChar_one (hb : b.toNat < 0x80) : IsChar [b] [UInt16.ofNat b.toNat] := by
  refine ⟨b, [], rfl, fun more => ?_⟩
  have hascii : b < 0x80 := by simpa [UInt8.lt_iff_toNat_lt] using hb
  have hnot (k : UInt8) (hk : 0x80 ≤ k.toNat) : ¬ k ≤ b := by
    rw [UInt8.le_iff_toNat_le]
    omega
  simp [isPartial, readChar, hascii, hnot 0xC2 (by decide), hnot 0xE0 (by decide), hnot 0xF0 (by decide)]

theorem isChar_two (hb : 0xC2 ≤ b.toNat ∧ b.toNat ≤ 0xDF) (hc : isContinuation c = true) :
    IsChar [b, c] [UInt16.ofNat (b.toNat % 32 * 64 + lowBits c)] := by
  refine ⟨b, [c], rfl, fun more => ?_⟩
  have hascii : ¬ b < 0x80 := by
    rw [UInt8.lt_iff_toNat_lt]
    simp
    omega
  have hlead : 0xC2 ≤ b ∧ b ≤ 0xDF := by simpa [UInt8.le_iff_toNat_le] using hb
  simp [isPartial, readChar, hascii, hlead, hc]

theorem isChar_three (hb : 0xE0 ≤ b.toNat ∧ b.toNat ≤ 0xEF) (hc : isSecondOfThree b c = true)
    (hd : isContinuation d = true) :
    IsChar [b, c, d] [UInt16.ofNat (b.toNat % 16 * 4096 + lowBits c * 64 + lowBits d)] := by
  refine ⟨b, [c, d], rfl, fun more => ?_⟩
  have hascii : ¬ b < 0x80 := by
    rw [UInt8.lt_iff_toNat_lt]
    simp
    omega
  have htwo : ¬ (0xC2 ≤ b ∧ b ≤ 0xDF) := by
    simp [UInt8.le_iff_toNat_le]
    omega
  have hlead : 0xE0 ≤ b ∧ b ≤ 0xEF := by simpa [UInt8.le_iff_toNat_le] using hb
  simp [isPartial, isPartialThree, readChar, hascii, htwo, hlead, hc, hd]

theorem isChar_four (hb : 0xF0 ≤ b.toNat ∧ b.toNat ≤ 0xF4) (hc : isSecondOfFour b c = true)
    (hd : isContinuation d = true) (he : isContinuation e = true) : IsChar [b, c, d, e]
      (surrogates (b.toNat % 8 * 262144 + lowBits c * 4096 + lowBits d * 64 + lowBits e)) := by
  refine ⟨b, [c, d, e], rfl, fun more => ?_⟩
  have hascii : ¬ b < 0x80 := by
    rw [UInt8.lt_iff_toNat_lt]
    simp
    omega
  have htwo : ¬ (0xC2 ≤ b ∧ b ≤ 0xDF) := by
    simp [UInt8.le_iff_toNat_le]
    omega
  have hthree : ¬ (0xE0 ≤ b ∧ b ≤ 0xEF) := by
    simp [UInt8.le_iff_toNat_le]
    omega
  have hlead : 0xF0 ≤ b ∧ b ≤ 0xF4 := by simpa [UInt8.le_iff_toNat_le] using hb
  simp [isPartial, isPartialFour, readChar, hascii, htwo, hthree, hlead, hc, hd, he]

/-- **A code point** that is no half of a pair is one character. -/
theorem isChar_encodePoint {n : ℕ} (hhalf : n < 0xD800 ∨ 0xE000 ≤ n) (hn : n < 0x110000) :
    IsChar (encodePoint n) (pointUnits n) := by
  have hbyte (k : ℕ) (hk : k < 256) : (UInt8.ofNat k).toNat = k := by
    rw [UInt8.toNat_ofNat', Nat.mod_eq_of_lt hk]
  have hcontinues (k : ℕ) : isContinuation (UInt8.ofNat (0x80 + k % 64)) = true := by
    rw [isContinuation_iff, hbyte _ (by omega)]
    omega
  have hlow (k : ℕ) : lowBits (UInt8.ofNat (0x80 + k % 64)) = k % 64 := by
    rw [lowBits, hbyte _ (by omega)]
    omega
  unfold encodePoint pointUnits
  by_cases hone : n < 0x80
  · have hchar := isChar_one (b := UInt8.ofNat n) (by rw [hbyte _ (by omega)]; exact hone)
    rw [hbyte _ (by omega)] at hchar
    rw [if_pos hone, if_pos (by omega)]
    exact hchar
  rw [if_neg hone]
  by_cases htwo : n < 0x800
  · have hchar := isChar_two (b := UInt8.ofNat (0xC0 + n / 64)) (by rw [hbyte _ (by omega)]; omega) (hcontinues n)
    rw [hbyte _ (by omega), hlow] at hchar
    rw [if_pos htwo, if_pos (by omega)]
    convert hchar using 3
    omega
  rw [if_neg htwo]
  by_cases hthree : n < 0x10000
  · have hlead := hbyte (0xE0 + n / 4096) (by omega)
    have hsecond : isSecondOfThree (UInt8.ofNat (0xE0 + n / 4096)) (UInt8.ofNat (0x80 + n / 64 % 64)) = true := by
      have hc := hbyte (0x80 + n / 64 % 64) (by omega)
      rw [isSecondOfThree]
      split_ifs with hfirst hsurrogates
      · have heq := congrArg UInt8.toNat hfirst
        rw [hlead] at heq
        simp [UInt8.le_iff_toNat_le] at heq ⊢
        omega
      · -- no half of a pair has come this far
        have heq := congrArg UInt8.toNat hsurrogates
        rw [hlead] at heq
        simp [UInt8.le_iff_toNat_le] at heq ⊢
        omega
      · exact hcontinues (n / 64)
    have hchar := isChar_three (b := UInt8.ofNat (0xE0 + n / 4096)) (by rw [hlead]; omega) hsecond (hcontinues n)
    rw [hlead, hlow, hlow] at hchar
    rw [if_pos hthree, if_pos hthree]
    convert hchar using 3
    omega
  · have hlead := hbyte (0xF0 + n / 262144) (by omega)
    have hsecond : isSecondOfFour (UInt8.ofNat (0xF0 + n / 262144)) (UInt8.ofNat (0x80 + n / 4096 % 64)) = true := by
      have hc := hbyte (0x80 + n / 4096 % 64) (by omega)
      rw [isSecondOfFour]
      split_ifs with hfirst hlast
      · have heq := congrArg UInt8.toNat hfirst
        rw [hlead] at heq
        simp [UInt8.le_iff_toNat_le] at heq ⊢
        omega
      · have heq := congrArg UInt8.toNat hlast
        rw [hlead] at heq
        simp [UInt8.le_iff_toNat_le] at heq ⊢
        omega
      · exact hcontinues (n / 4096)
    have hchar := isChar_four (b := UInt8.ofNat (0xF0 + n / 262144)) (by rw [hlead]; omega) hsecond
      (hcontinues (n / 64)) (hcontinues n)
    rw [hlead, hlow, hlow, hlow] at hchar
    rw [if_neg hthree, if_neg hthree]
    convert hchar using 2
    omega

end Encoded

/-- A unit, or the replacement character for half of a pair. -/
def wellUnit (c : CodeUnit) : CodeUnit := if isHighSurrogate c || isLowSurrogate c then replacement else c

/-- `s.toWellFormed()`: halves of pairs are replaced. -/
def toWellFormed : Text → Text
  | [] => []
  | [c] => [wellUnit c]
  | c :: d :: s =>
    if isHighSurrogate c && isLowSurrogate d then c :: d :: toWellFormed s else wellUnit c :: toWellFormed (d :: s)

theorem isHighSurrogate_iff {c : CodeUnit} : isHighSurrogate c = true ↔ 0xD800 ≤ c.toNat ∧ c.toNat ≤ 0xDBFF := by
  simp [isHighSurrogate, UInt16.le_iff_toNat_le]

theorem isLowSurrogate_iff {c : CodeUnit} : isLowSurrogate c = true ↔ 0xDC00 ≤ c.toNat ∧ c.toNat ≤ 0xDFFF := by
  simp [isLowSurrogate, UInt16.le_iff_toNat_le]

theorem isChar_encodeUnit (c : CodeUnit) : IsChar (encodeUnit c) [wellUnit c] := by
  unfold encodeUnit wellUnit
  split
  · exact isChar_encodePoint (n := replacement.toNat) (by decide) (by decide)
  · rename_i hhalf
    have hlt := c.toNat_lt
    have hchar := isChar_encodePoint (n := c.toNat) ?_ (by omega)
    · rwa [pointUnits, if_pos hlt, UInt16.ofNat_toNat] at hchar
    · rw [Bool.or_eq_true, isHighSurrogate_iff, isLowSurrogate_iff] at hhalf
      omega

theorem isChar_pair {c d : CodeUnit} (hc : isHighSurrogate c = true) (hd : isLowSurrogate d = true) :
    IsChar (encodePoint (pairPoint c d)) [c, d] := by
  rw [isHighSurrogate_iff] at hc
  rw [isLowSurrogate_iff] at hd
  have hchar := isChar_encodePoint (n := pairPoint c d) (by unfold pairPoint; omega) (by unfold pairPoint; omega)
  have hhigh : 0xD800 + (pairPoint c d - 0x10000) / 0x400 = c.toNat := by
    unfold pairPoint
    omega
  have hlow : 0xDC00 + (pairPoint c d - 0x10000) % 0x400 = d.toNat := by
    unfold pairPoint
    omega
  rwa [pointUnits, if_neg (by unfold pairPoint; omega), surrogates, hhigh, hlow, UInt16.ofNat_toNat,
    UInt16.ofNat_toNat] at hchar

/-- **What was encoded is read back**, with the halves of pairs replaced. -/
theorem readComplete_encodeUtf8 (s : Text) (more : List UInt8) : readComplete (encodeUtf8 s ++ more) =
    (toWellFormed s ++ (readComplete more).1, (readComplete more).2) := by
  fun_induction encodeUtf8 s with
  | case1 => rfl
  | case2 c => exact (isChar_encodeUnit c).readComplete more
  | case3 c d s hpair ih =>
    rw [toWellFormed, if_pos hpair, List.append_assoc]
    rw [Bool.and_eq_true] at hpair
    rw [(isChar_pair hpair.1 hpair.2).readComplete, ih]
    rfl
  | case4 c d s hpair ih =>
    rw [toWellFormed, if_neg hpair, List.append_assoc, (isChar_encodeUnit c).readComplete, ih]
    rfl

end DreamWeaver
