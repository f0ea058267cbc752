import Mathlib.Data.List.Basic
import Mathlib.Data.List.DropRight
import Mathlib.Data.List.Infix

/-! # JavaScript text

A JavaScript string is a finite sequence of UTF-16 code units, and every string operation of the
language (`length`, `substring`, `charCodeAt`, `trim`, regular-expression matching without the `u`
flag) works on these units. This file models such strings as `Text := List CodeUnit` and collects
the operations of the standard library that the development uses, with the few lemmas its proofs
need: trimming, lower-casing, searching for a word, splitting and joining. -/

namespace DreamWeaver

/-- A UTF-16 code unit. -/
abbrev CodeUnit := UInt16

/-- A JavaScript string: its sequence of code units. -/
abbrev Text := List CodeUnit

/-- Texts are compared unit by unit. -/
instance : LawfulBEq Text := inferInstance

/-- The code units that encode one character: itself, or a surrogate pair. -/
def utf16Units (c : Char) : List CodeUnit :=
  if c.toNat < 0x10000 then [UInt16.ofNat c.toNat]
  else [UInt16.ofNat (0xD800 + (c.toNat - 0x10000) / 0x400),
    UInt16.ofNat (0xDC00 + (c.toNat - 0x10000) % 0x400)]

/-- A string literal of the source. -/
def lit (s : String) : Text := s.toList.flatMap utf16Units

/-- A literal by its characters. -/
theorem lit_ofList (cs : List Char) : lit (String.ofList cs) = cs.flatMap utf16Units := by
  rw [lit, String.toList_ofList]

/-! ## Classes of code units -/

/-- `\s`: the white space and line terminators of the language, also what `trim` removes. -/
def isWhite (c : CodeUnit) : Bool :=
  (9 ≤ c && c ≤ 13) || c == 32 || c == 0xA0 || c == 0x1680 || (0x2000 ≤ c && c ≤ 0x200A) ||
    c == 0x2028 || c == 0x2029 || c == 0x202F || c == 0x205F || c == 0x3000 || c == 0xFEFF

/-- `\w`: the ASCII letters and digits and the underscore. -/
def isWordUnit (c : CodeUnit) : Bool :=
  (48 ≤ c && c ≤ 57) || (65 ≤ c && c ≤ 90) || c == 95 || (97 ≤ c && c ≤ 122)

/-- A word unit is not white space. -/
theorem isWhite_of_isWordUnit {c : CodeUnit} (h : isWordUnit c = true) : isWhite c = false := by
  simp only [isWordUnit, Bool.or_eq_true, Bool.and_eq_true, decide_eq_true_eq, beq_iff_eq,
    UInt16.le_iff_toNat_le, ← UInt16.toNat_inj, UInt16.reduceToNat] at h
  rw [Bool.eq_false_iff]
  simp only [isWhite, ne_eq, Bool.or_eq_true, Bool.and_eq_true, decide_eq_true_eq, beq_iff_eq,
    UInt16.le_iff_toNat_le, ← UInt16.toNat_inj, UInt16.reduceToNat]
  omega

/-- The line terminators, which the dot of a regular expression does not match. -/
def isLineTerminator (c : CodeUnit) : Bool := c == 10 || c == 13 || c == 0x2028 || c == 0x2029

/-- Lower-case an ASCII letter. Under the `i` flag without `u`, an ASCII unit matches exactly the
units with the same image, since no non-ASCII unit folds into ASCII. -/
def foldAscii (c : CodeUnit) : CodeUnit := if 65 ≤ c && c ≤ 90 then c + 32 else c

/-- Lower-casing does not change whether a unit is a word unit. -/
theorem isWordUnit_foldAscii (c : CodeUnit) : isWordUnit (foldAscii c) = isWordUnit c := by
  unfold foldAscii isWordUnit
  split
  · rename_i h
    simp only [Bool.and_eq_true, decide_eq_true_eq, UInt16.le_iff_toNat_le] at h
    have hadd : (c + 32).toNat = c.toNat + 32 := by
      rw [UInt16.toNat_add]
      simp only [UInt16.reduceToNat] at h ⊢
      omega
    simp only [UInt16.le_iff_toNat_le, hadd, UInt16.reduceToNat] at h ⊢
    grind
  · rfl

/-- `toLowerCase` on one unit, up to letters outside ASCII whose lower case lies outside ASCII too:
these are left alone, and the two units that lower-case into ASCII (the dotted capital I, which
keeps its dot as a combining mark, and the Kelvin sign) are mapped as the language maps them. -/
def lowerUnit (c : CodeUnit) : Text :=
  if c == 0x130 then [105, 0x307] else if c == 0x212A then [107] else [foldAscii c]

/-- `s.toLowerCase()`, as far as its ASCII content goes. -/
def toLowerCase (s : Text) : Text := s.flatMap lowerUnit

@[simp] theorem toLowerCase_append (s t : Text) :
    toLowerCase (s ++ t) = toLowerCase s ++ toLowerCase t := List.flatMap_append

/-! ## Searching -/

/-- `s.includes(w)`: the word occurs somewhere in the text. -/
def includes (s w : Text) : Bool := s.tails.any fun t => w.isPrefixOf t

/-- `includes` decides the contiguous-sublist relation. -/
theorem includes_iff {s w : Text} : includes s w = true ↔ w <:+: s := by
  simp only [includes, List.any_eq_true, List.mem_tails, List.isPrefixOf_iff_prefix,
    List.infix_iff_prefix_suffix, and_comm]

/-- A word found in a part of a text is found in the text. -/
theorem includes_of_isInfix {s t w : Text} (hst : s <:+: t) (h : includes s w = true) :
    includes t w = true :=
  includes_iff.mpr ((includes_iff.mp h).trans hst)

/-! ## Trimming -/

/-- `s.trimStart()`. -/
def trimStart (s : Text) : Text := s.dropWhile isWhite

/-- `s.trimEnd()`. -/
def trimEnd (s : Text) : Text := s.rdropWhile isWhite

/-- `s.trim()`. -/
def trim (s : Text) : Text := trimEnd (trimStart s)

/-- Trimming keeps a contiguous part of the text. -/
theorem trim_isInfix (s : Text) : trim s <:+: s :=
  (List.rdropWhile_prefix isWhite (trimStart s)).isInfix.trans
    (List.dropWhile_suffix isWhite).isInfix

/-- A text that begins with no white space is not trimmed in front. -/
theorem head?_trim_cons {c : CodeUnit} (hc : isWhite c = false) (s : Text) : (trim (c :: s)).head? = some c := by
  have hstart : trimStart (c :: s) = c :: s := by simp [trimStart, hc]
  have hne : trim (c :: s) ≠ [] := by
    rw [trim, hstart, trimEnd, ne_eq, List.rdropWhile_eq_nil_iff]
    intro hall
    rw [hall c List.mem_cons_self] at hc
    cases hc
  have hprefix : trim (c :: s) <+: c :: s := by
    rw [trim, hstart]
    exact List.rdropWhile_prefix _ _
  obtain ⟨d, t, heq⟩ := List.exists_cons_of_ne_nil hne
  rw [heq] at hprefix ⊢
  rw [List.head?_cons, (List.cons_prefix_cons.mp hprefix).1]

/-- The units of a text that are not white space. -/
def solid (s : Text) : Text := s.filter fun c => !isWhite c

@[simp] theorem solid_append (s t : Text) : solid (s ++ t) = solid s ++ solid t :=
  List.filter_append _ _

@[simp] theorem solid_reverse (s : Text) : solid s.reverse = (solid s).reverse := by
  simp [solid, List.filter_reverse]

/-- Dropping leading white space keeps every other unit. -/
@[simp] theorem solid_trimStart (s : Text) : solid (trimStart s) = solid s := by
  induction s with
  | nil => rfl
  | cons c s ih =>
    by_cases hc : isWhite c = true
    · simpa [trimStart, List.dropWhile_cons, hc, solid] using ih
    · simp [trimStart, hc]

/-- Dropping trailing white space keeps every other unit. -/
@[simp] theorem solid_trimEnd (s : Text) : solid (trimEnd s) = solid s := by
  have h := solid_trimStart s.reverse
  rw [trimEnd, List.rdropWhile, solid_reverse]
  rw [trimStart, solid_reverse] at h
  rw [h, List.reverse_reverse]

/-- Trimming keeps every unit that is not white space. -/
@[simp] theorem solid_trim (s : Text) : solid (trim s) = solid s := by simp [trim]

/-- A text trims to the empty one exactly when it is blank. -/
theorem trim_eq_nil_iff {s : Text} : trim s = [] ↔ solid s = [] := by
  rw [trim, trimEnd, List.rdropWhile_eq_nil_iff]
  constructor
  · intro h
    rw [← solid_trimStart, solid, List.filter_eq_nil_iff]
    simpa using h
  · intro h c hc
    rw [← solid_trimStart, solid, List.filter_eq_nil_iff] at h
    simpa using h c hc

/-! ## Splitting and joining -/

/-- `parts.join(sep)`. -/
def joinWith (sep : Text) (parts : List Text) : Text := sep.intercalate parts

/-- The part of a text before its first newline, and whether there is one: `s.split('\n')[0]` and
`s.split('\n').length > 1`. -/
def firstLine (s : Text) : Text × Bool :=
  (s.takeWhile (· != 10), s.any (· == 10))

/-- A text that has a newline keeps its first line when it grows. -/
theorem firstLine_append {s : Text} (h : (firstLine s).2 = true) (t : Text) :
    firstLine (s ++ t) = firstLine s := by
  obtain ⟨c, hc, hnewline⟩ := List.any_eq_true.mp h
  have hany : (s ++ t).any (· == 10) = s.any (· == 10) := by
    rw [List.any_append, show s.any (· == 10) = true from h, Bool.true_or]
  have hline : (s ++ t).takeWhile (· != 10) = s.takeWhile (· != 10) := by
    rw [List.takeWhile_append, if_neg]
    intro hlen
    have hall := List.takeWhile_eq_self_iff.mp
      (List.IsPrefix.eq_of_length (List.takeWhile_prefix _) hlen)
    simpa [show c = 10 from by simpa using hnewline] using hall c hc
  rw [firstLine, firstLine, hany, hline]

/-- `s.replace(word, '')` for a string pattern: only the first occurrence goes. -/
def removeFirst (w : Text) : Text → Text
  | [] => []
  | c :: s => if w.isPrefixOf (c :: s) then (c :: s).drop w.length else c :: removeFirst w s

/-- A text without the word stays as it is. -/
theorem removeFirst_of_not_isInfix {w s : Text} (h : ¬ w <:+: s) : removeFirst w s = s := by
  induction s with
  | nil => rfl
  | cons c s ih =>
    rw [removeFirst, if_neg, ih fun hs => h (hs.trans (List.suffix_cons c s).isInfix)]
    intro hw
    exact h (List.isPrefixOf_iff_prefix.mp hw).isInfix

/-- A text that begins with the word loses its beginning. -/
theorem removeFirst_append {w : Text} (hw : w ≠ []) (s : Text) : removeFirst w (w ++ s) = s := by
  obtain ⟨c, w, rfl⟩ := List.exists_cons_of_ne_nil hw
  rw [List.cons_append, removeFirst, if_pos, ← List.cons_append, List.drop_left]
  rw [← List.cons_append, List.isPrefixOf_iff_prefix]
  exact List.prefix_append _ s

end DreamWeaver
