import DreamWeaver.Foundations.JsText
import DreamWeaver.Foundations.JsValue
import DreamWeaver.Foundations.Marks
import DreamWeaver.Foundations.ShortDecimal

/-! # Values as texts, and replacing in texts

What a template literal or a computed property makes of a parsed value, and the items that `for of` takes
from it. An object that has a key `toString` of its own has no text.

`text.replace(pattern, replacement)` for a global pattern that stands for a fixed text: the replacement is a
text in which `$$`, `$&`, `` $` `` and `$'` stand for a dollar sign, for what is replaced and for what is before
and behind it. -/

namespace DreamWeaver

/-- `String(x)` -/
def numberString : JsNumber → Text
  | .nan => lit "NaN"
  | .posInfinity => lit "Infinity"
  | .negInfinity => lit "-Infinity"
  | .finite x => numberText (.finite x)

/-- An object is used as a text that has none. -/
def noPrimitive : JsError := ⟨lit "TypeError", lit "Cannot convert object to primitive value"⟩

/-- The value is `null`. -/
def Json.isNull : Json → Bool
  | .null => true
  | _ => false

mutual

/-- The text of a value. -/
def Json.toText : Json → Except JsError Text
  | .null => .ok (lit "null")
  | .bool b => .ok (if b then lit "true" else lit "false")
  | .num x => .ok (numberString x)
  | .str text => .ok text
  | .arr items => (itemTexts items).map (joinWith (lit ","))
  | .obj fields => if (Json.field? fields (lit "toString")).isSome then .error noPrimitive else .ok (lit "[object Object]")

/-- The texts that an array joins. -/
def itemTexts : List Json → Except JsError (List Text)
  | [] => .ok []
  | item :: items => do
    let text ← if item.isNull then .ok [] else item.toText
    let texts ← itemTexts items
    pure (text :: texts)

end

/-- The text of a value that may be `undefined`. -/
def textOf (v : Option Json) : Except JsError Text := v.elim (.ok (lit "undefined")) Json.toText

/-- The value has a text. -/
def hasText (v : Option Json) : Bool := (textOf v).isOk

/-- The text of a value that has one. -/
theorem exists_of_hasText {v : Option Json} (h : hasText v = true) : ∃ text, textOf v = .ok text := by
  rw [hasText] at h
  cases htext : textOf v with
  | ok text => exact ⟨text, rfl⟩
  | error e =>
    rw [htext] at h
    cases h

/-- The code points of a text. -/
def codePoints : Text → List Text
  | [] => []
  | [c] => [[c]]
  | c :: d :: s =>
    if isHighSurrogate c && isLowSurrogate d then [c, d] :: codePoints s else [c] :: codePoints (d :: s)

/-- A value is iterated that has no items. -/
def notIterable : JsError := ⟨lit "TypeError", lit "is not iterable"⟩

/-- The items that `for of` takes from a value that may be `undefined`. -/
def iterate : Option Json → Except JsError (List Json)
  | some (.arr items) => .ok items
  | some (.str text) => .ok ((codePoints text).map Json.str)
  | _ => .error notIterable

/-! ## Replacing -/

section Replacing

open Marks (pieces places exists_cons_pieces intercalate_pieces)

/-- What a replacement stands for at a place, as there are no groups in the pattern. -/
def expand (before matched after : Text) : Text → Text
  | 36 :: 36 :: r => 36 :: expand before matched after r
  | 36 :: 38 :: r => matched ++ expand before matched after r
  | 36 :: 96 :: r => before ++ expand before matched after r
  | 36 :: 39 :: r => after ++ expand before matched after r
  | c :: r => c :: expand before matched after r
  | [] => []

/-- What is put at the places between pieces, behind a text. -/
def insertionsFrom (m r : Text) : Text → List Text → List Text
  | before, p :: q :: ps =>
    expand (before ++ p) m (m.intercalate (q :: ps)) r :: insertionsFrom m r (before ++ p ++ m) (q :: ps)
  | _, _ => []

/-- What is put at the places of a text. -/
def insertions (m r s : Text) : List Text := insertionsFrom m r [] (pieces m s)

/-- Pieces with texts between them. -/
def weave : List Text → List Text → Text
  | p :: ps, e :: es => p ++ e ++ weave ps es
  | ps, _ => ps.flatten

/-- `s.replace(new RegExp(m, 'g'), r)` -/
def replaceAll (m r s : Text) : Text := weave (pieces m s) (insertions m r s)

/-- A dollar sign is not in a text that stands for itself everywhere. -/
theorem expand_of_not_mem {before matched after r : Text} (h : 36 ∉ r) : expand before matched after r = r := by
  induction r with
  | nil => rfl
  | cons c r ih =>
    obtain ⟨hc, hr⟩ : ¬ 36 = c ∧ 36 ∉ r := by simpa [not_or] using h
    rw [expand, ih hr]
    all_goals exact fun _ heq => absurd heq.symm hc

variable {m r s e : Text} {ps qs : List Text}

theorem length_insertionsFrom (m r before : Text) (ps : List Text) :
    (insertionsFrom m r before ps).length = ps.length - 1 := by
  induction ps generalizing before with
  | nil => rfl
  | cons p ps ih =>
    cases ps with
    | nil => rfl
    | cons q qs =>
      rw [insertionsFrom, List.length_cons, ih]
      simp

/-- There is an insertion for each place. -/
theorem length_insertions (m r s : Text) : (insertions m r s).length = places m s := length_insertionsFrom m r [] _

theorem weave_replicate (r : Text) (ps : List Text) : weave ps (List.replicate (ps.length - 1) r) = r.intercalate ps := by
  induction ps with
  | nil => rfl
  | cons p ps ih =>
    cases ps with
    | nil => simp [weave]
    | cons q qs =>
      have hlength : (p :: q :: qs).length - 1 = ((q :: qs).length - 1) + 1 := by simp
      rw [hlength, List.replicate_succ, weave, ih, List.intercalate_cons_cons]

theorem exists_of_mem_insertionsFrom {before : Text} (h : e ∈ insertionsFrom m r before ps) :
    ∃ a b, m.intercalate ps = a ++ (m ++ b) ∧ e = expand (before ++ a) m b r := by
  induction ps generalizing before with
  | nil => cases h
  | cons p ps ih =>
    cases ps with
    | nil => cases h
    | cons q qs =>
      rw [List.intercalate_cons_cons]
      rcases List.mem_cons.mp h with rfl | h
      · exact ⟨p, m.intercalate (q :: qs), List.append_assoc _ _ _, rfl⟩
      · obtain ⟨a, b, hab, rfl⟩ := ih h
        exact ⟨p ++ m ++ a, b, by rw [hab]; simp, by simp⟩

theorem mem_insertionsFrom {before : Text} (hps : ps ≠ []) (hqs : qs ≠ []) :
    expand (before ++ m.intercalate ps) m (m.intercalate qs) r ∈ insertionsFrom m r before (ps ++ qs) := by
  induction ps generalizing before with
  | nil => exact absurd rfl hps
  | cons p ps ih =>
    cases ps with
    | nil =>
      obtain ⟨q, qs, rfl⟩ := List.exists_cons_of_ne_nil hqs
      rw [List.intercalate_singleton]
      exact List.mem_cons_self
    | cons p' ps =>
      have hmem := @ih (before ++ p ++ m) (List.cons_ne_nil p' ps)
      have hbefore : before ++ p ++ m ++ m.intercalate (p' :: ps) = before ++ m.intercalate (p :: p' :: ps) := by
        rw [List.intercalate_cons_cons]
        simp
      rw [hbefore] at hmem
      exact List.mem_cons_of_mem _ hmem

/-- **The insertions are what the replacement stands for at the places.** -/
theorem mem_insertions_iff {M : Set Text} (hM : Marks.Separate M) (hm : m ∈ M) :
    e ∈ insertions m r s ↔ ∃ a b, s = a ++ (m ++ b) ∧ e = expand a m b r := by
  have hne := hM.ne_nil m hm
  constructor
  · intro h
    obtain ⟨a, b, hab, rfl⟩ := exists_of_mem_insertionsFrom h
    rw [intercalate_pieces hne] at hab
    exact ⟨a, b, hab, rfl⟩
  · rintro ⟨a, b, rfl, rfl⟩
    have hmem : expand ([] ++ m.intercalate (Marks.pieces m a)) m (m.intercalate (Marks.pieces m b)) r ∈
        insertionsFrom m r [] (Marks.pieces m a ++ Marks.pieces m b) :=
      mem_insertionsFrom (Marks.pieces_ne_nil m a) (Marks.pieces_ne_nil m b)
    rw [intercalate_pieces hne, intercalate_pieces hne, ← hM.pieces_append hm] at hmem
    exact hmem

end Replacing

end DreamWeaver
