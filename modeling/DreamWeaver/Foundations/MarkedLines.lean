import Mathlib

/-! # Marked lines

Texts are put below each other, each behind a mark with its number. A text may have several lines, and one of
them may begin with a mark too. A mark is at the front of one line only, that of its own text, exactly when no
text has it at the front of a further line. -/

namespace DreamWeaver

namespace MarkedLines

variable {α : Type} [DecidableEq α] {sep : α} {mark : ℕ → List α} {texts : List (List α)} {m text : List α} {i : ℕ}

/-! ## Lines -/

/-- The first line of a text, and what follows it. -/
theorem splitOn_eq_cons (text : List α) :
    text.splitOn sep = text.takeWhile (· != sep) :: (text.splitOn sep).tail := by
  induction text with
  | nil => rfl
  | cons c text ih =>
    rw [List.splitOn_cons_eq_if_modifyHead, List.takeWhile_cons]
    by_cases hc : c = sep
    · rw [if_pos (beq_iff_eq.mpr hc), if_neg (by simp [hc]), List.tail_cons]
    · rw [if_neg (by simpa using hc), if_pos (by simpa using hc), ih, List.modifyHead_cons, List.tail_cons]

/-- The lines of a text behind something that has no line end. -/
theorem splitOn_append_of_not_mem (hm : sep ∉ m) (text : List α) :
    (m ++ text).splitOn sep = (m ++ text.takeWhile (· != sep)) :: (text.splitOn sep).tail := by
  induction m with
  | nil => exact splitOn_eq_cons text
  | cons c m ih =>
    rw [List.mem_cons, not_or] at hm
    obtain ⟨hc, hm⟩ := hm
    rw [List.cons_append, List.splitOn_cons_eq_if_modifyHead, if_neg (by simpa using Ne.symm hc), ih hm,
      List.modifyHead_cons, List.cons_append]

/-- **The lines of texts below each other** are the lines of the texts. -/
theorem splitOn_intercalate (hne : texts ≠ []) :
    ([sep].intercalate texts).splitOn sep = texts.flatMap fun text => text.splitOn sep := by
  induction texts with
  | nil => exact absurd rfl hne
  | cons text texts ih =>
    cases texts with
    | nil => simp
    | cons next texts =>
      rw [List.intercalate_cons_cons, List.append_assoc, List.singleton_append, List.splitOn_append_cons_self,
        ih (List.cons_ne_nil _ _)]
      rfl

/-! ## Marks -/

/-- Marks that stand in one line and are told apart by what they begin. -/
structure IsNumbering (sep : α) (mark : ℕ → List α) : Prop where
  line : ∀ i, sep ∉ mark i
  distinct : ∀ i j text, mark i <+: mark j ++ text → i = j

/-- The texts behind their marks. -/
def marked (mark : ℕ → List α) (texts : List (List α)) : List (List α) := texts.mapIdx fun i text => mark i ++ text

/-- The texts below each other. -/
def document (sep : α) (mark : ℕ → List α) (texts : List (List α)) : List α := [sep].intercalate (marked mark texts)

/-- The lines of a text that begin with a mark. -/
def linesAt (sep : α) (m text : List α) : List (List α) := (text.splitOn sep).filter fun line => m.isPrefixOf line

/-- The further lines of a text that begin with a mark. -/
def furtherAt (sep : α) (m text : List α) : List (List α) :=
  (text.splitOn sep).tail.filter fun line => m.isPrefixOf line

/-- The line of a text behind its mark. -/
def ownLine (sep : α) (m text : List α) : List α := m ++ text.takeWhile (· != sep)

/-- The lines of one text with a mark: its own line if the mark is its own, and further lines. -/
theorem linesAt_append (h : IsNumbering sep mark) (i j : ℕ) (text : List α) :
    linesAt sep (mark i) (mark j ++ text) =
      (if i = j then [ownLine sep (mark j) text] else []) ++ furtherAt sep (mark i) text := by
  rw [linesAt, splitOn_append_of_not_mem (h.line j), List.filter_cons]
  by_cases hij : i = j
  · rw [if_pos hij, if_pos (by rw [hij]; exact List.isPrefixOf_iff_prefix.mpr (List.prefix_append _ _))]
    rfl
  · have hnot : (mark i).isPrefixOf (mark j ++ text.takeWhile (· != sep)) = false :=
      Bool.eq_false_iff.mpr fun hprefix => hij (h.distinct _ _ _ (List.isPrefixOf_iff_prefix.mp hprefix))
    rw [if_neg hij, if_neg (by rw [hnot]; exact Bool.false_ne_true)]
    rfl

/-- The lines of the document with a mark are those of its texts. -/
theorem linesAt_document (hne : texts ≠ []) :
    linesAt sep m (document sep mark texts) = (marked mark texts).flatMap (linesAt sep m) := by
  rw [linesAt, document, splitOn_intercalate (by simpa [marked] using hne), List.filter_flatMap]
  rfl

/-- **How many lines begin with a mark**: one for the text that has it, and the further lines. -/
theorem length_linesAt_marked (h : IsNumbering sep mark) (i : ℕ) :
    ((marked mark texts).flatMap (linesAt sep (mark i))).length =
      (if i < texts.length then 1 else 0) + (texts.map fun text => (furtherAt sep (mark i) text).length).sum := by
  have hcount : ∀ k, ((texts.mapIdx fun j text => mark (j + k) ++ text).flatMap (linesAt sep (mark i))).length =
      (if k ≤ i ∧ i < k + texts.length then 1 else 0) +
        (texts.map fun text => (furtherAt sep (mark i) text).length).sum := by
    induction texts with
    | nil => simp
    | cons text texts ih =>
      intro k
      have hrest := ih (k + 1)
      simp only [List.mapIdx_cons, List.flatMap_cons, List.length_append, linesAt_append h, List.map_cons,
        List.sum_cons, List.length_cons, Nat.zero_add, Nat.add_right_comm _ 1 k, ← Nat.add_assoc] at hrest ⊢
      rw [hrest]
      split_ifs <;> simp <;> omega
  exact (hcount 0).trans (by simp)

/-- **A mark is at the front of its own line only** exactly when it is at the front of no further line. -/
theorem linesAt_document_iff (h : IsNumbering sep mark) (hi : texts[i]? = some text) :
    linesAt sep (mark i) (document sep mark texts) = [ownLine sep (mark i) text] ↔
      ∀ other ∈ texts, ∀ line ∈ (other.splitOn sep).tail, ¬ mark i <+: line := by
  obtain ⟨hlt, htext⟩ := List.getElem?_eq_some_iff.mp hi
  have hne : texts ≠ [] := List.ne_nil_of_length_pos (Nat.zero_lt_of_lt hlt)
  have hlength := @length_linesAt_marked _ _ _ _ texts h i
  rw [if_pos hlt] at hlength
  have hnone : (∀ other ∈ texts, ∀ line ∈ (other.splitOn sep).tail, ¬ mark i <+: line) ↔
      (texts.map fun text => (furtherAt sep (mark i) text).length).sum = 0 := by
    simp [furtherAt, List.sum_eq_zero_iff_forall_eq_nat]
  have hmem : ownLine sep (mark i) text ∈ (marked mark texts).flatMap (linesAt sep (mark i)) := by
    refine List.mem_flatMap.mpr ⟨mark i ++ text, ?_, ?_⟩
    · exact List.mem_mapIdx.mpr ⟨i, hlt, by rw [htext]⟩
    · rw [linesAt_append h, if_pos rfl]
      exact List.mem_append_left _ (List.mem_singleton_self _)
  rw [linesAt_document hne, hnone]
  constructor
  · intro hown
    rw [hown, List.length_singleton] at hlength
    omega
  · intro hzero
    obtain ⟨line, hline⟩ := List.length_eq_one_iff.mp (hlength.trans (by rw [hzero]))
    rw [hline] at hmem ⊢
    rw [List.mem_singleton.mp hmem]

end MarkedLines

end DreamWeaver
