import Mathlib.Data.List.Find
import Mathlib.Data.List.Infix
import Mathlib.Data.List.Nodup
import Mathlib.Data.Set.Basic

/-! # Marks in a list

A mark is a list that stands at places of another one. The places of one mark split a list into pieces, and
the places of several marks are filled in with values all at once. Marks of which none begins within another
are filled in independently of each other: filling in one more is splitting at it and joining with its value. -/

namespace DreamWeaver

namespace Marks

variable {α : Type} [DecidableEq α] {values values' : List (List α × List α)} {m v : List α} {s a b p : List α}
  {ps : List (List α)} {M : Set (List α)}

/-! ## Splitting and filling in -/

/-- The entry whose mark a list begins with. -/
def markAt (values : List (List α × List α)) (s : List α) : Option (List α × List α) :=
  values.find? fun e => e.1.isPrefixOf s

/-- Fill in a list behind the units that belong to a mark that is filled in already. -/
def fillFrom (values : List (List α × List α)) : ℕ → List α → List α
  | _, [] => []
  | n + 1, _ :: s => fillFrom values n s
  | 0, c :: s =>
    match markAt values (c :: s) with
    | some e => e.2 ++ fillFrom values (e.1.length - 1) s
    | none => c :: fillFrom values 0 s

/-- Every mark is replaced by its value. -/
def fill (values : List (List α × List α)) (s : List α) : List α := fillFrom values 0 s

/-- Put a unit before the first piece. -/
def consHead (c : α) : List (List α) → List (List α)
  | [] => [[c]]
  | p :: ps => (c :: p) :: ps

/-- Split a list behind the units that belong to a mark. -/
def piecesFrom (m : List α) : ℕ → List α → List (List α)
  | _, [] => [[]]
  | n + 1, _ :: s => piecesFrom m n s
  | 0, c :: s =>
    if m.isPrefixOf (c :: s) then [] :: piecesFrom m (m.length - 1) s else consHead c (piecesFrom m 0 s)

/-- The pieces between the places of a mark. -/
def pieces (m s : List α) : List (List α) := piecesFrom m 0 s

/-- The number of places of a mark. -/
def places (m s : List α) : ℕ := (pieces m s).length - 1

theorem fillFrom_eq (n : ℕ) (s : List α) : fillFrom values n s = fill values (s.drop n) := by
  induction s generalizing n with
  | nil => cases n <;> rfl
  | cons c s ih =>
    cases n with
    | zero => rfl
    | succ n => rw [fillFrom, ih, List.drop_succ_cons]

@[simp] theorem fill_nil : fill values [] = [] := rfl

theorem fill_cons_of_none {c : α} (h : markAt values (c :: s) = none) : fill values (c :: s) = c :: fill values s := by
  rw [fill, fillFrom, h]
  rfl

theorem fill_cons_of_some {c : α} {e : List α × List α} (h : markAt values (c :: s) = some e) :
    fill values (c :: s) = e.2 ++ fill values (s.drop (e.1.length - 1)) := by
  rw [fill, fillFrom, h]
  exact congrArg (e.2 ++ ·) (fillFrom_eq _ _)

/-- Without values nothing is filled in. -/
theorem fill_of_nil (s : List α) : fill [] s = s := by
  induction s with
  | nil => rfl
  | cons c s ih => rw [fill_cons_of_none rfl, ih]

/-- What is in a list that is filled in comes from a value or is left over. -/
theorem mem_fill {c : α} (h : c ∈ fill values s) :
    c ∈ fill (values.map fun e => (e.1, [])) s ∨ ∃ e ∈ values, c ∈ e.2 := by
  have hfound : ∀ t, markAt (values.map fun e => (e.1, [])) t = (markAt values t).map fun e => (e.1, []) :=
    fun t => List.find?_map
  induction hn : s.length using Nat.strong_induction_on generalizing s with
  | _ n ih =>
    cases s with
    | nil => exact .inl h
    | cons d s =>
      rw [List.length_cons] at hn
      cases hmark : markAt values (d :: s) with
      | none =>
        rw [fill_cons_of_none hmark] at h
        rw [fill_cons_of_none (by rw [hfound, hmark, Option.map_none])]
        rcases List.mem_cons.mp h with rfl | h
        · exact .inl List.mem_cons_self
        · exact (ih _ (by omega) h rfl).imp_left (List.mem_cons_of_mem d)
      | some e =>
        rw [fill_cons_of_some hmark] at h
        rw [fill_cons_of_some (by rw [hfound, hmark, Option.map_some])]
        rcases List.mem_append.mp h with h | h
        · exact .inr ⟨e, List.mem_of_find?_eq_some hmark, h⟩
        · exact ih _ (by rw [List.length_drop]; omega) h rfl

theorem piecesFrom_eq (n : ℕ) (s : List α) : piecesFrom m n s = pieces m (s.drop n) := by
  induction s generalizing n with
  | nil => cases n <;> rfl
  | cons c s ih =>
    cases n with
    | zero => rfl
    | succ n => rw [piecesFrom, ih, List.drop_succ_cons]

@[simp] theorem pieces_nil : pieces m [] = [[]] := rfl

theorem pieces_cons_pos {c : α} (h : m <+: c :: s) :
    pieces m (c :: s) = [] :: pieces m (s.drop (m.length - 1)) := by
  rw [pieces, piecesFrom, if_pos (List.isPrefixOf_iff_prefix.mpr h), piecesFrom_eq]

theorem pieces_cons_neg {c : α} (h : ¬ m <+: c :: s) :
    pieces m (c :: s) = consHead c (pieces m s) := by
  rw [pieces, piecesFrom, if_neg fun hprefix => h (List.isPrefixOf_iff_prefix.mp hprefix)]
  rfl

/-- Going through a list from place to place. -/
theorem induction_places {motive : List α → Prop} (m : List α) (nil : motive [])
    (mark : ∀ c s, m <+: c :: s → motive (s.drop (m.length - 1)) → motive (c :: s))
    (unit : ∀ c s, ¬ m <+: c :: s → motive s → motive (c :: s)) (s : List α) : motive s := by
  induction hn : s.length using Nat.strong_induction_on generalizing s with
  | _ n ih =>
    cases s with
    | nil => exact nil
    | cons c s =>
      rw [List.length_cons] at hn
      by_cases h : m <+: c :: s
      · refine mark c s h (ih _ ?_ _ rfl)
        rw [List.length_drop]
        omega
      · exact unit c s h (ih _ (by omega) _ rfl)

theorem pieces_ne_nil (m s : List α) : pieces m s ≠ [] := by
  induction s using induction_places m with
  | nil => exact List.cons_ne_nil _ _
  | mark c s h => rw [pieces_cons_pos h]; exact List.cons_ne_nil _ _
  | unit c s h =>
    rw [pieces_cons_neg h]
    cases pieces m s <;> exact List.cons_ne_nil _ _

theorem exists_cons_pieces (m s : List α) : ∃ p ps, pieces m s = p :: ps :=
  List.exists_cons_of_ne_nil (pieces_ne_nil m s)

omit [DecidableEq α] in
/-- A mark that a list begins with, and the rest. -/
theorem cons_eq_append_drop {c : α} (hm : m ≠ []) (h : m <+: c :: s) : c :: s = m ++ s.drop (m.length - 1) := by
  obtain ⟨d, m, rfl⟩ := List.exists_cons_of_ne_nil hm
  obtain ⟨rest, hrest⟩ := h
  obtain ⟨rfl, rfl⟩ := List.cons.inj hrest
  change d :: (m ++ rest) = d :: (m ++ (m ++ rest).drop m.length)
  rw [List.drop_left]

/-- **Joining undoes splitting.** -/
theorem intercalate_pieces (hm : m ≠ []) (s : List α) : m.intercalate (pieces m s) = s := by
  induction s using induction_places m with
  | nil => rw [pieces_nil, List.intercalate_singleton]
  | mark c s h ih =>
    rw [pieces_cons_pos h, List.intercalate_cons_of_ne_nil (pieces_ne_nil _ _), ih,
      List.nil_append, ← cons_eq_append_drop hm h]
  | unit c s h ih =>
    obtain ⟨p, ps, hps⟩ := exists_cons_pieces m s
    rw [hps] at ih
    rw [pieces_cons_neg h, hps, consHead, List.intercalate_cons_cons_left, ih]

/-- A piece has no place of the mark. -/
theorem not_infix_of_mem_pieces (hm : m ≠ []) (h : p ∈ pieces m s) : ¬ m <:+: p := by
  have hnil : ¬ m <:+: ([] : List α) := fun h => hm (List.infix_nil.mp h)
  induction s using induction_places m generalizing p with
  | nil =>
    obtain rfl := List.mem_singleton.mp h
    exact hnil
  | mark c s hprefix ih =>
    rw [pieces_cons_pos hprefix] at h
    rcases List.mem_cons.mp h with rfl | h
    exacts [hnil, ih h]
  | unit c s hprefix ih =>
    obtain ⟨q, qs, hqs⟩ := exists_cons_pieces m s
    rw [pieces_cons_neg hprefix, hqs, consHead] at h
    rcases List.mem_cons.mp h with rfl | h
    · have hjoin := intercalate_pieces hm s
      have hq : q <+: s := by
        rw [hqs] at hjoin
        cases qs with
        | nil => exact ⟨[], by rw [List.append_nil, ← hjoin, List.intercalate_singleton]⟩
        | cons r qs =>
          rw [List.intercalate_cons_cons, List.append_assoc] at hjoin
          exact ⟨_, hjoin⟩
      intro hin
      rcases List.infix_cons_iff.mp hin with hfirst | hrest
      · exact hprefix (hfirst.trans (List.cons_prefix_cons.mpr ⟨rfl, hq⟩))
      · exact ih (by rw [hqs]; exact List.mem_cons_self) hrest
    · exact ih (by rw [hqs]; exact List.mem_cons_of_mem _ h)

/-- What has no place of the mark is one piece. -/
theorem pieces_of_not_infix (h : ¬ m <:+: s) : pieces m s = [s] := by
  induction s with
  | nil => rfl
  | cons c s ih =>
    rw [pieces_cons_neg fun hprefix => h hprefix.isInfix,
      ih fun hin => h (hin.trans (List.suffix_cons c s).isInfix)]
    rfl

/-! ## Marks that do not begin within each other -/

/-- **Separate marks**: within an occurrence of one none begins, and no two begin at the same place. -/
structure Separate (M : Set (List α)) : Prop where
  ne_nil : ∀ m ∈ M, m ≠ []
  within : ∀ m ∈ M, ∀ m' ∈ M, ∀ x y b, m = x ++ y → x ≠ [] → y ≠ [] → ¬ m' <+: y ++ b
  first : ∀ m ∈ M, ∀ m' ∈ M, ∀ b, m' <+: m ++ b → m' = m

section Separate

variable (hM : Separate M) (hvalues : ∀ e ∈ values, e.1 ∈ M) (hm : m ∈ M)

omit [DecidableEq α] in
include hM hm in
/-- Before a mark, another mark stands in what is before it only. -/
theorem Separate.prefix_append_iff {m' : List α} (hm' : m' ∈ M) (ha : a ≠ []) :
    m' <+: a ++ (m ++ b) ↔ m' <+: a := by
  refine ⟨fun h => ?_, fun h => h.trans (List.prefix_append _ _)⟩
  rcases List.prefix_or_prefix_of_prefix h (List.prefix_append a (m ++ b)) with h' | ⟨y, rfl⟩
  · exact h'
  · obtain ⟨t, ht⟩ := h
    rw [List.append_assoc] at ht
    have hrest : y ++ t = m ++ b := List.append_cancel_left ht
    by_cases hy : y = []
    · rw [hy, List.append_nil]
    · exact absurd ⟨b, hrest.symm⟩ (hM.within _ hm' _ hm a y t rfl ha hy)

include hM hvalues hm in
theorem Separate.markAt_append (ha : a ≠ []) : markAt values (a ++ (m ++ b)) = markAt values a := by
  refine List.find?_congr fun e he => ?_
  rw [Bool.eq_iff_iff, List.isPrefixOf_iff_prefix, List.isPrefixOf_iff_prefix]
  exact hM.prefix_append_iff hm (hvalues e he) ha

/-- The mark that is found is a mark that the list begins with. -/
theorem prefix_of_markAt {e : List α × List α} (h : markAt values s = some e) : e ∈ values ∧ e.1 <+: s := by
  rw [markAt] at h
  have hprefix := List.find?_some h
  exact ⟨List.mem_of_find?_eq_some h, List.isPrefixOf_iff_prefix.mp hprefix⟩

include hM hvalues hm in
/-- **What stands before a mark is filled in by itself.** -/
theorem Separate.fill_append (a b : List α) :
    fill values (a ++ (m ++ b)) = fill values a ++ fill values (m ++ b) := by
  induction hn : a.length using Nat.strong_induction_on generalizing a with
  | _ n ih =>
    cases a with
    | nil => rfl
    | cons c a =>
      rw [List.length_cons] at hn
      have hfound := hM.markAt_append hvalues hm (b := b) (List.cons_ne_nil c a)
      rw [List.cons_append] at hfound ⊢
      cases hmark : markAt values (c :: a) with
      | none =>
        rw [fill_cons_of_none hmark, fill_cons_of_none (hfound.trans hmark), ih _ (by omega) _ rfl]
        rfl
      | some e =>
        have hlength : e.1.length - 1 ≤ a.length := by
          have hle := (prefix_of_markAt hmark).2.length_le
          rw [List.length_cons] at hle
          omega
        have hdrop : (a ++ (m ++ b)).drop (e.1.length - 1) = a.drop (e.1.length - 1) ++ (m ++ b) :=
          List.drop_append_of_le_length hlength
        rw [fill_cons_of_some hmark, fill_cons_of_some (hfound.trans hmark), hdrop,
          ih _ (by rw [List.length_drop]; omega) _ rfl, List.append_assoc]

include hM hvalues hm in
/-- A mark that has no value stays. -/
theorem Separate.fill_mark (hnew : m ∉ values.map Prod.fst) (b : List α) :
    fill values (m ++ b) = m ++ fill values b := by
  suffices h : ∀ x y, m = x ++ y → fill values (y ++ b) = y ++ fill values b from h [] m rfl
  intro x y
  induction y generalizing x with
  | nil => exact fun _ => rfl
  | cons c y ih =>
    intro hxy
    have hnone : markAt values ((c :: y) ++ b) = none := by
      refine List.find?_eq_none.mpr fun e he hprefix => ?_
      rw [List.isPrefixOf_iff_prefix] at hprefix
      by_cases hx : x = []
      · rw [hx, List.nil_append] at hxy
        exact hnew (hM.first m hm _ (hvalues e he) b (hxy ▸ hprefix) ▸ List.mem_map_of_mem he)
      · exact hM.within m hm _ (hvalues e he) x (c :: y) b hxy hx (List.cons_ne_nil _ _) hprefix
    rw [List.cons_append] at hnone ⊢
    rw [fill_cons_of_none hnone, ih (x ++ [c]) (by simp [hxy])]
    rfl

/-- A mark that has a value is replaced by it. -/
theorem fill_mark_cons (hm : m ≠ []) (b : List α) : fill ((m, v) :: values) (m ++ b) = v ++ fill ((m, v) :: values) b := by
  obtain ⟨c, m, rfl⟩ := List.exists_cons_of_ne_nil hm
  have hmark : markAt ((c :: m, v) :: values) (c :: (m ++ b)) = some (c :: m, v) :=
    List.find?_cons_of_pos (List.isPrefixOf_iff_prefix.mpr (List.prefix_append (c :: m) b))
  rw [List.cons_append, fill_cons_of_some hmark, List.length_cons, Nat.add_sub_cancel, List.drop_left]

/-- Where a mark does not stand, it is not filled in. -/
theorem fill_cons_of_not_infix (h : ¬ m <:+: s) : fill ((m, v) :: values) s = fill values s := by
  induction hn : s.length using Nat.strong_induction_on generalizing s with
  | _ n ih =>
    cases s with
    | nil => rfl
    | cons c s =>
      rw [List.length_cons] at hn
      have hfound : markAt ((m, v) :: values) (c :: s) = markAt values (c :: s) :=
        List.find?_cons_of_neg fun hprefix => h (List.isPrefixOf_iff_prefix.mp hprefix).isInfix
      have hrest : ∀ k, ¬ m <:+: s.drop k := fun k hin =>
        h (hin.trans ((List.drop_suffix k s).trans (List.suffix_cons c s)).isInfix)
      have hzero : ¬ m <:+: s := hrest 0
      cases hmark : markAt values (c :: s) with
      | none => rw [fill_cons_of_none hmark, fill_cons_of_none (hfound.trans hmark), ih _ (by omega) hzero rfl]
      | some e =>
        rw [fill_cons_of_some hmark, fill_cons_of_some (hfound.trans hmark),
          ih _ (by rw [List.length_drop]; omega) (hrest _) rfl]

include hM hvalues hm in
/-- **A list that is filled in has the places of another mark between its pieces.** -/
theorem Separate.fill_intercalate (hnew : m ∉ values.map Prod.fst) (ps : List (List α)) :
    fill values (m.intercalate ps) = m.intercalate (ps.map (fill values)) := by
  induction ps with
  | nil => rfl
  | cons p ps ih =>
    cases ps with
    | nil => simp
    | cons q qs =>
      rw [List.intercalate_cons_cons, List.append_assoc, hM.fill_append hvalues hm, hM.fill_mark hvalues hm hnew, ih]
      simp only [List.map_cons, List.intercalate_cons_cons, List.append_assoc]

include hM hvalues hm in
theorem Separate.fill_cons_intercalate (hps : ∀ p ∈ ps, ¬ m <:+: p) :
    fill ((m, v) :: values) (m.intercalate ps) = v.intercalate (ps.map (fill values)) := by
  have hvalues' : ∀ e ∈ (m, v) :: values, e.1 ∈ M := List.forall_mem_cons.mpr ⟨hm, hvalues⟩
  induction ps with
  | nil => rfl
  | cons p ps ih =>
    obtain ⟨hp, hrest⟩ := List.forall_mem_cons.mp hps
    cases ps with
    | nil => simpa using fill_cons_of_not_infix hp
    | cons q qs =>
      rw [List.intercalate_cons_cons, List.append_assoc, hM.fill_append hvalues' hm,
        fill_mark_cons (hM.ne_nil m hm), ih hrest, fill_cons_of_not_infix hp]
      simp only [List.map_cons, List.intercalate_cons_cons, List.append_assoc]

include hM hvalues hm in
/-- **Filling in one more mark** is splitting at it, filling in the pieces and joining them with its value. -/
theorem Separate.fill_cons_eq (s : List α) :
    fill ((m, v) :: values) s = v.intercalate ((pieces m s).map (fill values)) := by
  have hne := hM.ne_nil m hm
  have h : fill ((m, v) :: values) (m.intercalate (pieces m s)) = v.intercalate ((pieces m s).map (fill values)) :=
    hM.fill_cons_intercalate hvalues hm fun _ => not_infix_of_mem_pieces hne
  rwa [intercalate_pieces hne] at h

include hM hvalues hm in
/-- A mark that is not filled in yet stays between the pieces. -/
theorem Separate.fill_eq (hnew : m ∉ values.map Prod.fst) (s : List α) :
    fill values s = m.intercalate ((pieces m s).map (fill values)) := by
  have h := hM.fill_intercalate hvalues hm hnew (pieces m s)
  rwa [intercalate_pieces (hM.ne_nil m hm)] at h

/-! ## Counting the places -/

include hM hm in
/-- **The places behind and before a mark are the places of the two parts.** -/
theorem Separate.pieces_append (a b : List α) : pieces m (a ++ (m ++ b)) = pieces m a ++ pieces m b := by
  have hne := hM.ne_nil m hm
  induction a using induction_places m with
  | nil =>
    obtain ⟨c, m, rfl⟩ := List.exists_cons_of_ne_nil hne
    have hdrop : (m ++ b).drop ((c :: m).length - 1) = b := List.drop_left
    have hprefix : c :: m <+: c :: (m ++ b) := List.prefix_append (c :: m) b
    rw [List.nil_append, List.cons_append, pieces_cons_pos hprefix, hdrop]
    rfl
  | mark c a h ih =>
    have hlength : m.length - 1 ≤ a.length := by
      have hle := h.length_le
      rw [List.length_cons] at hle
      omega
    have hdrop : (a ++ (m ++ b)).drop (m.length - 1) = a.drop (m.length - 1) ++ (m ++ b) :=
      List.drop_append_of_le_length hlength
    have hprefix : m <+: c :: (a ++ (m ++ b)) := h.trans (List.prefix_append (c :: a) _)
    rw [List.cons_append, pieces_cons_pos hprefix, hdrop, ih, pieces_cons_pos h, List.cons_append]
  | unit c a h ih =>
    obtain ⟨q, qs, hqs⟩ := exists_cons_pieces m a
    have hnot : ¬ m <+: c :: (a ++ (m ++ b)) := fun hprefix =>
      h ((hM.prefix_append_iff hm hm (List.cons_ne_nil c a)).mp hprefix)
    rw [List.cons_append, pieces_cons_neg hnot, ih, pieces_cons_neg h, hqs]
    rfl

include hM hm in
theorem Separate.pieces_intercalate (hps : ps ≠ []) : pieces m (m.intercalate ps) = ps.flatMap (pieces m) := by
  induction ps with
  | nil => exact absurd rfl hps
  | cons p ps ih =>
    cases ps with
    | nil => simp
    | cons q qs =>
      rw [List.intercalate_cons_cons, List.append_assoc, hM.pieces_append hm, ih (List.cons_ne_nil _ _)]
      rfl

/-- A list in one piece is that piece. -/
theorem pieces_of_length (hm : m ≠ []) (h : (pieces m s).length = 1) : pieces m s = [s] := by
  obtain ⟨p, hp⟩ := List.length_eq_one_iff.mp h
  have hjoin := intercalate_pieces hm s
  rw [hp, List.intercalate_singleton] at hjoin
  rw [hp, hjoin]

/-- Lists that have no more pieces than there are lists are one piece each. -/
theorem flatMap_pieces_of_length (hm : m ≠ []) (h : (ps.flatMap (pieces m)).length ≤ ps.length) :
    ps.flatMap (pieces m) = ps := by
  induction ps with
  | nil => rfl
  | cons p ps ih =>
    have hpos : 0 < (pieces m p).length := List.length_pos_of_ne_nil (pieces_ne_nil m p)
    have hleast : ps.length ≤ (ps.flatMap (pieces m)).length := by
      clear h ih
      induction ps with
      | nil => exact Nat.zero_le _
      | cons q ps ih =>
        have hq : 0 < (pieces m q).length := List.length_pos_of_ne_nil (pieces_ne_nil m q)
        rw [List.flatMap_cons, List.length_append, List.length_cons]
        omega
    rw [List.flatMap_cons, List.length_append, List.length_cons] at h
    rw [List.flatMap_cons, pieces_of_length hm (by omega), ih (by omega)]
    rfl

include hM hvalues hm in
/-- **If no place is added, the places stay where they are**: between the pieces, filled in. -/
theorem Separate.pieces_fill (hnew : m ∉ values.map Prod.fst) (h : places m (fill values s) = places m s) :
    pieces m (fill values s) = (pieces m s).map (fill values) := by
  have hne : (pieces m s).map (fill values) ≠ [] := by simpa using pieces_ne_nil m s
  have hsplit : pieces m (fill values s) = ((pieces m s).map (fill values)).flatMap (pieces m) := by
    rw [hM.fill_eq hvalues hm hnew, hM.pieces_intercalate hm hne]
  have hpos : 0 < (pieces m s).length := List.length_pos_of_ne_nil (pieces_ne_nil m s)
  rw [places, places, hsplit] at h
  rw [hsplit]
  refine flatMap_pieces_of_length (hM.ne_nil m hm) ?_
  rw [List.length_map]
  omega

/-! ## Where no unit of a mark is left over -/

omit [DecidableEq α] in
theorem infix_intercalate_of_mem (m : List α) (hp : p ∈ ps) : p <:+: m.intercalate ps := by
  induction ps with
  | nil => cases hp
  | cons q ps ih =>
    cases ps with
    | nil =>
      obtain rfl := List.mem_singleton.mp hp
      rw [List.intercalate_singleton]
    | cons r ps =>
      rw [List.intercalate_cons_cons, List.append_assoc]
      rcases List.mem_cons.mp hp with rfl | hp
      · exact (List.prefix_append _ _).isInfix
      · exact (ih hp).trans ((List.suffix_append _ _).trans (List.suffix_append _ _)).isInfix

omit [DecidableEq α] in
include hM hm in
/-- Another mark stands in one of the parts around a mark. -/
theorem Separate.infix_append {m' : List α} (hm' : m' ∈ M) (hne : m' ≠ m) (h : m' <:+: a ++ (m ++ b)) :
    m' <:+: a ∨ m' <:+: b := by
  have hbehind : ∀ y x, m = x ++ y → m' <:+: y ++ b → m' <:+: b := by
    intro y
    induction y with
    | nil => exact fun _ _ h => h
    | cons c y ih =>
      intro x hxy h
      rcases List.infix_cons_iff.mp h with hprefix | hrest
      · by_cases hx : x = []
        · rw [hx, List.nil_append] at hxy
          exact absurd (hM.first m hm m' hm' b (hxy ▸ hprefix)) hne
        · exact absurd hprefix (hM.within m hm m' hm' x (c :: y) b hxy hx (List.cons_ne_nil _ _))
      · exact ih (x ++ [c]) (by simp [hxy]) hrest
  induction a with
  | nil => exact .inr (hbehind m [] rfl h)
  | cons c a ih =>
    rcases List.infix_cons_iff.mp h with hprefix | hrest
    · exact .inl ((hM.prefix_append_iff hm hm' (List.cons_ne_nil c a)).mp hprefix).isInfix
    · exact (ih hrest).imp_left fun h => h.trans (List.suffix_cons c a).isInfix

omit [DecidableEq α] in
include hM hm in
theorem Separate.infix_intercalate {m' : List α} (hm' : m' ∈ M) (hne : m' ≠ m) (h : m' <:+: m.intercalate ps) :
    ∃ p ∈ ps, m' <:+: p := by
  induction ps with
  | nil => exact absurd (List.infix_nil.mp h) (hM.ne_nil m' hm')
  | cons p ps ih =>
    cases ps with
    | nil => exact ⟨p, List.mem_cons_self, by rwa [List.intercalate_singleton] at h⟩
    | cons q qs =>
      rw [List.intercalate_cons_cons, List.append_assoc] at h
      rcases hM.infix_append hm hm' hne h with hp | hrest
      · exact ⟨p, List.mem_cons_self, hp⟩
      · obtain ⟨p', hp', hin⟩ := ih hrest
        exact ⟨p', List.mem_cons_of_mem _ hp', hin⟩

variable {rest : List (List α × List α)} {c : α}

include hM hvalues hm in
/-- If filling in all marks leaves no unit of a mark over, filling in some makes no further mark. -/
theorem Separate.not_infix_fill (hc : ∀ m ∈ M, c ∈ m) (hrest : ∀ e ∈ rest, e.1 ∈ M)
    (hkeys : ((rest ++ values).map Prod.fst).Nodup) (hnew : m ∉ (rest ++ values).map Prod.fst)
    (hs : ¬ m <:+: s) (hclear : c ∉ fill (rest ++ values) s) : ¬ m <:+: fill values s := by
  induction rest generalizing s with
  | nil => exact fun h => hclear (h.subset (hc m hm))
  | cons e rest ih =>
    obtain ⟨m', v'⟩ := e
    obtain ⟨hm', hrest⟩ := List.forall_mem_cons.mp hrest
    rw [List.cons_append, List.map_cons] at hkeys hnew
    obtain ⟨hmark, hkeys⟩ := List.nodup_cons.mp hkeys
    obtain ⟨hne, hnew⟩ : ¬ m = m' ∧ m ∉ (rest ++ values).map Prod.fst := by simpa [not_or] using hnew
    have hboth : ∀ e ∈ rest ++ values, e.1 ∈ M := fun e he =>
      (List.mem_append.mp he).elim (hrest e) (hvalues e)
    rw [List.cons_append, hM.fill_cons_eq hboth hm'] at hclear
    have hold : m' ∉ values.map Prod.fst := fun h => hmark (by rw [List.map_append]; exact List.mem_append_right _ h)
    rw [hM.fill_eq hvalues hm' hold]
    intro hin
    obtain ⟨q, hq, hin⟩ := hM.infix_intercalate hm' hm hne hin
    obtain ⟨p, hp, rfl⟩ := List.mem_map.mp hq
    refine ih hrest hkeys hnew (fun h => hs (h.trans ?_)) (fun h => hclear ?_) hin
    · have hpiece := infix_intercalate_of_mem m' hp
      rwa [intercalate_pieces (hM.ne_nil m' hm')] at hpiece
    · exact (infix_intercalate_of_mem v' (List.mem_map_of_mem hp)).subset h

include hM hvalues hm in
/-- **If filling in all marks leaves no unit of a mark over, no place is added on the way.** -/
theorem Separate.places_fill (hc : ∀ m ∈ M, c ∈ m) (hrest : ∀ e ∈ rest, e.1 ∈ M)
    (hkeys : (((m, v) :: (rest ++ values)).map Prod.fst).Nodup) (hclear : c ∉ fill ((m, v) :: (rest ++ values)) s) :
    places m (fill values s) = places m s := by
  rw [List.map_cons, List.nodup_cons] at hkeys
  have hboth : ∀ e ∈ rest ++ values, e.1 ∈ M := fun e he => (List.mem_append.mp he).elim (hrest e) (hvalues e)
  have hnew : m ∉ values.map Prod.fst := fun h =>
    hkeys.1 (by rw [List.map_append]; exact List.mem_append_right _ h)
  have hpieces : ∀ p ∈ pieces m s, pieces m (fill values p) = [fill values p] := by
    intro p hp
    refine pieces_of_not_infix (hM.not_infix_fill hvalues hm hc hrest hkeys.2 hkeys.1 ?_ fun h => hclear ?_)
    · exact not_infix_of_mem_pieces (hM.ne_nil m hm) hp
    · rw [hM.fill_cons_eq hboth hm]
      exact (infix_intercalate_of_mem v (List.mem_map_of_mem hp)).subset h
  have hne : (pieces m s).map (fill values) ≠ [] := by simpa using pieces_ne_nil m s
  have hflat : ((pieces m s).map (fill values)).flatMap (pieces m) = (pieces m s).map (fill values) := by
    rw [List.flatMap_map, List.flatMap_congr hpieces, List.map_eq_flatMap]
  rw [places, hM.fill_eq hvalues hm hnew, hM.pieces_intercalate hm hne, hflat, List.length_map, places]

include hM hvalues in
/-- **The order of the values does not matter.** -/
theorem Separate.fill_perm (hkeys : (values.map Prod.fst).Nodup) (hperm : values.Perm values') (s : List α) :
    fill values s = fill values' s := by
  have hfound : ∀ t, markAt values t = markAt values' t := by
    refine fun t => List.find?_eq_find?_of_perm hperm ?_
    rintro e ⟨he, hprefix⟩ e' ⟨he', hprefix'⟩
    have hmarks : e.1 = e'.1 := by
      rcases List.prefix_or_prefix_of_prefix (List.isPrefixOf_iff_prefix.mp hprefix)
        (List.isPrefixOf_iff_prefix.mp hprefix') with h | h
      · exact hM.first _ (hvalues e' he') _ (hvalues e he) [] (by rwa [List.append_nil])
      · exact (hM.first _ (hvalues e he) _ (hvalues e' he') [] (by rwa [List.append_nil])).symm
    exact List.inj_on_of_nodup_map hkeys he he' hmarks
  induction hn : s.length using Nat.strong_induction_on generalizing s with
  | _ n ih =>
    cases s with
    | nil => rfl
    | cons c s =>
      rw [List.length_cons] at hn
      cases hmark : markAt values (c :: s) with
      | none =>
        rw [fill_cons_of_none hmark, fill_cons_of_none ((hfound _).symm.trans hmark), ih _ (by omega) _ rfl]
      | some e =>
        rw [fill_cons_of_some hmark, fill_cons_of_some ((hfound _).symm.trans hmark),
          ih _ (by rw [List.length_drop]; omega) _ rfl]

end Separate

end Marks

end DreamWeaver
