import Mathlib.Data.List.Sort
import Mathlib.Order.Defs.LinearOrder

/-! # The first of a ranking

Members are ranked by a key, the largest first, and the order of members with the same key is free. Who is
among the first of some ranking, and of which kind there is one among the first of every ranking, depends on
how many are before them. -/

namespace DreamWeaver

namespace Ranking

variable {α β : Type} [LinearOrder β] {key : α → β} {kind : α → Bool} {n : ℕ} {rows sorted : List α}

/-- A ranking of members. -/
structure Ranks (key : α → β) (rows sorted : List α) : Prop where
  perm : sorted.Perm rows
  ordered : sorted.Pairwise fun a b => key b ≤ key a

/-- Among members with the same key, those of the kind come first. -/
def Before (key : α → β) (kind : α → Bool) (a b : α) : Prop :=
  key b < key a ∨ key a = key b ∧ (kind b = true → kind a = true)

instance (key : α → β) (kind : α → Bool) : DecidableRel (Before key kind) := fun _ _ => inferInstanceAs (Decidable (_ ∨ _))

theorem Before.le {a b : α} (h : Before key kind a b) : key b ≤ key a := h.elim le_of_lt fun h => h.1.ge

/-- **There is a ranking that prefers a kind.** -/
theorem exists_ranks (key : α → β) (kind : α → Bool) (rows : List α) :
    ∃ sorted, Ranks key rows sorted ∧ sorted.Pairwise (Before key kind) := by
  have htotal : Std.Total (Before key kind) := ⟨fun a b => by
    rcases lt_trichotomy (key a) (key b) with h | h | h
    · exact .inr (.inl h)
    · cases hkind : kind a with
      | true => exact .inl (.inr ⟨h, fun _ => hkind⟩)
      | false => exact .inr (.inr ⟨h.symm, fun htrue => by rw [hkind] at htrue; cases htrue⟩)
    · exact .inl (.inl h)⟩
  have htrans : IsTrans α (Before key kind) := ⟨fun a b c hab hbc => by
    rcases hab with hab | ⟨hab, hkind⟩
    · exact .inl (lt_of_le_of_lt hbc.le hab)
    · rcases hbc with hbc | ⟨hbc, hkind'⟩
      · exact .inl (hab ▸ hbc)
      · exact .inr ⟨hab.trans hbc, fun h => hkind (hkind' h)⟩⟩
  have hsorted := List.pairwise_insertionSort (Before key kind) rows
  exact ⟨_, ⟨List.perm_insertionSort _ _, hsorted.imp Before.le⟩, hsorted⟩

/-- Each of the first is before each of the others. -/
theorem pairwise_take_drop {R : α → α → Prop} (h : sorted.Pairwise R) (n : ℕ) {x y : α} (hx : x ∈ sorted.take n)
    (hy : y ∈ sorted.drop n) : R x y := by
  rw [← List.take_append_drop n sorted] at h
  exact (List.pairwise_append.mp h).2.2 x hx y hy

/-- A member that is not among the first has that many before it. -/
theorem le_countP_of_not_mem {p : α → Bool} {x : α} (hmem : x ∈ sorted) (hnot : x ∉ sorted.take n)
    (hp : ∀ y ∈ sorted.take n, p y = true) : n ≤ sorted.countP p := by
  have hlength : n ≤ sorted.length := by
    by_contra hlt
    exact hnot (by rwa [List.take_of_length_le (by omega)])
  calc n = (sorted.take n).length := by rw [List.length_take, Nat.min_eq_left hlength]
    _ = (sorted.take n).countP p := (List.countP_eq_length.mpr hp).symm
    _ ≤ sorted.countP p := (List.take_sublist n sorted).countP_le

/-- A member that is among the first has less than that many before it. -/
theorem countP_lt_of_mem {p : α → Bool} {x : α} (hx : x ∈ sorted.take n) (hself : p x = false)
    (hp : ∀ a b, sorted = a ++ x :: b → ∀ y ∈ b, p y = false) : sorted.countP p < n := by
  obtain ⟨a, b, hab⟩ := List.append_of_mem hx
  have hsplit : sorted = a ++ x :: (b ++ sorted.drop n) := by
    conv_lhs => rw [← List.take_append_drop n sorted, hab]
    simp
  have hlength : a.length < n := by
    have hle := List.length_take_le n sorted
    rw [hab, List.length_append, List.length_cons] at hle
    omega
  have hnone : (b ++ sorted.drop n).countP p = 0 :=
    List.countP_eq_zero.mpr fun y hy => by rw [hp _ _ hsplit y hy]; decide
  rw [hsplit, List.countP_append, List.countP_cons, hnone, hself]
  exact lt_of_le_of_lt (by simpa using List.countP_le_length) hlength

/-- **Some ranking has one of a kind among the first** exactly when fewer are strictly before one of the kind. -/
theorem exists_mem_take_iff :
    (∃ sorted, Ranks key rows sorted ∧ ∃ x ∈ sorted.take n, kind x = true) ↔
      ∃ x ∈ rows, kind x = true ∧ rows.countP (fun y => key x < key y) < n := by
  constructor
  · rintro ⟨sorted, hranks, x, hx, hkind⟩
    refine ⟨x, hranks.perm.mem_iff.mp (List.mem_of_mem_take hx), hkind, ?_⟩
    rw [← hranks.perm.countP_eq]
    refine countP_lt_of_mem hx (by simp) fun a b hsplit y hy => ?_
    have hordered := hranks.ordered
    rw [hsplit] at hordered
    have hle := (List.pairwise_cons.mp (List.pairwise_append.mp hordered).2.1).1 y hy
    simpa using hle
  · rintro ⟨x, hx, hkind, hcount⟩
    obtain ⟨sorted, hranks, hbefore⟩ := exists_ranks key kind rows
    refine ⟨sorted, hranks, ?_⟩
    by_contra hnone
    have hmem := hranks.perm.mem_iff.mpr hx
    have hnot : x ∉ sorted.take n := fun h => hnone ⟨x, h, hkind⟩
    have hdrop : x ∈ sorted.drop n := by
      rw [← List.take_append_drop n sorted] at hmem
      exact (List.mem_append.mp hmem).resolve_left hnot
    have hall : n ≤ sorted.countP fun y => decide (key x < key y) := by
      refine le_countP_of_not_mem hmem hnot fun y hy => decide_eq_true ?_
      rcases pairwise_take_drop hbefore n hy hdrop with h | ⟨-, h⟩
      · exact h
      · exact absurd ⟨y, hy, h hkind⟩ hnone
    rw [hranks.perm.countP_eq] at hall
    omega

/-- The last of the first `m` members of a kind. -/
theorem exists_split_of_le_countP {m : ℕ} {l : List α} (hm : 0 < m) (h : m ≤ l.countP kind) :
    ∃ a x b, l = a ++ x :: b ∧ kind x = true ∧ a.countP kind + 1 = m := by
  induction l generalizing m with
  | nil =>
    rw [List.countP_nil] at h
    omega
  | cons y l ih =>
    cases hkind : kind y with
    | false =>
      rw [List.countP_cons_of_neg (by rw [hkind]; exact Bool.false_ne_true)] at h
      obtain ⟨a, x, b, rfl, hx, ha⟩ := ih hm h
      exact ⟨y :: a, x, b, rfl, hx, by rwa [List.countP_cons_of_neg (by rw [hkind]; exact Bool.false_ne_true)]⟩
    | true =>
      rw [List.countP_cons_of_pos hkind] at h
      rcases Nat.eq_or_lt_of_le hm with rfl | hlt
      · exact ⟨[], y, l, rfl, hkind, rfl⟩
      · obtain ⟨a, x, b, rfl, hx, ha⟩ := ih (m := m - 1) (by omega) (by omega)
        exact ⟨y :: a, x, b, rfl, hx, by rw [List.countP_cons_of_pos hkind]; omega⟩

/-- The first of a ranking are all at least as far up as a member, or all of these are among them. -/
theorem take_above_or {sorted : List α} (h : sorted.Pairwise fun a b => key b ≤ key a) (x : α) :
    (∀ y ∈ sorted.take n, key x ≤ key y) ∨ ∀ y ∈ sorted.drop n, ¬ key x ≤ key y := by
  by_contra hnot
  rw [not_or] at hnot
  push Not at hnot
  obtain ⟨⟨y, hy, hlt⟩, z, hz, hle⟩ := hnot
  exact absurd (pairwise_take_drop h n hy hz) (not_le.mpr (lt_of_lt_of_le hlt hle))

/-- **Every ranking has some number of a kind among the first** exactly when there is a member of the kind such that
at least so many of the kind are as far up as it, and so many others only that both together have room. -/
theorem forall_le_countP_take_iff {m : ℕ} (hm : 0 < m) :
    (∀ sorted, Ranks key rows sorted → m ≤ (sorted.take n).countP kind) ↔
      ∃ x ∈ rows, kind x = true ∧ m ≤ rows.countP (fun y => kind y && decide (key x ≤ key y)) ∧
        rows.countP (fun y => !kind y && decide (key x ≤ key y)) + m ≤ n := by
  constructor
  · intro h
    obtain ⟨sorted, hranks, hbefore⟩ := exists_ranks key (fun y => !kind y) rows
    obtain ⟨a, x, b, hab, hkind, ha⟩ := exists_split_of_le_countP hm (h sorted hranks)
    have hsplit : sorted = a ++ x :: (b ++ sorted.drop n) := by
      conv_lhs => rw [← List.take_append_drop n sorted, hab]
      simp
    have hlength : a.length + 1 ≤ n := by
      have hle := List.length_take_le n sorted
      rw [hab, List.length_append, List.length_cons] at hle
      omega
    have hpairs := hbefore
    rw [hsplit, List.pairwise_append, List.pairwise_cons] at hpairs
    obtain ⟨-, ⟨hafter, -⟩, hfront⟩ := hpairs
    have hup : ∀ y ∈ a, key x ≤ key y := fun y hy => (hfront y hy x List.mem_cons_self).le
    refine ⟨x, hranks.perm.mem_iff.mp ?_, hkind, ?_, ?_⟩
    · rw [hsplit]
      exact List.mem_append_right _ List.mem_cons_self
    · -- those of the kind before the member, and itself
      rw [← hranks.perm.countP_eq, hsplit, List.countP_append, List.countP_cons_of_pos (by simp [hkind])]
      have hcount : a.countP kind = a.countP fun y => kind y && decide (key x ≤ key y) :=
        List.countP_congr fun y hy => by simp [hup y hy]
      omega
    · -- the others that are as far up are all before it
      have hnone : (b ++ sorted.drop n).countP (fun y => !kind y && decide (key x ≤ key y)) = 0 := by
        refine List.countP_eq_zero.mpr fun y hy => ?_
        rcases hafter y hy with hlt | ⟨-, hother⟩
        · simp [hlt]
        · cases hy' : kind y with
          | true => simp
          | false =>
            have hfalse : (!kind x) = true := hother (by simp [hy'])
            rw [hkind] at hfalse
            cases hfalse
      rw [← hranks.perm.countP_eq, hsplit, List.countP_append, List.countP_cons_of_neg (by simp [hkind]), hnone]
      have hcount : (a.countP fun y => !kind y && decide (key x ≤ key y)) = a.countP fun y => !kind y :=
        List.countP_congr fun y hy => by simp [hup y hy]
      have hboth := List.length_eq_countP_add_countP (l := a) kind
      have hnot : (a.countP fun y => decide ¬ kind y = true) = a.countP fun y => !kind y :=
        List.countP_congr fun y _ => by simp
      omega
  · rintro ⟨x, -, -, hown, hothers⟩ sorted hranks
    rw [← hranks.perm.countP_eq] at hown hothers
    have hsum : ∀ p : α → Bool, sorted.countP p = (sorted.take n).countP p + (sorted.drop n).countP p := fun p => by
      rw [← List.countP_append, List.take_append_drop]
    rcases take_above_or (n := n) hranks.ordered x with habove | hbelow
    · -- only those as far up are among the first, and there are too few others to fill them
      by_cases hlength : n ≤ sorted.length
      · have hothers' : ((sorted.take n).countP fun y => !kind y) ≤
            sorted.countP fun y => !kind y && decide (key x ≤ key y) := by
          rw [hsum]
          have hcount : ((sorted.take n).countP fun y => !kind y) =
              (sorted.take n).countP fun y => !kind y && decide (key x ≤ key y) :=
            List.countP_congr fun y hy => by simp [habove y hy]
          omega
        have hboth := List.length_eq_countP_add_countP (l := sorted.take n) kind
        have hnot : ((sorted.take n).countP fun y => decide ¬ kind y = true) = (sorted.take n).countP fun y => !kind y :=
          List.countP_congr fun y _ => by simp
        rw [List.length_take, Nat.min_eq_left hlength] at hboth
        omega
      · rw [List.take_of_length_le (by omega)]
        exact hown.trans (List.countP_mono_left fun y _ h => by simp_all)
    · -- all of the kind that are as far up are among the first
      have hnone : ((sorted.drop n).countP fun y => kind y && decide (key x ≤ key y)) = 0 :=
        List.countP_eq_zero.mpr fun y hy => by simp [hbelow y hy]
      rw [hsum, hnone] at hown
      exact hown.trans (List.countP_mono_left fun y _ h => by simp_all)

/-- **Every ranking has one of a kind among the first** exactly when fewer of the others are at least as far up as
one of the kind. -/
theorem forall_exists_mem_take_iff :
    (∀ sorted, Ranks key rows sorted → ∃ x ∈ sorted.take n, kind x = true) ↔
      ∃ x ∈ rows, kind x = true ∧ rows.countP (fun y => !kind y && decide (key x ≤ key y)) < n := by
  have hone := @forall_le_countP_take_iff _ _ _ key kind n rows 1 Nat.one_pos
  simp only [Nat.one_le_iff_ne_zero, ← Nat.pos_iff_ne_zero, List.countP_pos_iff] at hone
  rw [hone]
  refine exists_congr fun x => and_congr_right fun hx => and_congr_right fun hkind => ?_
  exact and_iff_right ⟨x, hx, by simp [hkind]⟩

end Ranking

end DreamWeaver
