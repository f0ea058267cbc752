import Mathlib.Data.List.Nodup

/-! # Tables with a key

A table whose rows have distinct keys: what is inserted under a key that is there already is refused, or takes the
place of the row with the key. A query for one row answers with none where there is no row or more than one. -/

namespace DreamWeaver

/-- A table, with its primary key. -/
structure KeyedTable {α κ : Type*} (key : α → κ) where
  rows : List α := []
  distinct : (rows.map key).Nodup

namespace KeyedTable

variable {α κ : Type*} {key : α → κ} {t : KeyedTable key} {x y : α}

/-- The table without rows. -/
def empty : KeyedTable key := ⟨[], List.nodup_nil⟩

/-- The rows with one key are one row. -/
theorem eq_of_key (hx : x ∈ t.rows) (hy : y ∈ t.rows) (hkey : key x = key y) : x = y :=
  List.inj_on_of_nodup_map t.distinct hx hy hkey

/-- `.single()`: the only row that a query selects. -/
def single (t : KeyedTable key) (p : α → Bool) : Option α :=
  match t.rows.filter p with
  | [x] => some x
  | _ => none

/-- What a query for one row answers is what it selects. -/
theorem single_eq_some {p : α → Bool} (h : t.single p = some x) : x ∈ t.rows ∧ p x = true := by
  unfold single at h
  split at h
  · rename_i y hfilter
    cases h
    exact List.mem_filter.mp (hfilter ▸ List.mem_singleton_self _)
  · cases h

/-- A query for one row answers exactly if it selects one. -/
theorem isSome_single_iff (t : KeyedTable key) (p : α → Bool) : (t.single p).isSome ↔ (t.rows.filter p).length = 1 := by
  unfold single
  split
  · rename_i x hfilter
    simp [hfilter]
  · rename_i hfilter
    refine iff_of_false (by simp) fun hlength => ?_
    obtain ⟨x, hx⟩ := List.length_eq_one_iff.mp hlength
    exact hfilter x hx

variable [DecidableEq κ]

/-- `INSERT ... ON CONFLICT (key) DO UPDATE` -/
def upsert (t : KeyedTable key) (x : α) : KeyedTable key where
  rows := x :: t.rows.filter fun y => key y ≠ key x
  distinct := by
    rw [List.map_cons, List.nodup_cons]
    refine ⟨?_, t.distinct.sublist (List.filter_sublist.map key)⟩
    rintro hmem
    obtain ⟨y, hy, hkey⟩ := List.mem_map.mp hmem
    exact of_decide_eq_true (List.mem_filter.mp hy).2 hkey

@[simp] theorem mem_upsert : y ∈ (t.upsert x).rows ↔ y = x ∨ y ∈ t.rows ∧ key y ≠ key x := by
  simp [upsert]

/-- `INSERT`, `none` where the key is there. -/
def insert (t : KeyedTable key) (x : α) : Option (KeyedTable key) :=
  if h : key x ∈ t.rows.map key then none else some ⟨x :: t.rows, List.nodup_cons.mpr ⟨h, t.distinct⟩⟩

theorem rows_insert {t' : KeyedTable key} (h : t.insert x = some t') : t'.rows = x :: t.rows := by
  unfold insert at h
  split at h
  · cases h
  · cases h
    rfl

/-- Rows that are upserted one after the other. -/
def upsertAll (t : KeyedTable key) (xs : List α) : KeyedTable key := xs.foldl upsert t

theorem of_mem_upsertAll {xs : List α} (h : y ∈ (t.upsertAll xs).rows) : y ∈ xs ∨ y ∈ t.rows := by
  induction xs generalizing t with
  | nil => exact .inr h
  | cons x xs ih =>
    rcases ih h with hmem | hmem
    · exact .inl (List.mem_cons_of_mem x hmem)
    · rcases mem_upsert.mp hmem with rfl | ⟨hmem, -⟩
      · exact .inl List.mem_cons_self
      · exact .inr hmem

/-- A row is found by its key. -/
theorem single_key (hx : x ∈ t.rows) : t.single (fun y => key y = key x) = some x := by
  have hfilter : t.rows.filter (fun y => key y = key x) = [x] := by
    have hnodup : (t.rows.filter fun y => key y = key x).Nodup := (List.Nodup.of_map key t.distinct).filter _
    have hall : ∀ y ∈ t.rows.filter fun y => key y = key x, y = x := fun y hy =>
      eq_of_key (List.mem_filter.mp hy).1 hx (of_decide_eq_true (List.mem_filter.mp hy).2)
    have hmem : x ∈ t.rows.filter fun y => key y = key x := List.mem_filter.mpr ⟨hx, decide_eq_true rfl⟩
    exact List.perm_singleton.mp ((List.perm_ext_iff_of_nodup hnodup (List.nodup_singleton x)).mpr fun y =>
      ⟨fun hy => List.mem_singleton.mpr (hall y hy), fun hy => List.mem_singleton.mp hy ▸ hmem⟩)
  rw [single, hfilter]

end KeyedTable

end DreamWeaver
