import DreamWeaver.Foundations.JsonWriter
import Mathlib.Data.List.Lex

/-! # Documents up to the order of keys

Two documents are alike if they differ in the order of the keys of their objects only, at any depth. Entries
that are sorted by their keys, in the order of the code units, no longer show the order in which they came. -/

namespace DreamWeaver

/-- **The documents are equal up to the order of the keys** of their objects. -/
inductive Json.Alike : Json → Json → Prop
  | null : Alike .null .null
  | bool (b : Bool) : Alike (.bool b) (.bool b)
  | num (x : JsNumber) : Alike (.num x) (.num x)
  | str (s : Text) : Alike (.str s) (.str s)
  | arr {vs ws : List Json} (hlength : vs.length = ws.length)
      (hitems : ∀ (i : ℕ) (v w : Json), vs[i]? = some v → ws[i]? = some w → Alike v w) : Alike (.arr vs) (.arr ws)
  | obj {fs gs : List (Text × Json)} (hkeys : (fs.map Prod.fst).Perm (gs.map Prod.fst))
      (hvalues : ∀ (key : Text) (v w : Json), (key, v) ∈ fs → (key, w) ∈ gs → Alike v w) :
      Alike (.obj fs) (.obj gs)

namespace Json

variable {u v w : Json} {fs gs : List (Text × Json)}

/-- The value of a key is the only one. -/
theorem eq_of_mem_of_mem (hkeys : (fs.map Prod.fst).Nodup) {key : Text} (hv : (key, v) ∈ fs)
    (hw : (key, w) ∈ fs) : v = w :=
  Option.some.inj (((field?_eq_some_iff hkeys).mpr hv).symm.trans ((field?_eq_some_iff hkeys).mpr hw))

/-- A key of one object is one of the other. -/
theorem exists_mem_of_keys_perm (hkeys : (fs.map Prod.fst).Perm (gs.map Prod.fst)) {key : Text}
    (h : (key, v) ∈ fs) : ∃ w, (key, w) ∈ gs := by
  obtain ⟨⟨key', w⟩, hmem, rfl⟩ := List.mem_map.mp (hkeys.mem_iff.mp (List.mem_map.mpr ⟨_, h, rfl⟩))
  exact ⟨w, hmem⟩

theorem Proper.alike_self (h : v.Proper) : v.Alike v := by
  induction h with
  | null => exact .null
  | bool b => exact .bool b
  | num h => exact .num _
  | str s => exact .str s
  | @arr items h ih =>
    refine .arr rfl fun i v w hv hw => ?_
    obtain rfl := Option.some.inj (hv.symm.trans hw)
    exact ih v (List.mem_of_getElem? hv)
  | @obj fields hkeys h ih =>
    refine .obj (.refl _) fun key v w hv hw => ?_
    obtain rfl := eq_of_mem_of_mem hkeys hv hw
    exact ih _ hv

theorem Alike.symm (h : v.Alike w) : w.Alike v := by
  induction h with
  | null => exact .null
  | bool b => exact .bool b
  | num x => exact .num x
  | str s => exact .str s
  | arr hlength hitems ih => exact .arr hlength.symm fun i w v hw hv => ih i v w hv hw
  | obj hkeys hvalues ih => exact .obj hkeys.symm fun key w v hw hv => ih key v w hv hw

theorem Alike.trans (h : u.Alike v) (h' : v.Alike w) : u.Alike w := by
  induction h generalizing w with
  | null | bool | num | str => exact h'
  | @arr us vs hlength hitems ih =>
    cases h' with
    | @arr _ ws hlength' hitems' =>
      refine .arr (hlength.trans hlength') fun i u w hu hw => ?_
      have hi : i < vs.length := hlength ▸ (List.getElem?_eq_some_iff.mp hu).1
      have hv : vs[i]? = some vs[i] := List.getElem?_eq_getElem hi
      exact ih i u vs[i] hu hv (hitems' i _ w hv hw)
  | @obj fs gs hkeys hvalues ih =>
    cases h' with
    | @obj _ hs hkeys' hvalues' =>
      refine .obj (hkeys.trans hkeys') fun key u w hu hw => ?_
      obtain ⟨v, hv⟩ := exists_mem_of_keys_perm hkeys hu
      exact ih key u v hu hv (hvalues' key v w hv hw)

/-- The entries of alike objects are the same, after a change of the values that does not tell alike values
apart. -/
theorem map_perm_of_keys_perm {α : Type} (f : Json → α) (hfs : (fs.map Prod.fst).Nodup)
    (hkeys : (fs.map Prod.fst).Perm (gs.map Prod.fst))
    (hvalues : ∀ key v w, (key, v) ∈ fs → (key, w) ∈ gs → f v = f w) :
    (fs.map fun e => (e.1, f e.2)).Perm (gs.map fun e => (e.1, f e.2)) := by
  have hnodup {es : List (Text × Json)} (h : (es.map Prod.fst).Nodup) :
      (es.map fun e => (e.1, f e.2)).Nodup := by
    refine List.Nodup.of_map Prod.fst ?_
    rwa [List.map_map]
  refine (List.perm_ext_iff_of_nodup (hnodup hfs) (hnodup (hkeys.nodup_iff.mp hfs))).mpr fun entry => ?_
  simp only [List.mem_map]
  constructor
  · rintro ⟨⟨key, v⟩, hv, rfl⟩
    obtain ⟨w, hw⟩ := exists_mem_of_keys_perm hkeys hv
    exact ⟨(key, w), hw, by rw [hvalues key v w hv hw]⟩
  · rintro ⟨⟨key, w⟩, hw, rfl⟩
    obtain ⟨v, hv⟩ := exists_mem_of_keys_perm hkeys.symm hw
    exact ⟨(key, v), hv, by rw [hvalues key v w hv hw]⟩

end Json

/-! ## Entries sorted by their keys -/

/-- One key does not come after another, by code units. -/
def KeyLE {α : Type} (e e' : Text × α) : Prop := e.1.map UInt16.toNat ≤ e'.1.map UInt16.toNat

instance {α : Type} : DecidableRel (@KeyLE α) :=
  fun e e' => inferInstanceAs (Decidable (e.1.map UInt16.toNat ≤ e'.1.map UInt16.toNat))

instance {α : Type} : Std.Total (@KeyLE α) := ⟨fun _ _ => le_total _ _⟩

instance {α : Type} : IsTrans (Text × α) KeyLE := ⟨fun _ _ _ h h' => le_trans h h'⟩

/-- The entries in the order of `Object.keys(v).sort()`. -/
def sortedEntries {α : Type} (entries : List (Text × α)) : List (Text × α) := entries.insertionSort KeyLE

section SortedEntries

variable {α : Type} {entries entries' : List (Text × α)}

theorem sortedEntries_perm (entries : List (Text × α)) : (sortedEntries entries).Perm entries :=
  List.perm_insertionSort _ _

/-- **Sorted entries do not show in which order they came.** -/
theorem sortedEntries_eq_of_perm (hkeys : (entries.map Prod.fst).Nodup) (h : entries.Perm entries') :
    sortedEntries entries = sortedEntries entries' := by
  have hperm := ((sortedEntries_perm entries).trans h).trans (sortedEntries_perm entries').symm
  refine List.Perm.eq_of_pairwise (fun e e' he he' hle hle' => ?_) (List.pairwise_insertionSort _ _)
    (List.pairwise_insertionSort _ _) hperm
  have hkey : e.1 = e'.1 :=
    List.map_injective_iff.mpr (fun _ _ heq => UInt16.toNat_inj.mp heq) (le_antisymm hle hle')
  exact List.inj_on_of_nodup_map hkeys ((sortedEntries_perm entries).mem_iff.mp he)
    (h.mem_iff.mpr ((sortedEntries_perm entries').mem_iff.mp he')) hkey

theorem nodup_keys_sortedEntries (hkeys : (entries.map Prod.fst).Nodup) :
    ((sortedEntries entries).map Prod.fst).Nodup :=
  ((sortedEntries_perm entries).map Prod.fst).nodup_iff.mpr hkeys

/-- The order depends on the keys only. -/
theorem sortedEntries_map_values {β : Type} (f : α → β) (entries : List (Text × α)) :
    sortedEntries (entries.map fun e => (e.1, f e.2)) = (sortedEntries entries).map fun e => (e.1, f e.2) :=
  (List.map_insertionSort KeyLE KeyLE (fun e : Text × α => (e.1, f e.2)) entries fun _ _ _ _ => .rfl).symm

/-- Some of the entries, sorted. -/
theorem filter_sortedEntries (hkeys : (entries.map Prod.fst).Nodup) (p : Text × α → Bool) :
    (sortedEntries entries).filter p = sortedEntries (entries.filter p) := by
  have hsorted : ((sortedEntries entries).filter p).Pairwise KeyLE :=
    (List.pairwise_insertionSort KeyLE entries).sublist List.filter_sublist
  have hself : sortedEntries ((sortedEntries entries).filter p) = (sortedEntries entries).filter p :=
    hsorted.insertionSort_eq
  rw [← hself]
  refine sortedEntries_eq_of_perm ?_ ((sortedEntries_perm entries).filter p)
  exact (nodup_keys_sortedEntries hkeys).sublist (List.filter_sublist.map Prod.fst)

end SortedEntries

end DreamWeaver
