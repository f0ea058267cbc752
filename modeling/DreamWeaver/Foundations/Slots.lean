import Mathlib.Data.List.Count

/-! # Resources behind one reference

A program that keeps a reference to the resource it acquired last lets go of what the reference leads to. Resources that
are acquired one after the other, with no release between them, are lost sight of: only the newest of them is released.
`kept moves` tells of every resource, in the order of the acquisitions, whether it was never released. -/

namespace DreamWeaver

/-- What is done with the reference. -/
inductive SlotMove where
  | acquire
  | release
  deriving DecidableEq

namespace SlotMove

/-- A resource is released by a move directly behind its acquisition, or never. -/
def kept : List SlotMove → List Bool
  | [] => []
  | .acquire :: moves => (moves.head? != some .release) :: kept moves
  | .release :: moves => kept moves

/-- The resource of that number was acquired and never released. -/
def LeftOn (moves : List SlotMove) (i : ℕ) : Prop :=
  ∃ before after, moves = before ++ .acquire :: after ∧ before.count .acquire = i ∧ after.head? ≠ some .release

variable {moves : List SlotMove} {flags : List Bool} {ref : Option ℕ}

theorem kept_append_acquire (moves : List SlotMove) : kept (moves ++ [.acquire]) = kept moves ++ [true] := by
  induction moves with
  | nil => rfl
  | cons move moves ih =>
    cases move with
    | acquire =>
      have hhead : ((moves ++ [acquire]).head? != some release) = (moves.head? != some release) := by
        cases moves <;> rfl
      rw [List.cons_append, kept, ih, hhead, kept, List.cons_append]
    | release => rw [List.cons_append, kept, ih, kept]

/-- A release takes the newest resource, which may have been released before. -/
theorem kept_append_release (moves : List SlotMove) :
    kept (moves ++ [.release]) = (kept moves).set ((kept moves).length - 1) false := by
  induction moves with
  | nil => rfl
  | cons move moves ih =>
    cases move with
    | release => rw [List.cons_append, kept, ih, kept]
    | acquire =>
      rw [List.cons_append, kept, ih, kept]
      cases hkept : kept moves with
      | cons flag flags =>
        -- there is a newer one
        have hhead : ((moves ++ [release]).head? != some release) = (moves.head? != some release) := by
          cases moves with
          | nil => cases hkept
          | cons move moves => rfl
        rw [hhead]
        rfl
      | nil =>
        have hhead : ((moves ++ [release]).head? != some release) = false := by
          cases moves with
          | nil => rfl
          | cons move moves =>
            cases move with
            | acquire => cases hkept
            | release => rfl
        rw [hhead]
        rfl

/-- **What is left on** has an acquisition with no release directly behind it. -/
theorem kept_eq_some_iff (moves : List SlotMove) (i : ℕ) : (kept moves)[i]? = some true ↔ LeftOn moves i := by
  induction moves generalizing i with
  | nil =>
    constructor
    · intro h
      cases h
    · rintro ⟨before, after, hmoves, -⟩
      cases before <;> cases hmoves
  | cons move moves ih =>
    constructor
    · intro h
      cases move with
      | release =>
        obtain ⟨before, after, rfl, hcount, hafter⟩ := (ih i).mp h
        exact ⟨.release :: before, after, rfl, by simpa using hcount, hafter⟩
      | acquire =>
        cases i with
        | zero =>
          refine ⟨[], moves, rfl, rfl, ?_⟩
          simpa [kept] using h
        | succ i =>
          obtain ⟨before, after, rfl, hcount, hafter⟩ := (ih i).mp (by simpa [kept] using h)
          exact ⟨.acquire :: before, after, rfl, by simpa using hcount, hafter⟩
    · rintro ⟨before, after, hmoves, hcount, hafter⟩
      cases before with
      | nil =>
        obtain ⟨rfl, rfl⟩ := List.cons.inj hmoves
        obtain rfl : 0 = i := hcount
        simpa [kept] using hafter
      | cons first before =>
        obtain ⟨rfl, rfl⟩ := List.cons.inj hmoves
        cases move with
        | release => exact (ih i).mpr ⟨before, after, rfl, by simpa using hcount, hafter⟩
        | acquire =>
          rw [List.count_cons_self] at hcount
          subst hcount
          simpa [kept] using (ih _).mpr ⟨before, after, rfl, rfl, hafter⟩

/-! ## The reference -/

/-- The flags of the resources and the reference of a program that made these moves. The reference may be dropped by a
release, or go on leading to what was released. -/
structure Holds (moves : List SlotMove) (flags : List Bool) (ref : Option ℕ) : Prop where
  flags_eq : flags = kept moves
  newest : ∀ i, ref = some i → i + 1 = flags.length
  lost : ref = none → flags.getLast? ≠ some true

theorem holds_nil : Holds [] [] none := ⟨rfl, (fun _ h => by cases h), (fun _ => by simp)⟩

theorem Holds.acquire (h : Holds moves flags ref) :
    Holds (moves ++ [.acquire]) (flags ++ [true]) (some flags.length) where
  flags_eq := by rw [kept_append_acquire, h.flags_eq]
  newest i hi := by
    obtain rfl := Option.some.inj hi
    rw [List.length_append, List.length_singleton]
  lost hnone := by cases hnone

/-- What the reference leads to is released. -/
def released (ref : Option ℕ) (flags : List Bool) : List Bool := ref.elim flags fun i => flags.set i false

theorem Holds.release (h : Holds moves flags ref) {ref' : Option ℕ} (href : ref' = ref ∨ ref' = none) :
    Holds (moves ++ [.release]) (released ref flags) ref' := by
  have hflags : released ref flags = flags.set (flags.length - 1) false := by
    cases ref with
    | some i =>
      have hi := h.newest i rfl
      rw [released, Option.elim_some, ← hi, Nat.add_sub_cancel]
    | none =>
      -- the newest is off by then
      have hlost := h.lost rfl
      rw [List.getLast?_eq_getElem?] at hlost
      refine List.ext_getElem? fun i => ?_
      rw [released, Option.elim_none, List.getElem?_set]
      split
      · next heq =>
        subst heq
        split
        · next hlt =>
          rw [List.getElem?_eq_getElem hlt, Option.some.injEq] at *
          simpa using hlost
        · next hge => rw [List.getElem?_eq_none (Nat.le_of_not_lt hge)]
      · rfl
  have hoff : (released ref flags).getLast? ≠ some true := by
    rw [hflags, List.getLast?_eq_getElem?, List.length_set, List.getElem?_set_self']
    cases flags[flags.length - 1]? <;> simp
  refine ⟨by rw [hflags, kept_append_release, h.flags_eq], fun i hi => ?_, fun _ => hoff⟩
  rw [hflags, List.length_set]
  rcases href with rfl | rfl
  · exact h.newest i hi
  · cases hi

/-- Items that carry their flags. -/
theorem map_elim_modify {α : Type*} {flag : α → Bool} {off : α → α} (hoff : ∀ a, flag (off a) = false)
    (ref : Option ℕ) (items : List α) :
    (ref.elim items fun i => items.modify i off).map flag = released ref (items.map flag) := by
  cases ref with
  | none => rfl
  | some i =>
    refine List.ext_getElem? fun j => ?_
    rw [released, Option.elim_some, Option.elim_some, List.getElem?_map, List.getElem?_modify, List.getElem?_set,
      List.getElem?_map, List.length_map]
    by_cases hij : i = j
    · subst hij
      by_cases hlt : i < items.length
      · simp [hoff, hlt]
      · simp [hlt]
    · simp [hij]

/-- The flags tell what is left on. -/
theorem Holds.leftOn_iff (h : Holds moves flags ref) (i : ℕ) : flags[i]? = some true ↔ LeftOn moves i := by
  rw [h.flags_eq, kept_eq_some_iff]

end SlotMove

end DreamWeaver
