import DreamWeaver.Foundations.Queues

/-! # Bounded undo stacks

A value with the values that it had before, the oldest first, as many as a bound allows. `write` puts the
present value into the past, `undo n` goes back `n` values and forgets what came after; what it restores
may be marked as restored. After writes the past is the end of everything that was there before
(`writes_eq`), and steps back add up (`undo_undo`). -/

namespace DreamWeaver

/-- A value and its past. -/
structure UndoStack (α : Type) where
  present : α
  past : List α

namespace UndoStack

variable {α : Type} {bound m n : ℕ} {u : UndoStack α} {f g : α → α}

/-- A new value; the present one joins the past. -/
def write (bound : ℕ) (u : UndoStack α) (a : α) : UndoStack α :=
  ⟨a, pushBounded bound u.past u.present⟩

/-- Back by `n` values, if there are so many; `f` marks the value that is restored. -/
def undo (f : α → α) (u : UndoStack α) (n : ℕ) : UndoStack α :=
  if n ≤ u.past.length then
    match (u.past.rtake n).head? with
    | some a => ⟨f a, u.past.rdrop n⟩
    | none => u
  else u

@[simp] theorem undo_zero : u.undo f 0 = u := by
  rw [undo, if_pos (Nat.zero_le _), List.rtake_zero, List.head?_nil]

/-- There is no step back beyond the past. -/
theorem undo_of_lt (h : u.past.length < n) : u.undo f n = u := by rw [undo, if_neg (not_le.mpr h)]

theorem undo_of_past_eq_nil (h : u.past = []) : u.undo f n = u := by
  rw [undo, h, List.rtake_nil, List.head?_nil, ite_self]

/-- The value `n` writes ago. -/
theorem head?_rtake {past : List α} (hn : n ≤ past.length) (hpos : 0 < n) :
    ∃ a, (past.rtake n).head? = some a ∧ past[past.length - n]? = some a := by
  have hlt : past.length - n < past.length := by omega
  refine ⟨past.get ⟨past.length - n, hlt⟩, ?_, List.getElem?_eq_getElem hlt⟩
  rw [List.rtake, List.head?_drop, List.getElem?_eq_getElem hlt]
  rfl

/-- **What `undo` does**: it restores the value `n` writes ago and leaves the past before it. -/
theorem undo_eq {a : α} (ha : u.past[u.past.length - n]? = some a) (hn : n ≤ u.past.length)
    (hpos : 0 < n) : u.undo f n = ⟨f a, u.past.rdrop n⟩ := by
  obtain ⟨b, hhead, hb⟩ := head?_rtake hn hpos
  rw [ha, Option.some_inj] at hb
  rw [undo, if_pos hn, hhead, hb]

/-- The past that is left. -/
theorem past_undo (hn : n ≤ u.past.length) : (u.undo f n).past = u.past.rdrop n := by
  by_cases hpos : 0 < n
  · obtain ⟨a, -, ha⟩ := head?_rtake hn hpos
    rw [undo_eq ha hn hpos]
  · obtain rfl : n = 0 := by omega
    rw [undo_zero, List.rdrop_zero]

/-- An item counted from the end is the same in what is left of the list. -/
theorem getElem?_rtake {all : List α} (hn : n ≤ bound) (hall : n ≤ all.length) :
    (all.rtake bound)[(all.rtake bound).length - n]? = all[all.length - n]? := by
  rw [List.rtake, List.length_drop, List.getElem?_drop]
  congr 1
  omega

theorem rdrop_rdrop {past : List α} : (past.rdrop m).rdrop n = past.rdrop (m + n) := by
  rw [List.rdrop, List.rdrop, List.rdrop, List.take_take, List.length_take]
  congr 1
  omega

/-- **Steps back add up**: the marks that are made on the way do not count. -/
theorem undo_undo (hmn : m + n ≤ u.past.length) (hpos : 0 < n) :
    (u.undo f m).undo g n = u.undo g (m + n) := by
  have hpast : (u.undo f m).past = u.past.rdrop m := past_undo (by omega)
  have hlength : (u.undo f m).past.length = u.past.length - m := by
    rw [hpast, List.rdrop, List.length_take]
    omega
  obtain ⟨a, -, ha⟩ := @head?_rtake α (m + n) u.past hmn (by omega)
  have ha' : (u.undo f m).past[(u.undo f m).past.length - n]? = some a := by
    rw [hlength, hpast, List.rdrop, List.getElem?_take, if_pos (by omega), ← ha]
    congr 1
    omega
  rw [undo_eq ha' (by omega) hpos, undo_eq ha hmn (by omega), hpast, rdrop_rdrop]

/-! ## Writes -/

/-- Writes one after the other. -/
def writes (bound : ℕ) (u : UndoStack α) (as : List α) : UndoStack α := as.foldl (write bound) u

/-- **What writes leave**: the past is the end of all that was there before the last one. -/
theorem writes_eq (hbound : 0 < bound) {all : List α} (hpast : u.past = all.rtake bound)
    (as : List α) : (u.writes bound as).past =
      (all ++ (u.present :: as).dropLast).rtake bound ∧
    (u.present :: as).getLast? = some (u.writes bound as).present := by
  induction as generalizing u all with
  | nil =>
    refine ⟨?_, rfl⟩
    rw [List.dropLast_singleton, List.append_nil]
    exact hpast
  | cons a as ih =>
    have hstep : (u.write bound a).past = (all ++ [u.present]).rtake bound := by
      rw [write, hpast, pushBounded_rtake hbound]
    obtain ⟨hrest, hlast⟩ := ih hstep
    refine ⟨?_, ?_⟩
    · rw [List.dropLast_cons_of_ne_nil (List.cons_ne_nil a as), List.append_cons]
      exact hrest
    · rw [List.getLast?_cons_cons]
      exact hlast

end UndoStack

end DreamWeaver
