import Mathlib.Data.List.GetD
import Mathlib.Logic.Function.Basic

/-! # Loops on arrays

A loop is a fold over the values of its counter in the `Option` monad: it fails where a position outside of an
array is read or written. An array is the table of a function on its positions; a loop that takes the table of one
function to that of the next is followed function by function. -/

namespace DreamWeaver

variable {α σ : Type*} {n i p : ℕ} {f g : ℕ → α}

/-! ## Arrays -/

/-- The array of the values of a function at the first `n` positions. -/
def tabulate (n : ℕ) (f : ℕ → α) : List α := (List.range n).map f

@[simp] theorem length_tabulate (n : ℕ) (f : ℕ → α) : (tabulate n f).length = n := by
  rw [tabulate, List.length_map, List.length_range]

theorem getElem?_tabulate (f : ℕ → α) (hp : p < n) : (tabulate n f)[p]? = some (f p) := by
  rw [tabulate, List.getElem?_map, List.getElem?_range hp, Option.map_some]

@[simp] theorem getElem_tabulate (f : ℕ → α) (hp : p < (tabulate n f).length) : (tabulate n f)[p] = f p := by
  simp [tabulate]

theorem tabulate_congr (h : ∀ p < n, f p = g p) : tabulate n f = tabulate n g :=
  List.map_congr_left fun p hp => h p (List.mem_range.mp hp)

/-- An array is the table of its values. -/
theorem tabulate_getD (xs : List α) (default : α) : tabulate xs.length (fun p => xs.getD p default) = xs := by
  refine List.ext_getElem (length_tabulate _ _) fun p hp hp' => ?_
  rw [getElem_tabulate, List.getD_eq_getElem _ _ hp']

theorem replicate_eq_tabulate (n : ℕ) (a : α) : List.replicate n a = tabulate n fun _ => a :=
  List.ext_getElem (by simp) fun p hp hp' => by rw [List.getElem_replicate, getElem_tabulate]

/-- `xs[i] = v`, `none` where the position is outside of the array. -/
def write (xs : List α) (i : ℕ) (v : α) : Option (List α) := if i < xs.length then some (xs.set i v) else none

theorem write_tabulate (f : ℕ → α) (v : α) (hp : p < n) :
    write (tabulate n f) p v = some (tabulate n (Function.update f p v)) := by
  rw [write, if_pos (by rwa [length_tabulate])]
  congr 1
  refine List.ext_getElem (by simp) fun q hq hq' => ?_
  rw [List.getElem_set, getElem_tabulate, getElem_tabulate]
  by_cases hpq : p = q
  · rw [if_pos hpq, hpq, Function.update_self]
  · rw [if_neg hpq, Function.update_of_ne (Ne.symm hpq)]

/-! ## Loops -/

variable (body : σ → ℕ → Option σ) (state : ℕ → σ)

/-- **The rule of loops**: the states after each pass. -/
theorem foldlM_range (h : ∀ i < n, body (state i) i = some (state (i + 1))) :
    (List.range n).foldlM body (state 0) = some (state n) := by
  induction n with
  | zero => rfl
  | succ n ih =>
    rw [List.range_succ, List.foldlM_append, ih fun i hi => h i (by omega)]
    show (List.foldlM body (state n) [n]) = _
    rw [List.foldlM_cons, h n (by omega)]
    rfl

/-- The rule of loops whose counter is raised by `len`. -/
theorem foldlM_range' (len : ℕ) (h : ∀ i < n, body (state i) (len * i) = some (state (i + 1))) :
    (List.range' 0 n len).foldlM body (state 0) = some (state n) := by
  have hmap : List.range' 0 n len = (List.range n).map fun i => len * i := by
    refine List.ext_getElem (by simp) fun p hp hp' => ?_
    rw [List.getElem_range', List.getElem_map, List.getElem_range, Nat.zero_add]
  rw [hmap, List.foldlM_map]
  exact foldlM_range (fun acc i => body acc (len * i)) state h

/-- A loop that makes an array, and does not fail. -/
theorem mapM_some {β γ : Type} {f : β → Option γ} {g : β → γ} {xs : List β} (h : ∀ a ∈ xs, f a = some (g a)) :
    xs.mapM f = some (xs.map g) := by
  induction xs with
  | nil => rfl
  | cons a xs ih =>
    rw [List.mapM_cons, h a List.mem_cons_self, ih fun b hb => h b (List.mem_cons_of_mem a hb)]
    rfl

end DreamWeaver
