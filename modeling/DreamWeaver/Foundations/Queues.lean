import Mathlib.Data.List.DropRight

/-! # Queues and blocks

A queue that gives up its oldest item where it would grow beyond its bound holds the most recent items.

A queue may be played in blocks: items come in at its end; some are taken from its front and played, with silence behind
them only where the queue has run dry; or all of it is discarded. Nothing else happens to an item, whatever the order of
the moves.

Items that come in one after the other may be put into blocks of a size; those that do not fill a block yet are kept.
`InBlocks size items blocks rest` says so of the items that have come in: nothing is lost, and the blocks and the rest
are determined by the number of the items. -/

namespace DreamWeaver

/-! ## Bounded queues -/

section Bounded

variable {α : Type} {bound : ℕ} {queue : List α}

/-- `queue.push(x)`, and `queue.shift()` where the queue is longer than its bound. -/
def pushBounded (bound : ℕ) (queue : List α) (x : α) : List α :=
  if bound < (queue ++ [x]).length then (queue ++ [x]).tail else queue ++ [x]

/-- Where there is room, nothing is lost. -/
theorem pushBounded_of_lt (h : queue.length < bound) (x : α) : pushBounded bound queue x = queue ++ [x] := by
  rw [pushBounded, if_neg]
  rw [List.length_append, List.length_singleton]
  omega

/-- The oldest item makes room where the queue is full. -/
theorem pushBounded_eq_drop (hbound : 0 < bound) (x : α) :
    pushBounded bound queue x = (if bound ≤ queue.length then queue.drop 1 else queue) ++ [x] := by
  by_cases hfull : bound ≤ queue.length
  · rw [pushBounded, if_pos (by rw [List.length_append, List.length_singleton]; omega), if_pos hfull,
      ← List.drop_one, List.drop_append_of_le_length (by omega)]
  · rw [pushBounded_of_lt (by omega), if_neg hfull]

/-- Nothing is put into another order. -/
theorem pushBounded_sublist (bound : ℕ) (queue : List α) (x : α) :
    (pushBounded bound queue x).Sublist (queue ++ [x]) := by
  unfold pushBounded
  split
  · exact List.tail_sublist _
  · exact List.Sublist.refl _

/-- **The queue holds the most recent items** of all that were pushed. -/
theorem pushBounded_rtake (hbound : 0 < bound) (all : List α) (x : α) :
    pushBounded bound (all.rtake bound) x = (all ++ [x]).rtake bound := by
  have hlength : (all.rtake bound).length = min bound all.length := by
    rw [List.rtake, List.length_drop]
    omega
  by_cases hroom : all.length < bound
  · rw [pushBounded_of_lt (by omega)]
    have hall : all.rtake bound = all := by
      rw [List.rtake, Nat.sub_eq_zero_of_le hroom.le, List.drop_zero]
    rw [hall, List.rtake, List.length_append, List.length_singleton, Nat.sub_eq_zero_of_le hroom,
      List.drop_zero]
  · rw [pushBounded, if_pos (by rw [List.length_append, List.length_singleton]; omega)]
    -- the oldest item goes
    have hdrop : all.length - bound ≤ all.length := Nat.sub_le _ _
    have hnext : (all ++ [x]).length - bound = all.length - bound + 1 := by
      rw [List.length_append, List.length_singleton]
      omega
    rw [List.rtake, List.rtake, hnext, ← List.drop_append_of_le_length hdrop, List.tail_drop]

end Bounded

/-! ## Queues that are played -/

section Played

variable {α : Type*}

/-- A move on a queue: items come in, items are played with so much silence behind them, or items are discarded. -/
inductive QueueMove (α : Type*) where
  | enqueue (items : List α)
  | play (items : List α) (silence : ℕ)
  | discard (items : List α)

namespace QueueMove

/-- The items that come in. -/
def incoming : QueueMove α → List α
  | .enqueue items => items
  | _ => []

/-- The items that leave the queue. -/
def outgoing : QueueMove α → List α
  | .enqueue _ => []
  | .play items _ => items
  | .discard items => items

/-- A move leads from one queue to another. -/
def Leads (queue : List α) : QueueMove α → List α → Prop
  | .enqueue items, queue' => queue' = queue ++ items
  | .play items silence, queue' => queue = items ++ queue' ∧ (0 < silence → queue' = [])
  | .discard items, queue' => queue = items ∧ queue' = []

/-- Moves one after the other. -/
inductive Moves : List α → List (QueueMove α) → List α → Prop
  | nil (queue : List α) : Moves queue [] queue
  | cons {queue queue₁ queue' : List α} {move : QueueMove α} {moves : List (QueueMove α)}
      (hmove : move.Leads queue queue₁) (hmoves : Moves queue₁ moves queue') : Moves queue (move :: moves) queue'

variable {queue queue' : List α} {move : QueueMove α} {moves : List (QueueMove α)}

/-- A move changes the queue by what comes in and what leaves. -/
theorem Leads.conserves (h : move.Leads queue queue') : queue ++ move.incoming = move.outgoing ++ queue' := by
  cases move with
  | enqueue items => exact h.symm
  | play items silence => simpa [incoming, outgoing] using h.1
  | discard items =>
    obtain ⟨rfl, rfl⟩ := h
    rfl

/-- **Conservation**: what was in the queue and what came in has left it, in the same order, or is still in it. -/
theorem Moves.conserves (h : Moves queue moves queue') :
    queue ++ moves.flatMap incoming = moves.flatMap outgoing ++ queue' := by
  induction h with
  | nil queue => simp
  | @cons queue queue₁ queue' move moves hmove _ ih =>
    calc queue ++ (move :: moves).flatMap incoming
        = (queue ++ move.incoming) ++ moves.flatMap incoming := by simp
      _ = move.outgoing ++ (queue₁ ++ moves.flatMap incoming) := by rw [hmove.conserves, List.append_assoc]
      _ = (move :: moves).flatMap outgoing ++ queue' := by rw [ih]; simp

end QueueMove

end Played

/-! ## Items in blocks -/

variable {α : Type*}

/-- The items are those of the blocks and of the rest, in their order; every block is full, and the rest is not. -/
structure InBlocks (size : ℕ) (items : List α) (blocks : List (List α)) (rest : List α) : Prop where
  items_eq : items = blocks.flatten ++ rest
  full : ∀ block ∈ blocks, block.length = size
  short : rest.length < size

namespace InBlocks

variable {size : ℕ} {items rest : List α} {blocks : List (List α)}

/-- Nothing has come in. -/
theorem nil (hsize : 0 < size) : InBlocks size ([] : List α) [] [] := ⟨rfl, by simp, hsize⟩

/-- An item that does not fill the block. -/
theorem keep (h : InBlocks size items blocks rest) (a : α) (hshort : rest.length + 1 < size) :
    InBlocks size (items ++ [a]) blocks (rest ++ [a]) where
  items_eq := by rw [h.items_eq, List.append_assoc]
  full := h.full
  short := by rwa [List.length_append, List.length_singleton]

/-- An item that fills it. -/
theorem fill (h : InBlocks size items blocks rest) (a : α) (hfull : rest.length + 1 = size) :
    InBlocks size (items ++ [a]) (blocks ++ [rest ++ [a]]) [] where
  items_eq := by simp [h.items_eq]
  full := by
    intro block hmem
    rcases List.mem_append.mp hmem with hmem | hmem
    · exact h.full block hmem
    · rw [List.mem_singleton.mp hmem, List.length_append, List.length_singleton, hfull]
  short := by
    rw [List.length_nil]
    omega

/-- Items may be read in another way. -/
protected theorem map {β : Type*} (h : InBlocks size items blocks rest) (f : α → β) :
    InBlocks size (items.map f) (blocks.map (List.map f)) (rest.map f) where
  items_eq := by rw [h.items_eq, List.map_append, List.map_flatten]
  full := by
    intro block hmem
    obtain ⟨block, hblock, rfl⟩ := List.mem_map.mp hmem
    rw [List.length_map, h.full block hblock]
  short := by
    rw [List.length_map]
    exact h.short

theorem length_flatten (h : InBlocks size items blocks rest) : blocks.flatten.length = size * blocks.length := by
  have hfull := h.full
  clear h
  induction blocks with
  | nil => simp
  | cons block blocks ih =>
    rw [List.flatten_cons, List.length_append, ih fun b hb => hfull b (List.mem_cons_of_mem _ hb),
      hfull block List.mem_cons_self, List.length_cons, Nat.mul_succ, Nat.add_comm]

theorem length_items (h : InBlocks size items blocks rest) :
    items.length = size * blocks.length + rest.length := by
  rw [h.items_eq, List.length_append, h.length_flatten]

/-- There are as many blocks as can be filled. -/
theorem length_blocks (h : InBlocks size items blocks rest) : blocks.length = items.length / size := by
  have hpos : 0 < size := Nat.lt_of_le_of_lt (Nat.zero_le _) h.short
  rw [h.length_items, Nat.mul_add_div hpos, Nat.div_eq_of_lt h.short, Nat.add_zero]

/-- So many items are kept as do not fill a block. -/
theorem length_rest (h : InBlocks size items blocks rest) : rest.length = items.length % size := by
  rw [h.length_items, Nat.mul_add_mod, Nat.mod_eq_of_lt h.short]

/-- **The blocks are the first items**, as many as fill them. -/
theorem flatten_eq (h : InBlocks size items blocks rest) :
    blocks.flatten = items.take (size * (items.length / size)) := by
  rw [← h.length_blocks, ← h.length_flatten, h.items_eq, List.take_left]

/-- **The rest is what came in behind them.** -/
theorem rest_eq (h : InBlocks size items blocks rest) : rest = items.drop (size * (items.length / size)) := by
  rw [← h.length_blocks, ← h.length_flatten, h.items_eq, List.drop_left]

end InBlocks

end DreamWeaver
