import DreamWeaver.Foundations.JsValue
import Mathlib.Data.Set.Basic
import Mathlib.Logic.Function.Basic
import Mathlib.Data.PNat.Basic

/-! # The cache port

`CachePort` (`api/src/application/ports/CachePort.ts`) is the contract between the AI gateway and
its caches: string values with an optional time to live, and atomic counters. `AbstractCache` says
what such a cache is for: under a key there is a value or a counter until its deadline.
`CacheRefinement` connects an adapter to it, on a set of keys that are used as the abstract cache
allows: every operation on such a key answers as the abstract cache does, and operations on other
keys do not disturb it. -/

namespace DreamWeaver.Cache

/-! ## Operations and ports -/

/-- The operations of `CachePort`; a time to live is a number of seconds. -/
inductive CacheOp where
  | get (key : Text)
  | set (key value : Text) (ttlSeconds : Option ℚ)
  | increment (key : Text) (ttlSeconds : Option ℚ)
  | delete (key : Text)
  deriving DecidableEq, Repr

/-- The key an operation is about. -/
def CacheOp.key : CacheOp → Text
  | .get key | .set key _ _ | .increment key _ | .delete key => key

/-- What an operation resolves with. -/
abbrev CacheOp.Reply : CacheOp → Type
  | .get _ => Option Text
  | .set .. => Unit
  | .increment .. => ℚ
  | .delete _ => Unit

/-- An implementation of the port: what an operation at a time answers, and the state after it. -/
structure CachePort (σ : Type) where
  initial : σ
  perform : σ → ℕ → (op : CacheOp) → Except JsError op.Reply × σ

/-- A time to live that is present: `if (ttlSeconds)`. -/
def truthyTtl (ttlSeconds : Option ℚ) : Option ℚ := ttlSeconds.filter (· ≠ 0)

/-- The replies of a cache to a timed sequence of operations. -/
def CachePort.replies {σ : Type} (port : CachePort σ) :
    σ → List (ℕ × CacheOp) → List ((op : CacheOp) × Except JsError op.Reply)
  | _, [] => []
  | s, (now, op) :: rest =>
    ⟨op, (port.perform s now op).1⟩ :: port.replies (port.perform s now op).2 rest

/-! ## The abstract cache -/

/-- What a key holds: a string, or a counter that has been counted up at least once. -/
inductive Cell where
  | value (text : Text)
  | counter (n : ℕ+)
  deriving DecidableEq, Repr

/-- The text of a cell that holds a value. -/
def Cell.value? : Cell → Option Text
  | .value text => some text
  | .counter _ => none

/-- The number of a cell that holds a counter. -/
def Cell.counter? : Cell → Option ℚ
  | .value _ => none
  | .counter n => some ((n : ℕ) : ℚ)

/-- A cell and the last moment at which it is there. -/
structure Entry where
  cell : Cell
  deadline : Option ℚ
  deriving DecidableEq, Repr

/-- An abstract cache: what each key holds. -/
abbrev AbstractCache := Text → Option Entry

/-- A moment is within a deadline. -/
def Within (deadline : Option ℚ) (t : ℕ) : Bool := deadline.all fun d => (t : ℚ) ≤ d

/-- The cell a key holds at a time. -/
def AbstractCache.live (a : AbstractCache) (t : ℕ) (key : Text) : Option Cell :=
  ((a key).filter fun entry => Within entry.deadline t).map Entry.cell

section Deadline

-- how an adapter turns a time to live that it accepts into a deadline
variable (deadline : ℕ → ℚ → Option ℚ)

/-- The adapter accepts the time to live, if one is present. -/
def AcceptsTtl (now : ℕ) (ttlSeconds : Option ℚ) : Prop :=
  ∀ ttl, truthyTtl ttlSeconds = some ttl → (deadline now ttl).isSome = true

/-- The deadline of a cell created now. -/
def expiryOf (now : ℕ) (ttlSeconds : Option ℚ) : Option ℚ :=
  (truthyTtl ttlSeconds).bind (deadline now)

/-- The operations that use a key in one way: values are read and written where there is no
counter, counters go up where there is no value and stay within the exact integers. -/
def Allowed (a : AbstractCache) (now : ℕ) : CacheOp → Prop
  | .get key => ∀ n, a.live now key ≠ some (.counter n)
  | .set key _ ttl => (∀ n, a.live now key ≠ some (.counter n)) ∧ AcceptsTtl deadline now ttl
  | .increment key ttl =>
    (∀ text, a.live now key ≠ some (.value text)) ∧
      (∀ n, a.live now key = some (.counter n) → (n : ℕ) < 2 ^ 53) ∧ AcceptsTtl deadline now ttl
  | .delete _ => True

/-- The number a counter stands at, 0 if there is none. -/
def AbstractCache.count (a : AbstractCache) (now : ℕ) (key : Text) : ℕ :=
  match a.live now key with
  | some (.counter n) => n
  | _ => 0

/-- The deadline of a counter, of a new one if there is none. -/
def AbstractCache.counterDeadline (a : AbstractCache) (now : ℕ) (key : Text)
    (ttlSeconds : Option ℚ) : Option ℚ :=
  match a.live now key with
  | some (.counter _) => (a key).bind Entry.deadline
  | _ => expiryOf deadline now ttlSeconds

/-- Put a cell under a key. -/
def AbstractCache.write (a : AbstractCache) (key : Text) (cell : Cell) (expiry : Option ℚ) :
    AbstractCache :=
  Function.update a key (some ⟨cell, expiry⟩)

/-- What the abstract cache answers, and the cache after the operation. -/
def AbstractCache.perform (a : AbstractCache) (now : ℕ) : (op : CacheOp) → op.Reply × AbstractCache
  | .get key => ((a.live now key).bind Cell.value?, a)
  | .set key value ttl => ((), a.write key (.value value) (expiryOf deadline now ttl))
  | .increment key ttl =>
    (((a.count now key + 1 : ℕ) : ℚ),
      a.write key (.counter (a.count now key).succPNat) (a.counterDeadline deadline now key ttl))
  | .delete key => ((), Function.update a key none)

end Deadline

/-! ## Refinement -/

/-- **What an adapter guarantees.** `rel K now a s`: as far as the keys in `K` are concerned, the
adapter state `s` stands for the abstract cache `a` from the time `now` on. -/
structure CacheRefinement {σ : Type} (port : CachePort σ) where
  deadline : ℕ → ℚ → Option ℚ
  deadline_mono : ∀ {now later : ℕ} {ttl d d' : ℚ}, now ≤ later → deadline now ttl = some d →
    deadline later ttl = some d' → d ≤ d'
  rel : Set Text → ℕ → AbstractCache → σ → Prop
  rel_initial : ∀ K now, rel K now (fun _ => none) port.initial
  rel_later : ∀ {K now later a s}, rel K now a s → now ≤ later → rel K later a s
  reply_eq : ∀ {K now a s} {op : CacheOp}, rel K now a s → op.key ∈ K → Allowed deadline a now op →
    (port.perform s now op).1 = .ok (a.perform deadline now op).1
  rel_perform : ∀ {K now a s} {op : CacheOp}, rel K now a s → op.key ∈ K →
    Allowed deadline a now op → rel K now (a.perform deadline now op).2 (port.perform s now op).2
  rel_frame : ∀ {K now a s} {op : CacheOp}, rel K now a s → op.key ∉ K →
    rel K now a (port.perform s now op).2

/-! ## The abstract cache after an operation -/

section Live

variable {a : AbstractCache} {now t : ℕ} {key other : Text}

/-- A moment without deadline is within it. -/
@[simp] theorem within_none (t : ℕ) : Within none t = true := rfl

/-- What is within a deadline later is within it now. -/
theorem within_of_later {deadline : Option ℚ} (h : Within deadline t = true) (ht : now ≤ t) :
    Within deadline now = true := by
  cases deadline with
  | none => rfl
  | some d =>
    have hle : (now : ℚ) ≤ t := by exact_mod_cast ht
    simp only [Within, Option.all_some, decide_eq_true_eq] at h ⊢
    exact hle.trans h

/-- A key holds a cell when its entry is within the deadline. -/
theorem live_eq_some_iff {cell : Cell} :
    a.live t key = some cell ↔
      ∃ entry, a key = some entry ∧ Within entry.deadline t = true ∧ entry.cell = cell := by
  simp [AbstractCache.live, Option.filter_eq_some_iff, and_assoc]

/-- What a key holds later, it holds now. -/
theorem live_of_live_later {cell : Cell} (h : a.live t key = some cell) (ht : now ≤ t) :
    a.live now key = some cell := by
  obtain ⟨entry, hentry, hwithin, hcell⟩ := live_eq_some_iff.mp h
  exact live_eq_some_iff.mpr ⟨entry, hentry, within_of_later hwithin ht, hcell⟩

/-- Where no counter is live, none is later. -/
theorem counter?_eq_none (h : ∀ n, a.live now key ≠ some (.counter n)) (ht : now ≤ t) :
    (a.live t key).bind Cell.counter? = none := by
  cases hcell : a.live t key with
  | none => rfl
  | some cell =>
    cases cell with
    | value text => rfl
    | counter n => exact absurd (live_of_live_later hcell ht) (h n)

/-- Where no value is live, none is later. -/
theorem value?_eq_none (h : ∀ text, a.live now key ≠ some (.value text)) (ht : now ≤ t) :
    (a.live t key).bind Cell.value? = none := by
  cases hcell : a.live t key with
  | none => rfl
  | some cell =>
    cases cell with
    | value text => exact absurd (live_of_live_later hcell ht) (h text)
    | counter n => rfl

/-- Updating one key leaves what the others hold. -/
theorem live_update_of_ne {entry : Option Entry} (hne : other ≠ key) :
    AbstractCache.live (Function.update a key entry) t other = a.live t other := by
  unfold AbstractCache.live
  rw [Function.update_of_ne hne]

/-- A deleted key holds nothing. -/
@[simp] theorem live_update_none :
    AbstractCache.live (Function.update a key none) t key = none := by
  simp [AbstractCache.live]

/-- A written key holds the cell until the deadline. -/
@[simp] theorem live_write_self {cell : Cell} {expiry : Option ℚ} :
    (a.write key cell expiry).live t key = if Within expiry t then some cell else none := by
  cases h : Within expiry t <;> simp [AbstractCache.live, AbstractCache.write, h]

/-- Writing one key leaves what the others hold. -/
theorem live_write_of_ne {cell : Cell} {expiry : Option ℚ} (hne : other ≠ key) :
    (a.write key cell expiry).live t other = a.live t other :=
  live_update_of_ne hne

/-- A live counter keeps its deadline when it goes up. -/
theorem within_counterDeadline {deadline : ℕ → ℚ → Option ℚ} {ttl : Option ℚ} {n : ℕ+}
    (h : a.live now key = some (.counter n)) :
    Within (a.counterDeadline deadline now key ttl) t = (a.live t key).isSome := by
  obtain ⟨entry, hentry, -, hcell⟩ := live_eq_some_iff.mp h
  unfold AbstractCache.counterDeadline
  rw [h]
  simp only [AbstractCache.live, hentry, Option.bind_some]
  cases hw : Within entry.deadline t <;> simp [hw]

end Live

end DreamWeaver.Cache
