import Mathlib.Algebra.Order.Ring.Int
import Mathlib.Data.List.Basic
import Mathlib.Tactic.Linarith
import Mathlib.Tactic.Positivity
import Mathlib.Tactic.Ring

/-! # Writing into typed arrays

`setAt xs i ys` writes the values `ys` into an array from the position `i` on, and fails where they reach beyond its
end. A cursor is an array of bytes with the position of the next write. What writes `bytes` from the front on turns
the free space behind a cursor into them; writers of that kind compose.

An integer is written as its lowest bytes in two's complement, the lowest byte first, as the setters of a `DataView`
write it; such bytes are read as integers without a sign and with one. What fits into the bytes is read back. -/

namespace DreamWeaver

section Writing

variable {α : Type*} {xs ys rest front : List α}

/-- `xs.set(ys, i)`, `none` where it throws. -/
def setAt (xs : List α) (i : ℕ) (ys : List α) : Option (List α) :=
  if i + ys.length ≤ xs.length then some (xs.take i ++ ys ++ xs.drop (i + ys.length)) else none

/-- Values are written behind those that are there. -/
theorem setAt_append (front : List α) (h : ys.length ≤ rest.length) :
    setAt (front ++ rest) front.length ys = some (front ++ ys ++ rest.drop ys.length) := by
  have hroom : front.length + ys.length ≤ (front ++ rest).length := by
    rw [List.length_append]
    omega
  rw [setAt, if_pos hroom, List.take_left, List.drop_length_add_append]

/-- Values are written at the front. -/
theorem setAt_zero (h : ys.length ≤ xs.length) : setAt xs 0 ys = some (ys ++ xs.drop ys.length) :=
  setAt_append [] h

/-! ## Cursors -/

/-- A view of bytes and the offset of the next write. -/
structure Cursor where
  view : List UInt8
  offset : ℕ
  deriving DecidableEq

namespace Cursor

/-- Write bytes and go on behind them. -/
def put (bytes : List UInt8) (cursor : Cursor) : Option Cursor :=
  (setAt cursor.view cursor.offset bytes).map fun view => ⟨view, cursor.offset + bytes.length⟩

/-- The cursor behind what was written, with so many bytes of free space. -/
def behind (written : List UInt8) (free : ℕ) : Cursor := ⟨written ++ List.replicate free 0, written.length⟩

/-- The function writes these bytes, wherever there is room for them. -/
def Writes (f : Cursor → Option Cursor) (bytes : List UInt8) : Prop :=
  ∀ written free, f (behind written (bytes.length + free)) = some (behind (written ++ bytes) free)

variable {f g : Cursor → Option Cursor} {bytes more : List UInt8}

theorem writes_put (bytes : List UInt8) : Writes (put bytes) bytes := by
  intro written free
  have hroom : bytes.length ≤ (List.replicate (bytes.length + free) (0 : UInt8)).length := by
    rw [List.length_replicate]
    omega
  rw [put, behind, setAt_append written hroom, Option.map_some, List.drop_replicate, Nat.add_sub_cancel_left,
    behind, List.length_append]

/-- **Writers compose.** -/
theorem Writes.bind (hf : Writes f bytes) (hg : Writes g more) :
    Writes (fun cursor => f cursor >>= g) (bytes ++ more) := by
  intro written free
  have hfirst := hf written (more.length + free)
  rw [List.length_append, Nat.add_assoc]
  dsimp only
  rw [hfirst]
  show g _ = _
  rw [hg, List.append_assoc]

/-- A loop writes what its passes write. -/
theorem writes_foldlM {β : Type*} {step : Cursor → β → Option Cursor} {bytesOf : β → List UInt8}
    (hstep : ∀ b, Writes (fun cursor => step cursor b) (bytesOf b)) (bs : List β) :
    Writes (fun cursor => bs.foldlM step cursor) (bs.flatMap bytesOf) := by
  induction bs with
  | nil =>
    intro written free
    simp [behind]
  | cons b bs ih => 
    intro written free
    exact (hstep b).bind ih written free

/-- What a writer makes of a view that it fills. -/
theorem Writes.view (hf : Writes f bytes) :
    (f ⟨List.replicate bytes.length 0, 0⟩).map Cursor.view = some bytes := by
  have h := hf [] 0
  rw [behind, List.nil_append, Nat.add_zero] at h
  rw [show (0 : ℕ) = ([] : List UInt8).length from rfl, h]
  simp [behind]

end Cursor

end Writing

/-! ## Integers as bytes -/

variable {n : ℕ} {v : ℤ}

/-- The `n` lowest bytes of an integer. -/
def leBytes : ℕ → ℤ → List UInt8
  | 0, _ => []
  | n + 1, v => UInt8.ofNat (v % 256).toNat :: leBytes n (v / 256)

/-- Bytes as an integer without a sign. -/
def leValue : List UInt8 → ℕ
  | [] => 0
  | b :: bs => b.toNat + 256 * leValue bs

/-- An integer of `n` bytes, with its sign. -/
def signedOf (n m : ℕ) : ℤ := if 2 * m < 256 ^ n then m else m - 256 ^ n

@[simp] theorem length_leBytes (n : ℕ) (v : ℤ) : (leBytes n v).length = n := by
  induction n generalizing v with
  | zero => rfl
  | succ n ih => simp [leBytes, ih]

/-- The digits of a remainder are the first digits of the number. -/
theorem emod_base_mul {base power : ℤ} (hbase : 0 < base) (hpower : 0 < power) (v : ℤ) :
    v % (base * power) = v % base + base * (v / base % power) := by
  have hlow := Int.emod_nonneg v hbase.ne'
  have hlow' := Int.emod_lt_of_pos v hbase
  have hhigh := Int.emod_nonneg (v / base) hpower.ne'
  have hhigh' := Int.emod_lt_of_pos (v / base) hpower
  refine ((Int.ediv_emod_unique (q := v / base / power) (mul_pos hbase hpower)).mpr ⟨?_, by positivity, ?_⟩).2
  · calc v % base + base * (v / base % power) + base * power * (v / base / power)
        = v % base + base * (v / base % power + power * (v / base / power)) := by ring
      _ = v := by rw [Int.emod_add_mul_ediv, Int.emod_add_mul_ediv]
  · nlinarith

/-- Bytes give an integer back up to what does not fit into them. -/
theorem leValue_leBytes (n : ℕ) (v : ℤ) : (leValue (leBytes n v) : ℤ) = v % 256 ^ n := by
  induction n generalizing v with
  | zero => simp [leBytes, leValue]
  | succ n ih =>
    have hbyte : ((UInt8.ofNat (v % 256).toNat).toNat : ℤ) = v % 256 := by
      have hlt : (v % 256).toNat < 2 ^ 8 := by omega
      rw [UInt8.toNat_ofNat', Nat.mod_eq_of_lt hlt]
      omega
    rw [leBytes, leValue, Nat.cast_add, Nat.cast_mul, ih, hbyte, pow_succ',
      emod_base_mul (by norm_num) (by positivity)]
    rfl

/-- What fits without a sign. -/
theorem leValue_leBytes_of_lt (hv : 0 ≤ v) (hlt : v < 256 ^ n) : (leValue (leBytes n v) : ℤ) = v := by
  rw [leValue_leBytes, Int.emod_eq_of_lt hv hlt]

/-- What fits with a sign. -/
theorem signedValue_leBytes (hlow : -256 ^ n ≤ 2 * v) (hhigh : 2 * v < 256 ^ n) :
    signedOf n (leValue (leBytes n v)) = v := by
  have hpos : (0 : ℤ) < 256 ^ n := by positivity
  have hvalue := leValue_leBytes n v
  have hcast : (((256 ^ n : ℕ)) : ℤ) = 256 ^ n := by push_cast; rfl
  unfold signedOf
  by_cases hneg : v < 0
  · -- a negative number is read as what is left to the next power
    have hmod : v % 256 ^ n = v + 256 ^ n := by
      rw [← Int.add_emod_right, Int.emod_eq_of_lt (by omega) (by omega)]
    rw [if_neg (by omega)]
    omega
  · have hmod : v % 256 ^ n = v := Int.emod_eq_of_lt (by omega) (by omega)
    rw [if_pos (by omega)]
    omega

/-! ## Samples -/

/-- `new Int16Array(bytes)` -/
def int16s : List UInt8 → List ℤ
  | low :: high :: bytes => signedOf 2 (leValue [low, high]) :: int16s bytes
  | _ => []

theorem int16s_leBytes_append (hlow : -32768 ≤ v) (hhigh : v ≤ 32767) (bytes : List UInt8) :
    int16s (leBytes 2 v ++ bytes) = v :: int16s bytes := by
  have hread := signedValue_leBytes (n := 2) (v := v) (by omega) (by omega)
  exact congrArg (· :: int16s bytes) hread

/-- Integers of 16 bits are read back. -/
theorem int16s_flatMap {vs : List ℤ} (h : ∀ v ∈ vs, -32768 ≤ v ∧ v ≤ 32767) : int16s (vs.flatMap (leBytes 2)) = vs := by
  induction vs with
  | nil => rfl
  | cons v vs ih =>
    obtain ⟨hlow, hhigh⟩ := h v List.mem_cons_self
    rw [List.flatMap_cons, int16s_leBytes_append hlow hhigh, ih fun v' hv' => h v' (List.mem_cons_of_mem v hv')]

end DreamWeaver
