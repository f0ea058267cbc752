import DreamWeaver.Foundations.JsValue
import Mathlib.Logic.Function.Basic

/-! # Files with names

A disk has files, and names that denote some of them, no two names the same file. A file that is written
keeps what it has got so far, byte by byte, and goes on getting bytes when its name is gone or given to
another. Every effect may fail and leave the disk as it is; one that needs a file that is not there fails
with an error of its own. -/

namespace DreamWeaver

/-- The bytes of a file. -/
abbrev Bytes := List UInt8

/-- A byte is put at a position, with zeros up to it. -/
def putAt (content : Bytes) (position : ℕ) (byte : UInt8) : Bytes :=
  content.take position ++ List.replicate (position - content.length) 0 ++
    byte :: content.drop (position + 1)

/-- A byte is put at the end. -/
theorem putAt_length (content : Bytes) (byte : UInt8) :
    putAt content content.length byte = content ++ [byte] := by
  rw [putAt, List.take_length, Nat.sub_self, List.replicate_zero, List.append_nil,
    List.drop_eq_nil_of_le (Nat.le_succ _)]

/-- Files, and which of them the names denote. -/
structure Disk (Name : Type) where
  files : ℕ → Bytes
  /-- So many files were made. -/
  used : ℕ
  names : Name → Option ℕ
  bounded : ∀ {name n}, names name = some n → n < used
  distinct : ∀ {a b n}, names a = some n → names b = some n → a = b

namespace Disk

variable {Name : Type}

/-- The content of the file that a name denotes. -/
def content (d : Disk Name) (name : Name) : Option Bytes := (d.names name).map d.files

/-- A byte is written into a file. -/
def put (d : Disk Name) (file position : ℕ) (byte : UInt8) : Disk Name :=
  { d with files := Function.update d.files file (putAt (d.files file) position byte) }

variable {d : Disk Name} {name other : Name} {n position : ℕ} {byte : UInt8}

@[simp] theorem files_put : (d.put n position byte).files n = putAt (d.files n) position byte :=
  Function.update_self _ _ _

/-- A file with another name stays as it is. -/
theorem content_put (h : d.names name = some n) (hne : other ≠ name) :
    (d.put n position byte).content other = d.content other := by
  cases hother : d.names other with
  | none => simp [content, put, hother]
  | some m =>
    have hmn : m ≠ n := by
      rintro rfl
      exact hne (d.distinct hother h)
    simp [content, put, hother, hmn]

variable [DecidableEq Name]

/-- A file is opened for writing: what was in it is gone, and a file that is missing is made. -/
def create (d : Disk Name) (name : Name) : ℕ × Disk Name :=
  match d.names name with
  | some n => (n, { d with files := Function.update d.files n [] })
  | none => (d.used,
    { files := Function.update d.files d.used []
      used := d.used + 1
      names := Function.update d.names name (some d.used)
      bounded := by
        intro other n h
        by_cases heq : other = name
        · rw [heq, Function.update_self] at h
          have := Option.some.inj h
          omega
        · rw [Function.update_of_ne heq] at h
          exact (d.bounded h).trans (Nat.lt_succ_self _)
      distinct := by
        intro a b n ha hb
        by_cases hna : a = name
        · by_cases hnb : b = name
          · rw [hna, hnb]
          · rw [hna, Function.update_self] at ha
            rw [Function.update_of_ne hnb, ← ha] at hb
            exact absurd (d.bounded hb) (lt_irrefl _)
        · rw [Function.update_of_ne hna] at ha
          by_cases hnb : b = name
          · rw [hnb, Function.update_self] at hb
            rw [← hb] at ha
            exact absurd (d.bounded ha) (lt_irrefl _)
          · rw [Function.update_of_ne hnb] at hb
            exact d.distinct ha hb })

/-- A name is taken from its file and given to nothing. -/
def unlink (d : Disk Name) (name : Name) : Disk Name where
  files := d.files
  used := d.used
  names := Function.update d.names name none
  bounded := by
    intro other n h
    by_cases heq : other = name
    · rw [heq, Function.update_self] at h
      exact (nomatch h)
    · rw [Function.update_of_ne heq] at h
      exact d.bounded h
  distinct := by
    intro a b n ha hb
    by_cases hna : a = name
    · rw [hna, Function.update_self] at ha
      exact (nomatch ha)
    · by_cases hnb : b = name
      · rw [hnb, Function.update_self] at hb
        exact (nomatch hb)
      · rw [Function.update_of_ne hna] at ha
        rw [Function.update_of_ne hnb] at hb
        exact d.distinct ha hb

/-- A file gets another name, which no longer denotes what it did. -/
def rename (d : Disk Name) (old new : Name) : Disk Name where
  files := d.files
  used := d.used
  names name := if name = new then d.names old else if name = old then none else d.names name
  bounded := by
    intro name n h
    split at h
    · exact d.bounded h
    · split at h
      · exact (nomatch h)
      · exact d.bounded h
  distinct := by
    intro a b n ha hb
    split at ha
    · rename_i hanew
      split at hb
      · rename_i hbnew
        rw [hanew, hbnew]
      · split at hb
        · exact (nomatch hb)
        · rename_i hbold
          exact absurd (d.distinct hb ha) hbold
    · split at ha
      · exact (nomatch ha)
      · rename_i haold
        split at hb
        · exact absurd (d.distinct ha hb) haold
        · split at hb
          · exact (nomatch hb)
          · exact d.distinct ha hb

/-! ## What changes, and what does not -/

@[simp] theorem names_create : (d.create name).2.names name = some (d.create name).1 := by
  unfold create
  cases h : d.names name with
  | some n => exact h
  | none => exact Function.update_self _ _ _

@[simp] theorem files_create : (d.create name).2.files (d.create name).1 = [] := by
  unfold create
  cases d.names name with
  | some n => exact Function.update_self _ _ _
  | none => exact Function.update_self _ _ _

theorem content_create (hne : other ≠ name) : (d.create name).2.content other = d.content other := by
  unfold create
  cases h : d.names name with
  | some n =>
    cases hother : d.names other with
    | none => simp [content, hother]
    | some m =>
      have hmn : m ≠ n := by
        rintro rfl
        exact hne (d.distinct hother h)
      simp [content, hother, hmn]
  | none =>
    cases hother : d.names other with
    | none => simp [content, hother, hne]
    | some m =>
      have hlt := d.bounded hother
      simp [content, hother, hne, hlt.ne]

theorem content_unlink (hne : other ≠ name) : (d.unlink name).content other = d.content other := by
  simp [content, unlink, hne]

@[simp] theorem content_rename_new (old new : Name) : (d.rename old new).content new = d.content old := by
  simp [content, rename]

end Disk

/-! ## Effects -/

/-- `ENOENT` -/
def enoent : JsError := ⟨lit "Error", lit "ENOENT: no such file or directory"⟩

/-- What a program does to files. -/
inductive FileEffect (Name : Type) where
  | mkdir
  | read (name : Name)
  | create (name : Name)
  | put (file position : ℕ) (byte : UInt8)
  | rename (old new : Name)
  | unlink (name : Name)

/-- What it gets. -/
def FileEffect.Reply {Name : Type} : FileEffect Name → Type
  | .read _ => Bytes
  | .create _ => ℕ
  | _ => Unit

namespace Disk

variable {Name : Type} [DecidableEq Name]

/-- The reply of a disk that is in order. -/
def answer (d : Disk Name) : (e : FileEffect Name) → Except JsError e.Reply × Disk Name
  | .mkdir => (.ok (), d)
  | .read name => (((d.content name).elim (.error enoent) .ok : Except JsError Bytes), d)
  | .create name => ((.ok (d.create name).1 : Except JsError ℕ), (d.create name).2)
  | .put file position byte => (.ok (), d.put file position byte)
  | .rename old new =>
    if (d.names old).isSome then (.ok (), d.rename old new) else (.error enoent, d)
  | .unlink name => if (d.names name).isSome then (.ok (), d.unlink name) else (.error enoent, d)

/-- The replies of a disk: an effect may also fail and leave the disk as it is. -/
def Answers (d : Disk Name) (e : FileEffect Name) (reply : Except JsError e.Reply) (d' : Disk Name) : Prop :=
  (reply, d') = d.answer e ∨ ∃ error, error ≠ enoent ∧ reply = .error error ∧ d' = d

end Disk

end DreamWeaver
