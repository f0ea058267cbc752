import DreamWeaver.Memory.PersistedAgentMemory

/-! # What a call does when it persists

The part of a call from what it writes down to the end of `persist` is a section: `Saving` is how far it is,
as it follows from the events. The text of the calls says what is awaited at each point. -/

namespace DreamWeaver.Memory

open Proc

/-! ## Sections -/

/-- How far a `persist` is. -/
inductive Saving where
  | idle
  /-- The bytes are written down. -/
  | begun (bytes : Bytes)
  /-- So many of them are in the temporary file. -/
  | writing (bytes : Bytes) (file written : ℕ)
  /-- The temporary file is to be removed. -/
  | failed

namespace Saving

/-- What is written down is to be saved. -/
def write (s : Saving) : Except JsError Bytes → Saving
  | .ok bytes => .begun bytes
  | .error _ => s

/-- The reply to `create`. -/
def create : Saving → Except JsError ℕ → Saving
  | .begun bytes, .ok file => .writing bytes file 0
  | s, .ok _ => s
  | _, .error _ => .failed

/-- The reply to `put`. -/
def put : Saving → Except JsError Unit → Saving
  | .writing bytes file written, .ok _ => .writing bytes file (written + 1)
  | s, .ok _ => s
  | _, .error _ => .failed

/-- The reply to `rename`. -/
def rename : Except JsError Unit → Saving
  | .ok _ => .idle
  | .error _ => .failed

/-- How far it is after an event. -/
def track (s : Saving) : PersistedEvent → Saving
  | ⟨.startFresh _, reply⟩ => s.write reply
  | ⟨.change _, reply⟩ => s.write reply
  | ⟨.file (.create _), reply⟩ => s.create reply
  | ⟨.file (.put _ _ _), reply⟩ => s.put reply
  | ⟨.file (.rename _ _), reply⟩ => rename reply
  | ⟨.file (.unlink _), _⟩ => .idle
  | _ => s

/-- What is awaited when it is so far. -/
def Awaits (s : Saving) : PersistedEffect → Prop
  | .startFresh _ => s = .idle
  | .change _ => s = .idle
  | .file (.create name) => name = .temporary ∧ ∃ bytes, s = .begun bytes
  | .file (.put file position byte) => ∃ bytes, s = .writing bytes file position ∧ bytes[position]? = some byte
  | .file (.rename old new) => (old = .temporary ∧ new = .database) ∧
      ∃ bytes file, s = .writing bytes file bytes.length
  | .file (.unlink name) => name = .temporary ∧ s = .failed
  | _ => True

/-- The bytes that are to be saved. -/
def bytes? : Saving → Option Bytes
  | .begun bytes => some bytes
  | .writing bytes _ _ => some bytes
  | _ => none

end Saving

/-- A section begins with what is written down. -/
def PersistedEffect.writesDown : PersistedEffect → Prop
  | .startFresh _ => True
  | .change _ => True
  | _ => False

/-- An effect that belongs to no `persist`. -/
def PersistedEffect.apart : PersistedEffect → Prop
  | .isInitialized => True
  | .load _ => True
  | .setInitialized => True
  | .file .mkdir => True
  | .file (.read _) => True
  | _ => False

/-- The sections of the calls. -/
def savingSections : Sections Saving PersistedEffect PersistedEffect.Reply where
  idle := .idle
  track := Saving.track
  begins := PersistedEffect.writesDown
  outside := PersistedEffect.apart
  awaits := Saving.Awaits
  track_outside := by
    intro s e h reply
    cases e with
    | file e =>
      cases e with
      | mkdir => rfl
      | read name => rfl
      | create name => exact h.elim
      | put file position byte => exact h.elim
      | rename old new => exact h.elim
      | unlink name => exact h.elim
    | startFresh now => exact h.elim
    | change call => exact h.elim
    | isInitialized => rfl
    | load data => rfl
    | setInitialized => rfl
  awaits_idle := by
    intro e h
    cases e with
    | file e =>
      cases e with
      | mkdir => exact .inr trivial
      | read name => exact .inr trivial
      | create name =>
        obtain ⟨_, _, hidle⟩ := h
        exact nomatch hidle
      | put file position byte =>
        obtain ⟨_, hidle, _⟩ := h
        exact nomatch hidle
      | rename old new =>
        obtain ⟨_, _, _, hidle⟩ := h
        exact nomatch hidle
      | unlink name =>
        obtain ⟨_, hidle⟩ := h
        exact nomatch hidle
    | startFresh now => exact .inl trivial
    | change call => exact .inl trivial
    | isInitialized => exact .inr trivial
    | load data => exact .inr trivial
    | setInitialized => exact .inr trivial

/-! ## What a call has done -/

/-- How far the change of a call is. -/
inductive Stage where
  | unchanged
  | changed
  | saved
  deriving DecidableEq

/-- How far it is after an event. -/
def Stage.track (s : Stage) : PersistedEvent → Stage
  | ⟨.change _, .ok _⟩ => .changed
  | ⟨.file (.rename _ _), .ok _⟩ => if s = .changed then .saved else s
  | _ => s

/-- How far the change of a call is after what it did. -/
def stage (past : List PersistedEvent) : Stage := past.foldl Stage.track .unchanged

theorem stage_concat (past : List PersistedEvent) (event : PersistedEvent) :
    stage (past ++ [event]) = (stage past).track event := by
  rw [stage, List.foldl_append, List.foldl_cons, List.foldl_nil, stage]

/-- The event shows, or makes, that the memory is set up. -/
def SetsUp : PersistedEvent → Prop
  | ⟨.isInitialized, .ok initialized⟩ => initialized = true
  | ⟨.setInitialized, .ok _⟩ => True
  | _ => False

/-- The event has set the fields. -/
def Opens : PersistedEvent → Prop
  | ⟨.load _, .ok _⟩ => True
  | ⟨.startFresh _, .ok _⟩ => True
  | _ => False

/-- The event is an error from which a call fails. -/
def FailsWith (error : JsError) : PersistedEvent → Prop
  | ⟨.change _, reply⟩ => reply = .error error
  | ⟨.startFresh _, reply⟩ => reply = .error error
  | ⟨.isInitialized, reply⟩ => reply = .error error
  | ⟨.setInitialized, reply⟩ => reply = .error error
  | ⟨.file (.create _), reply⟩ => reply = .error error
  | ⟨.file (.put _ _ _), reply⟩ => reply = .error error
  | ⟨.file (.rename _ _), reply⟩ => reply = .error error
  | _ => False

/-- What a call that makes a change, if it does, awaits after what it did. -/
def CallAwaits (call? : Option MemoryCall) (past : List PersistedEvent) (e : PersistedEffect) : Prop :=
  Saving.Awaits (savingSections.progress past) e ∧
    match e with
    | .change call => call? = some call ∧ stage past = .unchanged ∧ ∃ event ∈ past, SetsUp event
    | .load data => (⟨.file (.read .database), .ok data⟩ : PersistedEvent) ∈ past
    | .setInitialized => ∃ event ∈ past, Opens event
    | _ => True

/-! ## What the text of the calls says -/

variable {call? : Option MemoryCall} {past : List PersistedEvent}

theorem progress_concat (past : List PersistedEvent) (event : PersistedEvent) :
    savingSections.progress (past ++ [event]) = (savingSections.progress past).track event :=
  savingSections.progress_concat past event

/-- What writing ends in. -/
def Written (bytes : Bytes) (file : ℕ) (past past' : List PersistedEvent) (r : Except JsError Unit) : Prop :=
  stage past' = stage past ∧ match r with
    | .ok _ => savingSections.progress past' = .writing bytes file bytes.length
    | .error error => savingSections.progress past' = .failed ∧ ∃ event ∈ past', FailsWith error event

/-- The bytes are put one after the other. -/
theorem putBytes_obeys {bytes front rest : Bytes} {file position : ℕ} (hbytes : bytes = front ++ rest)
    (hposition : position = front.length)
    (hprogress : savingSections.progress past = .writing bytes file position) :
    (PersistedAgentMemory.putBytes file position rest).Obeys (CallAwaits call?)
      (Written bytes file past) past := by
  induction rest generalizing front past position with
  | nil =>
    refine ⟨rfl, ?_⟩
    rw [hprogress, hbytes, List.append_nil, hposition]
  | cons byte rest ih =>
    refine Obeys.bind ⟨⟨?_, trivial⟩, fun reply => ?_⟩
    · rw [hprogress]
      refine ⟨bytes, rfl, ?_⟩
      rw [hbytes, hposition, List.getElem?_append_right le_rfl, Nat.sub_self, List.getElem?_cons_zero]
    · cases reply with
      | error error =>
        refine ⟨by rw [stage_concat]; rfl, ?_, ⟨_, List.mem_append_right _ (List.mem_singleton_self _), rfl⟩⟩
        rw [progress_concat, hprogress]
        rfl
      | ok _ =>
        have hnext : bytes = (front ++ [byte]) ++ rest := by simp [hbytes]
        refine (ih hnext (by simp [hposition]) ?_).imp ?_
        · rw [progress_concat, hprogress]
          rfl
        · intro past' r h
          refine ⟨h.1.trans ?_, h.2⟩
          rw [stage_concat]
          rfl

/-- `fs.writeFile` on the temporary file. -/
theorem writeFile_obeys {bytes : Bytes} (hprogress : savingSections.progress past = .begun bytes) :
    (PersistedAgentMemory.writeFile .temporary bytes).Obeys (CallAwaits call?)
      (fun past' r => ∃ file, Written bytes file past past' r) past := by
  refine Obeys.bind ⟨⟨?_, trivial⟩, fun reply => ?_⟩
  · rw [hprogress]
    exact ⟨rfl, _, rfl⟩
  · cases reply with
    | error error =>
      refine ⟨0, by rw [stage_concat]; rfl, ?_,
        ⟨_, List.mem_append_right _ (List.mem_singleton_self _), rfl⟩⟩
      rw [progress_concat, hprogress]
      rfl
    | ok file =>
      refine (putBytes_obeys (List.nil_append bytes).symm rfl ?_).imp ?_
      · rw [progress_concat, hprogress]
        rfl
      · intro past' r h
        refine ⟨file, h.1.trans ?_, h.2⟩
        rw [stage_concat]
        rfl

/-- What `persist` ends in: nothing is under way any more, and it fails with an error that it met. -/
def Persisted (past past' : List PersistedEvent) (r : Except JsError Unit) : Prop :=
  savingSections.progress past' = .idle ∧ match r with
    | .ok _ => stage past' = if stage past = .changed then .saved else stage past
    | .error error => ∃ event ∈ past', FailsWith error event

/-- The temporary file is removed, and the error goes on. -/
theorem giveUp_obeys {error : JsError} {past₀ : List PersistedEvent}
    (hprogress : savingSections.progress past = .failed) (hfails : ∃ event ∈ past, FailsWith error event) :
    (PersistedAgentMemory.giveUp error).Obeys (CallAwaits call?) (Persisted past₀) past := by
  obtain ⟨event, hmem, hevent⟩ := hfails
  refine Obeys.bind (Obeys.catchWith ⟨⟨?_, trivial⟩, fun reply => ?_⟩)
  · rw [hprogress]
    exact ⟨rfl, rfl⟩
  · have hend : Persisted past₀ (past ++ [⟨.file (.unlink .temporary), reply⟩]) (.error error) :=
      ⟨progress_concat _ _, event, List.mem_append_left _ hmem, hevent⟩
    cases reply with
    | ok _ => exact hend
    | error e => exact hend

/-- **`persist`** -/
theorem persist_obeys {bytes : Bytes} (hprogress : savingSections.progress past = .begun bytes) :
    (PersistedAgentMemory.persist bytes).Obeys (CallAwaits call?) (Persisted past) past := by
  refine Obeys.catchWith (Obeys.bind ((writeFile_obeys hprogress).imp ?_))
  rintro past₁ r ⟨file, hstage, hend⟩
  cases r with
  | error error => exact giveUp_obeys hend.1 hend.2
  | ok _ =>
    refine ⟨⟨?_, trivial⟩, fun reply => ?_⟩
    · rw [hend]
      exact ⟨⟨rfl, rfl⟩, _, _, rfl⟩
    · cases reply with
      | ok _ =>
        refine ⟨progress_concat _ _, ?_⟩
        rw [← hstage]
        exact stage_concat _ _
      | error error =>
        refine giveUp_obeys ?_ ⟨_, List.mem_append_right _ (List.mem_singleton_self _), rfl⟩
        rw [progress_concat]
        rfl

/-- What opening ends in: the memory is set up, and nothing is changed yet. -/
def Opened (past' : List PersistedEvent) (r : Except JsError Unit) : Prop :=
  savingSections.progress past' = .idle ∧ match r with
    | .ok _ => stage past' = .unchanged ∧ ∃ event ∈ past', SetsUp event
    | .error error => ∃ event ∈ past', FailsWith error event

/-- The file is read. -/
theorem readDatabase_obeys (hprogress : savingSections.progress past = .idle)
    (hstage : stage past = .unchanged) :
    PersistedAgentMemory.readDatabase.Obeys (CallAwaits call?) (fun past' r =>
      savingSections.progress past' = .idle ∧ stage past' = .unchanged ∧
        (r = .ok () → ∃ event ∈ past', Opens event)) past := by
  have hnext : ∀ past (event : PersistedEvent), savingSections.progress past = .idle →
      stage past = .unchanged → event.effect = .file .mkdir ∨ event.effect = .file (.read .database) ∨
        (∃ data, event.effect = .load data) →
      savingSections.progress (past ++ [event]) = .idle ∧ stage (past ++ [event]) = .unchanged := by
    intro past event hprogress hstage heffect
    obtain ⟨e, reply⟩ := event
    rw [progress_concat, stage_concat, hprogress, hstage]
    rcases heffect with rfl | rfl | ⟨data, rfl⟩
    · exact ⟨rfl, rfl⟩
    · exact ⟨rfl, rfl⟩
    · exact ⟨rfl, rfl⟩
  refine Obeys.bind ⟨⟨trivial, trivial⟩, fun reply => ?_⟩
  have hmkdir := hnext past ⟨.file .mkdir, reply⟩ hprogress hstage (.inl rfl)
  cases reply with
  | error error => exact ⟨hmkdir.1, hmkdir.2, fun h => nomatch h⟩
  | ok _ =>
    refine Obeys.bind ⟨⟨trivial, trivial⟩, fun reply => ?_⟩
    have hread := hnext _ ⟨.file (.read .database), reply⟩ hmkdir.1 hmkdir.2 (.inr (.inl rfl))
    cases reply with
    | error error => exact ⟨hread.1, hread.2, fun h => nomatch h⟩
    | ok data =>
      refine ⟨⟨trivial, List.mem_append_right _ (List.mem_singleton_self _)⟩, fun reply => ?_⟩
      have hload := hnext _ ⟨.load data, reply⟩ hread.1 hread.2 (.inr (.inr ⟨data, rfl⟩))
      refine ⟨hload.1, hload.2, ?_⟩
      rintro rfl
      exact ⟨_, List.mem_append_right _ (List.mem_singleton_self _), trivial⟩

/-- The defaults are set and persisted. -/
theorem startFresh_obeys {now : ℤ} (hprogress : savingSections.progress past = .idle)
    (hstage : stage past = .unchanged) :
    (PersistedAgentMemory.startFresh now).Obeys (CallAwaits call?) (fun past' r =>
      savingSections.progress past' = .idle ∧ match r with
        | .ok _ => stage past' = .unchanged ∧ ∃ event ∈ past', Opens event
        | .error error => ∃ event ∈ past', FailsWith error event) past := by
  refine Obeys.bind ⟨⟨hprogress, trivial⟩, fun reply => ?_⟩
  cases reply with
  | error error =>
    refine ⟨?_, _, List.mem_append_right _ (List.mem_singleton_self _), rfl⟩
    rw [progress_concat, hprogress]
    rfl
  | ok bytes =>
    have hbegun : savingSections.progress (past ++ [⟨.startFresh now, .ok bytes⟩]) = .begun bytes :=
      progress_concat _ _
    have hsame : stage (past ++ [⟨.startFresh now, .ok bytes⟩]) = .unchanged :=
      (stage_concat _ _).trans hstage
    refine (persist_obeys hbegun).frame.imp ?_
    rintro past' r ⟨hextends, hidle, hend⟩
    refine ⟨hidle, ?_⟩
    cases r with
    | error error => exact hend
    | ok _ =>
      rw [hsame] at hend
      exact ⟨hend, _, hextends.subset (List.mem_append_right _ (List.mem_singleton_self _)), trivial⟩

/-- **`init`** -/
theorem init_obeys {now : ℤ} (hprogress : savingSections.progress past = .idle)
    (hstage : stage past = .unchanged) :
    (PersistedAgentMemory.init now).Obeys (CallAwaits call?) Opened past := by
  refine Obeys.bind ⟨⟨trivial, trivial⟩, fun reply => ?_⟩
  have hprogress' : savingSections.progress (past ++ [⟨.isInitialized, reply⟩]) = .idle :=
    (progress_concat _ _).trans hprogress
  have hstage' : stage (past ++ [⟨.isInitialized, reply⟩]) = .unchanged := (stage_concat _ _).trans hstage
  cases reply with
  | error error => exact ⟨hprogress', _, List.mem_append_right _ (List.mem_singleton_self _), rfl⟩
  | ok initialized =>
    cases (initialized : Bool) with
    | true => exact ⟨hprogress', hstage', _, List.mem_append_right _ (List.mem_singleton_self _), rfl⟩
    | false =>
      -- the flag is set once the file is read or the defaults are persisted
      have hset : ∀ past', savingSections.progress past' = .idle → stage past' = .unchanged →
          (∃ event ∈ past', Opens event) →
          (effect .setInitialized : PersistedProc Unit).Obeys (CallAwaits call?) Opened past' := by
        intro past' hidle hunchanged hopens
        refine ⟨⟨trivial, hopens⟩, fun reply => ⟨(progress_concat _ _).trans hidle, ?_⟩⟩
        cases reply with
        | ok _ => exact ⟨(stage_concat _ _).trans hunchanged, _,
            List.mem_append_right _ (List.mem_singleton_self _), trivial⟩
        | error error => exact ⟨_, List.mem_append_right _ (List.mem_singleton_self _), rfl⟩
      refine Obeys.bind (Obeys.catchWith ((readDatabase_obeys hprogress' hstage').imp ?_))
      rintro past₁ r ⟨hidle, hunchanged, hread⟩
      cases r with
      | ok _ => exact hset past₁ hidle hunchanged (hread rfl)
      | error error =>
        refine (startFresh_obeys hidle hunchanged).imp ?_
        rintro past₂ r ⟨hidle₂, hend⟩
        cases r with
        | ok _ => exact hset past₂ hidle₂ hend.1 hend.2
        | error error => exact ⟨hidle₂, hend⟩

/-- What a call that makes a change ends in: the change is saved, or the call met the error. -/
def Mutated (past' : List PersistedEvent) (r : Except JsError Unit) : Prop :=
  match r with
  | .ok _ => stage past' = .saved
  | .error error => ∃ event ∈ past', FailsWith error event

/-- **`store`, `trackOutcome` and `trackPreferencePair`** -/
theorem mutate_obeys {now : ℤ} {call : MemoryCall} :
    (PersistedAgentMemory.mutate now call).Obeys (CallAwaits (some call)) Mutated [] := by
  refine Obeys.bind ((init_obeys rfl rfl).imp ?_)
  rintro past r ⟨hidle, hend⟩
  cases r with
  | error error => exact hend
  | ok _ =>
    obtain ⟨hunchanged, hsetUp⟩ := hend
    refine Obeys.bind ⟨⟨hidle, rfl, hunchanged, hsetUp⟩, fun reply => ?_⟩
    cases reply with
    | error error => exact ⟨_, List.mem_append_right _ (List.mem_singleton_self _), rfl⟩
    | ok bytes =>
      refine (persist_obeys (progress_concat _ _)).imp ?_
      rintro past' r ⟨-, hend⟩
      cases r with
      | error error => exact hend
      | ok _ =>
        rw [stage_concat] at hend
        exact hend

/-! ## What is on the disk -/

/-- The temporary file holds the bytes that were written. -/
def Saving.Holds (disk : Disk MemoryFile) : Saving → Prop
  | .writing bytes file written => disk.names .temporary = some file ∧
      disk.files file = bytes.take written ∧ written ≤ bytes.length
  | _ => True

/-- The file has got its new content. -/
def Renames : PersistedEvent → Prop
  | ⟨.file (.rename _ _), .ok _⟩ => True
  | _ => False

/-- **One step on the disk**: the file is replaced by all of what is to be saved, or not touched. -/
structure FileStep (s : Saving) (disk disk' : Disk MemoryFile) (event : PersistedEvent) : Prop where
  holds : (s.track event).Holds disk'
  same : ¬ Renames event → disk'.content .database = disk.content .database
  replaced : Renames event → ∃ bytes, s.bytes? = some bytes ∧ disk'.content .database = some bytes
  pending : (s.track event).bytes? = s.bytes? ∨ (s.track event).bytes? = none
  /-- The error is not that a file is missing. -/
  fails : ∀ error, FailsWith error event → error ≠ enoent

theorem file_step {s : Saving} {disk disk' : Disk MemoryFile} {e : FileEffect MemoryFile}
    {reply : Except JsError e.Reply} (hholds : s.Holds disk) (hawaits : s.Awaits (.file e))
    (hreply : disk.Answers e reply disk') : FileStep s disk disk' ⟨.file e, reply⟩ := by
  rcases hreply with hreply | ⟨error, hne, rfl, rfl⟩
  · cases e with
    | mkdir =>
      obtain ⟨rfl, rfl⟩ := Prod.mk.inj hreply
      exact ⟨hholds, fun _ => rfl, fun h => h.elim, .inl rfl, fun _ h => h.elim⟩
    | read name =>
      obtain ⟨-, rfl⟩ := Prod.mk.inj hreply
      exact ⟨hholds, fun _ => rfl, fun h => h.elim, .inl rfl, fun _ h => h.elim⟩
    | create name =>
      obtain ⟨rfl, rfl⟩ := Prod.mk.inj hreply
      obtain ⟨rfl, bytes, rfl⟩ := hawaits
      refine ⟨⟨Disk.names_create, ?_, Nat.zero_le _⟩, fun _ => Disk.content_create (by decide),
        fun h => h.elim, .inl rfl, fun _ h => nomatch h⟩
      rw [List.take_zero]
      exact Disk.files_create
    | put file position byte =>
      obtain ⟨rfl, rfl⟩ := Prod.mk.inj hreply
      obtain ⟨bytes, rfl, hbyte⟩ := hawaits
      obtain ⟨hname, hfile, hle⟩ := hholds
      obtain ⟨hlt, hget⟩ := List.getElem?_eq_some_iff.mp hbyte
      refine ⟨⟨hname, ?_, hlt⟩, fun _ => Disk.content_put hname (by decide), fun h => h.elim, .inl rfl,
        fun _ h => nomatch h⟩
      have hlength : (bytes.take position).length = position := List.length_take_of_le hle
      have hput := putAt_length (bytes.take position) byte
      rw [hlength] at hput
      rw [Disk.files_put, hfile, hput, ← hget, List.take_concat_get' bytes position hlt]
    | rename old new =>
      obtain ⟨⟨rfl, rfl⟩, bytes, file, rfl⟩ := hawaits
      obtain ⟨hname, hfile, -⟩ := hholds
      rw [Disk.answer, if_pos (by rw [hname]; rfl)] at hreply
      obtain ⟨rfl, rfl⟩ := Prod.mk.inj hreply
      refine ⟨trivial, fun h => (h trivial).elim, fun _ => ⟨bytes, rfl, ?_⟩, .inr rfl, fun _ h => nomatch h⟩
      rw [Disk.content_rename_new, Disk.content, hname, Option.map_some, hfile, List.take_length]
    | unlink name =>
      obtain ⟨rfl, rfl⟩ := hawaits
      refine ⟨trivial, fun _ => ?_, fun h => h.elim, .inr rfl, fun _ h => h.elim⟩
      rw [Disk.answer] at hreply
      split at hreply
      · obtain ⟨-, rfl⟩ := Prod.mk.inj hreply
        exact Disk.content_unlink (by decide)
      · obtain ⟨-, rfl⟩ := Prod.mk.inj hreply
        rfl
  · -- the effect fails, and the disk stays as it is
    have hfails : ∀ error', FailsWith error' ⟨.file e, .error error⟩ → error' ≠ enoent := by
      intro error' h
      have heq : (Except.error error : Except JsError e.Reply) = .error error' := by
        cases e with
        | mkdir => exact h.elim
        | read name => exact h.elim
        | create name => exact h
        | put file position byte => exact h
        | rename old new => exact h
        | unlink name => exact h.elim
      rw [← Except.error.inj heq]
      exact hne
    have hrenames : ¬ Renames ⟨.file e, .error error⟩ := by
      cases e with
      | mkdir => exact id
      | read name => exact id
      | create name => exact id
      | put file position byte => exact id
      | rename old new => exact id
      | unlink name => exact id
    have htrack : s.track ⟨.file e, .error error⟩ = s ∨ s.track ⟨.file e, .error error⟩ = .failed ∨
        s.track ⟨.file e, .error error⟩ = .idle := by
      cases e with
      | mkdir => exact .inl rfl
      | read name => exact .inl rfl
      | create name => cases s <;> exact .inr (.inl rfl)
      | put file position byte => cases s <;> exact .inr (.inl rfl)
      | rename old new => exact .inr (.inl rfl)
      | unlink name => exact .inr (.inr rfl)
    refine ⟨?_, fun _ => rfl, fun h => (hrenames h).elim, ?_, hfails⟩
    · rcases htrack with h | h | h
      · rw [h]
        exact hholds
      · rw [h]
        trivial
      · rw [h]
        trivial
    · rcases htrack with h | h | h
      · exact .inl (congrArg Saving.bytes? h)
      · exact .inr (congrArg Saving.bytes? h)
      · exact .inr (congrArg Saving.bytes? h)

end DreamWeaver.Memory
