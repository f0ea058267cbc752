import DreamWeaver.Memory.WritesKept

/-! # The file is never destroyed

A crash can come at any point of a run, and what the disk holds then is what is left. The file should have
all of what was written down for it last, or what it had; and opening the memory should leave a file that is
there as it is. `init` takes every error for a missing file (`If file doesn't exist, start fresh`), and writes
the defaults in its place. -/

namespace DreamWeaver.Memory

open Proc

variable {ι : Type}

/-! ## What should hold -/

/-- What was written down last, and what the file got last. -/
structure Writes where
  written : Option Bytes
  saved : Option Bytes

/-- What an event adds. -/
def Writes.track (w : Writes) : PersistedEvent → Writes
  | ⟨.startFresh _, .ok bytes⟩ => { w with written := some bytes }
  | ⟨.change _, .ok bytes⟩ => { w with written := some bytes }
  | ⟨.file (.rename _ _), .ok _⟩ => { w with saved := w.written }
  | _ => w

/-- What was written down and saved in a run. -/
def writes (log : PersistedLog ι) : Writes := log.foldl (fun w entry => w.track entry.2) ⟨none, none⟩

/-- **The file is kept**: at every point it has all of what was saved last, a complete database, or what it
had at the start; and as long as nothing changes the memory it stays as it is, if it is there. -/
structure KeepsFile (start : Option Bytes) (log : PersistedLog ι)
    (c : PersistedPool ι) : Prop where
  whole : c.state.1.disk.content .database = (writes log).saved.or start
  complete : ∀ bytes, (writes log).saved = some bytes → ∃ m : StoredMemory, bytes = m.bytes
  opening : start.isSome = true → changes log = [] → c.state.1.disk.content .database = start

/-- The defaults are set only if there is no file, and what is written down is saved before the next. -/
def Careful (s : PersistedAgentMemory × Saving) : PersistedEffect → Prop
  | .startFresh _ => s.1.disk.content .database = none ∧ s.2 = .idle
  | .change _ => s.2 = .idle
  | _ => True

/-! ## The invariant -/

variable {oddScores : JsData → Text → Outcome → Option JsData} {calls : ι → Option MemoryCall}
  {log : PersistedLog ι} {s s' : PersistedAgentMemory × Saving} {start : Option Bytes} {i : ι}
  {event : PersistedEvent}

/-- What holds in a run. -/
structure FileSoFar (start : Option Bytes) (log : PersistedLog ι) (s : PersistedAgentMemory × Saving) :
    Prop where
  holds : s.2.Holds s.1.disk
  pending : ∀ bytes, s.2.bytes? = some bytes → (writes log).written = some bytes
  whole : s.1.disk.content .database = (writes log).saved.or start
  complete : ∀ bytes, (writes log).written = some bytes ∨ (writes log).saved = some bytes →
    ∃ m : StoredMemory, bytes = m.bytes
  opening : start.isSome = true → changes log = [] →
    (writes log).written = none ∧ (writes log).saved = none

theorem writes_concat (log : PersistedLog ι) (i : ι) (event : PersistedEvent) :
    writes (log ++ [(i, event)]) = (writes log).track event := by
  rw [writes, List.foldl_append, List.foldl_cons, List.foldl_nil, writes]

/-- A step that writes nothing down, and does not touch the file. -/
theorem FileSoFar.quiet (h : FileSoFar start log s) (hwrites : ∀ w : Writes, w.track event = w)
    (hchange : changeOf event = none) (hcontent : s'.1.disk.content .database = s.1.disk.content .database)
    (hpending : s'.2.bytes? = s.2.bytes? ∨ s'.2.bytes? = none) (hholds : s'.2.Holds s'.1.disk) :
    FileSoFar start (log ++ [(i, event)]) s' := by
  constructor
  · exact hholds
  · intro bytes hbytes
    rw [writes_concat, hwrites]
    rcases hpending with hsame | hnone
    · exact h.pending bytes (hsame ▸ hbytes)
    · rw [hnone] at hbytes
      exact nomatch hbytes
  · rw [writes_concat, hwrites, hcontent]
    exact h.whole
  · rw [writes_concat, hwrites]
    exact h.complete
  · rw [writes_concat, hwrites, changes_concat, hchange]
    intro hsome hnil
    exact h.opening hsome (by simpa using hnil)

/-- A database is written down: by a change, or where there is no file. -/
theorem FileSoFar.write {m : StoredMemory} (h : FileSoFar start log s)
    (hwrites : (writes (log ++ [(i, event)])) = { writes log with written := some m.bytes })
    (hopening : changeOf event ≠ none ∨ start = none) (hdisk : s'.1.disk = s.1.disk)
    (hsaving : s'.2 = .begun m.bytes) : FileSoFar start (log ++ [(i, event)]) s' := by
  constructor
  · rw [hsaving]
    trivial
  · intro bytes hbytes
    rw [hsaving] at hbytes
    rw [hwrites]
    exact hbytes
  · rw [hwrites, hdisk]
    exact h.whole
  · intro bytes hbytes
    rw [hwrites] at hbytes
    rcases hbytes with hbytes | hbytes
    · exact ⟨m, (Option.some.inj hbytes).symm⟩
    · exact h.complete bytes (.inr hbytes)
  · intro hsome hnil
    rcases hopening with hchange | hnone
    · rw [changes_concat] at hnil
      cases hcall : changeOf event with
      | none => exact absurd hcall hchange
      | some call => simp [hcall] at hnil
    · rw [hnone] at hsome
      exact nomatch hsome

/-- The file gets what is to be saved. -/
theorem FileSoFar.rename {old new : MemoryFile} {bytes : Bytes} (h : FileSoFar start log s)
    (hbytes : s.2.bytes? = some bytes) (hcontent : s'.1.disk.content .database = some bytes)
    (hsaving : s'.2 = .idle) :
    FileSoFar start (log ++ [(i, ⟨.file (.rename old new), .ok ()⟩)]) s' := by
  have hwritten := h.pending bytes hbytes
  have hwrites : writes (log ++ [(i, ⟨.file (.rename old new), .ok ()⟩)]) =
      { writes log with saved := (writes log).written } := writes_concat log i _
  constructor
  · rw [hsaving]
    trivial
  · intro bytes' hbytes'
    rw [hsaving] at hbytes'
    exact nomatch hbytes'
  · rw [hwrites, hcontent, hwritten, Option.some_or]
  · intro bytes' hbytes'
    rw [hwrites] at hbytes'
    exact h.complete bytes' (.inl (hbytes'.elim id id))
  · intro hsome hnil
    have hold : changes log = [] := by
      rw [changes_concat] at hnil
      exact (List.append_eq_nil_iff.mp hnil).1
    rw [(h.opening hsome hold).1] at hwritten
    exact nomatch hwritten

/-- **One step** of a careful call keeps the invariant. -/
theorem FileSoFar.step {e : PersistedEffect} {reply : Except JsError e.Reply} (h : FileSoFar start log s)
    (hawaits : s.2.Awaits e) (hok : Careful s e)
    (hstep : savingSections.tracked (persistedEnv oddScores) s e reply s') :
    FileSoFar start (log ++ [(i, ⟨e, reply⟩)]) s' := by
  obtain ⟨memory', saving'⟩ := s'
  obtain ⟨henv, rfl : saving' = _⟩ := hstep
  cases e with
  | isInitialized =>
    obtain ⟨rfl, rfl⟩ := henv
    exact h.quiet (fun _ => rfl) rfl rfl (.inl rfl) h.holds
  | load data =>
    rw [persistedEnv] at henv
    split at henv
    · obtain ⟨rfl, rfl⟩ := henv
      exact h.quiet (fun _ => rfl) rfl rfl (.inl rfl) h.holds
    · obtain ⟨rfl, rfl⟩ := henv
      exact h.quiet (fun _ => rfl) rfl rfl (.inl rfl) h.holds
  | startFresh now =>
    obtain ⟨rfl, rfl⟩ := henv
    -- there is no file, and so there was none
    have hnone : start = none := by
      have hwhole := h.whole
      rw [hok.1] at hwhole
      exact (Option.or_eq_none_iff.mp hwhole.symm).2
    exact h.write (writes_concat log i _) (.inr hnone) rfl rfl
  | setInitialized =>
    obtain ⟨rfl, rfl⟩ := henv
    exact h.quiet (fun _ => rfl) rfl rfl (.inl rfl) h.holds
  | change call =>
    rw [persistedEnv] at henv
    split at henv
    · obtain ⟨rfl, rfl⟩ := henv
      exact h.write (writes_concat log i _) (.inl (Option.some_ne_none call)) rfl rfl
    · obtain ⟨rfl, rfl⟩ := henv
      exact h.quiet (fun _ => rfl) rfl rfl (.inl rfl) h.holds
  | file e =>
    obtain ⟨disk, hanswers, rfl⟩ := henv
    have hfile := file_step h.holds hawaits hanswers
    by_cases hrenames : Renames ⟨.file e, reply⟩
    · obtain ⟨bytes, hbytes, hcontent⟩ := hfile.replaced hrenames
      cases e with
      | rename old new =>
        cases reply with
        | ok _ => exact h.rename hbytes hcontent rfl
        | error error => exact hrenames.elim
      | mkdir => exact hrenames.elim
      | read name => exact hrenames.elim
      | create name => exact hrenames.elim
      | put file position byte => exact hrenames.elim
      | unlink name => exact hrenames.elim
    · refine h.quiet (fun w => ?_) rfl (hfile.same hrenames) hfile.pending hfile.holds
      cases e with
      | rename old new =>
        cases reply with
        | ok _ => exact (hrenames trivial).elim
        | error error => rfl
      | mkdir => rfl
      | read name => rfl
      | create name => rfl
      | put file position byte => rfl
      | unlink name => rfl

/-! ## Runs -/

variable [DecidableEq ι] {disk : Disk MemoryFile} {now : ι → ℤ}
  {c : PersistedPool ι}

theorem careful_excluded : savingSections.Excluded Careful := by
  intro s e hok hbegins
  cases e with
  | startFresh now => exact hok.2
  | change call => exact hok
  | file e => exact hbegins.elim
  | isInitialized => exact hbegins.elim
  | load data => exact hbegins.elim
  | setInitialized => exact hbegins.elim

/-- **The file is kept** at every point of every run of calls that are careful. -/
theorem file_kept (h : PersistedRuns oddScores Careful (callPool disk now calls) log c) :
    KeepsFile (disk.content .database) log c := by
  have hstart : FileSoFar (disk.content .database) ([] : PersistedLog ι)
      (callPool disk now calls).state := by
    refine ⟨trivial, fun bytes hbytes => (nomatch hbytes), rfl, ?_, fun _ _ => ⟨rfl, rfl⟩⟩
    rintro bytes (hbytes | hbytes)
    · exact nomatch hbytes
    · exact nomatch hbytes
  have hkeep : ∀ log s i e reply s', FileSoFar (disk.content .database) log s →
      CallAwaits (calls i) (eventsOf i log) e → (s.2.Awaits e ∨ e.apart) → Careful s e →
      savingSections.tracked (persistedEnv oddScores) s e reply s' →
      FileSoFar (disk.content .database) (log ++ [(i, ⟨e, reply⟩)]) s' :=
    fun log s i e reply s' hsofar _ hawaits hok hstep => hsofar.step (awaits_of_apart hawaits) hok hstep
  have hawaits : ∀ i past e, CallAwaits (calls i) past e →
      savingSections.awaits (savingSections.progress past) e := fun i past e hawaits => hawaits.1
  have hsofar := Sections.invariant careful_excluded hawaits
    (fun i => (persistedCall_obeys (now i) (calls i)).steps) hkeep hstart h
  refine ⟨hsofar.whole, fun bytes hbytes => hsofar.complete bytes (.inr hbytes), fun hsome hnil => ?_⟩
  rw [hsofar.whole, (hsofar.opening hsome hnil).2, Option.none_or]

/-! ## Examples -/

/-- One call that changes the memory of a file, and another that has not begun. -/
theorem file_kept_ocean : ∃ log c,
    PersistedRuns keepScores Careful (callPool bareDisk (fun _ => 0) oceanTwice) log c ∧
    c.procs 0 = .done (.ok ()) ∧ KeepsFile (bareDisk.content .database) log c := by
  have hcareful : ∀ (s : PersistedAgentMemory × Saving) e, s.1.initialized = false → ¬ e.writesDown →
      Careful s e := by
    intro s e _ hnot
    cases e with
    | startFresh now => exact (hnot trivial).elim
    | change call => exact (hnot trivial).elim
    | load data => trivial
    | isInitialized => trivial
    | setInitialized => trivial
    | file e => trivial
  obtain ⟨log₁, c₁, m, h₁, hstate, hfirst, -⟩ := runs_opened hcareful
  obtain ⟨log₂, c₂, h₂, hprocs₂, hnames⟩ :=
    runs_written (fun _ _ => trivial) h₁ hfirst (by rw [hstate]; rfl)
  have hname : (c₂.state.1.disk.names .temporary).isSome = true := by
    rw [hnames, Disk.names_create]
    rfl
  obtain ⟨log₃, c₃, h₃, hprocs₃, -⟩ :=
    runs_renamed (fun _ _ => trivial) h₂ (by rw [hprocs₂, Function.update_self]) hname
  exact ⟨log₃, c₃, h₃, by rw [hprocs₃, Function.update_self], file_kept h₃⟩

/-- A file that was cut off. -/
def cutFile : Bytes := encodeUtf8 (lit "\x7b\"memories\":[")

/-- What is left of `init` when a part of `writeFile` is left. -/
def initAfter (p : PersistedProc Unit) : PersistedProc Unit := do
  persistAfter p
  effect .setInitialized

theorem goesOn_initAfter (file : ℕ) : GoesOn file initAfter := by
  intro position byte rest
  refine congrArg (Proc.await _) (funext fun reply => ?_)
  cases reply with
  | ok _ => rfl
  | error error => rfl

theorem fresh_ne_cutFile : (StoredMemory.fresh 0).bytes ≠ cutFile := by
  intro h
  have hsecond : (StoredMemory.fresh 0).bytes[1]? = cutFile[1]? := by rw [h]
  exact absurd hsecond (by decide +kernel)

/-- **A call that only reads** finds the file cut off, and writes the defaults in its place. -/
theorem cutFile_destroyed : ∃ log c,
    PersistedRuns keepScores (fun _ _ => True)
      (callPool (diskWith cutFile) (fun _ => 0) fun _ : Fin 1 => none) log c ∧
    c.state.1.disk.content .database = some (StoredMemory.fresh 0).bytes ∧
    ¬ KeepsFile (some cutFile) log c := by
  obtain ⟨error, hread⟩ : ∃ error, StoredMemory.read cutFile = .error error := by
    have hparse : (parseJson (decodeUtf8 cutFile)).isOk = false := by decide +kernel
    rw [StoredMemory.read]
    cases hdocument : parseJson (decodeUtf8 cutFile) with
    | error error => exact ⟨error, rfl⟩
    | ok v =>
      rw [hdocument] at hparse
      cases hparse
  have hinitialized : persistedEnv keepScores ⟨.empty, false, diskWith cutFile⟩ .isInitialized (.ok false)
      ⟨.empty, false, diskWith cutFile⟩ := ⟨rfl, rfl⟩
  have hmkdir : persistedEnv keepScores ⟨.empty, false, diskWith cutFile⟩ (.file .mkdir) (.ok ())
      ⟨.empty, false, diskWith cutFile⟩ := ⟨_, .inl rfl, rfl⟩
  have hdata : persistedEnv keepScores ⟨.empty, false, diskWith cutFile⟩ (.file (.read .database))
      (.ok cutFile) ⟨.empty, false, diskWith cutFile⟩ := ⟨_, .inl rfl, rfl⟩
  have hload : persistedEnv keepScores ⟨.empty, false, diskWith cutFile⟩ (.load cutFile)
      (.error error) ⟨.empty, false, diskWith cutFile⟩ := by
    rw [persistedEnv, hread]
    exact ⟨rfl, rfl⟩
  -- what the defaults are does not matter for the run
  obtain ⟨bytes, hbytes⟩ : ∃ bytes, bytes = (StoredMemory.fresh 0).bytes := ⟨_, rfl⟩
  have hfresh : persistedEnv keepScores ⟨.empty, false, diskWith cutFile⟩ (.startFresh 0) (.ok bytes)
      ⟨.fresh 0, false, diskWith cutFile⟩ := by
    rw [hbytes]
    exact ⟨rfl, rfl⟩
  have hcreate : persistedEnv keepScores ⟨.fresh 0, false, diskWith cutFile⟩ (.file (.create .temporary))
      (.ok ((diskWith cutFile).create .temporary).1)
      ⟨.fresh 0, false, ((diskWith cutFile).create .temporary).2⟩ := ⟨_, .inl rfl, rfl⟩
  have h₀ : PersistedRuns keepScores (fun _ _ => True)
      (callPool (diskWith cutFile) (fun _ => 0) fun _ : Fin 1 => none) []
      (callPool (diskWith cutFile) (fun _ => 0) fun _ : Fin 1 => none) := .start
  have h₁ := runs_effect (i := 0) h₀ rfl hinitialized trivial
  have h₂ := runs_effect (i := 0) h₁ rfl hmkdir trivial
  have h₃ := runs_effect (i := 0) h₂ rfl hdata trivial
  have h₄ := runs_effect (i := 0) h₃ rfl hload trivial
  have h₅ := runs_effect (i := 0) h₄ rfl hfresh trivial
  have h₆ := runs_effect (i := 0) h₅ rfl hcreate trivial
  obtain ⟨log₇, c₇, h₇, hprocs₇, hchanges₇, hnames₇, hsaving₇, hholds₇⟩ :=
    runs_putBytes (fun _ _ => trivial) h₆ (goesOn_initAfter ((diskWith cutFile).create .temporary).1)
      (i := 0) rfl rfl rfl ⟨Disk.names_create, Disk.files_create, Nat.zero_le _⟩
  have hname : (c₇.state.1.disk.names .temporary).isSome = true := by
    rw [hnames₇]
    exact congrArg Option.isSome Disk.names_create
  have hrename : persistedEnv keepScores c₇.state.1 (.file (.rename .temporary .database)) (.ok ())
      { c₇.state.1 with disk := c₇.state.1.disk.rename .temporary .database } := by
    refine ⟨_, .inl ?_, rfl⟩
    rw [Disk.answer, if_pos hname]
  have hproc₇ : c₇.procs 0 = initAfter (pure ()) := by rw [hprocs₇, Function.update_self]
  have h₈ := runs_effect h₇ hproc₇ hrename trivial
  have hcontent : (c₇.state.1.disk.rename .temporary .database).content .database =
      some (StoredMemory.fresh 0).bytes := by
    rw [hsaving₇] at hholds₇
    rw [← hbytes, Disk.content_rename_new, Disk.content, hholds₇.1, Option.map_some, hholds₇.2.1, List.take_length]
  refine ⟨_, _, h₈, hcontent, fun hkeeps => fresh_ne_cutFile ?_⟩
  have hopening := hkeeps.opening rfl (by rw [changes_concat, hchanges₇]; rfl)
  exact Option.some.inj (hcontent.symm.trans hopening)

end DreamWeaver.Memory
