import DreamWeaver.Memory.Persisting

/-! # No write is lost

Calls that change the memory in a file interleave. A call that completes should be in the memory and in the
file, and no call should fail because of another. All of them write to one temporary file, and each call that
finds the memory not set up opens it anew: where no two are in `persist` at the same time, and none opens the
memory once another has, nothing is lost. -/

namespace DreamWeaver.Memory

open Proc

variable {ι : Type}

/-! ## What should hold -/

/-- The log of calls. -/
abbrev PersistedLog (ι : Type) := List (ι × PersistedEvent)

/-- Calls of one object, which interleave; the state knows how far the `persist` is that is under way. -/
abbrev PersistedPool (ι : Type) :=
  Pool ι (PersistedAgentMemory × Saving) PersistedEffect PersistedEffect.Reply Unit

/-- Runs of calls. -/
abbrev PersistedRuns [DecidableEq ι] (oddScores : JsData → Text → Outcome → Option JsData)
    (ok : PersistedAgentMemory × Saving → PersistedEffect → Prop) :
    PersistedPool ι → PersistedLog ι → PersistedPool ι → Prop :=
  Runs (savingSections.tracked (persistedEnv oddScores)) ok

/-- The change that an event is. -/
def changeOf : PersistedEvent → Option MemoryCall
  | ⟨.change call, .ok _⟩ => some call
  | _ => none

/-- The changes of the memory, in their order. -/
def changes (log : PersistedLog ι) : List (ι × MemoryCall) :=
  log.filterMap fun entry => (changeOf entry.2).map fun call => (entry.1, call)

/-- The memory after changes. -/
def replay (oddScores : JsData → Text → Outcome → Option JsData) (base : StoredMemory)
    (made : List (ι × MemoryCall)) : Except JsError StoredMemory :=
  made.foldlM (fun m entry => m.change oddScores entry.2) base

/-- The memory was opened with these fields: the defaults, or what was read from the file. -/
def OpenedWith (log : PersistedLog ι) (base : StoredMemory) : Prop :=
  (∃ i now bytes, (i, ⟨.startFresh now, .ok bytes⟩) ∈ log ∧ base = .fresh now) ∨
    ∃ i data, (i, ⟨.file (.read .database), .ok data⟩) ∈ log ∧ (i, ⟨.load data, .ok ()⟩) ∈ log ∧
      StoredMemory.read data = .ok base

/-- Calls, by what they change; a call of `retrieve` or `getThemeStats` changes nothing. -/
def persistedCall (now : ℤ) : Option MemoryCall → PersistedProc Unit
  | some call => PersistedAgentMemory.mutate now call
  | none => PersistedAgentMemory.init now

/-- A new object, and calls that begin at any time. -/
def callPool (disk : Disk MemoryFile) (now : ι → ℤ) (calls : ι → Option MemoryCall) :
    PersistedPool ι where
  state := (⟨.empty, false, disk⟩, .idle)
  procs i := persistedCall (now i) (calls i)

/-- **No write is lost**: the memory is what was opened after the changes of the log, each of one call; the
file has those of every call that has completed; and no call fails because a file is missing. -/
structure KeepsWrites (oddScores : JsData → Text → Outcome → Option JsData) (calls : ι → Option MemoryCall)
    (log : PersistedLog ι) (c : PersistedPool ι) : Prop where
  kept : ∃ base saved unsaved, changes log = saved ++ unsaved ∧
    ((saved ++ unsaved).map Prod.fst).Nodup ∧ (saved ++ unsaved ≠ [] → OpenedWith log base) ∧
    replay oddScores base (saved ++ unsaved) = .ok c.state.1.memory ∧
    (saved ≠ [] → ∃ memory, replay oddScores base saved = .ok memory ∧
      c.state.1.disk.content .database = some memory.bytes) ∧
    ∀ i call, calls i = some call → c.procs i = .done (.ok ()) → (i, call) ∈ saved
  failed : ∀ i error, c.procs i = .done (.error error) → error ≠ enoent

/-- A call changes the memory or sets the defaults when no other has still to save what it wrote down, and
sets the fields when no other has opened the memory. -/
def Alone (s : PersistedAgentMemory × Saving) : PersistedEffect → Prop
  | .load _ => s.1.initialized = false
  | .startFresh _ => s.1.initialized = false ∧ s.2 = .idle
  | .change _ => s.2 = .idle
  | _ => True

/-! ## The invariant -/

variable {oddScores : JsData → Text → Outcome → Option JsData} {calls : ι → Option MemoryCall}
  {log : PersistedLog ι} {s s' : PersistedAgentMemory × Saving} {base : StoredMemory}
  {saved unsaved : List (ι × MemoryCall)} {i : ι} {event : PersistedEvent}

theorem changes_concat (log : PersistedLog ι) (i : ι) (event : PersistedEvent) :
    changes (log ++ [(i, event)]) = changes log ++ ((changeOf event).map fun call => (i, call)).toList := by
  rw [changes, List.filterMap_append, changes]
  cases h : changeOf event with
  | none => simp [h]
  | some call => simp [h]

theorem replay_concat {made : List (ι × MemoryCall)} {entry : ι × MemoryCall} {m : StoredMemory}
    (h : replay oddScores base made = .ok m) :
    replay oddScores base (made ++ [entry]) = m.change oddScores entry.2 := by
  rw [replay, List.foldlM_append, ← replay, h]
  exact bind_pure (m.change oddScores entry.2)

theorem OpenedWith.concat (h : OpenedWith log base) (entry : ι × PersistedEvent) :
    OpenedWith (log ++ [entry]) base := by
  rcases h with ⟨i, now, bytes, hmem, heq⟩ | ⟨i, data, hread, hload, heq⟩
  · exact .inl ⟨i, now, bytes, List.mem_append_left _ hmem, heq⟩
  · exact .inr ⟨i, data, List.mem_append_left _ hread, List.mem_append_left _ hload, heq⟩

/-- Whether an entry is in a log that has one more. -/
theorem exists_mem_concat {P : PersistedEvent → Prop} :
    (∃ entry ∈ log ++ [(i, event)], P entry.2) ↔ (∃ entry ∈ log, P entry.2) ∨ P event := by
  simp only [List.mem_append, List.mem_singleton, or_and_right, exists_or, exists_eq_left]

theorem forall_mem_concat {P : PersistedEvent → Prop} (h : ∀ entry ∈ log, P entry.2) (hevent : P event) :
    ∀ entry ∈ log ++ [(i, event)], P entry.2 := by
  intro entry hmem
  rcases List.mem_append.mp hmem with hmem | hmem
  · exact h entry hmem
  · rw [List.mem_singleton.mp hmem]
    exact hevent

/-- An event that makes no change, opens nothing and gives the file no new content. -/
structure Quiet (event : PersistedEvent) : Prop where
  change : changeOf event = none
  stage : ∀ s : Stage, s.track event = s
  opens : ¬ Opens event
  renames : ¬ Renames event

variable [DecidableEq ι]

/-- An error of the event is not that a file is missing. -/
def FindsFile (event : PersistedEvent) : Prop := ∀ error, FailsWith error event → error ≠ enoent

/-- What holds in a run. -/
structure KeptSoFar (oddScores : JsData → Text → Outcome → Option JsData) (calls : ι → Option MemoryCall)
    (log : PersistedLog ι) (s : PersistedAgentMemory × Saving) (base : StoredMemory)
    (saved unsaved : List (ι × MemoryCall)) : Prop where
  split : changes log = saved ++ unsaved
  memory : replay oddScores base (saved ++ unsaved) = .ok s.1.memory
  file : saved ≠ [] → ∃ memory, replay oddScores base saved = .ok memory ∧
    s.1.disk.content .database = some memory.bytes
  /-- What is to be saved has all changes. -/
  pending : ∀ bytes, s.2.bytes? = some bytes → saved ++ unsaved ≠ [] → bytes = s.1.memory.bytes
  holds : s.2.Holds s.1.disk
  opened : (∃ entry ∈ log, Opens entry.2) → OpenedWith log base
  opens : s.1.initialized = true → ∃ entry ∈ log, Opens entry.2
  setUp : (∃ entry ∈ log, SetsUp entry.2) → s.1.initialized = true
  initialized : saved ++ unsaved ≠ [] → s.1.initialized = true
  changed : ∀ i, stage (eventsOf i log) ≠ .unchanged ↔ i ∈ (saved ++ unsaved).map Prod.fst
  done : ∀ i, stage (eventsOf i log) = .saved → i ∈ saved.map Prod.fst
  own : ∀ entry ∈ saved ++ unsaved, calls entry.1 = some entry.2
  nodup : ((saved ++ unsaved).map Prod.fst).Nodup
  fails : ∀ entry ∈ log, FindsFile entry.2

theorem stage_eventsOf_concat (i j : ι) (log : PersistedLog ι) (event : PersistedEvent) :
    stage (eventsOf j (log ++ [(i, event)])) =
      if i = j then (stage (eventsOf j log)).track event else stage (eventsOf j log) := by
  by_cases h : i = j
  · subst h
    rw [eventsOf_concat_self, stage_concat, if_pos rfl]
  · rw [eventsOf_concat_of_ne h, if_neg h]


/-- **A quiet step** keeps the invariant. -/
theorem KeptSoFar.quiet (h : KeptSoFar oddScores calls log s base saved unsaved) (hquiet : Quiet event)
    (hmemory : s'.1.memory = s.1.memory) (hinitialized : s'.1.initialized = s.1.initialized)
    (hcontent : s'.1.disk.content .database = s.1.disk.content .database)
    (hpending : s'.2.bytes? = s.2.bytes? ∨ s'.2.bytes? = none) (hholds : s'.2.Holds s'.1.disk)
    (hsetUp : SetsUp event → s.1.initialized = true)
    (hfails : FindsFile event) :
    KeptSoFar oddScores calls (log ++ [(i, event)]) s' base saved unsaved := by
  have hstage : ∀ j, stage (eventsOf j (log ++ [(i, event)])) = stage (eventsOf j log) := by
    intro j
    rw [stage_eventsOf_concat, hquiet.stage, ite_self]
  have hopens : (∃ entry ∈ log ++ [(i, event)], Opens entry.2) → ∃ entry ∈ log, Opens entry.2 :=
    fun hopens => (exists_mem_concat.mp hopens).resolve_right hquiet.opens
  constructor
  · rw [changes_concat, hquiet.change, h.split]
    simp
  · rw [hmemory]
    exact h.memory
  · rw [hcontent]
    exact h.file
  · intro bytes hbytes hne
    rcases hpending with hsame | hnone
    · rw [hmemory]
      exact h.pending bytes (hsame ▸ hbytes) hne
    · rw [hnone] at hbytes
      exact nomatch hbytes
  · exact hholds
  · exact fun hopened => (h.opened (hopens hopened)).concat _
  · exact fun hset => exists_mem_concat.mpr (.inl (h.opens (hinitialized ▸ hset)))
  · intro hset
    rw [hinitialized]
    exact (exists_mem_concat.mp hset).elim h.setUp hsetUp
  · rw [hinitialized]
    exact h.initialized
  · intro j
    rw [hstage]
    exact h.changed j
  · intro j
    rw [hstage]
    exact h.done j
  · exact h.own
  · exact h.nodup
  · exact forall_mem_concat h.fails hfails

/-- **The memory is opened**, before any change. -/
theorem KeptSoFar.reopen {base' : StoredMemory} (h : KeptSoFar oddScores calls log s base saved unsaved)
    (hfresh : s.1.initialized = false) (hchange : changeOf event = none)
    (hstage : ∀ t : Stage, t.track event = t) (hsetUp : ¬ SetsUp event)
    (hfails : ∀ error, ¬ FailsWith error event) (hmemory : s'.1.memory = base')
    (hinitialized : s'.1.initialized = s.1.initialized) (hholds : s'.2.Holds s'.1.disk)
    (hopened : OpenedWith (log ++ [(i, event)]) base') :
    KeptSoFar oddScores calls (log ++ [(i, event)]) s' base' [] [] := by
  have hnil : saved ++ unsaved = [] := by
    by_contra hne
    rw [h.initialized hne] at hfresh
    exact nomatch hfresh
  have hsame : ∀ j, stage (eventsOf j (log ++ [(i, event)])) = stage (eventsOf j log) := by
    intro j
    rw [stage_eventsOf_concat, hstage, ite_self]
  have hchanged := h.changed
  rw [hnil] at hchanged
  constructor
  · rw [changes_concat, hchange, h.split, hnil]
    rfl
  · rw [hmemory]
    rfl
  · exact fun hne => absurd rfl hne
  · exact fun _ _ hne => absurd rfl hne
  · exact hholds
  · exact fun _ => hopened
  · intro hset
    rw [hinitialized, hfresh] at hset
    exact nomatch hset
  · intro hset
    rw [hinitialized]
    exact h.setUp ((exists_mem_concat.mp hset).resolve_right hsetUp)
  · exact fun hne => absurd rfl hne
  · intro j
    rw [hsame]
    exact hchanged j
  · intro j hj
    rw [hsame] at hj
    have hne : stage (eventsOf j log) ≠ .unchanged := by
      rw [hj]
      decide
    exact (List.not_mem_nil ((hchanged j).mp hne)).elim
  · exact fun entry hmem => (List.not_mem_nil hmem).elim
  · exact List.nodup_nil
  · exact forall_mem_concat h.fails fun error herror => absurd herror (hfails error)

/-- The memory is set up, after it was opened. -/
theorem KeptSoFar.initialize (h : KeptSoFar oddScores calls log s base saved unsaved)
    (hopens : ∃ entry ∈ log, Opens entry.2) (hinitialized : s'.1.initialized = true)
    (hmemory : s'.1.memory = s.1.memory) (hdisk : s'.1.disk = s.1.disk) (hsaving : s'.2 = s.2) :
    KeptSoFar oddScores calls (log ++ [(i, ⟨.setInitialized, .ok ()⟩)]) s' base saved unsaved := by
  have hsame : ∀ j, stage (eventsOf j (log ++ [(i, ⟨.setInitialized, .ok ()⟩)])) = stage (eventsOf j log) := by
    intro j
    rw [stage_eventsOf_concat]
    exact ite_self _
  constructor
  · rw [changes_concat, h.split]
    simp [changeOf]
  · rw [hmemory]
    exact h.memory
  · rw [hdisk]
    exact h.file
  · rw [hsaving, hmemory]
    exact h.pending
  · rw [hsaving, hdisk]
    exact h.holds
  · exact fun _ => (h.opened hopens).concat _
  · exact fun _ => exists_mem_concat.mpr (.inl hopens)
  · exact fun _ => hinitialized
  · exact fun _ => hinitialized
  · intro j
    rw [hsame]
    exact h.changed j
  · intro j
    rw [hsame]
    exact h.done j
  · exact h.own
  · exact h.nodup
  · exact forall_mem_concat h.fails fun _ herror => by cases herror

/-- **The memory is changed** by a call that has not changed it yet. -/
theorem KeptSoFar.change {call : MemoryCall} {bytes : Bytes} {memory : StoredMemory}
    (h : KeptSoFar oddScores calls log s base saved unsaved) (hcall : calls i = some call)
    (hunchanged : stage (eventsOf i log) = .unchanged) (hset : s.1.initialized = true)
    (hchange : s.1.memory.change oddScores call = .ok memory) (hmemory : s'.1.memory = memory)
    (hinitialized : s'.1.initialized = s.1.initialized) (hdisk : s'.1.disk = s.1.disk)
    (hbytes : bytes = memory.bytes) (hsaving : s'.2 = .begun bytes) :
    KeptSoFar oddScores calls (log ++ [(i, ⟨.change call, .ok bytes⟩)]) s' base saved
      (unsaved ++ [(i, call)]) := by
  have hstage : ∀ j, stage (eventsOf j (log ++ [(i, ⟨.change call, .ok bytes⟩)])) =
      if i = j then .changed else stage (eventsOf j log) := fun j => stage_eventsOf_concat i j log _
  have hnot : i ∉ (saved ++ unsaved).map Prod.fst := by
    intro hmem
    exact (h.changed i).mpr hmem hunchanged
  constructor
  · rw [changes_concat, h.split, List.append_assoc]
    rfl
  · rw [← List.append_assoc, replay_concat h.memory, hmemory]
    exact hchange
  · rw [hdisk]
    exact h.file
  · intro bytes' hbytes' _
    rw [hsaving] at hbytes'
    rw [← Option.some.inj hbytes', hbytes, hmemory]
  · rw [hsaving]
    trivial
  · intro hopens
    have hold := (exists_mem_concat.mp hopens).resolve_right id
    exact (h.opened hold).concat _
  · exact fun _ => exists_mem_concat.mpr (.inl (h.opens hset))
  · intro _
    rw [hinitialized, hset]
  · intro _
    rw [hinitialized, hset]
  · intro j
    rw [hstage, ← List.append_assoc, List.map_append, List.mem_append, ← h.changed j]
    by_cases hij : i = j
    · simp [hij]
    · simp [hij, Ne.symm hij]
  · intro j hj
    rw [hstage] at hj
    by_cases hij : i = j
    · rw [if_pos hij] at hj
      cases hj
    · rw [if_neg hij] at hj
      exact h.done j hj
  · intro entry hmem
    rw [← List.append_assoc] at hmem
    rcases List.mem_append.mp hmem with hmem | hmem
    · exact h.own entry hmem
    · rw [List.mem_singleton.mp hmem]
      exact hcall
  · rw [← List.append_assoc, List.map_append]
    refine List.nodup_append.mpr ⟨h.nodup, List.nodup_singleton i, fun a ha b hb hab => hnot ?_⟩
    obtain rfl : b = i := List.mem_singleton.mp hb
    exact hab ▸ ha
  · exact forall_mem_concat h.fails fun _ herror => by cases herror

/-- **The file is replaced**: it has now all changes. -/
theorem KeptSoFar.rename {old new : MemoryFile} {bytes : Bytes}
    (h : KeptSoFar oddScores calls log s base saved unsaved) (hbytes : s.2.bytes? = some bytes)
    (hcontent : s'.1.disk.content .database = some bytes) (hmemory : s'.1.memory = s.1.memory)
    (hinitialized : s'.1.initialized = s.1.initialized) (hsaving : s'.2 = .idle) :
    KeptSoFar oddScores calls (log ++ [(i, ⟨.file (.rename old new), .ok ()⟩)]) s' base
      (saved ++ unsaved) [] := by
  have hstage : ∀ j, stage (eventsOf j (log ++ [(i, ⟨.file (.rename old new), .ok ()⟩)])) =
      if i = j then (if stage (eventsOf j log) = .changed then .saved else stage (eventsOf j log))
      else stage (eventsOf j log) := fun j => stage_eventsOf_concat i j log _
  have hopens : (∃ entry ∈ log ++ [(i, ⟨.file (.rename old new), .ok ()⟩)], Opens entry.2) →
      ∃ entry ∈ log, Opens entry.2 := fun hopens => (exists_mem_concat.mp hopens).resolve_right id
  constructor
  · rw [changes_concat, h.split]
    simp [changeOf]
  · rw [List.append_nil, hmemory]
    exact h.memory
  · intro hne
    exact ⟨s.1.memory, h.memory, by rw [hcontent, h.pending bytes hbytes hne]⟩
  · intro bytes' hbytes'
    rw [hsaving] at hbytes'
    cases hbytes'
  · rw [hsaving]
    trivial
  · exact fun hopened => (h.opened (hopens hopened)).concat _
  · intro hset
    exact exists_mem_concat.mpr (.inl (h.opens (hinitialized ▸ hset)))
  · intro hset
    rw [hinitialized]
    exact h.setUp ((exists_mem_concat.mp hset).resolve_right id)
  · rw [List.append_nil, hinitialized]
    exact h.initialized
  · intro j
    rw [List.append_nil, ← h.changed j, hstage]
    by_cases hij : i = j
    · by_cases hchanged : stage (eventsOf j log) = .changed
      · simp [hij, hchanged]
      · simp [hij, hchanged]
    · simp [hij]
  · intro j hj
    refine (h.changed j).mp fun hunchanged => ?_
    rw [hstage, hunchanged] at hj
    simp at hj
  · rw [List.append_nil]
    exact h.own
  · rw [List.append_nil]
    exact h.nodup
  · exact forall_mem_concat h.fails fun _ herror => by cases herror

/-- An effect on files is quiet, unless it gives the file its new content. -/
theorem quiet_file {e : FileEffect MemoryFile} {reply : Except JsError e.Reply}
    (h : ¬ Renames ⟨.file e, reply⟩) : Quiet ⟨.file e, reply⟩ := by
  refine ⟨rfl, fun t => ?_, id, h⟩
  cases e with
  | mkdir => rfl
  | read name => rfl
  | create name => rfl
  | put file position byte => rfl
  | rename old new =>
    cases reply with
    | ok _ => exact (h trivial).elim
    | error error => rfl
  | unlink name => rfl

/-- **One step** of a call that is alone keeps the invariant. -/
theorem KeptSoFar.step {e : PersistedEffect} {reply : Except JsError e.Reply}
    (h : KeptSoFar oddScores calls log s base saved unsaved)
    (hown : CallAwaits (calls i) (eventsOf i log) e) (hawaits : s.2.Awaits e) (hok : Alone s e)
    (hstep : savingSections.tracked (persistedEnv oddScores) s e reply s') :
    ∃ base saved unsaved, KeptSoFar oddScores calls (log ++ [(i, ⟨e, reply⟩)]) s' base saved unsaved := by
  obtain ⟨memory', saving'⟩ := s'
  obtain ⟨henv, rfl : saving' = _⟩ := hstep
  have hmem : ∀ {event}, event ∈ eventsOf i log → (i, event) ∈ log := mem_of_mem_eventsOf
  cases e with
  | isInitialized =>
    obtain ⟨rfl, rfl⟩ := henv
    exact ⟨base, saved, unsaved, h.quiet ⟨rfl, fun _ => rfl, id, id⟩ rfl rfl rfl (.inl rfl) h.holds id
      fun _ herror => nomatch herror⟩
  | load data =>
    rw [persistedEnv] at henv
    split at henv
    · rename_i m hread
      obtain ⟨rfl, rfl⟩ := henv
      exact ⟨m, [], [], h.reopen hok rfl (fun _ => rfl) id (fun _ => id) rfl rfl h.holds
        (.inr ⟨i, data, List.mem_append_left _ (hmem hown.2),
          List.mem_append_right _ (List.mem_singleton_self _), hread⟩)⟩
    · rename_i error hread
      obtain ⟨rfl, rfl⟩ := henv
      exact ⟨base, saved, unsaved, h.quiet ⟨rfl, fun _ => rfl, id, id⟩ rfl rfl rfl (.inl rfl) h.holds
        (fun hset => hset.elim) fun _ herror => herror.elim⟩
  | startFresh now =>
    obtain ⟨rfl, rfl⟩ := henv
    exact ⟨.fresh now, [], [], h.reopen hok.1 rfl (fun _ => rfl) id (fun _ herror => nomatch herror) rfl rfl
      trivial (.inl ⟨i, now, _, List.mem_append_right _ (List.mem_singleton_self _), rfl⟩)⟩
  | setInitialized =>
    obtain ⟨rfl, rfl⟩ := henv
    obtain ⟨event, hevent, hopens⟩ := hown.2
    exact ⟨base, saved, unsaved, h.initialize ⟨_, hmem hevent, hopens⟩ rfl rfl rfl rfl⟩
  | change call =>
    obtain ⟨hcall, hunchanged, event, hevent, hsetUp⟩ := hown.2
    rw [persistedEnv] at henv
    split at henv
    · rename_i m hchange
      obtain ⟨rfl, rfl⟩ := henv
      exact ⟨base, saved, unsaved ++ [(i, call)], h.change hcall hunchanged
        (h.setUp ⟨_, hmem hevent, hsetUp⟩) hchange rfl rfl rfl rfl rfl⟩
    · rename_i error hchange
      obtain ⟨rfl, rfl⟩ := henv
      refine ⟨base, saved, unsaved, h.quiet ⟨rfl, fun _ => rfl, id, id⟩ rfl rfl rfl (.inl rfl) h.holds
        (fun hset => hset.elim) fun error' herror => ?_⟩
      rw [← Except.error.inj herror, StoredMemory.change_error hchange]
      decide
  | file e =>
    obtain ⟨disk, hanswers, rfl⟩ := henv
    have hfile := file_step h.holds hawaits hanswers
    by_cases hrenames : Renames ⟨.file e, reply⟩
    · obtain ⟨bytes, hbytes, hcontent⟩ := hfile.replaced hrenames
      cases e with
      | rename old new =>
        cases reply with
        | ok _ => exact ⟨base, saved ++ unsaved, [], h.rename hbytes hcontent rfl rfl rfl⟩
        | error error => exact hrenames.elim
      | mkdir => exact hrenames.elim
      | read name => exact hrenames.elim
      | create name => exact hrenames.elim
      | put file position byte => exact hrenames.elim
      | unlink name => exact hrenames.elim
    · exact ⟨base, saved, unsaved, h.quiet (quiet_file hrenames) rfl rfl (hfile.same hrenames) hfile.pending
        hfile.holds (fun hset => hset.elim) hfile.fails⟩

/-! ## Runs -/

variable {disk : Disk MemoryFile} {now : ι → ℤ}
  {c : PersistedPool ι}

/-- What a call awaits, and what it ends in. -/
theorem persistedCall_obeys (now : ℤ) (call? : Option MemoryCall) :
    (persistedCall now call?).Obeys (CallAwaits call?) (fun past r => match r with
      | .ok _ => call?.isSome = true → stage past = .saved
      | .error error => ∃ event ∈ past, FailsWith error event) [] := by
  cases call? with
  | some call =>
    refine mutate_obeys.imp fun past r h => ?_
    cases r with
    | ok _ => exact fun _ => h
    | error error => exact h
  | none =>
    refine (init_obeys rfl rfl).imp fun past r h => ?_
    cases r with
    | ok _ => exact fun hsome => nomatch hsome
    | error error => exact h.2

/-- What awaits within a section, or belongs to none. -/
theorem awaits_of_apart {s : Saving} {e : PersistedEffect} (h : s.Awaits e ∨ e.apart) : s.Awaits e := by
  refine h.elim id fun hapart => ?_
  cases e with
  | file e =>
    cases e with
    | mkdir => trivial
    | read name => trivial
    | create name => exact hapart.elim
    | put file position byte => exact hapart.elim
    | rename old new => exact hapart.elim
    | unlink name => exact hapart.elim
  | startFresh now => exact hapart.elim
  | change call => exact hapart.elim
  | isInitialized => trivial
  | load data => trivial
  | setInitialized => trivial

theorem alone_excluded : savingSections.Excluded Alone := by
  intro s e hok hbegins
  cases e with
  | startFresh now => exact hok.2
  | change call => exact hok
  | file e => exact hbegins.elim
  | isInitialized => exact hbegins.elim
  | load data => exact hbegins.elim
  | setInitialized => exact hbegins.elim

/-- The invariant holds in every run of calls that are alone. -/
theorem keptSoFar_run (h : PersistedRuns oddScores Alone (callPool disk now calls) log c) :
    ∃ base saved unsaved, KeptSoFar oddScores calls log c.state base saved unsaved := by
  have hstart : KeptSoFar oddScores calls [] (callPool disk now calls).state .empty [] [] := by
    refine ⟨rfl, rfl, fun hne => absurd rfl hne, fun _ _ hne => absurd rfl hne, trivial, ?_,
      (fun hset => by cases hset), ?_, fun hne => absurd rfl hne, ?_, ?_, ?_, List.nodup_nil, ?_⟩
    · rintro ⟨entry, hmem, -⟩
      cases hmem
    · rintro ⟨entry, hmem, -⟩
      cases hmem
    · intro i
      simp [stage, eventsOf]
    · intro i hi
      simp [stage, eventsOf] at hi
    · exact fun entry hmem => by cases hmem
    · exact fun entry hmem => by cases hmem
  have hkeep : ∀ log s i e reply s',
      (∃ base saved unsaved, KeptSoFar oddScores calls log s base saved unsaved) →
      CallAwaits (calls i) (eventsOf i log) e → (s.2.Awaits e ∨ e.apart) → Alone s e →
      savingSections.tracked (persistedEnv oddScores) s e reply s' →
      ∃ base saved unsaved, KeptSoFar oddScores calls (log ++ [(i, ⟨e, reply⟩)]) s' base saved unsaved := by
    rintro log s i e reply s' ⟨base, saved, unsaved, hkept⟩ hown hawaits hok hstep
    exact hkept.step hown (awaits_of_apart hawaits) hok hstep
  have hawaits : ∀ i past e, CallAwaits (calls i) past e → savingSections.awaits (savingSections.progress past) e :=
    fun i past e hawaits => hawaits.1
  exact Sections.invariant alone_excluded hawaits
    (fun i => (persistedCall_obeys (now i) (calls i)).steps) hkeep ⟨_, _, _, hstart⟩ h

/-- **No write is lost** in any run of calls that are alone where it matters. -/
theorem no_write_lost (h : PersistedRuns oddScores Alone (callPool disk now calls) log c) :
    KeepsWrites oddScores calls log c := by
  obtain ⟨base, saved, unsaved, hkept⟩ := keptSoFar_run h
  have hends : ∀ {i r}, c.procs i = .done r → _ := fun {i r} hdone =>
    h.ended (persistedCall_obeys (now i) (calls i)).ends hdone
  refine ⟨⟨base, saved, unsaved, hkept.split, hkept.nodup, ?_, hkept.memory, hkept.file, ?_⟩, ?_⟩
  · exact fun hne => hkept.opened (hkept.opens (hkept.initialized hne))
  · intro i call hcall hdone
    have hsaved := hends hdone (by rw [hcall]; rfl)
    obtain ⟨⟨j, call'⟩, hmem, rfl⟩ := List.mem_map.mp (hkept.done i hsaved)
    have hcall' := hkept.own _ (List.mem_append_left _ hmem)
    rw [hcall] at hcall'
    rw [Option.some.inj hcall']
    exact hmem
  · intro i error hdone
    obtain ⟨event, hmem, hevent⟩ := hends hdone
    exact hkept.fails _ (mem_of_mem_eventsOf hmem) error hevent

/-! ## Examples -/

/-- What is left of `persist` when a part of `writeFile` is left. -/
def persistAfter (p : PersistedProc Unit) : PersistedProc Unit :=
  Proc.catchWith (do
    p
    fileEffect (.rename .temporary .database)) PersistedAgentMemory.giveUp

/-- Something goes on after bytes are put. -/
def GoesOn (file : ℕ) (k : PersistedProc Unit → PersistedProc Unit) : Prop :=
  ∀ position byte rest, k (PersistedAgentMemory.putBytes file position (byte :: rest)) =
    .await (.file (.put file position byte)) fun reply => match reply with
      | .ok _ => k (PersistedAgentMemory.putBytes file (position + 1) rest)
      | .error error => k (.done (.error error))

theorem goesOn_persistAfter (file : ℕ) : GoesOn file persistAfter := by
  intro position byte rest
  refine congrArg (Proc.await _) (funext fun reply => ?_)
  cases reply with
  | ok _ => rfl
  | error error => rfl

/-- A run goes on with one effect. -/
theorem runs_effect {ok : PersistedAgentMemory × Saving → PersistedEffect → Prop}
    {c₀ : PersistedPool ι}
    {e : PersistedEffect} {next : Except JsError e.Reply → PersistedProc Unit} {reply : Except JsError e.Reply}
    {memory : PersistedAgentMemory} (h : PersistedRuns oddScores ok c₀ log c)
    (hproc : c.procs i = .await e next) (henv : persistedEnv oddScores c.state.1 e reply memory)
    (hok : ok c.state e) :
    PersistedRuns oddScores ok c₀ (log ++ [(i, ⟨e, reply⟩)])
      ⟨(memory, c.state.2.track ⟨e, reply⟩), Function.update c.procs i (next reply)⟩ :=
  h.step hproc ⟨henv, rfl⟩ hok

/-- A call puts all its bytes. -/
theorem runs_putBytes {ok : PersistedAgentMemory × Saving → PersistedEffect → Prop}
    {c₀ : PersistedPool ι} {file position : ℕ}
    {bytes rest : Bytes} (hok : ∀ s e, ok s (.file e))
    (h : PersistedRuns oddScores ok c₀ log c)
    {k : PersistedProc Unit → PersistedProc Unit} (hk : GoesOn file k)
    (hproc : c.procs i = k (PersistedAgentMemory.putBytes file position rest))
    (hsaving : c.state.2 = .writing bytes file position) (hrest : bytes.drop position = rest)
    (hholds : c.state.2.Holds c.state.1.disk) :
    ∃ log' c', PersistedRuns oddScores ok c₀ log' c' ∧
      c'.procs = Function.update c.procs i (k (pure ())) ∧ changes log' = changes log ∧
      c'.state.1.disk.names = c.state.1.disk.names ∧
      c'.state.2 = .writing bytes file bytes.length ∧ c'.state.2.Holds c'.state.1.disk := by
  induction rest generalizing log c position with
  | nil =>
    have hposition : position = bytes.length := by
      rw [hsaving] at hholds
      have hle := List.drop_eq_nil_iff.mp hrest
      exact le_antisymm hholds.2.2 hle
    refine ⟨log, c, h, ?_, rfl, rfl, by rw [hsaving, hposition], hholds⟩
    rw [PersistedAgentMemory.putBytes] at hproc
    rw [← hproc, Function.update_eq_self]
  | cons byte rest ih =>
    have hget : bytes[position]? = some byte := by
      rw [← List.head?_drop, hrest, List.head?_cons]
    have hput : persistedEnv oddScores c.state.1 (.file (.put file position byte)) (.ok ())
        { c.state.1 with disk := c.state.1.disk.put file position byte } := ⟨_, .inl rfl, rfl⟩
    have hfile := file_step hholds (e := .put file position byte) (by rw [hsaving]; exact ⟨bytes, rfl, hget⟩)
      (.inl rfl : c.state.1.disk.Answers (.put file position byte) (.ok ()) _)
    have htrack : c.state.2.track ⟨.file (.put file position byte), .ok ()⟩ =
        .writing bytes file (position + 1) := by
      rw [hsaving]
      rfl
    have hdrop : bytes.drop (position + 1) = rest := by
      rw [← List.tail_drop, hrest, List.tail_cons]
    rw [hk] at hproc
    obtain ⟨log', c', hruns, hprocs, hchanges, hnames, hsaving', hholds'⟩ :=
      ih (runs_effect h hproc hput (hok _ _)) (Function.update_self _ _ _) htrack hdrop hfile.holds
    refine ⟨log', c', hruns, ?_, ?_, hnames, hsaving', hholds'⟩
    · rw [hprocs, Function.update_idem]
    · rw [hchanges, changes_concat]
      exact List.append_nil _

/-- A disk with a file. -/
def diskWith (bytes : Bytes) : Disk MemoryFile where
  files _ := bytes
  used := 1
  names name := if name = .database then some 0 else none
  bounded := by
    intro name n h
    split at h
    · exact Option.some.inj h ▸ Nat.one_pos
    · exact nomatch h
  distinct := by
    intro a b n ha hb
    split at ha
    · rename_i hadatabase
      split at hb
      · rename_i hbdatabase
        rw [hadatabase, hbdatabase]
      · exact nomatch hb
    · exact nomatch ha

/-- A file that is an empty object. -/
def bareDisk : Disk MemoryFile := diskWith (encodeUtf8 (lit "\x7b\x7d"))

/-- Scores that are not an object of numbers stay as they are. -/
def keepScores (scores : JsData) (_ : Text) (_ : Outcome) : Option JsData := some scores

/-- A call that likes the ocean. -/
def likesOcean : MemoryCall := .trackOutcome (lit "Ocean") .positive { userId := lit "ana" } {}

/-- Two calls that like the ocean. -/
def oceanTwice (_ : Fin 2) : Option MemoryCall := some likesOcean

/-- The memory of the file can be read. -/
theorem exists_bare : ∃ m, StoredMemory.read (encodeUtf8 (lit "\x7b\x7d")) = .ok m := by
  have hparse : parseJson (decodeUtf8 (encodeUtf8 (lit "\x7b\x7d"))) = .ok (.obj []) := by rfl
  rw [StoredMemory.read, hparse]
  exact ⟨_, rfl⟩

theorem exists_change (m : StoredMemory) : ∃ m', m.change keepScores likesOcean = .ok m' := by
  rw [likesOcean, StoredMemory.change]
  split
  · exact ⟨_, rfl⟩
  · exact ⟨_, rfl⟩

/-- What is left of a call when the memory is set up. -/
def changeRest : PersistedProc Unit := do
  let bytes ← effect (.change likesOcean)
  PersistedAgentMemory.persist bytes

/-- The first call opens the memory. -/
theorem runs_opened {ok : PersistedAgentMemory × Saving → PersistedEffect → Prop}
    (hok : ∀ s e, s.1.initialized = false → ¬ e.writesDown → ok s e) :
    ∃ log c m, PersistedRuns keepScores ok
        (callPool bareDisk (fun _ => 0) oceanTwice) log c ∧ c.state = (⟨m, true, bareDisk⟩, .idle) ∧
      c.procs 0 = changeRest ∧ c.procs 1 = PersistedAgentMemory.mutate 0 likesOcean := by
  obtain ⟨m, hread⟩ := exists_bare
  have hinitialized : persistedEnv keepScores ⟨.empty, false, bareDisk⟩ .isInitialized (.ok false)
      ⟨.empty, false, bareDisk⟩ := ⟨rfl, rfl⟩
  have hmkdir : persistedEnv keepScores ⟨.empty, false, bareDisk⟩ (.file .mkdir) (.ok ())
      ⟨.empty, false, bareDisk⟩ := ⟨bareDisk, .inl rfl, rfl⟩
  have hdata : persistedEnv keepScores ⟨.empty, false, bareDisk⟩ (.file (.read .database))
      (.ok (encodeUtf8 (lit "\x7b\x7d"))) ⟨.empty, false, bareDisk⟩ := ⟨bareDisk, .inl rfl, rfl⟩
  have hload : persistedEnv keepScores ⟨.empty, false, bareDisk⟩
      (.load (encodeUtf8 (lit "\x7b\x7d"))) (.ok ()) ⟨m, false, bareDisk⟩ := by
    rw [persistedEnv, hread]
    exact ⟨rfl, rfl⟩
  have hset : persistedEnv keepScores ⟨m, false, bareDisk⟩ .setInitialized (.ok ())
      ⟨m, true, bareDisk⟩ := ⟨rfl, rfl⟩
  have h₀ : PersistedRuns keepScores ok
      (callPool bareDisk (fun _ => 0) oceanTwice) [] (callPool bareDisk (fun _ => 0) oceanTwice) := .start
  have h₁ := runs_effect (i := 0) h₀ rfl hinitialized (hok _ _ rfl id)
  have h₂ := runs_effect (i := 0) h₁ rfl hmkdir (hok _ _ rfl id)
  have h₃ := runs_effect (i := 0) h₂ rfl hdata (hok _ _ rfl id)
  have h₄ := runs_effect (i := 0) h₃ rfl hload (hok _ _ rfl id)
  have h₅ := runs_effect (i := 0) h₄ rfl hset (hok _ _ rfl id)
  exact ⟨_, _, m, h₅, rfl, rfl, rfl⟩

/-- A call changes the memory and writes the temporary file. -/
theorem runs_written {ok : PersistedAgentMemory × Saving → PersistedEffect → Prop}
    {c₀ c : PersistedPool (Fin 2)} {log : PersistedLog (Fin 2)} {i : Fin 2} (hok : ∀ s e, ok s (.file e))
    (h : PersistedRuns keepScores ok c₀ log c) (hproc : c.procs i = changeRest)
    (hchange : ok c.state (.change likesOcean)) :
    ∃ log' c', PersistedRuns keepScores ok c₀ log' c' ∧
      c'.procs = Function.update c.procs i (persistAfter (pure ())) ∧
      c'.state.1.disk.names = (c.state.1.disk.create .temporary).2.names := by
  obtain ⟨⟨⟨m, initialized, disk⟩, saving⟩, procs⟩ := c
  obtain ⟨m', hm'⟩ := exists_change m
  have hchanged : persistedEnv keepScores ⟨m, initialized, disk⟩ (.change likesOcean) (.ok m'.bytes)
      ⟨m', initialized, disk⟩ := by
    rw [persistedEnv, hm']
    exact ⟨rfl, rfl⟩
  have hcreate : persistedEnv keepScores ⟨m', initialized, disk⟩ (.file (.create .temporary))
      (.ok (disk.create .temporary).1) ⟨m', initialized, (disk.create .temporary).2⟩ :=
    ⟨_, .inl rfl, rfl⟩
  have h₁ := runs_effect h hproc hchanged hchange
  have h₂ := runs_effect h₁ (Function.update_self _ _ _) hcreate (hok _ _)
  have hrest : Function.update (Function.update procs i (PersistedAgentMemory.persist m'.bytes)) i
      (persistAfter (PersistedAgentMemory.putBytes (disk.create .temporary).1 0 m'.bytes)) i =
        persistAfter (PersistedAgentMemory.putBytes (disk.create .temporary).1 0 m'.bytes) :=
    Function.update_self _ _ _
  have hholds : (Saving.writing m'.bytes (disk.create .temporary).1 0).Holds (disk.create .temporary).2 :=
    ⟨Disk.names_create, Disk.files_create, Nat.zero_le _⟩
  obtain ⟨log', c', hruns, hprocs, -, hnames, -⟩ :=
    runs_putBytes hok h₂ (goesOn_persistAfter _) hrest rfl rfl hholds
  refine ⟨log', c', hruns, ?_, hnames⟩
  rw [hprocs, Function.update_idem, Function.update_idem]

/-- A call gives the file its new content. -/
theorem runs_renamed {ok : PersistedAgentMemory × Saving → PersistedEffect → Prop}
    {c₀ c : PersistedPool (Fin 2)} {log : PersistedLog (Fin 2)} {i : Fin 2} (hok : ∀ s e, ok s (.file e))
    (h : PersistedRuns keepScores ok c₀ log c) (hproc : c.procs i = persistAfter (pure ()))
    (hname : (c.state.1.disk.names .temporary).isSome = true) :
    ∃ log' c', PersistedRuns keepScores ok c₀ log' c' ∧
      c'.procs = Function.update c.procs i (.done (.ok ())) ∧
      c'.state.1.disk = c.state.1.disk.rename .temporary .database := by
  have hrename : persistedEnv keepScores c.state.1 (.file (.rename .temporary .database)) (.ok ())
      { c.state.1 with disk := c.state.1.disk.rename .temporary .database } := by
    refine ⟨_, .inl ?_, rfl⟩
    rw [Disk.answer, if_pos hname]
  exact ⟨_, _, runs_effect h hproc hrename (hok _ _), rfl, rfl⟩

/-- One call that likes the ocean, and another that has not begun. -/
theorem no_write_lost_ocean : ∃ log c,
    PersistedRuns keepScores Alone (callPool bareDisk (fun _ => 0) oceanTwice) log c ∧
    c.procs 0 = .done (.ok ()) ∧ KeepsWrites keepScores oceanTwice log c := by
  have halone : ∀ (s : PersistedAgentMemory × Saving) e, s.1.initialized = false → ¬ e.writesDown →
      Alone s e := by
    intro s e hinitialized hnot
    cases e with
    | load data => exact hinitialized
    | startFresh now => exact (hnot trivial).elim
    | change call => exact (hnot trivial).elim
    | isInitialized => trivial
    | setInitialized => trivial
    | file e => trivial
  obtain ⟨log₁, c₁, m, h₁, hstate, hfirst, -⟩ := runs_opened halone
  obtain ⟨log₂, c₂, h₂, hprocs₂, hnames⟩ :=
    runs_written (fun _ _ => trivial) h₁ hfirst (by rw [hstate]; rfl)
  have hname : (c₂.state.1.disk.names .temporary).isSome = true := by
    rw [hnames, Disk.names_create]
    rfl
  obtain ⟨log₃, c₃, h₃, hprocs₃, -⟩ :=
    runs_renamed (fun _ _ => trivial) h₂ (by rw [hprocs₂, Function.update_self]) hname
  exact ⟨log₃, c₃, h₃, by rw [hprocs₃, Function.update_self], no_write_lost h₃⟩

/-- **Two calls at a time**: both write the temporary file, the first gives it the name of the file, and the
second does not find it. -/
theorem write_lost : ∃ log c,
    PersistedRuns keepScores (fun _ _ => True)
      (callPool bareDisk (fun _ => 0) oceanTwice) log c ∧
    c.procs 0 = .done (.ok ()) ∧ c.procs 1 = .done (.error enoent) ∧
    ¬ KeepsWrites keepScores oceanTwice log c := by
  obtain ⟨log₁, c₁, m, h₁, hstate₁, hfirst, hsecond⟩ := runs_opened fun _ _ _ _ => trivial
  -- the second call finds the memory set up
  have hset : persistedEnv keepScores c₁.state.1 .isInitialized (.ok true) c₁.state.1 := by
    rw [hstate₁]
    exact ⟨rfl, rfl⟩
  obtain ⟨log₂, c₂, h₂, hprocs₂⟩ : ∃ log c, PersistedRuns keepScores
      (fun _ _ => True) (callPool bareDisk (fun _ => 0) oceanTwice) log c ∧
      c.procs = Function.update c₁.procs 1 changeRest :=
    ⟨_, _, runs_effect h₁ hsecond hset trivial, rfl⟩
  have hfirst₂ : c₂.procs 0 = changeRest := by
    rw [hprocs₂, Function.update_of_ne (by decide), hfirst]
  obtain ⟨log₃, c₃, h₃, hprocs₃, -⟩ :=
    runs_written (fun _ _ => trivial) h₂ hfirst₂ trivial
  have hsecond₃ : c₃.procs 1 = changeRest := by
    rw [hprocs₃, Function.update_of_ne (by decide), hprocs₂, Function.update_self]
  obtain ⟨log₄, c₄, h₄, hprocs₄, hnames₄⟩ :=
    runs_written (fun _ _ => trivial) h₃ hsecond₃ trivial
  have hname₄ : (c₄.state.1.disk.names .temporary).isSome = true := by
    rw [hnames₄, Disk.names_create]
    rfl
  have hfirst₄ : c₄.procs 0 = persistAfter (pure ()) := by
    rw [hprocs₄, Function.update_of_ne (by decide), hprocs₃, Function.update_self]
  obtain ⟨log₅, c₅, h₅, hprocs₅, hdisk₅⟩ := runs_renamed (fun _ _ => trivial) h₄ hfirst₄ hname₄
  -- the temporary file is gone
  have hgone : c₅.state.1.disk.names .temporary = none := by
    rw [hdisk₅]
    rfl
  have hmissing : persistedEnv keepScores c₅.state.1 (.file (.rename .temporary .database))
      (.error enoent) c₅.state.1 := by
    refine ⟨c₅.state.1.disk, .inl ?_, rfl⟩
    rw [Disk.answer, if_neg (by simp [hgone])]
  have hunlink : persistedEnv keepScores c₅.state.1 (.file (.unlink .temporary))
      (.error enoent) c₅.state.1 := by
    refine ⟨c₅.state.1.disk, .inl ?_, rfl⟩
    rw [Disk.answer, if_neg (by simp [hgone])]
  have hsecond₅ : c₅.procs 1 = persistAfter (pure ()) := by
    rw [hprocs₅, Function.update_of_ne (by decide), hprocs₄, Function.update_self]
  obtain ⟨log₇, c₇, h₇, hprocs₇⟩ : ∃ log c, PersistedRuns keepScores
      (fun _ _ => True) (callPool bareDisk (fun _ => 0) oceanTwice) log c ∧
      c.procs = Function.update c₅.procs 1 (.done (.error enoent)) := by
    have h₆ := runs_effect h₅ hsecond₅ hmissing trivial
    have h₇ := runs_effect h₆ (Function.update_self _ _ _) hunlink trivial
    exact ⟨_, _, h₇, Function.update_idem _ _ _⟩
  have hfailed : c₇.procs 1 = .done (.error enoent) := by rw [hprocs₇, Function.update_self]
  refine ⟨log₇, c₇, h₇, ?_, hfailed, fun hkeeps => hkeeps.failed 1 enoent hfailed rfl⟩
  rw [hprocs₇, Function.update_of_ne (by decide), hprocs₅, Function.update_self]

end DreamWeaver.Memory
