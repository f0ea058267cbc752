import DreamWeaver.Events.SupabaseEventBus
import Mathlib.Data.List.Flatten

/-! # Events that are not lost

A batch that the table does not admit is lost as a whole, with all events that were waiting in it. As
long as every published event has a row that fits the table and a key of its own, or is still
remembered, and no insert fails for another reason, every event is in the queue, in a batch or in the
table, exactly once, and what waits is inserted in the end. -/

namespace DreamWeaver.Events

variable {db : Database}

namespace EventSystem

/-- The rows that wait for their insert. -/
def waiting (s : EventSystem db) : List EventRow := s.bus.eventQueue ++ s.inFlight.flatten

/-- All rows: those that wait and those of the table. -/
def rows (s : EventSystem db) : List EventRow := s.waiting ++ s.table.rows

/-- The keys of all rows. -/
def keys (s : EventSystem db) : List (Option (List ℕ)) := s.rows.map EventRow.key

/-- **The condition on what happens**: a published event is still remembered, or it has a row that fits
the table and a key that no row has; no insert fails for another reason than its rows; and no other
process inserts the key of a row that waits here. -/
def Proper (s : EventSystem db) : Action → Prop
  | .publish event => event.id ∈ s.bus.processedEventIds ∨
      ∃ row, event.toRow = some row ∧ db.fits row = true ∧ row.key ∉ s.keys
  | .reply _ fails => fails = false
  | .insertElsewhere row => row.key ∉ s.waiting.map EventRow.key
  | _ => True

/-- Every action of a run meets the condition. -/
def AllProper (s : EventSystem db) : List Action → Prop
  | [] => True
  | action :: actions => s.Proper action ∧ ∀ s', s.step action = some s' → s'.AllProper actions

/-- **The invariant**: the timer is set while the queue waits; every row that waits fits the table, no
key is there twice, and every remembered id is the key of a row. -/
structure Sound (s : EventSystem db) : Prop where
  timer : s.bus.eventQueue ≠ [] → s.bus.flushTimer = true
  fits : ∀ row ∈ s.waiting, db.fits row = true
  distinct : s.keys.Nodup
  known : ∀ id ∈ s.bus.processedEventIds, readUuid id ∈ s.keys

variable {s s' : EventSystem db} {row : EventRow} {event : DomainEvent}

/-! ## What the actions do to the rows -/

/-- Flushing moves rows from the queue to a batch. -/
theorem waiting_flushEvents (s : EventSystem db) : s.flushEvents.waiting.Perm s.waiting := by
  rw [flushEvents]
  cases hqueue : s.bus.eventQueue with
  | nil => simp [waiting, hqueue]
  | cons row queue =>
    simp only [waiting, hqueue, List.nil_append, List.flatten_append, List.flatten_singleton]
    exact List.perm_append_comm

theorem eventQueue_flushEvents (s : EventSystem db) : s.flushEvents.bus.eventQueue = [] := by
  rw [flushEvents]
  cases hqueue : s.bus.eventQueue with
  | nil => exact hqueue
  | cons row queue => rfl

theorem table_flushEvents (s : EventSystem db) : s.flushEvents.table = s.table := by
  rw [flushEvents]
  cases s.bus.eventQueue <;> rfl

theorem processedEventIds_flushEvents (s : EventSystem db) :
    s.flushEvents.bus.processedEventIds = s.bus.processedEventIds := by
  rw [flushEvents]
  cases s.bus.eventQueue <;> rfl

/-- A row that is published waits. -/
theorem waiting_enqueue (s : EventSystem db) (row : EventRow) :
    (s.enqueue row).waiting.Perm (row :: s.waiting) := by
  have hpush : (s.bus.eventQueue ++ [row] ++ s.inFlight.flatten).Perm (row :: s.waiting) := by
    rw [waiting, List.append_assoc]
    exact List.perm_middle
  rw [enqueue]
  dsimp only
  split
  · exact (waiting_flushEvents _).trans hpush
  · exact hpush

theorem timer_enqueue (s : EventSystem db) (row : EventRow) :
    (s.enqueue row).bus.eventQueue ≠ [] → (s.enqueue row).bus.flushTimer = true := by
  rw [enqueue]
  dsimp only
  split
  · exact fun h => absurd (eventQueue_flushEvents _) h
  · exact fun _ => rfl

theorem table_enqueue (s : EventSystem db) (row : EventRow) : (s.enqueue row).table = s.table := by
  rw [enqueue]
  dsimp only
  split
  · exact table_flushEvents _
  · rfl

theorem processedEventIds_enqueue (s : EventSystem db) (row : EventRow) :
    (s.enqueue row).bus.processedEventIds = s.bus.processedEventIds := by
  rw [enqueue]
  dsimp only
  split
  · exact processedEventIds_flushEvents _
  · rfl

/-- What is remembered is the id or was remembered before. -/
theorem mem_remember {id id' : Text} {ids : List Text} (h : id' ∈ remember id ids) :
    id' ∈ ids ∨ id' = id := by
  have hmem : id' ∈ ids ++ [id] := by
    rw [remember] at h
    split at h
    · exact List.mem_of_mem_drop h
    · exact h
  simpa using hmem

/-- The rows of a batch that the table admits are in it. -/
theorem rows_insert {table : DomainEvents db} {batch : List EventRow} (h : table.Admits batch) :
    (table.insert batch).rows = table.rows ++ batch := by
  rw [DomainEvents.insert, dif_pos h]

/-- An insert adds all rows or none. -/
theorem rows_insert_or (table : DomainEvents db) (batch : List EventRow) :
    (table.insert batch).rows = table.rows ++ batch ∨ table.insert batch = table := by
  rw [DomainEvents.insert]
  split
  · exact Or.inl rfl
  · exact Or.inr rfl

/-! ## The invariant -/

theorem mem_keys_of_subset (h : s.rows ⊆ s'.rows) {key : Option (List ℕ)} (hkey : key ∈ s.keys) :
    key ∈ s'.keys := by
  obtain ⟨row, hrow, rfl⟩ := List.mem_map.mp hkey
  exact List.mem_map_of_mem (h hrow)

/-- Rows stay, and one with a key of its own may come. -/
theorem Sound.next (h : s.Sound) (added : Option EventRow)
    (hrows : s'.rows.Perm (added.toList ++ s.rows)) (hadded : ∀ row ∈ added, row.key ∉ s.keys)
    (hfits : ∀ row ∈ s'.waiting, db.fits row = true)
    (htimer : s'.bus.eventQueue ≠ [] → s'.bus.flushTimer = true)
    (hknown : ∀ id ∈ s'.bus.processedEventIds,
      id ∈ s.bus.processedEventIds ∨ readUuid id ∈ s'.keys) :
    s'.Sound ∧ s.rows ⊆ s'.rows := by
  have hsubset : s.rows ⊆ s'.rows := by
    intro row hrow
    exact hrows.mem_iff.mpr (List.mem_append_right _ hrow)
  refine ⟨⟨htimer, hfits, ?_, ?_⟩, hsubset⟩
  · rw [keys, (hrows.map EventRow.key).nodup_iff, List.map_append]
    cases added with
    | none => exact h.distinct
    | some row => exact List.nodup_cons.mpr ⟨hadded row rfl, h.distinct⟩
  · intro id hid
    rcases hknown id hid with hid | hid
    · exact mem_keys_of_subset hsubset (h.known id hid)
    · exact hid

/-- Publishing an event. -/
theorem Sound.publish (h : s.Sound) (hproper : s.Proper (.publish event)) :
    ((s.publish event).Sound ∧ s.rows ⊆ (s.publish event).rows) ∧
      readUuid event.id ∈ (s.publish event).keys ∧
      (event.id ∉ s.bus.processedEventIds →
        ∃ row ∈ (s.publish event).rows, event.toRow = some row) := by
  rw [EventSystem.publish]
  by_cases hprocessed : event.id ∈ s.bus.processedEventIds
  · rw [if_pos hprocessed]
    exact ⟨⟨h, List.Subset.refl _⟩, h.known _ hprocessed, fun hnew => absurd hprocessed hnew⟩
  · rw [if_neg hprocessed]
    obtain ⟨row, hrow, hfits, hkey⟩ := hproper.resolve_left hprocessed
    have hid : row.key = readUuid event.id := by
      obtain ⟨timestamp, -, rfl⟩ := Option.map_eq_some_iff.mp hrow
      rfl
    rw [hrow]
    dsimp only
    -- remembering the id leaves the rows alone
    generalize hs₁ : ({ s with bus := { s.bus with
      processedEventIds := remember event.id s.bus.processedEventIds } } : EventSystem db) = s₁
    have hwaiting₁ : s₁.waiting = s.waiting := by rw [← hs₁]; rfl
    have htable₁ : s₁.table = s.table := by rw [← hs₁]
    have hwaiting := waiting_enqueue s₁ row
    rw [hwaiting₁] at hwaiting
    have hrows : (s₁.enqueue row).rows.Perm ((some row).toList ++ s.rows) := by
      rw [rows, table_enqueue, htable₁]
      exact hwaiting.append_right s.table.rows
    have hmem : row ∈ (s₁.enqueue row).rows :=
      hrows.mem_iff.mpr (List.mem_cons_self)
    have hkeys : readUuid event.id ∈ (s₁.enqueue row).keys := by
      rw [← hid]
      exact List.mem_map_of_mem hmem
    refine ⟨h.next (some row) hrows ?_ ?_ (timer_enqueue s₁ row) ?_, hkeys, fun _ => ⟨row, hmem, rfl⟩⟩
    · intro row' hrow'
      obtain rfl := Option.some.inj hrow'
      exact hkey
    · intro row' hrow'
      rcases List.mem_cons.mp (hwaiting.mem_iff.mp hrow') with rfl | hrow'
      · exact hfits
      · exact h.fits row' hrow'
    · intro id hmem
      rw [processedEventIds_enqueue, ← hs₁] at hmem
      rcases mem_remember hmem with hmem | rfl
      · exact Or.inl hmem
      · exact Or.inr hkeys

/-- The timer fires. -/
theorem Sound.flushEvents (h : s.Sound) : s.flushEvents.Sound ∧ s.rows ⊆ s.flushEvents.rows := by
  have hwaiting := waiting_flushEvents s
  refine h.next none ?_ (by simp) ?_ ?_ ?_
  · rw [rows, table_flushEvents]
    exact hwaiting.append_right s.table.rows
  · exact fun row hrow => h.fits row (hwaiting.mem_iff.mp hrow)
  · exact fun hqueue => absurd (eventQueue_flushEvents s) hqueue
  · exact fun id hid => Or.inl (by rwa [processedEventIds_flushEvents] at hid)

variable {k : ℕ} {batch : List EventRow}

/-- The batches without the one at a position. -/
theorem flatten_eraseIdx {batches : List (List EventRow)} (h : batches[k]? = some batch) :
    batches.flatten.Perm (batch ++ (batches.eraseIdx k).flatten) := by
  obtain ⟨hk, rfl⟩ := List.getElem?_eq_some_iff.mp h
  have hperm := (List.getElem_cons_eraseIdx_perm hk).symm.flatten
  rwa [List.flatten_cons] at hperm

/-- **A batch that waits is admitted.** -/
theorem Sound.admits (h : s.Sound) (hbatch : s.inFlight[k]? = some batch) :
    s.table.Admits batch := by
  have hflatten := flatten_eraseIdx hbatch
  constructor
  · intro row hrow
    apply h.fits row
    exact List.mem_append_right _ (hflatten.mem_iff.mpr (List.mem_append_left _ hrow))
  · have hkeys := h.distinct
    have hperm : s.rows.Perm (s.table.rows ++ batch ++
        (s.bus.eventQueue ++ (s.inFlight.eraseIdx k).flatten)) := by
      rw [rows, waiting]
      refine ((hflatten.append_left _).append_right _).trans ?_
      rw [← Multiset.coe_eq_coe]
      simp only [← Multiset.coe_add]
      abel
    rw [keys, (hperm.map EventRow.key).nodup_iff, List.map_append] at hkeys
    exact (List.nodup_append.mp hkeys).1

/-- The insert of a batch is answered. -/
theorem Sound.reply (h : s.Sound) (hbatch : s.inFlight[k]? = some batch) :
    ((s.reply k batch false).Sound ∧ s.rows ⊆ (s.reply k batch false).rows) ∧
      (s.reply k batch false).table.rows = s.table.rows ++ batch := by
  have hinsert : (s.reply k batch false).table.rows = s.table.rows ++ batch :=
    rows_insert (h.admits hbatch)
  have hflatten := flatten_eraseIdx hbatch
  refine ⟨h.next none ?_ (by simp) ?_ h.timer (fun id hid => Or.inl hid), hinsert⟩
  · rw [rows, hinsert, rows, waiting, waiting, EventSystem.reply]
    refine List.Perm.trans ?_ ((hflatten.append_left _).append_right _).symm
    rw [← Multiset.coe_eq_coe]
    simp only [← Multiset.coe_add]
    abel
  · intro row hrow
    apply h.fits row
    rcases List.mem_append.mp hrow with hrow | hrow
    · exact List.mem_append_left _ hrow
    · exact List.mem_append_right _ (hflatten.mem_iff.mpr (List.mem_append_right _ hrow))

/-- Another process inserts a row. -/
theorem Sound.insertElsewhere (h : s.Sound) (hrow : row.key ∉ s.waiting.map EventRow.key) :
    ({ s with table := s.table.insert [row] } : EventSystem db).Sound ∧
      s.rows ⊆ ({ s with table := s.table.insert [row] } : EventSystem db).rows := by
  by_cases hadmits : s.table.Admits [row]
  · have hrows : ({ s with table := s.table.insert [row] } : EventSystem db).rows.Perm
        ((some row).toList ++ s.rows) := by
      show (s.waiting ++ (s.table.insert [row]).rows).Perm _
      rw [rows_insert hadmits, ← List.append_assoc]
      exact List.perm_append_comm
    have hkey : row.key ∉ s.keys := by
      rw [keys, rows, List.map_append, List.mem_append, not_or]
      refine ⟨hrow, fun hmem => ?_⟩
      have hdistinct := hadmits.2
      rw [List.map_append] at hdistinct
      exact (List.nodup_append.mp hdistinct).2.2 _ hmem _ (by simp) rfl
    refine h.next (some row) hrows ?_ h.fits h.timer fun id hid => Or.inl hid
    intro row' hrow'
    obtain rfl := Option.some.inj hrow'
    exact hkey
  · rw [show s.table.insert [row] = s.table by rw [DomainEvents.insert, dif_neg hadmits]]
    exact ⟨h, List.Subset.refl _⟩

/-- The bus hears of a row. -/
theorem Sound.notice {id : Text} (h : s.Sound)
    (hid : readUuid id ∈ s.table.rows.map EventRow.key) :
    ({ s with bus := { s.bus with processedEventIds := s.bus.processedEventIds ++ [id] } } :
      EventSystem db).Sound where
  timer := h.timer
  fits := h.fits
  distinct := h.distinct
  known id' hid' := by
    rcases List.mem_append.mp hid' with hid' | hid'
    · exact h.known id' hid'
    · rw [List.mem_singleton.mp hid']
      obtain ⟨row, hrow, hkey⟩ := List.mem_map.mp hid
      rw [← hkey]
      exact List.mem_map_of_mem (List.mem_append_right _ hrow)

/-- **One action** that meets the condition keeps the invariant and every row. -/
theorem Sound.step {action : Action} (h : s.Sound) (hproper : s.Proper action)
    (hstep : s.step action = some s') : s'.Sound ∧ s.rows ⊆ s'.rows := by
  cases action with
  | publish event =>
    cases hstep
    exact (h.publish hproper).1
  | timer =>
    rw [EventSystem.step] at hstep
    split at hstep
    · cases hstep
      exact h.flushEvents
    · cases hstep
  | reply k fails =>
    obtain ⟨batch, hbatch, rfl⟩ := Option.map_eq_some_iff.mp hstep
    obtain rfl : fails = false := hproper
    exact (h.reply hbatch).1
  | insertElsewhere row =>
    cases hstep
    exact h.insertElsewhere hproper
  | notice id =>
    rw [EventSystem.step] at hstep
    split at hstep
    · rename_i hid
      split at hstep
      · cases hstep
        exact ⟨h, List.Subset.refl _⟩
      · cases hstep
        exact ⟨h.notice hid, List.Subset.refl _⟩
    · cases hstep

/-- Any actions that meet the condition do. -/
theorem Sound.run {actions : List Action} (h : s.Sound) (hproper : s.AllProper actions)
    (hrun : s.run actions = some s') : s'.Sound ∧ s.rows ⊆ s'.rows := by
  induction actions generalizing s with
  | nil =>
    cases hrun
    exact ⟨h, List.Subset.refl _⟩
  | cons action actions ih =>
    obtain ⟨s₁, hstep, hrest⟩ := Option.bind_eq_some_iff.mp hrun
    obtain ⟨hsound, hsubset⟩ := h.step hproper.1 hstep
    obtain ⟨hsound', hsubset'⟩ := ih hsound (hproper.2 s₁ hstep) hrest
    exact ⟨hsound', List.Subset.trans hsubset hsubset'⟩

/-- A run in two parts. -/
theorem run_append {before after : List Action} (hrun : s.run (before ++ after) = some s') :
    ∃ s₁, s.run before = some s₁ ∧ s₁.run after = some s' ∧
      (s.AllProper (before ++ after) → s.AllProper before ∧ s₁.AllProper after) := by
  induction before generalizing s with
  | nil => exact ⟨s, rfl, hrun, fun hproper => ⟨trivial, hproper⟩⟩
  | cons action before ih =>
    obtain ⟨s₂, hstep, hrest⟩ := Option.bind_eq_some_iff.mp hrun
    obtain ⟨s₁, hbefore, hafter, hparts⟩ := ih hrest
    refine ⟨s₁, Option.bind_eq_some_iff.mpr ⟨s₂, hstep, hbefore⟩, hafter, fun hproper => ?_⟩
    have hproper₂ := hparts (hproper.2 s₂ hstep)
    refine ⟨⟨hproper.1, fun s'' hstep'' => ?_⟩, hproper₂.2⟩
    obtain rfl : s₂ = s'' := Option.some.inj (hstep.symm.trans hstep'')
    exact hproper₂.1

/-! ## What waits is inserted -/

/-- The timer fires, and the inserts are answered one after the other. -/
def settling (s : EventSystem db) : List Action :=
  if s.bus.flushTimer then .timer :: List.replicate s.flushEvents.inFlight.length (.reply 0 false)
  else List.replicate s.inFlight.length (.reply 0 false)

/-- All inserts are answered. -/
theorem Sound.answered (h : s.Sound) (hqueue : s.bus.eventQueue = []) :
    ∃ s', s.run (List.replicate s.inFlight.length (.reply 0 false)) = some s' ∧
      s'.waiting = [] ∧ s'.Sound ∧ s.rows ⊆ s'.rows := by
  generalize hn : s.inFlight.length = n
  induction n generalizing s with
  | zero =>
    have hnone : s.inFlight = [] := List.length_eq_zero_iff.mp hn
    exact ⟨s, rfl, by rw [waiting, hqueue, hnone]; rfl, h, List.Subset.refl _⟩
  | succ n ih =>
    obtain ⟨batch, rest, hbatches⟩ := List.exists_cons_of_length_eq_add_one hn
    have hbatch : s.inFlight[0]? = some batch := by rw [hbatches]; rfl
    obtain ⟨⟨hsound, hsubset⟩, -⟩ := h.reply hbatch
    have hlength : (s.reply 0 batch false).inFlight.length = n := by
      rw [EventSystem.reply, hbatches, List.eraseIdx_cons_zero]
      rw [hbatches, List.length_cons] at hn
      show rest.length = n
      omega
    obtain ⟨s', hrun, hwaiting, hsound', hsubset'⟩ := ih hsound hqueue hlength
    refine ⟨s', ?_, hwaiting, hsound', List.Subset.trans hsubset hsubset'⟩
    rw [List.replicate_succ, EventSystem.run, EventSystem.step, hbatch]
    exact hrun

theorem Sound.settles (h : s.Sound) :
    ∃ s', s.run s.settling = some s' ∧ s'.waiting = [] ∧ s'.Sound ∧ s.rows ⊆ s'.rows := by
  rw [settling]
  by_cases htimer : s.bus.flushTimer = true
  · rw [if_pos htimer]
    obtain ⟨hsound, hsubset⟩ := h.flushEvents
    obtain ⟨s', hrun, hwaiting, hsound', hsubset'⟩ := hsound.answered (eventQueue_flushEvents s)
    refine ⟨s', ?_, hwaiting, hsound', List.Subset.trans hsubset hsubset'⟩
    rw [EventSystem.run, EventSystem.step, if_pos htimer]
    exact hrun
  · rw [if_neg htimer]
    -- without the timer nothing is in the queue
    have hqueue : s.bus.eventQueue = [] := by
      by_contra hqueue
      exact htimer (h.timer hqueue)
    exact h.answered hqueue

end EventSystem

/-! ## The result -/

/-- The bus before its first event, on a table. -/
def EventSystem.initial (table : DomainEvents db) : EventSystem db := ⟨{}, [], table⟩

theorem sound_initial (table : DomainEvents db) : (EventSystem.initial table).Sound where
  timer h := absurd rfl h
  fits row h := by cases h
  distinct := table.distinct
  known id h := by cases h

/-- Every event that was published in a run is in the table exactly once as soon as nothing waits, and
until then it is in the queue, with the timer set, in a batch, or in the table. -/
structure Persisted (table : DomainEvents db) (actions : List Action) (s : EventSystem db) :
    Prop where
  /-- An event has one row; it is its own if the id was new. -/
  once : ∀ before event after s₁, actions = before ++ .publish event :: after →
    (EventSystem.initial table).run before = some s₁ →
      s.keys.count (readUuid event.id) = 1 ∧
        (event.id ∉ s₁.bus.processedEventIds → ∃ row ∈ s.rows, event.toRow = some row)
  timer : s.bus.eventQueue ≠ [] → s.bus.flushTimer = true
  /-- What waits is inserted when the timer has fired and the inserts are answered. -/
  settles : ∃ s', s.run s.settling = some s' ∧ s'.waiting = [] ∧ ∀ row ∈ s.rows,
    row ∈ s'.table.rows ∧ (s'.table.rows.map EventRow.key).count row.key = 1

/-- **No event is lost**: in every run whose actions meet the condition. -/
theorem events_persisted (table : DomainEvents db) {actions : List Action} {s : EventSystem db}
    (hrun : (EventSystem.initial table).run actions = some s)
    (hproper : (EventSystem.initial table).AllProper actions) : Persisted table actions s where
  once before event after s₁ hactions hbefore := by
    subst hactions
    obtain ⟨s₂, hbefore₂, hrest, hparts⟩ := EventSystem.run_append hrun
    obtain rfl : s₁ = s₂ := Option.some.inj (hbefore.symm.trans hbefore₂)
    obtain ⟨hproper₁, hpublish, hproper₂⟩ := hparts hproper
    have hsound₁ := ((sound_initial table).run hproper₁ hbefore).1
    obtain ⟨⟨hsound, -⟩, hkey, hrow⟩ := hsound₁.publish hpublish
    -- what was there after the event was published is there at the end
    obtain ⟨hsound', hsubset⟩ := hsound.run (hproper₂ _ rfl) hrest
    have hmem := EventSystem.mem_keys_of_subset hsubset hkey
    refine ⟨List.count_eq_one_of_mem hsound'.distinct hmem, fun hnew => ?_⟩
    obtain ⟨row, hmem, heq⟩ := hrow hnew
    exact ⟨row, hsubset hmem, heq⟩
  timer := ((sound_initial table).run hproper hrun).1.timer
  settles := by
    obtain ⟨s', hrun', hwaiting, hsound', hsubset⟩ :=
      ((sound_initial table).run hproper hrun).1.settles
    have hrows : s'.rows = s'.table.rows := by rw [EventSystem.rows, hwaiting, List.nil_append]
    refine ⟨s', hrun', hwaiting, fun row hrow => ?_⟩
    have hmem := hsubset hrow
    rw [hrows] at hmem
    have hdistinct := hsound'.distinct
    rw [EventSystem.keys, hrows] at hdistinct
    exact ⟨hmem, List.count_eq_one_of_mem hdistinct (List.mem_map_of_mem hmem)⟩

/-- The id of a user. -/
def ana : Text := lit "7c9e6679-7425-40de-944b-e07fc1f90ae7"

/-- A database with one user that takes every row. -/
def oneUser : Database where
  users user := readUuid ana = some user
  takes _ := true

/-- A table without rows. -/
def emptyTable : DomainEvents oneUser := ⟨[], by simp, by simp⟩

/-- The event that a story is complete. -/
def completion : DomainEvent where
  id := lit "0f8fad5b-d9cb-469f-a165-70867728950e"
  requestId := lit "request-1"
  traceId := none
  type := lit "STORY_GENERATION_COMPLETED"
  payload := .obj [(lit "userId", .str ana), (lit "storyId", .str (lit "story-1"))]
  timestamp := some ⟨0, Time.inRange_zero⟩

/-- The event of its first beat, with the id that `GenerateStoryUseCase` gives it. -/
def firstBeat : DomainEvent where
  id := lit "story-1_beat_0"
  requestId := lit "request-1"
  traceId := none
  type := lit "STORY_BEAT_COMPLETED"
  payload := .obj [(lit "userId", .str ana), (lit "storyId", .str (lit "story-1")),
    (lit "beatIndex", .num (.finite 0)), (lit "totalBeats", .num (.finite 1))]
  timestamp := some ⟨0, Time.inRange_zero⟩

theorem events_persisted_completion : ∃ s,
    (EventSystem.initial emptyTable).run [.publish completion, .timer, .reply 0 false] = some s ∧
      Persisted emptyTable [.publish completion, .timer, .reply 0 false] s := by
  refine ⟨_, rfl, events_persisted emptyTable rfl ⟨?_, fun s₁ h₁ => ⟨trivial, fun s₂ h₂ =>
    ⟨rfl, fun _ _ => trivial⟩⟩⟩⟩
  right
  exact ⟨_, rfl, by decide +kernel, by decide +kernel⟩

/-- A beat in the same batch loses the completion of the story, which is stored without it. -/
theorem beat_loses_completion :
    ((EventSystem.initial emptyTable).run
        [.publish firstBeat, .publish completion, .timer, .reply 0 false]).map
          (fun s => (s.waiting.length, s.table.rows.length)) = some (0, 0) ∧
      ((EventSystem.initial emptyTable).run [.publish completion, .timer, .reply 0 false]).map
        (fun s => (s.waiting.length, s.table.rows.map EventRow.key)) =
          some (0, [readUuid completion.id]) := by
  constructor <;> decide +kernel

end DreamWeaver.Events
