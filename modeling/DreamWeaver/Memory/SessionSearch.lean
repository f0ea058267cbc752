import DreamWeaver.Memory.LocalMemories
import DreamWeaver.Memory.RetrieveContract

/-! # Searching the memories of a session

A caller that wants the memories of a session gives the session and a query, and each memory takes the query
in its own way: the memories of a process look for it in the contents, and the database looks for embeddings
near it first. A search shows the session if it returns as many of its memories as the limit allows, and no
others. -/

namespace DreamWeaver.Memory

/-- **A session is shown**: memories of it only, and as many as the limit allows. -/
structure Shows (own : List MemoryRecord) (limit : ℕ) (result : List MemoryRecord) : Prop where
  part : result.Subperm own
  all : result.length = min limit own.length

/-- What is shown of a session with memories is not empty. -/
theorem Shows.ne_nil {own result : List MemoryRecord} {limit : ℕ} (h : Shows own limit result)
    (hpos : 0 < min limit own.length) : result ≠ [] := by
  rintro rfl
  have hall := h.all
  rw [List.length_nil] at hall
  omega

/-- What is made of a part is a part of what is made. -/
theorem subperm_map {α β : Type} (f : α → β) {part whole : List α} (h : part.Subperm whole) :
    (part.map f).Subperm (whole.map f) := by
  obtain ⟨members, hperm, hsub⟩ := h
  exact ⟨members.map f, hperm.map f, hsub.map f⟩

/-! ## Memories of one process -/

/-- The memory has the requested type, and it is of the session if episodes of a session are requested. -/
def Retrieval.ofSession (r : Retrieval) (m : MemoryRecord) : Bool :=
  (r.type.all fun type => decide (m.type = type)) &&
    (!decide (r.type = some .episodic) || (orText r.context.sessionId []).isEmpty ||
      match (m.metadata.getD []).get? (lit "sessionId") with
      | some (.str sessionId) => some sessionId = r.context.sessionId
      | _ => false)

section Local

variable {lower : Text → Text} {r : Retrieval} {memories sorted : List MemoryRecord}

theorem isRetrieved_eq (m : MemoryRecord) : isRetrieved lower r m =
    (r.ofSession m && (decide (r.query = lit "*") || includes (lower m.content) (lower r.query))) := by
  unfold isRetrieved Retrieval.ofSession
  exact (Bool.and_assoc _ _ _).symm

/-- As many of the session's memories as are to be shown have the query in their content. -/
def LocalFinds (lower : Text → Text) (memories : List MemoryRecord) (r : Retrieval) : Prop :=
  min r.limit (memories.countP r.ofSession) ≤ memories.countP (isRetrieved lower r)

/-- **The search in the contents** shows the session exactly when the query is in enough of its memories. -/
theorem shows_take_iff (hsorted : sorted.Perm (memories.filter (isRetrieved lower r))) :
    Shows (memories.filter r.ofSession) r.limit (sorted.take r.limit) ↔ LocalFinds lower memories r := by
  have hsub : (memories.filter (isRetrieved lower r)).Sublist (memories.filter r.ofSession) := by
    have hfilter : memories.filter (isRetrieved lower r) = (memories.filter r.ofSession).filter (isRetrieved lower r) := by
      rw [List.filter_filter]
      refine List.filter_congr fun m _ => ?_
      rw [isRetrieved_eq]
      cases r.ofSession m <;> simp
    rw [hfilter]
    exact List.filter_sublist
  have hlength : (sorted.take r.limit).length = min r.limit (memories.countP (isRetrieved lower r)) := by
    rw [List.length_take, hsorted.length_eq, List.countP_eq_length_filter]
  have hle := hsub.length_le
  rw [← List.countP_eq_length_filter, ← List.countP_eq_length_filter] at hle
  rw [LocalFinds]
  constructor
  · intro h
    have hall := h.all
    rw [hlength, ← List.countP_eq_length_filter] at hall
    omega
  · intro h
    refine ⟨(List.take_sublist _ _).subperm.trans (hsorted.subperm.trans hsub.subperm), ?_⟩
    rw [hlength, ← List.countP_eq_length_filter]
    omega

/-- The query `*` finds every session. -/
theorem localFinds_of_wildcard (hquery : r.query = lit "*") : LocalFinds lower memories r := by
  have hcount : memories.countP (isRetrieved lower r) = memories.countP r.ofSession :=
    List.countP_congr fun m _ => by rw [isRetrieved_eq, hquery]; simp
  rw [LocalFinds, hcount]
  exact min_le_right _ _

end Local

/-! ## Memories in a database -/

/-- The row has the requested type and is of the session. -/
def Retrieval.ofSessionRow (r : Retrieval) (row : MemoryRow) : Bool := r.hasType row && r.hasSession row

namespace MemoryTables

variable (db : MemoryTables) (r : Retrieval)

/-- The keywords are found in as many rows of the session as are to be shown. -/
def KeywordsShow (rows : List MemoryRow) : Prop :=
  r.answered = true ∧ min r.limit (rows.countP r.ofSessionRow) ≤ rows.countP (db.isSelected r)

/-- **The nearest rows are those of the session**: before each row of the type that is of another session there
are as many nearer ones as the limit allows, and with some row of the session enough others of it are as near,
and so few rows besides that there is room for all. -/
structure NearestShow (rows : List MemoryRow) (embedding : Embedding) : Prop where
  session : ∀ row ∈ embedded rows, r.hasType row = true → r.hasSession row = false →
    r.limit ≤ (embedded rows).countP fun y => db.distanceTo embedding y < db.distanceTo embedding row
  all : ∃ row ∈ embedded rows, r.ofSessionRow row = true ∧
    min r.limit (rows.countP r.ofSessionRow) ≤ (embedded rows).countP
      (fun y => r.ofSessionRow y && decide (db.distanceTo embedding y ≤ db.distanceTo embedding row)) ∧
    (embedded rows).countP
      (fun y => !r.ofSessionRow y && decide (db.distanceTo embedding y ≤ db.distanceTo embedding row)) +
        min r.limit (rows.countP r.ofSessionRow) ≤ r.limit

/-- **The rows of a user let the session be found.** -/
def RowsFind (rows : List MemoryRow) : Prop :=
  match if r.query.isEmpty ∨ r.query = lit "*" ∨ !r.rpcAnswered then none else r.embedding with
  | none => db.KeywordsShow r rows
  | some embedding => if embedded rows = [] then db.KeywordsShow r rows else db.NearestShow r rows embedding

section Rows

variable {db r} {rows found : List MemoryRow} {embedding : Embedding}

/-- The records of the session. -/
def sessionRecords (r : Retrieval) (rows : List MemoryRow) : List MemoryRecord :=
  (rows.filter r.ofSessionRow).map MemoryRow.toRecord

theorem length_sessionRecords : (sessionRecords r rows).length = rows.countP r.ofSessionRow := by
  rw [sessionRecords, List.length_map, List.countP_eq_length_filter]

theorem isSelected_of_ofSessionRow (row : MemoryRow) : db.isSelected r row = (r.ofSessionRow row &&
    (r.query.isEmpty || decide (r.query = lit "*") || db.ilike row.content r.query)) := by
  rw [isSelected_eq, Retrieval.ofSessionRow, Bool.and_assoc]

/-- **The search by keywords** shows the session exactly when the keywords are in enough of its rows. -/
theorem searchesKeywords_shows_iff (hpos : 0 < min r.limit (rows.countP r.ofSessionRow)) :
    (∀ result, db.SearchesKeywords rows r result → Shows (sessionRecords r rows) r.limit result) ↔
      db.KeywordsShow r rows := by
  have hsub : (rows.filter (db.isSelected r)).Sublist (rows.filter r.ofSessionRow) := by
    have hfilter : rows.filter (db.isSelected r) = (rows.filter r.ofSessionRow).filter (db.isSelected r) := by
      rw [List.filter_filter]
      refine List.filter_congr fun row _ => ?_
      rw [isSelected_of_ofSessionRow]
      cases r.ofSessionRow row <;> simp
    rw [hfilter]
    exact List.filter_sublist
  have hlength : ∀ sorted : List MemoryRow, sorted.Perm (rows.filter (db.isSelected r)) →
      ((sorted.take r.limit).map MemoryRow.toRecord).length = min r.limit (rows.countP (db.isSelected r)) := by
    intro sorted hperm
    rw [List.length_map, List.length_take, hperm.length_eq, List.countP_eq_length_filter]
  have hle := hsub.length_le
  rw [← List.countP_eq_length_filter, ← List.countP_eq_length_filter] at hle
  constructor
  · intro h
    cases hanswered : r.answered with
    | false =>
      exact absurd rfl ((h [] (searchesKeywords_unanswered hanswered)).ne_nil (by rwa [length_sessionRecords]))
    | true =>
      obtain ⟨sorted, hperm, hsearch⟩ := @exists_searchesKeywords db r rows hanswered
      have hall := (h _ hsearch).all
      rw [hlength sorted hperm, length_sessionRecords] at hall
      exact ⟨hanswered, by omega⟩
  · rintro ⟨hanswered, hcount⟩ result hsearch
    rw [SearchesKeywords, hanswered] at hsearch
    obtain ⟨_, ⟨sorted, hperm, -, rfl⟩, rfl⟩ := hsearch
    refine ⟨?_, ?_⟩
    · exact subperm_map _ ((List.take_sublist _ _).subperm.trans (hperm.subperm.trans hsub.subperm))
    · rw [hlength sorted hperm, length_sessionRecords]
      omega

/-- What is left of the rows that are found shows the session exactly when none is of another session and enough
are of it. -/
theorem typed_shows_iff (hkey : (rows.map MemoryRow.id).Nodup) (hfound : found.Subperm rows)
    (hlimit : found.length ≤ r.limit) :
    Shows (sessionRecords r rows) r.limit ((typed r found).map MemoryRow.toRecord) ↔
      (¬ ∃ row ∈ found, (r.hasType row && !r.hasSession row) = true) ∧
        min r.limit (rows.countP r.ofSessionRow) ≤ found.countP r.ofSessionRow := by
  have htyped : (¬ ∃ row ∈ found, (r.hasType row && !r.hasSession row) = true) →
      typed r found = found.filter r.ofSessionRow := by
    intro hnone
    refine List.filter_congr fun row hrow => ?_
    have hnot : (r.hasType row && !r.hasSession row) = false := Bool.eq_false_iff.mpr fun h => hnone ⟨row, hrow, h⟩
    show r.hasType row = (r.hasType row && r.hasSession row)
    cases htype : r.hasType row with
    | false => rfl
    | true =>
      rw [htype, Bool.true_and, Bool.not_eq_false'] at hnot
      rw [hnot]
      rfl
  constructor
  · intro h
    have hnone : ¬ ∃ row ∈ found, (r.hasType row && !r.hasSession row) = true := by
      rintro ⟨row, hrow, hkind⟩
      rw [Bool.and_eq_true, Bool.not_eq_true'] at hkind
      have hmem : row.toRecord ∈ sessionRecords r rows :=
        h.part.subset (List.mem_map_of_mem (List.mem_filter.mpr ⟨hrow, hkind.1⟩))
      obtain ⟨row', hrow', hrecord⟩ := List.mem_map.mp hmem
      obtain ⟨hmem', hsession⟩ := List.mem_filter.mp hrow'
      -- A key stands in one row only.
      obtain rfl : row' = row :=
        List.inj_on_of_nodup_map hkey hmem' (hfound.subset hrow) (congrArg MemoryRecord.id hrecord)
      rw [Retrieval.ofSessionRow, hkind.2, Bool.and_false] at hsession
      cases hsession
    refine ⟨hnone, ?_⟩
    have hall := h.all
    rw [List.length_map, htyped hnone, length_sessionRecords, ← List.countP_eq_length_filter] at hall
    exact hall.ge
  · rintro ⟨hnone, hcount⟩
    have hsub : ((found.filter r.ofSessionRow).map MemoryRow.toRecord).Subperm (sessionRecords r rows) :=
      subperm_map _ (hfound.filter _)
    rw [htyped hnone]
    refine ⟨hsub, ?_⟩
    have hle := hsub.length_le
    rw [length_sessionRecords, List.length_map, ← List.countP_eq_length_filter] at hle
    have hle' : found.countP r.ofSessionRow ≤ found.length := List.countP_le_length
    rw [List.length_map, ← List.countP_eq_length_filter, length_sessionRecords]
    omega

/-- **The search by embeddings** shows the session exactly when the nearest rows are those of it. -/
theorem nearest_shows_iff (hkey : (rows.map MemoryRow.id).Nodup)
    (hpos : 0 < min r.limit (rows.countP r.ofSessionRow)) :
    (∀ found, db.MatchesMemories rows embedding r.limit found →
      Shows (sessionRecords r rows) r.limit ((typed r found).map MemoryRow.toRecord)) ↔
      db.NearestShow r rows embedding := by
  have hmembers : ∀ found, db.MatchesMemories rows embedding r.limit found →
      found.Subperm rows ∧ found.length ≤ r.limit := by
    rintro found ⟨sorted, hperm, -, rfl⟩
    exact ⟨(List.take_sublist _ _).subperm.trans (hperm.subperm.trans List.filter_sublist.subperm),
      List.length_take_le _ _⟩
  have hall := @Ranking.forall_le_countP_take_iff _ _ _ (fun row => -db.distanceTo embedding row) r.ofSessionRow r.limit
    (embedded rows) _ hpos
  simp only [neg_le_neg_iff] at hall
  constructor
  · intro h
    have hboth := fun found hmatches => (typed_shows_iff hkey (hmembers found hmatches).1
      (hmembers found hmatches).2).mp (h found hmatches)
    exact ⟨forall_session_iff.mp fun found hmatches => (hboth found hmatches).1,
      hall.mp fun sorted hranks => (hboth _ (matchesMemories_iff.mpr ⟨sorted, hranks, rfl⟩)).2⟩
  · intro h found hmatches
    refine (typed_shows_iff hkey (hmembers found hmatches).1 (hmembers found hmatches).2).mpr
      ⟨forall_session_iff.mpr h.session found hmatches, ?_⟩
    obtain ⟨sorted, hranks, rfl⟩ := matchesMemories_iff.mp hmatches
    exact hall.mpr h.all sorted hranks

/-- **A search of the rows of a user** shows the session exactly when the rows let it be found. -/
theorem retrievesFrom_shows_iff (hkey : (rows.map MemoryRow.id).Nodup)
    (hpos : 0 < min r.limit (rows.countP r.ofSessionRow)) :
    (∀ result, db.RetrievesFrom rows r result → Shows (sessionRecords r rows) r.limit result) ↔ db.RowsFind r rows := by
  have hlimit : r.limit ≠ 0 := by omega
  rw [forall_retrievesFrom_iff, RowsFind]
  generalize (if r.query.isEmpty ∨ r.query = lit "*" ∨ !r.rpcAnswered then none else r.embedding) = path
  cases path with
  | none => exact searchesKeywords_shows_iff hpos
  | some embedding =>
    simp only [hlimit, or_false]
    split_ifs
    · exact searchesKeywords_shows_iff hpos
    · exact nearest_shows_iff hkey hpos

/-- The query `*` finds every session where the database answers. -/
theorem rowsFind_of_wildcard (hquery : r.query = lit "*") (hanswered : r.answered = true) : db.RowsFind r rows := by
  have hcount : rows.countP (db.isSelected r) = rows.countP r.ofSessionRow :=
    List.countP_congr fun row _ => by rw [isSelected_of_ofSessionRow, hquery]; simp
  rw [RowsFind, if_pos (Or.inr (Or.inl hquery))]
  exact ⟨hanswered, by rw [hcount]; exact min_le_right _ _⟩

end Rows

end MemoryTables

/-! ## The implementations -/

/-- The implementations of `AgentMemoryPort`. -/
inductive MemoryStore where
  | inMemory (lower : Text → Text) (now : ℤ)
  | persisted (lower : Text → Text) (now : ℤ)
  | supabase (db : MemoryTables)

namespace MemoryStore

/-- The implementation as a memory. -/
def port : MemoryStore → AgentMemory
  | .inMemory lower now => Memory.inMemory lower now
  | .persisted lower now => Memory.persisted lower now
  | .supabase db => Memory.supabase db

/-- The rows of the user of a call. -/
def userRows (db : MemoryTables) (s : MemoryDatabaseRows) (r : Retrieval) : List MemoryRow :=
  match db.user? r.context.userId with
  | none => []
  | some user => MemoryTables.rowsOf s (fun _ => true) user

/-- What is stored of the session of a call. -/
def sessionMemories : (store : MemoryStore) → store.port.State → Retrieval → List MemoryRecord
  | .inMemory _ _, (s : InMemoryAgentMemory), r => s.memories.filter r.ofSession
  | .persisted _ _, (s : MemoryDatabase), r => s.memories.filter r.ofSession
  | .supabase db, (s : MemoryDatabaseRows), r => MemoryTables.sessionRecords r (userRows db s r)

/-- The keys of the rows are keys. -/
def Keyed : (store : MemoryStore) → store.port.State → Prop
  | .inMemory _ _, _ => True
  | .persisted _ _, _ => True
  | .supabase _, (s : MemoryDatabaseRows) => (s.memories.map MemoryRow.id).Nodup

/-- **What is stored lets the session be found** by the query of a call. -/
def Finds : (store : MemoryStore) → store.port.State → Retrieval → Prop
  | .inMemory lower _, (s : InMemoryAgentMemory), r => LocalFinds lower s.memories r
  | .persisted lower _, (s : MemoryDatabase), r => LocalFinds lower s.memories r
  | .supabase db, (s : MemoryDatabaseRows), r => db.RowsFind r (userRows db s r)

variable {store : MemoryStore} {s : store.port.State} {r : Retrieval}

theorem nodup_userRows {db : MemoryTables} {s : MemoryDatabaseRows} (hkey : (s.memories.map MemoryRow.id).Nodup) :
    ((userRows db s r).map MemoryRow.id).Nodup := by
  unfold userRows
  split
  · exact List.nodup_nil
  · exact hkey.sublist ((List.filter_sublist.trans List.filter_sublist).map _)

/-- Without a token a call searches the rows of its user. -/
theorem retrieves_supabase {db : MemoryTables} {s : MemoryDatabaseRows} (hcontext : r.context.accessToken = none)
    {user : Text} (huser : db.user? r.context.userId = some user) (result : List MemoryRecord) :
    db.Retrieves s r result ↔ db.RetrievesFrom (userRows db s r) r result := by
  unfold MemoryTables.Retrieves userRows
  rw [MemoryTables.visible, hcontext, huser]
  rfl

/-- **A session is shown** by every result of a call exactly when what is stored lets it be found. -/
theorem shows_iff (hkeyed : store.Keyed s) (hcontext : r.context.accessToken = none)
    (hpos : 0 < min r.limit (store.sessionMemories s r).length) :
    (∀ result, store.port.retrieves s r result → Shows (store.sessionMemories s r) r.limit result) ↔
      store.Finds s r := by
  cases store with
  | inMemory lower now =>
    refine Iff.trans ⟨fun h => h _ rfl, ?_⟩ (shows_take_iff (List.Perm.refl _))
    rintro h result rfl
    exact h
  | persisted lower now =>
    refine Iff.trans ⟨fun h => h _ rfl, ?_⟩ (shows_take_iff (List.mergeSort_perm _ _))
    rintro h result rfl
    exact h
  | supabase db =>
    cases huser : db.user? r.context.userId with
    | none =>
      have hnone : userRows db s r = [] := by
        unfold userRows
        rw [huser]
      have hpos' : 0 < min r.limit (MemoryTables.sessionRecords r (userRows db s r)).length := hpos
      rw [hnone] at hpos'
      exact absurd hpos' (by simp [MemoryTables.sessionRecords])
    | some user =>
      have hiff := @MemoryTables.retrievesFrom_shows_iff db r _ (nodup_userRows hkeyed)
        (by rw [← MemoryTables.length_sessionRecords]; exact hpos)
      refine Iff.trans ?_ hiff
      exact forall_congr' fun result => imp_congr_left (retrieves_supabase hcontext huser result)

/-- Every call without a token has a result. -/
theorem exists_retrieves (hcontext : r.context.accessToken = none) : ∃ result, store.port.retrieves s r result := by
  cases store with
  | inMemory lower now => exact ⟨_, rfl⟩
  | persisted lower now => exact ⟨_, rfl⟩
  | supabase db =>
    cases huser : db.user? r.context.userId with
    | none =>
      refine ⟨[], ?_⟩
      show MemoryTables.Retrieves db s r []
      unfold MemoryTables.Retrieves
      rw [MemoryTables.visible, hcontext, huser]
      rfl
    | some user =>
      obtain ⟨result, hresult⟩ := @MemoryTables.exists_retrievesFrom db r (userRows db s r)
      exact ⟨result, (retrieves_supabase hcontext huser result).mpr hresult⟩

/-- **The query `*` finds every session** where the database answers. -/
theorem finds_of_wildcard (hquery : r.query = lit "*") (hanswered : r.answered = true) : store.Finds s r := by
  cases store with
  | inMemory lower now => exact localFinds_of_wildcard hquery
  | persisted lower now => exact localFinds_of_wildcard hquery
  | supabase db => exact MemoryTables.rowsFind_of_wildcard hquery hanswered

end MemoryStore

end DreamWeaver.Memory
