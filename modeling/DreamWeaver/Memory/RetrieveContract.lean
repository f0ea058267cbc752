import DreamWeaver.Foundations.Ranking
import DreamWeaver.Memory.SupabaseAgentMemory

/-! # What a search of the database owes

`SupabaseAgentMemory.retrieve` searches by embeddings first: `match_memories` takes the nearest rows of the user,
and what is of another type is dropped from them afterwards. The search by keywords, to which it falls back,
has all conditions before its limit. -/

namespace DreamWeaver.Memory

open Ranking (Ranks)

/-! ## The contract -/

/-- The row has the requested type. -/
def Retrieval.hasType (r : Retrieval) (row : MemoryRow) : Bool := r.type.all fun type => decide (row.type = type)

/-- The row is of the session, if episodes of a session are requested. -/
def Retrieval.hasSession (r : Retrieval) (row : MemoryRow) : Bool :=
  !decide (r.type = some .episodic) || (orText r.context.sessionId []).isEmpty ||
    decide (row.sessionId = r.context.sessionId)

namespace MemoryTables

variable (db : MemoryTables) (s : MemoryDatabaseRows) (r : Retrieval)

/-- A stored row of the user, of the type and of the session. -/
structure Wanted (row : MemoryRow) : Prop where
  stored : row ∈ s.memories
  user : db.user? r.context.userId = some row.userId
  type : r.hasType row = true
  session : r.hasSession row = true

/-- A wanted row has the query in its content. -/
def Contains : Prop := ∃ row, db.Wanted s r row ∧ r.query <:+: row.content

/-- **The contract**: records of wanted rows only, at most the limit, and some if the query is in one. -/
structure Contract (result : List MemoryRecord) : Prop where
  records : ∃ rows : List MemoryRow, result = rows.map MemoryRow.toRecord ∧ ∀ row ∈ rows, db.Wanted s r row
  limit : result.length ≤ r.limit
  found : db.Contains s r → result ≠ []

/-! ## When it is kept -/

/-- The search by keywords finds something if it should: it is answered, and a row that the client sees is selected. -/
def KeywordsFind (rows : List MemoryRow) : Prop :=
  db.Contains s r → r.answered = true ∧ 0 < r.limit ∧ ∃ row ∈ rows, db.isSelected r row = true

/-- The rows that have an embedding. -/
def embedded (rows : List MemoryRow) : List MemoryRow := rows.filter fun row => row.embedding.isSome

/-- The distance of a row. -/
def distanceTo (embedding : Embedding) (row : MemoryRow) : ℚ := db.distance (row.embedding.getD []) embedding

/-- **The nearest rows fit**: before each row of the type that is of another session there are as many nearer
ones as the limit allows, and, if something should be found, before some row of the type there are fewer of
other types. -/
structure NearestFit (rows : List MemoryRow) (embedding : Embedding) : Prop where
  session : ∀ row ∈ embedded rows, r.hasType row = true → r.hasSession row = false →
    r.limit ≤ (embedded rows).countP fun y => db.distanceTo embedding y < db.distanceTo embedding row
  found : db.Contains s r → ∃ row ∈ embedded rows, r.hasType row = true ∧
    (embedded rows).countP (fun y => !r.hasType y && db.distanceTo embedding y ≤ db.distanceTo embedding row) < r.limit

/-- **The stored rows suit the search** that is made of them. -/
def Suits : Prop :=
  match db.visible r.context, db.user? r.context.userId with
  | some visible, some user =>
    let rows := rowsOf s visible user
    match if r.query.isEmpty ∨ r.query = lit "*" ∨ !r.rpcAnswered then none else r.embedding with
    | none => db.KeywordsFind s r rows
    | some embedding =>
      if embedded rows = [] ∨ r.limit = 0 then db.KeywordsFind s r rows else db.NearestFit s r rows embedding
  | _, _ => True

section Searches

variable {db s r} {rows : List MemoryRow} {embedding : Embedding}
  (hrows : ∀ row ∈ rows, row ∈ s.memories ∧ db.user? r.context.userId = some row.userId)

theorem isSelected_eq (row : MemoryRow) : db.isSelected r row = (r.hasType row && (r.hasSession row &&
    (r.query.isEmpty || decide (r.query = lit "*") || db.ilike row.content r.query))) := rfl

include hrows in
theorem wanted_of_isSelected {row : MemoryRow} (hmem : row ∈ rows) (h : db.isSelected r row = true) :
    db.Wanted s r row := by
  rw [isSelected_eq, Bool.and_eq_true, Bool.and_eq_true] at h
  exact ⟨(hrows row hmem).1, (hrows row hmem).2, h.1, h.2.1⟩

theorem searchesKeywords_unanswered (hanswered : r.answered = false) : db.SearchesKeywords rows r [] := by
  rw [SearchesKeywords, hanswered]
  rfl

/-- The search by keywords selects rows in some order. -/
theorem exists_searchesKeywords (hanswered : r.answered = true) :
    ∃ sorted : List MemoryRow, sorted.Perm (rows.filter (db.isSelected r)) ∧
      db.SearchesKeywords rows r ((sorted.take r.limit).map MemoryRow.toRecord) := by
  obtain ⟨sorted, hranks, -⟩ := Ranking.exists_ranks (fun row : MemoryRow => (row.createdAt : ℚ)) (fun _ => true)
    (rows.filter (db.isSelected r))
  refine ⟨sorted, hranks.perm, ?_⟩
  rw [SearchesKeywords, hanswered]
  exact ⟨_, ⟨sorted, hranks.perm, hranks.ordered, rfl⟩, rfl⟩

include hrows in
/-- **The search by keywords** keeps the contract exactly when it finds something if it should. -/
theorem searchesKeywords_contract_iff :
    (∀ result, db.SearchesKeywords rows r result → db.Contract s r result) ↔ db.KeywordsFind s r rows := by
  constructor
  · intro h hcontains
    cases hanswered : r.answered with
    | false =>
      exact absurd rfl ((h [] (searchesKeywords_unanswered hanswered)).found hcontains)
    | true =>
      obtain ⟨sorted, hperm, hsearch⟩ := @exists_searchesKeywords db r rows hanswered
      have hne : sorted.take r.limit ≠ [] := by simpa using (h _ hsearch).found hcontains
      obtain ⟨row, hrow⟩ := List.exists_mem_of_ne_nil _ hne
      have hmem := List.mem_filter.mp (hperm.mem_iff.mp (List.mem_of_mem_take hrow))
      refine ⟨rfl, Nat.pos_of_ne_zero fun hzero => hne (by rw [hzero, List.take_zero]), row, hmem⟩
  · intro h result hsearch
    unfold SearchesKeywords at hsearch
    split at hsearch
    · obtain ⟨selected, ⟨sorted, hperm, -, rfl⟩, rfl⟩ := hsearch
      refine ⟨⟨_, rfl, fun row hrow => ?_⟩, ?_, fun hcontains => ?_⟩
      · obtain ⟨hmem, hselected⟩ := List.mem_filter.mp (hperm.mem_iff.mp (List.mem_of_mem_take hrow))
        exact wanted_of_isSelected hrows hmem hselected
      · rw [List.length_map]
        exact List.length_take_le _ _
      · obtain ⟨-, hlimit, row, hmem, hselected⟩ := h hcontains
        have hrow := hperm.mem_iff.mpr (List.mem_filter.mpr ⟨hmem, hselected⟩)
        have hlength := List.length_pos_of_mem hrow
        intro hnil
        have htake := congrArg List.length (List.map_eq_nil_iff.mp hnil)
        rw [List.length_take, List.length_nil] at htake
        omega
    · subst hsearch
      refine ⟨⟨[], rfl, fun row hrow => nomatch hrow⟩, Nat.zero_le _, fun hcontains => ?_⟩
      exact absurd (h hcontains).1 ‹_›

/-- What `match_memories` finds are the first of a ranking. -/
theorem matchesMemories_iff {found : List MemoryRow} : db.MatchesMemories rows embedding r.limit found ↔
    ∃ sorted, Ranks (fun row => -db.distanceTo embedding row) (embedded rows) sorted ∧ found = sorted.take r.limit :=
  ⟨fun ⟨sorted, hperm, hordered, hfound⟩ => ⟨sorted, ⟨hperm, hordered⟩, hfound⟩,
    fun ⟨sorted, hranks, hfound⟩ => ⟨sorted, hranks.perm, hranks.ordered, hfound⟩⟩

/-- What is left of the rows that are found. -/
def typed (r : Retrieval) (found : List MemoryRow) : List MemoryRow :=
  found.filter fun row => r.type.all fun type => decide (row.type = type)

include hrows in
/-- The records that are left keep the contract exactly when they are of the session and there are some if there
should be. -/
theorem typed_contract_iff (hkey : (s.memories.map MemoryRow.id).Nodup) {found : List MemoryRow}
    (hfound : ∀ row ∈ found, row ∈ rows) (hlimit : found.length ≤ r.limit) :
    db.Contract s r ((typed r found).map MemoryRow.toRecord) ↔
      (¬ ∃ row ∈ found, (r.hasType row && !r.hasSession row) = true) ∧
        (db.Contains s r → ∃ row ∈ found, r.hasType row = true) := by
  constructor
  · intro h
    refine ⟨?_, fun hcontains => ?_⟩
    · rintro ⟨row, hrow, hkind⟩
      rw [Bool.and_eq_true, Bool.not_eq_true'] at hkind
      obtain ⟨rows', heq, hwanted⟩ := h.records
      have hmem : row.toRecord ∈ rows'.map MemoryRow.toRecord :=
        heq ▸ List.mem_map_of_mem (List.mem_filter.mpr ⟨hrow, hkind.1⟩)
      obtain ⟨row', hrow', hrecord⟩ := List.mem_map.mp hmem
      -- A key stands in one row only.
      obtain rfl : row' = row := List.inj_on_of_nodup_map hkey (hwanted row' hrow').stored
        (hrows row (hfound row hrow)).1 (congrArg MemoryRecord.id hrecord)
      cases hkind.2.symm.trans (hwanted row' hrow').session
    · have hne : typed r found ≠ [] := by simpa using h.found hcontains
      obtain ⟨row, hrow⟩ := List.exists_mem_of_ne_nil _ hne
      exact ⟨row, List.mem_filter.mp hrow⟩
  · rintro ⟨hsession, hsome⟩
    refine ⟨⟨_, rfl, fun row hrow => ?_⟩, ?_, fun hcontains hnil => ?_⟩
    · obtain ⟨hmem, htype⟩ := List.mem_filter.mp hrow
      have hsessionOf : r.hasSession row = true := by
        by_contra hnot
        rw [Bool.not_eq_true] at hnot
        have htype' : r.hasType row = true := htype
        exact hsession ⟨row, hmem, by rw [htype', hnot]; rfl⟩
      exact ⟨(hrows row (hfound row hmem)).1, (hrows row (hfound row hmem)).2, htype, hsessionOf⟩
    · rw [List.length_map]
      exact (List.length_filter_le _ _).trans hlimit
    · obtain ⟨row, hrow, htype⟩ := hsome hcontains
      have hmem : row ∈ typed r found := List.mem_filter.mpr ⟨hrow, htype⟩
      rw [List.map_eq_nil_iff.mp hnil] at hmem
      cases hmem

/-- **No nearest row is of another session** exactly when before each such row there are as many nearer ones as the
limit allows. -/
theorem forall_session_iff : (∀ found, db.MatchesMemories rows embedding r.limit found →
    ¬ ∃ row ∈ found, (r.hasType row && !r.hasSession row) = true) ↔
      ∀ row ∈ embedded rows, r.hasType row = true → r.hasSession row = false →
        r.limit ≤ (embedded rows).countP fun y => db.distanceTo embedding y < db.distanceTo embedding row := by
  have hranked := @Ranking.exists_mem_take_iff _ _ _ (fun row => -db.distanceTo embedding row)
    (fun row => r.hasType row && !r.hasSession row) r.limit (embedded rows)
  simp only [neg_lt_neg_iff] at hranked
  constructor
  · intro h row hrow htype hother
    by_contra hlt
    obtain ⟨sorted, hranks, hsome⟩ := hranked.mpr ⟨row, hrow, by rw [htype, hother]; rfl, by omega⟩
    exact h _ (matchesMemories_iff.mpr ⟨sorted, hranks, rfl⟩) hsome
  · intro h found hmatches hsome
    obtain ⟨sorted, hranks, rfl⟩ := matchesMemories_iff.mp hmatches
    obtain ⟨row, hrow, hkind, hcount⟩ := hranked.mp ⟨sorted, hranks, hsome⟩
    rw [Bool.and_eq_true, Bool.not_eq_true'] at hkind
    have hle := h row hrow hkind.1 hkind.2
    omega

include hrows in
/-- **The search by embeddings** keeps the contract exactly when the nearest rows fit. -/
theorem nearest_contract_iff (hkey : (s.memories.map MemoryRow.id).Nodup) :
    (∀ found, db.MatchesMemories rows embedding r.limit found →
      db.Contract s r ((typed r found).map MemoryRow.toRecord)) ↔ db.NearestFit s r rows embedding := by
  have hmembers : ∀ found, db.MatchesMemories rows embedding r.limit found →
      (∀ row ∈ found, row ∈ rows) ∧ found.length ≤ r.limit := by
    rintro found ⟨sorted, hperm, -, rfl⟩
    exact ⟨fun row hrow => (List.mem_filter.mp (hperm.mem_iff.mp (List.mem_of_mem_take hrow))).1,
      List.length_take_le _ _⟩
  have hsome : (∀ found, db.MatchesMemories rows embedding r.limit found → ∃ row ∈ found, r.hasType row = true) ↔
      ∃ row ∈ embedded rows, r.hasType row = true ∧ (embedded rows).countP
        (fun y => !r.hasType y && db.distanceTo embedding y ≤ db.distanceTo embedding row) < r.limit := by
    have hranked := @Ranking.forall_exists_mem_take_iff _ _ _ (fun row => -db.distanceTo embedding row) r.hasType
      r.limit (embedded rows)
    simp only [neg_le_neg_iff] at hranked
    rw [← hranked]
    constructor
    · exact fun h sorted hranks => h _ (matchesMemories_iff.mpr ⟨sorted, hranks, rfl⟩)
    · intro h found hmatches
      obtain ⟨sorted, hranks, rfl⟩ := matchesMemories_iff.mp hmatches
      exact h sorted hranks
  constructor
  · intro h
    have hboth := fun found hmatches => (typed_contract_iff hrows hkey (hmembers found hmatches).1
      (hmembers found hmatches).2).mp (h found hmatches)
    exact ⟨forall_session_iff.mp fun found hmatches => (hboth found hmatches).1,
      fun hcontains => hsome.mp fun found hmatches => (hboth found hmatches).2 hcontains⟩
  · intro h found hmatches
    exact (typed_contract_iff hrows hkey (hmembers found hmatches).1 (hmembers found hmatches).2).mpr
      ⟨forall_session_iff.mpr h.session found hmatches, fun hcontains => hsome.mpr (h.found hcontains) found hmatches⟩

/-- Nothing is found exactly when no row has an embedding or nothing may be found. -/
theorem found_eq_nil_iff {found : List MemoryRow} (h : db.MatchesMemories rows embedding r.limit found) :
    found = [] ↔ embedded rows = [] ∨ r.limit = 0 := by
  obtain ⟨sorted, hranks, rfl⟩ := matchesMemories_iff.mp h
  rw [List.take_eq_nil_iff]
  constructor
  · rintro (hzero | hnil)
    · exact .inr hzero
    · exact .inl (List.nil_perm.mp (hnil ▸ hranks.perm))
  · rintro (hnil | hzero)
    · exact .inr (List.perm_nil.mp (hnil ▸ hranks.perm))
    · exact .inl hzero

/-- **What holds of every result** of a search of some rows. -/
theorem forall_retrievesFrom_iff {P : List MemoryRecord → Prop} :
    (∀ result, db.RetrievesFrom rows r result → P result) ↔
      match if r.query.isEmpty ∨ r.query = lit "*" ∨ !r.rpcAnswered then none else r.embedding with
      | none => ∀ result, db.SearchesKeywords rows r result → P result
      | some embedding =>
        if embedded rows = [] ∨ r.limit = 0 then ∀ result, db.SearchesKeywords rows r result → P result
        else ∀ found, db.MatchesMemories rows embedding r.limit found → P ((typed r found).map MemoryRow.toRecord) := by
  unfold RetrievesFrom
  generalize (if r.query.isEmpty ∨ r.query = lit "*" ∨ !r.rpcAnswered then none else r.embedding) = path
  cases path with
  | none => exact Iff.rfl
  | some embedding =>
    dsimp only
    split_ifs with hnone
    · constructor
      · intro h result hsearch
        obtain ⟨sorted, hranks, -⟩ := Ranking.exists_ranks (fun row => -db.distanceTo embedding row) (fun _ => true)
          (embedded rows)
        have hmatches : db.MatchesMemories rows embedding r.limit (sorted.take r.limit) :=
          matchesMemories_iff.mpr ⟨sorted, hranks, rfl⟩
        refine h result ⟨_, hmatches, ?_⟩
        rw [(found_eq_nil_iff hmatches).mpr hnone]
        exact hsearch
      · rintro h result ⟨found, hmatches, hsearch⟩
        rw [(found_eq_nil_iff hmatches).mpr hnone] at hsearch
        exact h result hsearch
    · have hfound : ∀ found, db.MatchesMemories rows embedding r.limit found → found.isEmpty = false := by
        intro found hmatches
        rw [List.isEmpty_eq_false_iff]
        exact fun hnil => hnone ((found_eq_nil_iff hmatches).mp hnil)
      constructor
      · intro h found hmatches
        refine h _ ⟨found, hmatches, ?_⟩
        rw [hfound found hmatches]
        rfl
      · rintro h result ⟨found, hmatches, hresult⟩
        rw [hfound found hmatches] at hresult
        subst hresult
        exact h found hmatches

/-- Every search of some rows has a result. -/
theorem exists_retrievesFrom : ∃ result, db.RetrievesFrom rows r result := by
  have hkeywords : ∃ result, db.SearchesKeywords rows r result := by
    cases hanswered : r.answered with
    | false => exact ⟨[], searchesKeywords_unanswered hanswered⟩
    | true =>
      obtain ⟨sorted, -, hsearch⟩ := @exists_searchesKeywords db r rows hanswered
      exact ⟨_, hsearch⟩
  by_contra hnone
  have hall := (@forall_retrievesFrom_iff db r rows fun _ => False).mp fun result h => hnone ⟨result, h⟩
  obtain ⟨result, hsearch⟩ := hkeywords
  split at hall
  · exact hall result hsearch
  · split_ifs at hall
    · exact hall result hsearch
    · obtain ⟨sorted, hranks, -⟩ := Ranking.exists_ranks (fun row => -db.distanceTo _ row) (fun _ => true)
        (embedded rows)
      exact hall _ (matchesMemories_iff.mpr ⟨sorted, hranks, rfl⟩)

include hrows in
/-- The contract of a search of some rows. -/
theorem retrievesFrom_contract_iff (hkey : (s.memories.map MemoryRow.id).Nodup) :
    (∀ result, db.RetrievesFrom rows r result → db.Contract s r result) ↔
      match if r.query.isEmpty ∨ r.query = lit "*" ∨ !r.rpcAnswered then none else r.embedding with
      | none => db.KeywordsFind s r rows
      | some embedding =>
        if embedded rows = [] ∨ r.limit = 0 then db.KeywordsFind s r rows else db.NearestFit s r rows embedding := by
  rw [forall_retrievesFrom_iff]
  generalize (if r.query.isEmpty ∨ r.query = lit "*" ∨ !r.rpcAnswered then none else r.embedding) = path
  cases path with
  | none => exact searchesKeywords_contract_iff hrows
  | some embedding =>
    dsimp only
    split_ifs
    · exact searchesKeywords_contract_iff hrows
    · exact nearest_contract_iff hrows hkey

end Searches

variable {db s r}

/-- The rows of a user that the client sees are stored rows of the user. -/
theorem mem_rowsOf {visible : Text → Bool} {user : Text} {row : MemoryRow} (h : row ∈ rowsOf s visible user) :
    row ∈ s.memories ∧ row.userId = user := by
  obtain ⟨hmem, -⟩ := List.mem_filter.mp h
  obtain ⟨hmem, huser⟩ := List.mem_filter.mp hmem
  exact ⟨hmem, of_decide_eq_true huser⟩

/-- Tables of which a client sees all rows, with embeddings that are equal or not. -/
def plainTables : MemoryTables where
  user? id := some id
  uid _ := none
  hasAnonKey := false
  takesMemory _ _ _ := true
  takesTheme _ := true
  ilike content query := includes content query
  distance a b := if a = b then 0 else 1

/-- What Ana says of the moon in the evening. -/
def moonRow : MemoryRow :=
  ⟨lit "m1", lit "ana", some (lit "evening"), .episodic, lit "The moon is up", some [.finite 2], 1, none, 0⟩

/-- What she says in the morning. -/
def sunRow : MemoryRow :=
  ⟨lit "m2", lit "ana", some (lit "morning"), .episodic, lit "The sun is up", some [.finite 1], 1, none, 1⟩

/-- One memory of the evening is asked for. -/
def moonSearch : Retrieval where
  query := lit "moon"
  context := { userId := lit "ana", sessionId := some (lit "evening") }
  type := some .episodic
  limit := 1
  embedding := some [.finite 1]

end MemoryTables

end DreamWeaver.Memory
