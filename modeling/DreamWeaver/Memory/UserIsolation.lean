import DreamWeaver.Memory.LocalMemories
import DreamWeaver.Memory.SupabaseAgentMemory

/-! # Users do not see the memories of others

What `retrieve` and `getThemeStats` return for a user should follow from the calls of that user. The
database keeps the id of the user with every row and asks for it (`AI-05: Filter by user`); the memories of
a process keep no user at all. -/

namespace DreamWeaver.Memory

/-- The implementations of the port. -/
inductive Implementation where
  | inMemory
  | persisted
  | supabase
  deriving DecidableEq

/-- A memory that has no calls yet. -/
def Implementation.memory (lower : Text → Text) (now : ℤ) (db : MemoryTables) :
    Implementation → AgentMemory
  | .inMemory => Memory.inMemory lower now
  | .persisted => Memory.persisted lower now
  | .supabase => Memory.supabase db

/-- The calls of a user. -/
def AgentMemory.own (memory : AgentMemory) (user : Text) (calls : List MemoryCall) : List MemoryCall :=
  calls.filter fun call => memory.sameUser user call.context.userId

/-- The record comes from a call of `store`. -/
def ComesFrom (calls : List MemoryCall) (m : MemoryRecord) : Prop :=
  ∃ content type context metadata world, .store content type context metadata world ∈ calls ∧
    m = storedRecord content type metadata world

/-- **Isolation**: after some calls, a user is told what it would be told after its own calls alone. -/
structure Isolates (memory : AgentMemory) (calls : List MemoryCall) (user : Text) : Prop where
  retrieve : ∀ r result, r.context.userId = user →
    (memory.retrieves (memory.after calls) r result ↔
      memory.retrieves (memory.after (memory.own user calls)) r result)
  stats : ∀ r result, r.context.userId = user →
    (memory.themeStats (memory.after calls) r result ↔
      memory.themeStats (memory.after (memory.own user calls)) r result)
  /-- A memory that it is told is built in, or it has stored it. -/
  contains : ∀ r result, r.context.userId = user → memory.retrieves (memory.after calls) r result →
    ∀ m ∈ result, m ∈ memory.builtIn ∨ ComesFrom (memory.own user calls) m

/-- A call changes what `retrieve` or `getThemeStats` return. -/
def MemoryCall.isRead : MemoryCall → Bool
  | .trackPreferencePair _ _ _ _ => false
  | _ => true

/-! ## Where records come from -/

variable {lower : Text → Text} {now : ℤ} {db : MemoryTables} {calls calls' : List MemoryCall}
  {m : MemoryRecord} {user : Text}

theorem ComesFrom.mono (h : ComesFrom calls m) (hsub : ∀ call ∈ calls, call ∈ calls') :
    ComesFrom calls' m := by
  obtain ⟨content, type, context, metadata, world, hmem, heq⟩ := h
  exact ⟨content, type, context, metadata, world, hsub _ hmem, heq⟩

/-- What a fold of calls keeps is there at the start, or comes from a call. -/
theorem mem_foldl {σ : Type} {apply : σ → MemoryCall → σ} {records : σ → List MemoryRecord}
    (hstep : ∀ s call, ∀ m ∈ records (apply s call), m ∈ records s ∨ ComesFrom [call] m) (s : σ)
    (h : m ∈ records (calls.foldl apply s)) : m ∈ records s ∨ ComesFrom calls m := by
  induction calls generalizing s with
  | nil => exact Or.inl h
  | cons call calls ih =>
    rcases ih (apply s call) h with hmem | hlater
    · refine (hstep s call m hmem).imp_right fun hcall => hcall.mono fun c hc => ?_
      rw [List.mem_singleton.mp hc]
      exact List.mem_cons_self
    · exact Or.inr (hlater.mono fun c hc => List.mem_cons_of_mem call hc)

theorem comesFrom_store {content : Text} {type : MemoryType} {context : AgentContext}
    {metadata : Option (Record Json)} {world : CallWorld} :
    ComesFrom [.store content type context metadata world] (storedRecord content type metadata world) :=
  ⟨content, type, context, metadata, world, List.mem_singleton_self _, rfl⟩

theorem mem_inMemory (h : m ∈ (calls.foldl InMemoryAgentMemory.apply ⟨proceduralMemories now, []⟩).memories) :
    m ∈ proceduralMemories now ∨ ComesFrom calls m := by
  refine @mem_foldl _ _ _ _ InMemoryAgentMemory.memories (fun s call m hm => ?_) _ h
  cases call with
  | store content type context metadata world =>
    rcases List.mem_append.mp hm with hold | hnew
    · exact Or.inl hold
    · rw [List.mem_singleton.mp hnew]
      exact Or.inr comesFrom_store
  | _ => exact Or.inl hm

theorem mem_persisted (h : m ∈ (calls.foldl MemoryDatabase.apply (.fresh now)).memories) :
    m ∈ proceduralMemories now ∨ ComesFrom calls m := by
  refine @mem_foldl _ _ _ _ MemoryDatabase.memories (fun s call m hm => ?_) _ h
  cases call with
  | store content type context metadata world =>
    rcases List.mem_append.mp hm with hold | hnew
    · exact Or.inl hold
    · rw [List.mem_singleton.mp hnew]
      exact Or.inr comesFrom_store
  | _ => exact Or.inl hm

/-! ## Memories of one process -/

/-- A history whose stores and outcomes are all of one user. -/
def OnlyOf (user : Text) (calls : List MemoryCall) : Prop :=
  ∀ call ∈ calls, call.isRead = true → call.context.userId = user

/-- The calls that matter are those of the user. -/
theorem filter_isRead_own (h : OnlyOf user calls) :
    (calls.filter fun call => user == call.context.userId).filter MemoryCall.isRead =
      calls.filter MemoryCall.isRead := by
  rw [List.filter_filter]
  apply List.filter_congr
  intro call hcall
  cases hread : call.isRead with
  | false => rfl
  | true => rw [h call hcall hread, beq_self_eq_true, Bool.and_true]

/-- What is told depends on the memories. -/
theorem retrieve_congr {s s' : MemoryDatabase} (h : s.memories = s'.memories) (r : Retrieval) :
    s.retrieve lower r = s'.retrieve lower r := by
  unfold MemoryDatabase.retrieve
  rw [h]

/-- What is told depends on the scores. -/
theorem getThemeStats_congr {s s' : MemoryDatabase} (h : s.themeScores = s'.themeScores)
    (r : StatsRequest) : s.getThemeStats r = s'.getThemeStats r := by
  unfold MemoryDatabase.getThemeStats
  rw [h]

/-- **Isolation in a process**, where no other user stores anything. -/
theorem isolates_inMemory (h : OnlyOf user calls) : Isolates (inMemory lower now) calls user := by
  have hsame : (inMemory lower now).after calls =
      (inMemory lower now).after ((inMemory lower now).own user calls) := by
    refine @view_foldl_eq _ _ _ InMemoryAgentMemory.apply InMemoryAgentMemory.apply id MemoryCall.isRead
      (fun s call _ => rfl) (fun s call hunread => ?_) _ _ _ (filter_isRead_own h).symm
    cases call with
    | trackPreferencePair winTheme loseTheme context world => rfl
    | _ => cases hunread
  refine ⟨fun r result _ => ?_, fun r result _ => ?_, fun r result _ hresult m hm => ?_⟩
  · rw [← hsame]
  · rw [← hsame]
  · rw [hsame] at hresult
    rw [show result = _ from hresult] at hm
    exact mem_inMemory (List.mem_filter.mp (List.mem_of_mem_take hm)).1

/-- What a database is asked for. -/
def MemoryDatabase.read (s : MemoryDatabase) : List MemoryRecord × Record JsNumber :=
  (s.memories, s.themeScores)

/-- Isolation over a file, where no other user stores anything. -/
theorem isolates_persisted (h : OnlyOf user calls) : Isolates (persisted lower now) calls user := by
  have hsame : ((persisted lower now).after calls).read =
      ((persisted lower now).after ((persisted lower now).own user calls)).read := by
    refine @view_foldl_eq _ _ _ MemoryDatabase.apply
      (fun v call => (MemoryDatabase.apply ⟨v.1, v.2, []⟩ call).read) MemoryDatabase.read MemoryCall.isRead
      (fun s call _ => ?_) (fun s call hunread => ?_) _ _ _ (filter_isRead_own h).symm
    · cases call <;> rfl
    · cases call with
      | trackPreferencePair winTheme loseTheme context world => rfl
      | _ => cases hunread
  obtain ⟨hmemories, hscores⟩ := Prod.mk.inj hsame
  refine ⟨fun r result _ => ?_, fun r result _ => ?_, fun r result _ hresult m hm => ?_⟩
  · exact Iff.of_eq (congrArg (result = ·) (retrieve_congr hmemories r))
  · exact Iff.of_eq (congrArg (result = ·) (getThemeStats_congr hscores r))
  · have hown : result = MemoryDatabase.retrieve lower _ r :=
      hresult.trans (retrieve_congr hmemories r)
    rw [hown] at hm
    have hsorted := List.mem_of_mem_take hm
    rw [List.mem_mergeSort] at hsorted
    exact mem_persisted (List.mem_filter.mp hsorted).1

/-! ## The database -/

/-- The rows of a user. -/
def rowsOfUser (user : Text) (s : MemoryDatabaseRows) : List MemoryRow × List OutcomeRow :=
  (s.memories.filter fun row => row.userId = user, s.outcomes.filter fun row => row.userId = user)

/-- A call inserts rows of its own user. -/
theorem eq_of_inserts {context : AgentContext} {world : CallWorld} {id : Text}
    (h : db.inserts context world = some id) : db.user? context.userId = some id := by
  rw [MemoryTables.inserts] at h
  split at h
  · rename_i found visible huser hvisible
    split at h
    · rw [huser, Option.some.inj h]
    · cases h
  · cases h

/-- A call of another user changes no row of the user. -/
theorem rowsOfUser_apply_of_ne {s : MemoryDatabaseRows} {call : MemoryCall} {id : Text}
    (h : db.user? call.context.userId ≠ some id) :
    rowsOfUser id (db.apply s call) = rowsOfUser id s := by
  have hother : ∀ world other, db.inserts call.context world = some other → other ≠ id := by
    rintro world other hinserts rfl
    exact h (eq_of_inserts hinserts)
  cases call with
  | store content type context metadata world =>
    rw [MemoryTables.apply]
    cases hinserts : db.inserts context world with
    | none => rfl
    | some other =>
      dsimp only
      split
      · simp [rowsOfUser, hother world other hinserts]
      · rfl
  | trackOutcome theme outcome context world =>
    rw [MemoryTables.apply]
    cases hinserts : db.inserts context world with
    | none => rfl
    | some other =>
      dsimp only
      split
      · simp [rowsOfUser, hother world other hinserts]
      · rfl
  | trackPreferencePair winTheme loseTheme context world => rfl

/-- What a call makes of the rows of a user depends on them alone. -/
theorem rowsOfUser_apply {s : MemoryDatabaseRows} {call : MemoryCall} {id : Text} :
    rowsOfUser id (db.apply s call) =
      rowsOfUser id (db.apply ⟨(rowsOfUser id s).1, (rowsOfUser id s).2⟩ call) := by
  cases call with
  | store content type context metadata world =>
    rw [MemoryTables.apply, MemoryTables.apply]
    cases db.inserts context world with
    | none => simp [rowsOfUser, List.filter_filter]
    | some other =>
      dsimp only
      split <;> simp [rowsOfUser, List.filter_append, List.filter_filter]
  | trackOutcome theme outcome context world =>
    rw [MemoryTables.apply, MemoryTables.apply]
    cases db.inserts context world with
    | none => simp [rowsOfUser, List.filter_filter]
    | some other =>
      dsimp only
      split <;> simp [rowsOfUser, List.filter_append, List.filter_filter]
  | trackPreferencePair winTheme loseTheme context world =>
    simp [MemoryTables.apply, rowsOfUser, List.filter_filter]

/-- **What is told of a user** follows from its rows. -/
theorem retrieves_congr {s s' : MemoryDatabaseRows} {r : Retrieval} {result : List MemoryRecord}
    (h : ∀ id, db.user? r.context.userId = some id → rowsOfUser id s = rowsOfUser id s') :
    db.Retrieves s r result ↔ db.Retrieves s' r result := by
  rw [MemoryTables.Retrieves, MemoryTables.Retrieves]
  cases db.visible r.context with
  | none => rfl
  | some visible =>
    cases huser : db.user? r.context.userId with
    | none => rfl
    | some id =>
      obtain ⟨hmemories, -⟩ := Prod.mk.inj (h id huser)
      dsimp only
      rw [MemoryTables.rowsOf, hmemories, ← MemoryTables.rowsOf]

theorem themeStats_congr {s s' : MemoryDatabaseRows} {r : StatsRequest} {result : List ThemeScore}
    (h : ∀ id, db.user? r.context.userId = some id → rowsOfUser id s = rowsOfUser id s') :
    db.ThemeStats s r result ↔ db.ThemeStats s' r result := by
  rw [MemoryTables.ThemeStats, MemoryTables.ThemeStats]
  cases db.visible r.context with
  | none => rfl
  | some visible =>
    cases huser : db.user? r.context.userId with
    | none => rfl
    | some id =>
      obtain ⟨-, houtcomes⟩ := Prod.mk.inj (h id huser)
      dsimp only
      rw [themeScores, houtcomes, ← themeScores]

/-- The rows of a user follow from its calls. -/
theorem rowsOfUser_own {id : Text} (huser : db.user? user = some id) :
    rowsOfUser id ((supabase db).after calls) =
      rowsOfUser id ((supabase db).after ((supabase db).own user calls)) := by
  have hsame : ∀ call : MemoryCall, (supabase db).sameUser user call.context.userId = true ↔
      db.user? call.context.userId = some id := by
    intro call
    rw [supabase, Bool.or_eq_true, Bool.and_eq_true, beq_iff_eq, beq_iff_eq, huser]
    constructor
    · rintro (heq | ⟨-, heq⟩)
      · rw [← heq, huser]
      · exact heq.symm
    · exact fun heq => Or.inr ⟨rfl, heq.symm⟩
  refine @view_foldl_eq _ _ _ db.apply (fun v call => rowsOfUser id (db.apply ⟨v.1, v.2⟩ call))
    (rowsOfUser id) (fun call => (supabase db).sameUser user call.context.userId)
    (fun s call _ => rowsOfUser_apply) (fun s call hother => ?_) _ _ _ ?_
  · apply rowsOfUser_apply_of_ne
    intro heq
    rw [(hsame call).mpr heq] at hother
    cases hother
  · rw [AgentMemory.own, List.filter_filter]
    simp only [Bool.and_self]

/-- The records of the rows come from calls. -/
theorem mem_supabase {row : MemoryRow} (h : row ∈ (calls.foldl db.apply ⟨[], []⟩).memories) :
    ComesFrom calls row.toRecord := by
  have hmem : row.toRecord ∈ (calls.foldl db.apply ⟨[], []⟩).memories.map MemoryRow.toRecord :=
    List.mem_map_of_mem h
  refine (@mem_foldl _ _ _ db.apply (fun s => s.memories.map MemoryRow.toRecord)
    (fun s call m hm => ?_) _ hmem).resolve_left List.not_mem_nil
  cases call with
  | store content type context metadata world =>
    rw [MemoryTables.apply] at hm
    split at hm
    · dsimp only at hm
      split at hm
      · rw [List.map_append, List.mem_append] at hm
        rcases hm with hold | hnew
        · exact Or.inl hold
        · rw [List.mem_singleton.mp hnew]
          exact Or.inr comesFrom_store
      · exact Or.inl hm
    · exact Or.inl hm
  | trackOutcome theme outcome context world =>
    rw [MemoryTables.apply] at hm
    split at hm
    · split at hm <;> exact Or.inl hm
    · exact Or.inl hm
  | trackPreferencePair winTheme loseTheme context world => exact Or.inl hm

/-- What a query selects are some of its rows. -/
theorem Selects.subset {α : Type} {key : α → ℚ} {limit : ℕ} {rows result : List α}
    (h : Selects key limit rows result) {a : α} (ha : a ∈ result) : a ∈ rows := by
  obtain ⟨sorted, hperm, -, rfl⟩ := h
  exact hperm.subset (List.mem_of_mem_take ha)

theorem mem_of_searchesKeywords {rows : List MemoryRow} {r : Retrieval} {result : List MemoryRecord}
    (h : db.SearchesKeywords rows r result) (hm : m ∈ result) : ∃ row ∈ rows, m = row.toRecord := by
  rw [MemoryTables.SearchesKeywords] at h
  split at h
  · obtain ⟨selected, hselects, rfl⟩ := h
    obtain ⟨row, hrow, rfl⟩ := List.mem_map.mp hm
    exact ⟨row, (List.mem_filter.mp (hselects.subset hrow)).1, rfl⟩
  · rw [h] at hm
    cases hm

/-- What is retrieved are records of rows. -/
theorem mem_of_retrievesFrom {rows : List MemoryRow} {r : Retrieval} {result : List MemoryRecord}
    (h : db.RetrievesFrom rows r result) (hm : m ∈ result) : ∃ row ∈ rows, m = row.toRecord := by
  rw [MemoryTables.RetrievesFrom] at h
  split at h
  · exact mem_of_searchesKeywords h hm
  · obtain ⟨found, hmatches, hresult⟩ := h
    split at hresult
    · exact mem_of_searchesKeywords hresult hm
    · rw [hresult] at hm
      obtain ⟨row, hrow, rfl⟩ := List.mem_map.mp hm
      have hin := hmatches.subset (List.mem_filter.mp hrow).1
      exact ⟨row, (List.mem_filter.mp hin).1, rfl⟩

theorem mem_of_retrieves {s : MemoryDatabaseRows} {r : Retrieval} {result : List MemoryRecord}
    (h : db.Retrieves s r result) (hm : m ∈ result) : ∃ row ∈ s.memories, m = row.toRecord := by
  rw [MemoryTables.Retrieves] at h
  split at h
  · cases h
  · rw [h] at hm
    cases hm
  · obtain ⟨row, hrow, rfl⟩ := mem_of_retrievesFrom h hm
    exact ⟨row, (List.mem_filter.mp (List.mem_filter.mp hrow).1).1, rfl⟩

/-- **Isolation in the database**, whatever the other users do. -/
theorem isolates_supabase : Isolates (supabase db) calls user := by
  have hrows : ∀ id, db.user? user = some id → rowsOfUser id ((supabase db).after calls) =
      rowsOfUser id ((supabase db).after ((supabase db).own user calls)) :=
    fun id huser => rowsOfUser_own huser
  have hretrieve : ∀ (r : Retrieval) result, r.context.userId = user →
      ((supabase db).retrieves ((supabase db).after calls) r result ↔
        (supabase db).retrieves ((supabase db).after ((supabase db).own user calls)) r result) :=
    fun r result hr => retrieves_congr fun id huser => hrows id (hr ▸ huser)
  refine ⟨hretrieve, fun r result hr => ?_, fun r result hr hresult m hm => Or.inr ?_⟩
  · exact themeStats_congr fun id huser => hrows id (hr ▸ huser)
  · obtain ⟨row, hrow, rfl⟩ := mem_of_retrieves ((hretrieve r result hr).mp hresult) hm
    exact mem_supabase hrow

/-- A database without users. -/
def emptyTables : MemoryTables where
  user? _ := none
  uid _ := none
  hasAnonKey := false
  takesMemory _ _ _ := true
  takesTheme _ := true
  ilike _ _ := true
  distance _ _ := 0

/-- Ben stores a memory. -/
def benStores : List MemoryCall :=
  [.store (lit "Ben is afraid of the dark") .semantic { userId := lit "ben" } none {}]

/-- Ana asks for what was said. -/
def anaAsks : Retrieval where
  query := lit "*"
  context := { userId := lit "ana" }
  type := some .semantic

end DreamWeaver.Memory
