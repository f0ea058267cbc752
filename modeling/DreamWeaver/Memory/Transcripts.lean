import DreamWeaver.Memory.UserIsolation

/-! # The transcript of a session

`ProcessConversationTurnUseCase` (`api/src/application/use-cases/ProcessConversationTurnUseCase.ts`) stores
what the user and the agent say, and `MemorySummarizationService`
(`api/src/domain/services/MemorySummarizationService.ts`) asks for what was said in a session. The database
keeps the session of the context; the memories of a process look for it in the metadata, where the turn
puts the trace and the role only. -/

namespace DreamWeaver.Memory

/-- Who says what is stored. -/
inductive Role where
  | user
  | agent
  deriving DecidableEq

/-- `role` -/
def Role.text : Role → Text
  | .user => lit "user"
  | .agent => lit "agent"

/-- A memory that a turn stores; the requests for turns have a session. -/
structure TurnStore where
  userId : Text
  sessionId : Text
  sessionId_ne : sessionId ≠ []
  content : Text
  traceId : Text
  role : Role
  world : CallWorld

namespace TurnStore

/-- `context` -/
def context (t : TurnStore) : AgentContext := { userId := t.userId, sessionId := some t.sessionId }

/-- `{ traceId, role }` -/
def metadata (t : TurnStore) : Option (Record Json) :=
  some [(lit "traceId", .str t.traceId), (lit "role", .str t.role.text)]

/-- The call of `store`. -/
def call (t : TurnStore) : MemoryCall := .store t.content .episodic t.context t.metadata t.world

/-- The record that is stored. -/
def record (t : TurnStore) : MemoryRecord := storedRecord t.content .episodic t.metadata t.world

end TurnStore

/-- The call of the summarizer. -/
def transcriptOf (userId sessionId : Text) (limit : ℕ) : Retrieval where
  query := lit "*"
  context := { userId := userId, sessionId := some sessionId }
  type := some .episodic
  limit := limit

/-- The call of `store` does not reject: the database takes the row. -/
def Implementation.keeps (db : MemoryTables) : Implementation → TurnStore → Bool
  | .supabase, t => (db.inserts t.context t.world).isSome &&
      db.takesMemory t.content (some t.sessionId) t.metadata
  | _, _ => true

/-- What a user has stored in a session. -/
def sessionRecords (implementation : Implementation) (lower : Text → Text) (now : ℤ) (db : MemoryTables)
    (stores : List TurnStore) (userId sessionId : Text) : List MemoryRecord :=
  (stores.filter fun t => implementation.keeps db t &&
    ((implementation.memory lower now db).sameUser userId t.userId && decide (t.sessionId = sessionId))).map
      TurnStore.record

/-- **Completeness of transcripts**: the summarizer finds every memory of the session and none of
another. -/
def FindsTranscript (implementation : Implementation) (lower : Text → Text) (now : ℤ) (db : MemoryTables)
    (stores : List TurnStore) (userId sessionId : Text) : Prop :=
  ∀ limit, (stores.filter (implementation.keeps db)).length ≤ limit →
    let memory := implementation.memory lower now db
    let after := memory.after (stores.map TurnStore.call)
    (∃ result, memory.retrieves after (transcriptOf userId sessionId limit) result) ∧
      ∀ result, memory.retrieves after (transcriptOf userId sessionId limit) result →
        result.Perm (sessionRecords implementation lower now db stores userId sessionId)

variable {implementation : Implementation} {lower : Text → Text} {now : ℤ} {db : MemoryTables}
  {stores : List TurnStore} {userId sessionId : Text}

/-! ## In a process -/

/-- **No turn is found** by its session: its metadata name none. -/
theorem isRetrieved_record (hsession : sessionId ≠ []) (limit : ℕ) (t : TurnStore) :
    isRetrieved lower (transcriptOf userId sessionId limit) t.record = false := by
  have hempty : (orText (some sessionId) []).isEmpty = false := by
    rw [orText_some hsession]
    simpa using hsession
  have hnone : Record.get? [(lit "traceId", Json.str t.traceId), (lit "role", Json.str t.role.text)]
      (lit "sessionId") = none := rfl
  simp [isRetrieved, transcriptOf, TurnStore.record, storedRecord, TurnStore.metadata, hempty, hnone]

/-- The procedural memories are no transcripts. -/
theorem isRetrieved_procedural (limit : ℕ) {m : MemoryRecord} (hm : m ∈ proceduralMemories now) :
    isRetrieved lower (transcriptOf userId sessionId limit) m = false := by
  have htype : m.type = .procedural := by
    simp only [proceduralMemories, List.mem_cons, List.not_mem_nil, or_false] at hm
    rcases hm with rfl | rfl <;> rfl
  rw [isRetrieved, htype]
  rfl

/-- What the turns have stored in a process is not found. -/
theorem filter_isRetrieved {memories : List MemoryRecord} (hsession : sessionId ≠ []) (limit : ℕ)
    (hmem : ∀ m ∈ memories, m ∈ proceduralMemories now ∨ ComesFrom (stores.map TurnStore.call) m) :
    memories.filter (isRetrieved lower (transcriptOf userId sessionId limit)) = [] := by
  rw [List.filter_eq_nil_iff]
  intro m hm
  rw [Bool.not_eq_true]
  rcases hmem m hm with hbuilt | ⟨content, type, context, metadata, world, hcall, rfl⟩
  · exact isRetrieved_procedural limit hbuilt
  · obtain ⟨t, -, ht⟩ := List.mem_map.mp hcall
    cases ht
    exact isRetrieved_record hsession limit t

/-- Where nothing is found, the transcript is complete when the session is empty. -/
theorem findsTranscript_iff_of_nil (implementation : Implementation) (hlocal : implementation ≠ .supabase)
    (hnone : ∀ limit result, (implementation.memory lower now db).retrieves
      ((implementation.memory lower now db).after (stores.map TurnStore.call))
        (transcriptOf userId sessionId limit) result ↔ result = []) :
    FindsTranscript implementation lower now db stores userId sessionId ↔
      ∀ t ∈ stores, t.userId = userId → t.sessionId ≠ sessionId := by
  have hkeeps : ∀ t, implementation.keeps db t = true := by
    cases implementation with
    | supabase => exact absurd rfl hlocal
    | _ => exact fun _ => rfl
  have hsame : ∀ user, (implementation.memory lower now db).sameUser userId user = true ↔ user = userId := by
    intro user
    cases implementation with
    | supabase => exact absurd rfl hlocal
    | _ => exact beq_iff_eq.trans eq_comm
  have hrecords : sessionRecords implementation lower now db stores userId sessionId = [] ↔
      ∀ t ∈ stores, t.userId = userId → t.sessionId ≠ sessionId := by
    rw [sessionRecords, List.map_eq_nil_iff, List.filter_eq_nil_iff]
    simp only [hkeeps, Bool.true_and, Bool.and_eq_true, hsame, decide_eq_true_iff, not_and]
  rw [← hrecords]
  constructor
  · intro h
    exact ((h _ le_rfl).2 [] ((hnone _ _).mpr rfl)).nil_eq.symm
  · intro h limit _
    refine ⟨⟨[], (hnone _ _).mpr rfl⟩, fun result hresult => ?_⟩
    rw [(hnone _ _).mp hresult, h]

theorem retrieves_inMemory (hsession : sessionId ≠ []) (limit : ℕ) (result : List MemoryRecord) :
    (inMemory lower now).retrieves ((inMemory lower now).after (stores.map TurnStore.call))
      (transcriptOf userId sessionId limit) result ↔ result = [] := by
  have hnone : ((stores.map TurnStore.call).foldl InMemoryAgentMemory.apply
      ⟨proceduralMemories now, []⟩).retrieve lower (transcriptOf userId sessionId limit) = [] := by
    rw [InMemoryAgentMemory.retrieve, filter_isRetrieved hsession limit fun m hm => mem_inMemory hm,
      List.take_nil]
  exact Iff.of_eq (congrArg (result = ·) hnone)

theorem retrieves_persisted (hsession : sessionId ≠ []) (limit : ℕ) (result : List MemoryRecord) :
    (persisted lower now).retrieves ((persisted lower now).after (stores.map TurnStore.call))
      (transcriptOf userId sessionId limit) result ↔ result = [] := by
  have hnone : ((stores.map TurnStore.call).foldl MemoryDatabase.apply (.fresh now)).retrieve lower
      (transcriptOf userId sessionId limit) = [] := by
    rw [MemoryDatabase.retrieve, filter_isRetrieved hsession limit fun m hm => mem_persisted hm,
      List.mergeSort_nil, List.take_nil]
  exact Iff.of_eq (congrArg (result = ·) hnone)

/-! ## In the database -/

/-- The row that a turn inserts. -/
def MemoryTables.turnRow (db : MemoryTables) (t : TurnStore) : Option MemoryRow :=
  (db.inserts t.context t.world).bind fun user =>
    if db.takesMemory t.content (some t.sessionId) t.metadata then
      some ⟨t.world.id, user, some t.sessionId, .episodic, t.content, t.world.embedding, 1, t.metadata,
        t.world.now⟩
    else none

/-- The rows of turns. -/
theorem memories_after (s : MemoryDatabaseRows) :
    ((stores.map TurnStore.call).foldl db.apply s).memories = s.memories ++ stores.filterMap db.turnRow := by
  induction stores generalizing s with
  | nil => simp
  | cons t stores ih =>
    rw [List.map_cons, List.foldl_cons, ih, List.filterMap_cons, TurnStore.call, MemoryTables.apply]
    have hsession : t.context.sessionId.filter (fun text => !text.isEmpty) = some t.sessionId := by
      rw [TurnStore.context, Option.filter_some, if_pos]
      simpa using t.sessionId_ne
    rw [hsession, MemoryTables.turnRow]
    cases db.inserts t.context t.world with
    | none => rfl
    | some user =>
      rw [Option.bind_some]
      dsimp only
      split <;> simp

/-- A query that may select all rows selects all. -/
theorem selects_iff_perm {α : Type} {key : α → ℚ} {limit : ℕ} {rows result : List α}
    (hlimit : rows.length ≤ limit) (h : Selects key limit rows result) : result.Perm rows := by
  obtain ⟨sorted, hperm, -, rfl⟩ := h
  rw [List.take_of_length_le (hperm.length_eq ▸ hlimit)]
  exact hperm

/-- A query selects something. -/
theorem exists_selects {α : Type} (key : α → ℚ) (limit : ℕ) (rows : List α) :
    ∃ result, Selects key limit rows result := by
  refine ⟨_, rows.mergeSort (fun a b => key b ≤ key a), List.mergeSort_perm _ _, ?_, rfl⟩
  have hsorted := @List.pairwise_mergeSort _ (fun a b : α => decide (key b ≤ key a))
    (fun a b c hab hbc => decide_eq_true ((of_decide_eq_true hbc).trans (of_decide_eq_true hab)))
    (fun a b => by
      rcases le_total (key b) (key a) with hle | hle
      · simp [hle]
      · simp [hle]) rows
  exact hsorted.imp fun h => of_decide_eq_true h

/-- The row of a turn belongs to the user of the turn. -/
theorem sameUser_of_inserts {id other : Text} {t : TurnStore} (huser : db.user? userId = some id)
    (hother : db.inserts t.context t.world = some other) :
    (supabase db).sameUser userId t.userId = decide (other = id) := by
  have howner : db.user? t.userId = some other := eq_of_inserts hother
  rw [Bool.eq_iff_iff, decide_eq_true_iff, supabase, Bool.or_eq_true, Bool.and_eq_true, beq_iff_eq,
    beq_iff_eq, huser, howner, Option.some_inj]
  constructor
  · rintro (heq | ⟨-, heq⟩)
    · rw [heq, howner, Option.some_inj] at huser
      exact huser
    · exact heq.symm
  · exact fun heq => Or.inr ⟨rfl, heq.symm⟩

/-- The summarizer selects a row of the session. -/
theorem isSelected_turnRow (hsession : sessionId ≠ []) (userId : Text) (limit : ℕ) {row : MemoryRow}
    {t : TurnStore}
    (hrow : db.turnRow t = some row) :
    db.isSelected (transcriptOf userId sessionId limit) row = decide (t.sessionId = sessionId) := by
  have hempty : (orText (some sessionId) []).isEmpty = false := by
    rw [orText_some hsession]
    simpa using hsession
  have hfields : row.type = .episodic ∧ row.sessionId = some t.sessionId := by
    obtain ⟨user, -, hsome⟩ := Option.bind_eq_some_iff.mp hrow
    split at hsome
    · cases hsome
      exact ⟨rfl, rfl⟩
    · cases hsome
  simp [MemoryTables.isSelected, transcriptOf, hempty, hfields.1, hfields.2]

/-- The rows that the summarizer selects are those of the session. -/
theorem map_toRecord_selected {id : Text} (huser : db.user? userId = some id) (hsession : sessionId ≠ [])
    (limit : ℕ) : (((stores.filterMap db.turnRow).filter fun row => row.userId = id).filter
        (db.isSelected (transcriptOf userId sessionId limit))).map MemoryRow.toRecord =
      sessionRecords .supabase lower now db stores userId sessionId := by
  rw [sessionRecords]
  induction stores with
  | nil => rfl
  | cons t stores ih =>
    rw [List.filterMap_cons, List.filter_cons, Implementation.keeps]
    cases hinserts : db.inserts t.context t.world with
    | none =>
      rw [MemoryTables.turnRow, hinserts, Option.isSome_none, Bool.false_and, Bool.false_and,
        if_neg Bool.false_ne_true]
      exact ih
    | some other =>
      have hsame := sameUser_of_inserts huser hinserts
      by_cases htakes : db.takesMemory t.content (some t.sessionId) t.metadata = true
      · have hrow : db.turnRow t = some ⟨t.world.id, other, some t.sessionId, .episodic, t.content,
            t.world.embedding, 1, t.metadata, t.world.now⟩ := by
          rw [MemoryTables.turnRow, hinserts, Option.bind_some, if_pos htakes]
        have hselected := isSelected_turnRow hsession userId limit hrow
        rw [hrow, htakes, Option.isSome_some, Bool.true_and, Bool.true_and,
          show (Implementation.supabase.memory lower now db).sameUser userId t.userId = _ from hsame]
        dsimp only
        by_cases hid : other = id
        · rw [List.filter_cons_of_pos (by simpa using hid), decide_eq_true hid, Bool.true_and,
            List.filter_cons, hselected]
          split
          · rw [List.map_cons, List.map_cons, ih]
            rfl
          · exact ih
        · rw [List.filter_cons_of_neg (by simpa using hid), decide_eq_false hid, Bool.false_and,
            if_neg Bool.false_ne_true]
          exact ih
      · have hrow : db.turnRow t = none := by
          rw [MemoryTables.turnRow, hinserts, Option.bind_some, if_neg htakes]
        rw [Bool.not_eq_true] at htakes
        rw [hrow, htakes, Bool.and_false, Bool.false_and, if_neg Bool.false_ne_true]
        exact ih

/-- There are no more rows than turns that were stored. -/
theorem length_turnRows : (stores.filterMap db.turnRow).length =
    (stores.filter (Implementation.supabase.keeps db)).length := by
  induction stores with
  | nil => rfl
  | cons t stores ih =>
    have hsome : Implementation.supabase.keeps db t = (db.turnRow t).isSome := by
      rw [Implementation.keeps, MemoryTables.turnRow]
      cases db.inserts t.context t.world with
      | none => rfl
      | some other =>
        rw [Option.bind_some]
        split <;> simp_all
    rw [List.filterMap_cons, List.filter_cons, hsome]
    cases db.turnRow t with
    | none => exact ih
    | some row => exact congrArg (· + 1) ih

/-- A text that denotes no user has stored nothing. -/
theorem sessionRecords_of_unknown (huser : db.user? userId = none) :
    sessionRecords .supabase lower now db stores userId sessionId = [] := by
  rw [sessionRecords, List.map_eq_nil_iff, List.filter_eq_nil_iff]
  intro t _ hstored
  obtain ⟨hkeeps, hsame⟩ := Bool.and_eq_true_iff.mp hstored
  obtain ⟨other, hinserts⟩ := Option.isSome_iff_exists.mp (Bool.and_eq_true_iff.mp hkeeps).1
  have howner : db.user? t.userId = some other := eq_of_inserts hinserts
  rcases Bool.or_eq_true_iff.mp (Bool.and_eq_true_iff.mp hsame).1 with heq | hboth
  · rw [← beq_iff_eq.mp heq, huser] at howner
    cases howner
  · rw [huser] at hboth
    cases hboth

/-- What the summarizer is told by the database. -/
theorem retrieves_supabase {s : MemoryDatabaseRows} {id : Text} (huser : db.user? userId = some id)
    (limit : ℕ) (result : List MemoryRecord) :
    db.Retrieves s (transcriptOf userId sessionId limit) result ↔ ∃ selected,
      Selects (fun row => (row.createdAt : ℚ)) limit ((s.memories.filter fun row => row.userId = id).filter
        (db.isSelected (transcriptOf userId sessionId limit))) selected ∧
          result = selected.map MemoryRow.toRecord := by
  have hall : MemoryTables.rowsOf s (fun _ => true) id = s.memories.filter fun row => row.userId = id :=
    List.filter_true _
  have hvisible : db.visible (transcriptOf userId sessionId limit).context = some fun _ => true := rfl
  have hknown : db.user? (transcriptOf userId sessionId limit).context.userId = some id := huser
  rw [MemoryTables.Retrieves, hvisible, hknown]
  dsimp only
  rw [hall]
  rfl

/-- **In the database** every transcript is complete. -/
theorem findsTranscript_supabase (hsession : sessionId ≠ []) :
    FindsTranscript .supabase lower now db stores userId sessionId := by
  intro limit hlimit
  have hrows : ((stores.map TurnStore.call).foldl db.apply ⟨[], []⟩).memories =
      stores.filterMap db.turnRow := memories_after _
  cases huser : db.user? userId with
  | none =>
    have htold : ∀ result, db.Retrieves ((stores.map TurnStore.call).foldl db.apply ⟨[], []⟩)
        (transcriptOf userId sessionId limit) result ↔ result = [] := by
      intro result
      have hunknown : db.user? (transcriptOf userId sessionId limit).context.userId = none := huser
      rw [MemoryTables.Retrieves, hunknown]
      rfl
    refine ⟨⟨[], (htold []).mpr rfl⟩, fun result hresult => ?_⟩
    rw [(htold result).mp hresult, sessionRecords_of_unknown huser]
  | some id =>
    have htold := fun result => @retrieves_supabase db userId sessionId
      ((stores.map TurnStore.call).foldl db.apply ⟨[], []⟩) id huser limit result
    rw [hrows] at htold
    refine ⟨?_, fun result hresult => ?_⟩
    · obtain ⟨selected, hselects⟩ := exists_selects (fun row : MemoryRow => (row.createdAt : ℚ)) limit
        (((stores.filterMap db.turnRow).filter fun row => row.userId = id).filter
          (db.isSelected (transcriptOf userId sessionId limit)))
      exact ⟨_, (htold _).mpr ⟨selected, hselects, rfl⟩⟩
    · obtain ⟨selected, hselects, rfl⟩ := (htold result).mp hresult
      rw [← map_toRecord_selected huser hsession limit]
      refine (selects_iff_perm ?_ hselects).map _
      refine le_trans ?_ hlimit
      rw [← length_turnRows]
      exact (List.length_filter_le _ _).trans (List.length_filter_le _ _)

/-! ## All implementations -/

/-- **Completeness of transcripts**: the summarizer finds what the turns have stored in a session exactly
in the database, and elsewhere when there is nothing to find. -/
theorem findsTranscript_iff (hsession : sessionId ≠ []) :
    FindsTranscript implementation lower now db stores userId sessionId ↔
      implementation = .supabase ∨ ∀ t ∈ stores, t.userId = userId → t.sessionId ≠ sessionId := by
  cases implementation with
  | inMemory =>
    refine (findsTranscript_iff_of_nil .inMemory (nomatch ·) fun limit result =>
      retrieves_inMemory hsession limit result).trans ?_
    simp
  | persisted =>
    refine (findsTranscript_iff_of_nil .persisted (nomatch ·) fun limit result =>
      retrieves_persisted hsession limit result).trans ?_
    simp
  | supabase =>
    exact iff_of_true (findsTranscript_supabase hsession) (Or.inl rfl)

/-- Ana says good night. -/
def goodNight : TurnStore :=
  ⟨lit "ana", lit "evening", by decide, lit "Good night", lit "trace_1", .user, {}⟩

theorem findsTranscript_iff_goodNight :
    FindsTranscript .persisted toLowerCase 0 emptyTables [goodNight] (lit "ana") (lit "morning") :=
  (findsTranscript_iff (by decide)).mpr (Or.inr fun t ht _ => by
    rw [List.mem_singleton.mp ht]
    decide)

/-- What Ana has said is not found. -/
theorem goodNight_not_found :
    ¬ FindsTranscript .persisted toLowerCase 0 emptyTables [goodNight] (lit "ana") (lit "evening") := by
  intro h
  have hsession : lit "evening" ≠ [] := by decide
  have hempty := (findsTranscript_iff_of_nil .persisted (nomatch ·) fun limit result =>
    retrieves_persisted hsession limit result).mp h
  exact hempty goodNight (List.mem_singleton_self _) rfl rfl

end DreamWeaver.Memory
