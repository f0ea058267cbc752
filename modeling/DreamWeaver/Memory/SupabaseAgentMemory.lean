import DreamWeaver.Memory.AgentMemoryPort

/-! # Memories in a database

`SupabaseAgentMemory` (`api/src/infrastructure/memory/SupabaseAgentMemory.ts`) over the tables
`agent_memories` and `theme_outcomes` and the view `theme_scores`
(`supabase/migrations/20260128000002_logic.sql`). The policies of the tables let a client with a token see
and insert the rows of the user of the token only; without a token the client sees all rows, and so does
the view. -/

namespace DreamWeaver.Memory

/-! ## The tables -/

/-- What the tables and the searches depend on. -/
structure MemoryTables where
  /-- The user that a text denotes, by the id that the table `auth.users` has for it. -/
  user? : Text → Option Text
  /-- `auth.uid()` of a token. -/
  uid : Text → Option Text
  /-- The key that a client with a token needs is configured. -/
  hasAnonKey : Bool
  /-- The columns take the content, the session and the metadata of a memory. -/
  takesMemory : Text → Option Text → Option (Record Json) → Bool
  /-- The column takes the theme of an outcome. -/
  takesTheme : Text → Bool
  /-- `content ILIKE '%query%'` -/
  ilike : Text → Text → Bool
  /-- The distance of embeddings. -/
  distance : Embedding → Embedding → ℚ

/-- A row of `agent_memories`. -/
structure MemoryRow where
  id : Text
  userId : Text
  sessionId : Option Text
  type : MemoryType
  content : Text
  embedding : Option Embedding
  confidence : ℚ
  metadata : Option (Record Json)
  createdAt : ℤ

/-- A row of `theme_outcomes`. -/
structure OutcomeRow where
  userId : Text
  theme : Text
  outcome : Outcome
  deriving DecidableEq

/-- The tables that the memory reads. -/
structure MemoryDatabaseRows where
  memories : List MemoryRow
  outcomes : List OutcomeRow

/-- `ORDER BY key DESC LIMIT limit`: the order of rows with the same key is free. -/
def Selects {α : Type} (key : α → ℚ) (limit : ℕ) (rows result : List α) : Prop :=
  ∃ sorted : List α, sorted.Perm rows ∧ sorted.Pairwise (fun a b => key b ≤ key a) ∧
    result = sorted.take limit

/-- The record of a row. -/
def MemoryRow.toRecord (row : MemoryRow) : MemoryRecord :=
  ⟨row.id, row.type, row.content, row.confidence, row.createdAt, row.metadata⟩

/-- The rows of the view `theme_scores` for a user, in the order in which their themes came. -/
def themeScores (outcomes : List OutcomeRow) (user : Text) : List (Text × ℚ) :=
  let own := outcomes.filter fun row => row.userId = user
  (own.map OutcomeRow.theme).dedup.map fun theme =>
    (theme, ((own.filter fun row => row.theme = theme).map fun row =>
      if row.outcome = .positive then (1 : ℚ) else -1 / 2).sum)

/-! ## The memory -/

namespace MemoryTables

variable (db : MemoryTables)

/-- The users whose rows the client of a context may see, `none` if there is no client. -/
def visible (context : AgentContext) : Option (Text → Bool) :=
  match orText context.accessToken [] with
  | [] => some fun _ => true
  | token => if db.hasAnonKey then some fun user => db.uid token = some user else none

/-- The user whose rows a call may insert. -/
def inserts (context : AgentContext) (world : CallWorld) : Option Text :=
  match db.user? context.userId, db.visible context with
  | some user, some visible => if visible user ∧ world.answered then some user else none
  | _, _ => none

/-- The tables after a call. -/
def apply (s : MemoryDatabaseRows) : MemoryCall → MemoryDatabaseRows
  | .store content type context metadata world =>
    match db.inserts context world with
    | some user =>
      let sessionId := context.sessionId.filter fun text => !text.isEmpty
      if db.takesMemory content sessionId metadata then
        { s with memories := s.memories ++
            [⟨world.id, user, sessionId, type, content, world.embedding, 1, metadata, world.now⟩] }
      else s
    | none => s
  | .trackOutcome theme outcome context world =>
    match db.inserts context world with
    | some user =>
      if db.takesTheme theme then { s with outcomes := s.outcomes ++ [⟨user, theme, outcome⟩] } else s
    | none => s
  | .trackPreferencePair _ _ _ _ => s

/-- The rows of a user that a client sees. -/
def rowsOf (s : MemoryDatabaseRows) (visible : Text → Bool) (user : Text) : List MemoryRow :=
  (s.memories.filter fun row => row.userId = user).filter fun row => visible row.userId

/-- The result of `match_memories`. -/
def MatchesMemories (rows : List MemoryRow) (embedding : Embedding) (limit : ℕ)
    (result : List MemoryRow) : Prop :=
  Selects (fun row => -db.distance (row.embedding.getD []) embedding) limit
    (rows.filter fun row => row.embedding.isSome) result

/-- The condition of the search by keywords on a row. -/
def isSelected (r : Retrieval) (row : MemoryRow) : Bool :=
  (r.type.all fun type => decide (row.type = type)) &&
    ((!decide (r.type = some .episodic) || (orText r.context.sessionId []).isEmpty ||
      decide (row.sessionId = r.context.sessionId)) &&
    (r.query.isEmpty || decide (r.query = lit "*") || db.ilike row.content r.query))

/-- The result of the search by keywords. -/
def SearchesKeywords (rows : List MemoryRow) (r : Retrieval) (result : List MemoryRecord) : Prop :=
  if r.answered then ∃ selected,
    Selects (fun row => (row.createdAt : ℚ)) r.limit (rows.filter (db.isSelected r)) selected ∧
      result = selected.map MemoryRow.toRecord
  else result = []

/-- `retrieve` on the rows of the user that the client sees. -/
def RetrievesFrom (rows : List MemoryRow) (r : Retrieval) (result : List MemoryRecord) : Prop :=
  match if r.query.isEmpty ∨ r.query = lit "*" ∨ !r.rpcAnswered then none else r.embedding with
  | none => db.SearchesKeywords rows r result
  | some embedding => ∃ found, db.MatchesMemories rows embedding r.limit found ∧
      if found.isEmpty then db.SearchesKeywords rows r result
      else result = (found.filter fun row => r.type.all fun type => decide (row.type = type)).map
        MemoryRow.toRecord

/-- `retrieve`: a user id that denotes no user has no rows, and without a client the call rejects. -/
def Retrieves (s : MemoryDatabaseRows) (r : Retrieval) (result : List MemoryRecord) : Prop :=
  match db.visible r.context, db.user? r.context.userId with
  | none, _ => False
  | some _, none => result = []
  | some visible, some user => db.RetrievesFrom (rowsOf s visible user) r result

/-- `getThemeStats` -/
def ThemeStats (s : MemoryDatabaseRows) (r : StatsRequest) (result : List ThemeScore) : Prop :=
  match db.visible r.context, db.user? r.context.userId with
  | none, _ => False
  | some _, none => result = []
  | some _, some user =>
    if r.answered then ∃ selected, Selects Prod.snd r.limit (themeScores s.outcomes user) selected ∧
      result = selected.map fun row => ⟨row.1, JsNumber.ofExact row.2⟩
    else result = []

end MemoryTables

/-- The memory in a database whose tables are empty. -/
def supabase (db : MemoryTables) : AgentMemory where
  State := MemoryDatabaseRows
  start := ⟨[], []⟩
  builtIn := []
  sameUser a b := a == b || ((db.user? a).isSome && db.user? a == db.user? b)
  apply := db.apply
  retrieves := db.Retrieves
  themeStats := db.ThemeStats

end DreamWeaver.Memory
