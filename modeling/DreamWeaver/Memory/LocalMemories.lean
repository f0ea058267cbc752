import DreamWeaver.Memory.AgentMemoryPort
import DreamWeaver.Foundations.JsonWriter

/-! # Memories of one process

`InMemoryAgentMemory` (`api/src/infrastructure/memory/InMemoryAgentMemory.ts`) and the database that
`PersistedAgentMemory` (`api/src/infrastructure/memory/PersistedAgentMemory.ts`) keeps in memory and writes
to its file. Both begin with two procedural memories. What `toLowerCase` does is a parameter. -/

namespace DreamWeaver.Memory

/-! ## Scores -/

/-- What an outcome adds to a score. -/
def Outcome.delta : Outcome → JsNumber
  | .positive => .finite 1
  | .negative => .finite (-1 / 2)

/-- `x || 1.0` -/
def orOne : Option JsNumber → JsNumber
  | none => .finite 1
  | some .nan => .finite 1
  | some x => if x = .finite 0 then .finite 1 else x

/-- `Math.round(x * 10) / 10` -/
def roundTenth (x : JsNumber) : JsNumber := (x.mul (.finite 10)).round.div (.finite 10)

/-- An entry is set: it keeps its place, or comes last. -/
def setEntry (entries : Record JsNumber) (key : Text) (value : JsNumber) : Record JsNumber :=
  if (entries.get? key).isSome then entries.map fun e => if e.1 = key then (key, value) else e
  else entries ++ [(key, value)]

/-- `(a, b) => b.score - a.score`: an entry stays before another unless the other's score is larger. -/
def notAfter (a b : ThemeScore) : Bool :=
  match b.score.sub a.score with
  | .finite x => x ≤ 0
  | .posInfinity => false
  | _ => true

/-- `getThemeStats` of entries. -/
def topScores (entries : Record JsNumber) (limit : ℕ) : List ThemeScore :=
  ((entries.map fun e => (⟨e.1, e.2⟩ : ThemeScore)).mergeSort notAfter).take limit

/-! ## Searching -/

/-- The condition of `retrieve` on a memory. -/
def isRetrieved (lower : Text → Text) (r : Retrieval) (m : MemoryRecord) : Bool :=
  (r.type.all fun type => decide (m.type = type)) &&
    ((!decide (r.type = some .episodic) || (orText r.context.sessionId []).isEmpty ||
      match (m.metadata.getD []).get? (lit "sessionId") with
      | some (.str sessionId) => some sessionId = r.context.sessionId
      | _ => false) &&
    (decide (r.query = lit "*") || includes (lower m.content) (lower r.query)))

/-- The two memories that a new memory begins with. -/
def proceduralMemories (now : ℤ) : List MemoryRecord :=
  [⟨lit "proc_1", .procedural, lit "If time is past 8 PM, bias towards CALMING themes.", 9 / 10, now, none⟩,
    ⟨lit "proc_2", .procedural, lit "If child age < 5, limit story duration to SHORT.", 19 / 20, now, none⟩]

/-! ## In memory -/

/-- The fields of `InMemoryAgentMemory`. -/
structure InMemoryAgentMemory where
  memories : List MemoryRecord
  themeScores : Record JsNumber

namespace InMemoryAgentMemory

/-- `trackOutcome` on the scores. -/
def score (scores : Record JsNumber) (theme : Text) (outcome : Outcome) : Record JsNumber :=
  setEntry scores theme ((orOne (scores.get? theme)).add outcome.delta)

/-- The memory after a call. -/
def apply (s : InMemoryAgentMemory) : MemoryCall → InMemoryAgentMemory
  | .store content type _ metadata world => { s with
      memories := s.memories ++ [storedRecord content type metadata world] }
  | .trackOutcome theme outcome _ _ => { s with themeScores := score s.themeScores theme outcome }
  | .trackPreferencePair _ _ _ _ => s

/-- `retrieve` -/
def retrieve (lower : Text → Text) (s : InMemoryAgentMemory) (r : Retrieval) : List MemoryRecord :=
  (s.memories.filter (isRetrieved lower r)).take r.limit

/-- `getThemeStats` -/
def getThemeStats (s : InMemoryAgentMemory) (r : StatsRequest) : List ThemeScore :=
  topScores s.themeScores r.limit

end InMemoryAgentMemory

/-- The memory of a process that starts at a time. -/
def inMemory (lower : Text → Text) (now : ℤ) : AgentMemory where
  State := InMemoryAgentMemory
  start := ⟨proceduralMemories now, []⟩
  builtIn := proceduralMemories now
  sameUser := (· == ·)
  apply := InMemoryAgentMemory.apply
  retrieves s r result := result = s.retrieve lower r
  themeStats s r result := result = s.getThemeStats r

/-! ## In a file -/

/-- `{ win: string, lose: string, timestamp: string }` -/
structure PreferencePair where
  win : Text
  lose : Text
  timestamp : ℤ
  deriving DecidableEq

/-- `MemoryDatabase`, which has always the same version. -/
structure MemoryDatabase where
  memories : List MemoryRecord
  themeScores : Record JsNumber
  preferencePairs : List PreferencePair

/-- What every object inherits. -/
def objectPrototype : List Text :=
  [lit "constructor", lit "__defineGetter__", lit "__defineSetter__", lit "hasOwnProperty",
    lit "__lookupGetter__", lit "__lookupSetter__", lit "isPrototypeOf", lit "propertyIsEnumerable",
    lit "toString", lit "valueOf", lit "__proto__", lit "toLocaleString"]

namespace MemoryDatabase

/-- `trackOutcome` on the scores: what a plain object inherits is no number, its sum with one is a text,
and that text is no number either; `__proto__` can be set to objects only. -/
def score (scores : Record JsNumber) (theme : Text) (outcome : Outcome) : Record JsNumber :=
  match scores.get? theme with
  | some score => setEntry scores theme (roundTenth ((JsNumber.orZero (some score)).add outcome.delta))
  | none =>
    if theme ∈ objectPrototype then
      if theme = lit "__proto__" then scores else setEntry scores theme .nan
    else setEntry scores theme (roundTenth ((JsNumber.orZero none).add outcome.delta))

/-- The database after a call. -/
def apply (db : MemoryDatabase) : MemoryCall → MemoryDatabase
  | .store content type _ metadata world => { db with
      memories := db.memories ++ [storedRecord content type metadata world] }
  | .trackOutcome theme outcome _ _ => { db with themeScores := score db.themeScores theme outcome }
  | .trackPreferencePair winTheme loseTheme _ world => { db with
      preferencePairs := db.preferencePairs ++ [⟨winTheme, loseTheme, world.now⟩] }

/-- `retrieve` -/
def retrieve (lower : Text → Text) (db : MemoryDatabase) (r : Retrieval) : List MemoryRecord :=
  ((db.memories.filter (isRetrieved lower r)).mergeSort fun a b => b.timestamp ≤ a.timestamp).take r.limit

/-- `getThemeStats` -/
def getThemeStats (db : MemoryDatabase) (r : StatsRequest) : List ThemeScore :=
  topScores (ownOrder db.themeScores) r.limit

/-- The database of a memory whose file is missing. -/
def fresh (now : ℤ) : MemoryDatabase := ⟨proceduralMemories now, [], []⟩

end MemoryDatabase

/-- The memory of a process whose file is missing when it starts, and can be written. -/
def persisted (lower : Text → Text) (now : ℤ) : AgentMemory where
  State := MemoryDatabase
  start := .fresh now
  builtIn := proceduralMemories now
  sameUser := (· == ·)
  apply := MemoryDatabase.apply
  retrieves s r result := result = s.retrieve lower r
  themeStats s r result := result = s.getThemeStats r

end DreamWeaver.Memory
