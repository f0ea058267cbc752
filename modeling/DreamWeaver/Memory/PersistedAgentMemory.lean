import DreamWeaver.Foundations.Disk
import DreamWeaver.Foundations.JsonIndent
import DreamWeaver.Foundations.Sections
import DreamWeaver.Foundations.Utf8
import DreamWeaver.Memory.LocalMemories

/-! # The memory in a file

`PersistedAgentMemory` (`api/src/infrastructure/memory/PersistedAgentMemory.ts`): the first call opens the
file, and each call that changes the memory writes all of it to a temporary file, which then gets the name
of the file. The calls interleave at the effects on files. What an outcome makes of scores that are not an
object of numbers is a parameter. -/

namespace DreamWeaver.Memory

open Proc

/-! ## What is stored -/

/-- The text of a `MemoryType`. -/
def MemoryType.text : MemoryType → Text
  | .episodic => lit "EPISODIC"
  | .semantic => lit "SEMANTIC"
  | .procedural => lit "PROCEDURAL"
  | .preference => lit "PREFERENCE"

/-- A memory as an object. -/
def MemoryRecord.data (m : MemoryRecord) : JsData :=
  .obj [(lit "id", .str m.id), (lit "type", .str m.type.text), (lit "content", .str m.content),
    (lit "confidence", .num (.ofExact m.confidence)),
    (lit "timestamp", .date (JsNumber.toDate (.finite m.timestamp))),
    (lit "metadata", m.metadata.elim .undefined fun fields => .obj (dataFields fields))]

/-- An object of numbers. -/
def numbers? : JsData → Option (Record JsNumber)
  | .obj fields => fields.mapM fun e =>
    match e.2 with
    | .num x => some (e.1, x)
    | _ => none
  | _ => none

/-- The fields `memories`, `themeScores` and `preferencePairs`. -/
structure StoredMemory where
  memories : JsData
  themeScores : JsData
  preferencePairs : JsData

/-- A method is called that the value has not. -/
def typeError : JsError := ⟨lit "TypeError", lit "is not a function"⟩

namespace StoredMemory

/-- The memory of a new object. -/
def empty : StoredMemory := ⟨.arr [], .obj [], .arr []⟩

/-- The memory without a file. -/
def fresh (now : ℤ) : StoredMemory :=
  ⟨.arr ((proceduralMemories now).map MemoryRecord.data), .obj [], .arr []⟩

/-- The memory that the data of a file hold. Older files have no scores and no pairs. -/
@[irreducible] def read (data : Bytes) : Except JsError StoredMemory :=
  match parseJson (decodeUtf8 data) with
  | .error error => .error error
  | .ok .null => .error typeError
  | .ok (.obj fields) =>
    let field key := (Record.get? (dataFields fields) key).getD .undefined
    .ok ⟨field (lit "memories"), (field (lit "themeScores")).orElse (.obj []),
      (field (lit "preferencePairs")).orElse (.arr [])⟩
  | .ok _ => .ok ⟨.undefined, .obj [], .arr []⟩

/-- `JSON.stringify(db, null, 2)` as it is written. -/
@[irreducible] def bytes (m : StoredMemory) : Bytes :=
  encodeUtf8 (((JsData.obj [(lit "memories", m.memories), (lit "themeScores", m.themeScores),
    (lit "preferencePairs", m.preferencePairs), (lit "version", .num (.finite 2))]).toJson).elim []
      (stringifyAt []))

/-- `array.push(value)` -/
def push (value : JsData) : JsData → Except JsError JsData
  | .arr items => .ok (.arr (items ++ [value]))
  | _ => .error typeError

/-- The memory after a call. -/
def change (oddScores : JsData → Text → Outcome → Option JsData) (m : StoredMemory) :
    MemoryCall → Except JsError StoredMemory
  | .store content type _ metadata world => do
    let memories ← push (storedRecord content type metadata world).data m.memories
    pure { m with memories := memories }
  | .trackOutcome theme outcome _ _ =>
    match numbers? m.themeScores with
    | some scores =>
      let themeScores := (MemoryDatabase.score scores theme outcome).map fun e => (e.1, JsData.num e.2)
      .ok { m with themeScores := .obj themeScores }
    | none =>
      match oddScores m.themeScores theme outcome with
      | some themeScores => .ok { m with themeScores := themeScores }
      | none => .error typeError
  | .trackPreferencePair winTheme loseTheme _ world => do
    let now := (JsNumber.toDate (.finite world.now)).elim [] toISOString
    let preferencePairs ← push (.obj [(lit "win", .str winTheme), (lit "lose", .str loseTheme),
      (lit "timestamp", .str now)]) m.preferencePairs
    pure { m with preferencePairs := preferencePairs }

theorem push_error {value v : JsData} {error : JsError} (h : push value v = .error error) :
    error = typeError := by
  unfold push at h
  split at h
  · exact nomatch h
  · exact (Except.error.inj h).symm

/-- A change fails only where a method is missing. -/
theorem change_error {oddScores : JsData → Text → Outcome → Option JsData} {m : StoredMemory}
    {call : MemoryCall} {error : JsError} (h : m.change oddScores call = .error error) :
    error = typeError := by
  cases call with
  | store content type context metadata world =>
    rw [change] at h
    cases hpush : push (storedRecord content type metadata world).data m.memories with
    | ok memories =>
      rw [hpush] at h
      exact nomatch h
    | error error' =>
      rw [hpush] at h
      exact (Except.error.inj h).symm.trans (push_error hpush)
  | trackOutcome theme outcome context world =>
    rw [change] at h
    split at h
    · exact nomatch h
    · split at h
      · exact nomatch h
      · exact (Except.error.inj h).symm
  | trackPreferencePair winTheme loseTheme context world =>
    rw [change] at h
    generalize hpush : push _ m.preferencePairs = pushed at h
    cases pushed with
    | ok pairs => exact nomatch h
    | error error' => exact (Except.error.inj h).symm.trans (push_error hpush)

end StoredMemory

/-! ## The calls -/

/-- `dbPath` and `tempPath` -/
inductive MemoryFile where
  | database
  | temporary
  deriving DecidableEq

/-- What the calls do between and at their awaits. -/
inductive PersistedEffect where
  | isInitialized
  /-- `JSON.parse(data)` and the assignments that follow. -/
  | load (data : Bytes)
  /-- The defaults are set, and what is to be persisted is written down. -/
  | startFresh (now : ℤ)
  | setInitialized
  /-- The memory is changed, and what is to be persisted is written down. -/
  | change (call : MemoryCall)
  | file (e : FileEffect MemoryFile)

/-- What they get. -/
@[reducible] def PersistedEffect.Reply : PersistedEffect → Type
  | .isInitialized => Bool
  | .startFresh _ => Bytes
  | .change _ => Bytes
  | .file e => e.Reply
  | _ => Unit

/-- A call, or a part of it. -/
abbrev PersistedProc := Proc PersistedEffect PersistedEffect.Reply

/-- What a call did. -/
abbrev PersistedEvent := Event PersistedEffect PersistedEffect.Reply

/-- An effect is awaited. -/
def effect (e : PersistedEffect) : PersistedProc e.Reply := perform e

/-- An effect on files is awaited. -/
def fileEffect (e : FileEffect MemoryFile) : PersistedProc e.Reply := perform (PersistedEffect.file e)

namespace PersistedAgentMemory

/-- The bytes of `fs.writeFile`, one after the other. -/
def putBytes (file : ℕ) : ℕ → Bytes → PersistedProc Unit
  | _, [] => pure ()
  | position, byte :: bytes => do
    let _ ← fileEffect (.put file position byte)
    putBytes file (position + 1) bytes

/-- `fs.writeFile` -/
def writeFile (name : MemoryFile) (bytes : Bytes) : PersistedProc Unit := do
  let file ← fileEffect (.create name)
  putBytes file 0 bytes

/-- What `persist` does when the file cannot be written: the temporary file is removed, if it can be. -/
def giveUp (error : JsError) : PersistedProc Unit := do
  (fileEffect (.unlink .temporary)).catchWith fun _ => pure ()
  throw error

/-- `persist` of what was written down. -/
def persist (bytes : Bytes) : PersistedProc Unit :=
  Proc.catchWith (do
    writeFile .temporary bytes
    fileEffect (.rename .temporary .database)) giveUp

/-- The body of the `try` of `init`. -/
def readDatabase : PersistedProc Unit := do
  let _ ← fileEffect .mkdir
  let data ← fileEffect (.read .database)
  effect (.load data)

/-- The body of the `catch` of `init`. -/
def startFresh (now : ℤ) : PersistedProc Unit := do
  let bytes ← effect (.startFresh now)
  persist bytes

/-- `init` -/
def init (now : ℤ) : PersistedProc Unit := do
  let initialized ← effect .isInitialized
  match (initialized : Bool) with
  | true => pure ()
  | false => do
    readDatabase.catchWith fun _ => startFresh now
    effect .setInitialized

/-- `store`, `trackOutcome` and `trackPreferencePair` -/
def mutate (now : ℤ) (call : MemoryCall) : PersistedProc Unit := do
  init now
  let bytes ← effect (.change call)
  persist bytes

end PersistedAgentMemory

/-! ## The state -/

/-- The fields of `PersistedAgentMemory`, and the disk. -/
structure PersistedAgentMemory where
  memory : StoredMemory
  initialized : Bool
  disk : Disk MemoryFile

/-- What an effect makes of the state. -/
def persistedEnv (oddScores : JsData → Text → Outcome → Option JsData) :
    Env PersistedAgentMemory PersistedEffect PersistedEffect.Reply
  | s, .isInitialized, reply, s' => reply = .ok s.initialized ∧ s' = s
  | s, .load data, reply, s' =>
    match StoredMemory.read data with
    | .ok memory => reply = .ok () ∧ s' = { s with memory := memory }
    | .error error => reply = .error error ∧ s' = s
  | s, .startFresh now, reply, s' =>
    reply = .ok (StoredMemory.fresh now).bytes ∧ s' = { s with memory := .fresh now }
  | s, .setInitialized, reply, s' => reply = .ok () ∧ s' = { s with initialized := true }
  | s, .change call, reply, s' =>
    match s.memory.change oddScores call with
    | .ok memory => reply = .ok memory.bytes ∧ s' = { s with memory := memory }
    | .error error => reply = .error error ∧ s' = s
  | s, .file e, reply, s' => ∃ disk, s.disk.Answers e reply disk ∧ s' = { s with disk := disk }

end DreamWeaver.Memory
