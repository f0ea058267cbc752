import DreamWeaver.Foundations.Decimal
import DreamWeaver.Foundations.IsoDate

/-! # The event bus and its table

`SupabaseEventBus` (`api/src/infrastructure/events/SupabaseEventBus.ts`) collects published events in a
queue and inserts the queue into the table `domain_events`
(`supabase/migrations/20260128000000_init_schema.sql`) as one batch, when it has 25 events or half a
second after the first. An insert is one statement: all rows or none. Other processes insert events too,
and the bus hears of every row of the table. -/

namespace DreamWeaver.Events

/-! ## The table -/

/-- The bytes of a UUID, from two hexadecimal digits each; a hyphen may follow every second byte but the
last. -/
def readUuidBytes : ℕ → Text → Option (List ℕ × Text)
  | 0, s => some ([], s)
  | n + 1, high :: low :: s =>
    if isDigit 16 high && isDigit 16 low then
      let s' := if n % 2 = 0 && n != 0 && s.head? == some 45 then s.tail else s
      (readUuidBytes n s').map fun (bytes, rest) =>
        ((digitValue high * 16 + digitValue low) :: bytes, rest)
    else none
  | _ + 1, _ => none

/-- The value of a text as a `UUID`, with braces around it or without. -/
def readUuid (s : Text) : Option (List ℕ) :=
  match s with
  | 123 :: s =>
    match readUuidBytes 16 s with
    | some (bytes, [125]) => some bytes
    | _ => none
  | s =>
    match readUuidBytes 16 s with
    | some (bytes, []) => some bytes
    | _ => none

/-- A row of `domain_events`, as it is given to `insert`. -/
structure EventRow where
  id : Text
  userId : Option Text
  requestId : Text
  traceId : Option Text
  type : Text
  payload : Json
  occurredAt : Text

/-- The primary key of a row. -/
def EventRow.key (row : EventRow) : Option (List ℕ) := readUuid row.id

/-- What the table depends on: who is in `auth.users`, and whether the columns that hold texts and
documents take the values of a row. -/
structure Database where
  users : List ℕ → Bool
  takes : EventRow → Bool

/-- The row satisfies the types and the references of its columns. -/
def Database.fits (db : Database) (row : EventRow) : Bool :=
  row.key.isSome && (row.userId.all fun userId => (readUuid userId).any db.users) && db.takes row

variable {db : Database}

/-- The rows of the table, with its constraints. -/
structure DomainEvents (db : Database) where
  rows : List EventRow
  fits : ∀ row ∈ rows, db.fits row = true
  distinct : (rows.map EventRow.key).Nodup

/-- The rows can be inserted. -/
def DomainEvents.Admits (table : DomainEvents db) (batch : List EventRow) : Prop :=
  (∀ row ∈ batch, db.fits row = true) ∧ ((table.rows ++ batch).map EventRow.key).Nodup

instance (table : DomainEvents db) (batch : List EventRow) : Decidable (table.Admits batch) :=
  inferInstanceAs (Decidable (_ ∧ _))

/-- One `INSERT` of several rows: all of them or none. -/
def DomainEvents.insert (table : DomainEvents db) (batch : List EventRow) : DomainEvents db :=
  if h : table.Admits batch then
    { rows := table.rows ++ batch
      fits := fun row hrow => (List.mem_append.mp hrow).elim (table.fits row) (h.1 row)
      distinct := h.2 }
  else table

/-! ## The bus -/

/-- `DomainEvent`; the timestamp is `none` for an invalid date. -/
structure DomainEvent where
  id : Text
  requestId : Text
  traceId : Option Text
  type : Text
  payload : Json
  timestamp : Option Time

/-- `payload['userId']`, if it is a string. -/
def payloadUserId : Json → Option Text
  | .obj fields =>
    match Json.field? fields (lit "userId") with
    | some (.str userId) => some userId
    | _ => none
  | _ => none

/-- The row of an event; `toISOString` throws for an invalid date. -/
def DomainEvent.toRow (event : DomainEvent) : Option EventRow :=
  event.timestamp.map fun timestamp => {
    id := event.id
    userId := payloadUserId event.payload
    requestId := event.requestId
    traceId := event.traceId
    type := event.type
    payload := event.payload
    occurredAt := toISOString timestamp }

/-- The fields of the bus; `flushTimer` says whether the timer is set. -/
structure SupabaseEventBus where
  processedEventIds : List Text := []
  eventQueue : List EventRow := []
  flushTimer : Bool := false

/-- The ids with one more; of more than 2000 the oldest 500 are forgotten. -/
def remember (id : Text) (ids : List Text) : List Text :=
  if 2000 < (ids ++ [id]).length then (ids ++ [id]).drop 500 else ids ++ [id]

/-- The bus, the batches whose `insert` is awaited, and the table. -/
structure EventSystem (db : Database) where
  bus : SupabaseEventBus
  inFlight : List (List EventRow)
  table : DomainEvents db

namespace EventSystem

/-- `flushEvents`, up to the `insert`. -/
def flushEvents (s : EventSystem db) : EventSystem db :=
  match s.bus.eventQueue with
  | [] => { s with bus := { s.bus with flushTimer := false } }
  | row :: queue =>
    { s with
      bus := { s.bus with eventQueue := [], flushTimer := false }
      inFlight := s.inFlight ++ [row :: queue] }

/-- The bus with one more row: a full queue is flushed, and a timer is set for one that is not. -/
def enqueue (s : EventSystem db) (row : EventRow) : EventSystem db :=
  let queue := s.bus.eventQueue ++ [row]
  if 25 ≤ queue.length then ({ s with bus := { s.bus with eventQueue := queue } }).flushEvents
  else { s with bus := { s.bus with eventQueue := queue, flushTimer := true } }

/-- `publish`, up to the first await. -/
def publish (s : EventSystem db) (event : DomainEvent) : EventSystem db :=
  if event.id ∈ s.bus.processedEventIds then s
  else
    let s' := { s with bus := { s.bus with
      processedEventIds := remember event.id s.bus.processedEventIds } }
    match event.toRow with
    | none => s'
    | some row => s'.enqueue row

/-- The reply to the `insert` of a batch: a batch that the table does not admit, or whose insert fails
for another reason, is logged. -/
def reply (s : EventSystem db) (k : ℕ) (batch : List EventRow) (fails : Bool) : EventSystem db :=
  { s with
    inFlight := s.inFlight.eraseIdx k
    table := if fails then s.table else s.table.insert batch }

end EventSystem

/-! ## Runs -/

/-- What happens to the bus and its table. -/
inductive Action where
  | publish (event : DomainEvent)
  | timer
  /-- The insert of the batch at a position is answered. -/
  | reply (position : ℕ) (fails : Bool)
  /-- Another process inserts a row. -/
  | insertElsewhere (row : EventRow)
  /-- The bus hears of a row of the table. -/
  | notice (id : Text)

/-- The system after an action, if it can happen. -/
def EventSystem.step (s : EventSystem db) : Action → Option (EventSystem db)
  | .publish event => some (s.publish event)
  | .timer => if s.bus.flushTimer then some s.flushEvents else none
  | .reply k fails => s.inFlight[k]?.map fun batch => s.reply k batch fails
  | .insertElsewhere row => some { s with table := s.table.insert [row] }
  | .notice id =>
    if readUuid id ∈ s.table.rows.map EventRow.key then
      if id ∈ s.bus.processedEventIds then some s
      else some { s with bus := { s.bus with processedEventIds := s.bus.processedEventIds ++ [id] } }
    else none

/-- The system after actions. -/
def EventSystem.run (s : EventSystem db) : List Action → Option (EventSystem db)
  | [] => some s
  | action :: actions => (s.step action).bind fun s' => s'.run actions

end DreamWeaver.Events
