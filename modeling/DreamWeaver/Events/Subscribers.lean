import DreamWeaver.Events.SupabaseEventBus
import DreamWeaver.Foundations.Transitions

/-! # The subscribers of the event bus

`subscribe` of `SupabaseEventBus`, and how `publish` and the realtime channel of the table notify the
handlers of an event, one after the other, each awaited. A `Set` is iterated in the order of insertion:
what is deleted before its turn is skipped, what is added is visited. -/

namespace DreamWeaver.Events

/-! ## Sets of handlers -/

/-- A handler, by its identity. -/
abbrev Handler := ℕ

/-- A `Set` of handlers: its entries in the order of insertion; a deleted entry leaves a gap. -/
abbrev HandlerSet := List (Option Handler)

namespace HandlerSet

/-- `handlers.add(handler)` -/
def add (handlers : HandlerSet) (handler : Handler) : HandlerSet :=
  if some handler ∈ handlers then handlers else handlers ++ [some handler]

/-- `handlers.delete(handler)` -/
def delete (handlers : HandlerSet) (handler : Handler) : HandlerSet :=
  handlers.map fun entry => if entry = some handler then none else entry

/-- The iteration goes on: the first entry from a position on, and the position behind it. -/
def next : HandlerSet → ℕ → Option (Handler × ℕ)
  | [], _ => none
  | some handler :: _, 0 => some (handler, 1)
  | none :: handlers, 0 => (next handlers 0).map fun e => (e.1, e.2 + 1)
  | _ :: handlers, position + 1 => (next handlers position).map fun e => (e.1, e.2 + 1)

end HandlerSet

/-! ## The bus with its handlers -/

/-- How the `insert` of a batch is answered. -/
inductive InsertReply where
  | inserted
  /-- It resolves with an error, which is logged. -/
  | failed
  | rejected
  deriving DecidableEq

/-- The bus, the handlers of each type of event, the batches whose `insert` is awaited with the event
whose `publish` awaits it, the notifications that await a handler with the position behind it, and the
invocations so far. -/
structure NotifyingBus where
  bus : SupabaseEventBus := {}
  handlers : Text → HandlerSet := fun _ => []
  inserting : List (List EventRow × Option DomainEvent) := []
  notifying : List (DomainEvent × ℕ) := []
  invoked : List (Handler × DomainEvent) := []

/-- `new Date(text)` of a text that names a date. -/
abbrev DateParser := Text → Option Time

/-- The event that the realtime channel makes of a row. -/
def EventRow.toEvent (parseDate : DateParser) (row : EventRow) : DomainEvent where
  id := row.id
  requestId := row.requestId
  traceId := row.traceId
  type := row.type
  payload := row.payload
  timestamp := parseDate row.occurredAt

namespace NotifyingBus

/-- `notifyLocalSubscribers`, from a position on up to the next await. -/
def notify (s : NotifyingBus) (event : DomainEvent) (position : ℕ) : NotifyingBus :=
  match (s.handlers event.type).next position with
  | none => s
  | some (handler, position') =>
    { s with
      notifying := s.notifying ++ [(event, position')]
      invoked := s.invoked ++ [(handler, event)] }

/-- `publish`, up to the first await: a full queue is flushed before the handlers are notified. -/
def publish (s : NotifyingBus) (event : DomainEvent) : NotifyingBus :=
  if event.id ∈ s.bus.processedEventIds then s
  else
    let ids := remember event.id s.bus.processedEventIds
    match event.toRow with
    | none => { s with bus := { s.bus with processedEventIds := ids } }
    | some row =>
      let queue := s.bus.eventQueue ++ [row]
      if 25 ≤ queue.length then
        { s with
          bus := { processedEventIds := ids, eventQueue := [], flushTimer := false }
          inserting := s.inserting ++ [(queue, some event)] }
      else
        ({ s with bus := { processedEventIds := ids, eventQueue := queue, flushTimer := true } } :
          NotifyingBus).notify event 0

/-- The timer flushes the queue. -/
def timer (s : NotifyingBus) : NotifyingBus :=
  match s.bus.eventQueue with
  | [] => { s with bus := { s.bus with flushTimer := false } }
  | row :: queue =>
    { s with
      bus := { s.bus with eventQueue := [], flushTimer := false }
      inserting := s.inserting ++ [(row :: queue, none)] }

/-- The `insert` that an event's `publish` awaits, or that none does, is answered: a rejection ends the
`publish`, which logs it. -/
def answered (s : NotifyingBus) (k : ℕ) (waiting : Option DomainEvent) (reply : InsertReply) :
    NotifyingBus :=
  let s' := { s with inserting := s.inserting.eraseIdx k }
  match waiting, reply with
  | none, _ => s'
  | some _, .rejected => s'
  | some event, _ => s'.notify event 0

/-- The realtime channel hears of a row. -/
def echo (parseDate : DateParser) (s : NotifyingBus) (row : EventRow) : NotifyingBus :=
  if row.id = [] ∨ row.id ∈ s.bus.processedEventIds then s
  else
    ({ s with bus := { s.bus with processedEventIds := s.bus.processedEventIds ++ [row.id] } } :
      NotifyingBus).notify (row.toEvent parseDate) 0

end NotifyingBus

/-! ## Runs -/

/-- What happens to the bus. -/
inductive BusAction where
  | subscribe (type : Text) (handler : Handler)
  | unsubscribe (type : Text) (handler : Handler)
  | publish (event : DomainEvent)
  | timer
  /-- The `insert` at a position is answered. -/
  | answer (position : ℕ) (reply : InsertReply)
  /-- The channel hears of a row. -/
  | echo (row : EventRow)
  /-- The handler that the notification at a position awaits has resolved or rejected. -/
  | handled (position : ℕ)

/-- The bus after an action, if it can happen. -/
def NotifyingBus.step (parseDate : DateParser) (s : NotifyingBus) : BusAction → Option NotifyingBus
  | .subscribe type handler =>
    some { s with handlers := Function.update s.handlers type ((s.handlers type).add handler) }
  | .unsubscribe type handler =>
    some { s with handlers := Function.update s.handlers type ((s.handlers type).delete handler) }
  | .publish event => some (s.publish event)
  | .timer => if s.bus.flushTimer then some s.timer else none
  | .answer k reply => s.inserting[k]?.map fun batch => s.answered k batch.2 reply
  | .echo row => some (s.echo parseDate row)
  | .handled k => s.notifying[k]?.map fun n =>
      ({ s with notifying := s.notifying.eraseIdx k } : NotifyingBus).notify n.1 n.2

end DreamWeaver.Events
