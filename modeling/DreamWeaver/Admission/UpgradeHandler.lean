import DreamWeaver.Admission.RateLimit
import DreamWeaver.Foundations.Interleaving
import DreamWeaver.Tickets.SupabaseTicketStore

/-! # Upgrades to WebSockets

The handler of upgrade requests (`api/src/index.ts`), and the server it runs in: the store of tickets, in
memory or in a table, the rate limits, and the other calls that issue, consume and sweep tickets. The
handler awaits the rate limiter; then it starts a task of its own, which awaits the validation of the
ticket. What `URL` makes of the text of a request is a parameter. -/

namespace DreamWeaver.Admission

open Tickets

/-! ## Requests -/

/-- What the handler reads of a parsed URL; `ticket` is its first search parameter of this name. -/
structure RequestUrl where
  pathname : Text
  ticket : Option Text

/-- What the handler depends on; `parseUrl` is `none` where `new URL` throws. -/
structure UpgradeSettings where
  parseUrl : Text → Option RequestUrl
  allowedOrigins : List Text
  isProduction : Bool

/-- What the handler reads of a request; the names of headers are in lower case. -/
structure UpgradeRequest where
  url : Text
  headers : Record Text
  remoteAddress : Option Text

/-- The path of the live sessions. -/
def livePath : Text := lit "/api/v1/live/ws"

/-- The path of the events. -/
def eventsPath : Text := lit "/api/v1/events/ws"

/-- `clientIp` -/
def UpgradeRequest.clientIp (request : UpgradeRequest) : Text :=
  orText (some (extractClientIp request.headers.get?)) (orText request.remoteAddress (lit "unknown"))

/-- The origin is present and one of those that are allowed. -/
def UpgradeRequest.hasAllowedOrigin (settings : UpgradeSettings) (request : UpgradeRequest) : Bool :=
  (request.headers.get? (lit "origin")).any fun origin =>
    !origin.isEmpty && decide (origin ∈ settings.allowedOrigins)

/-- The ticket of the protocols of a request: `'ticket.' + ticket`. -/
def ticketOfProtocols (protocols : Text) : Option Text :=
  (((protocols.splitOn 44).map trim).find? fun p => (lit "ticket.").isPrefixOf p).bind fun p =>
    (p.splitOn 46)[1]?

/-- `ticket`: that of the protocols, or else, outside production, that of the URL. -/
def UpgradeRequest.ticket (settings : UpgradeSettings) (url : RequestUrl) (request : UpgradeRequest) :
    Option Text :=
  let ofUrl := if settings.isProduction then none else url.ticket
  let ofProtocols := ((request.headers.get? (lit "sec-websocket-protocol")).filter fun text =>
    !text.isEmpty).bind ticketOfProtocols
  (ofProtocols.or ofUrl).filter fun ticket => !ticket.isEmpty

/-! ## The handler -/

/-- What the calls on the server await, and what they do to a socket. -/
inductive UpgradeEffect where
  /-- `increment` of the store of rate limits. -/
  | increment (key : Text)
  | validate (ticket : Text)
  | issue (userId : Text)
  /-- What the store of tickets does by itself: a sweep, the statement of a call of `issue`, or nothing. -/
  | upkeep
  /-- `handleUpgrade` of the server for live sessions or for events, with the user of the request: whether
  it emits a connection. -/
  | handleUpgrade (isLive : Bool) (userId : Text)
  /-- A status line is written, and the socket destroyed. -/
  | refuse (status : Text)
  | destroy

/-- The values that effects resolve with. -/
abbrev UpgradeEffect.Reply : UpgradeEffect → Type
  | .increment _ => RateCount
  | .validate _ => Option Text
  | .handleUpgrade _ _ => Bool
  | _ => Unit

/-- A procedure of the server. -/
abbrev UpgradeProc := Proc UpgradeEffect UpgradeEffect.Reply

/-- The answer to a request that is refused. -/
def refuse (status : Text) : UpgradeProc Unit :=
  Proc.perform (UpgradeEffect.refuse (lit "HTTP/1.1 " ++ status ++ lit "\r\n\r\n"))

/-- The checks of the handler after that of the rate limit: the ticket that is to be validated, and which
server the socket is for. -/
def checkCredentials (settings : UpgradeSettings) (request : UpgradeRequest) (url : RequestUrl) :
    UpgradeProc (Option (Bool × Text)) :=
  if !request.hasAllowedOrigin settings then do
    refuse (lit "403 Forbidden")
    pure none
  else
    match request.ticket settings url with
    | none => do
      refuse (lit "401 Unauthorized")
      pure none
    | some ticket => pure (some (url.pathname = livePath, ticket))

/-- The handler up to the task that it starts. -/
def checkUpgrade (settings : UpgradeSettings) (request : UpgradeRequest) :
    UpgradeProc (Option (Bool × Text)) :=
  match settings.parseUrl request.url with
  | none => Proc.throw ⟨lit "TypeError", lit "Invalid URL"⟩
  | some url =>
    if url.pathname ≠ livePath ∧ url.pathname ≠ eventsPath then do
      refuse (lit "404 Not Found")
      pure none
    else do
      let limit ← Proc.perform (UpgradeEffect.increment request.clientIp)
      if !withinLimit limit then do
        refuse (lit "429 Too Many Requests")
        pure none
      else checkCredentials settings request url

/-- The task that validates a ticket. -/
def authTask (isLive : Bool) (ticket : Text) : UpgradeProc Unit :=
  Proc.catchWith (do
      let userId ← Proc.perform (UpgradeEffect.validate ticket)
      match userId.filter fun text => !text.isEmpty with
      | none => refuse (lit "403 Forbidden")
      | some userId =>
        let _ ← Proc.perform (UpgradeEffect.handleUpgrade isLive userId)
        pure ())
    fun _ => refuse (lit "500 Internal Server Error")

/-- The handler of an upgrade request, with its task. -/
def upgrade (settings : UpgradeSettings) (request : UpgradeRequest) : UpgradeProc Unit := do
  let checked ← Proc.catchWith (checkUpgrade settings request) fun _ => do
    Proc.perform UpgradeEffect.destroy
    pure none
  match checked with
  | none => pure ()
  | some (isLive, ticket) => authTask isLive ticket

/-! ## The server -/

/-- A call on the server. -/
inductive ServerCall where
  | upgrade (request : UpgradeRequest)
  /-- A route issues a ticket. -/
  | issue (userId : Text)
  /-- A route consumes a ticket. -/
  | consume (ticket : Text)
  | upkeep

/-- The procedure of a call. -/
def ServerCall.proc (settings : UpgradeSettings) : ServerCall → UpgradeProc Unit
  | .upgrade request => Admission.upgrade settings request
  | .issue userId => Proc.perform (UpgradeEffect.issue userId)
  | .consume ticket => do
    let _ ← Proc.perform (UpgradeEffect.validate ticket)
    pure ()
  | .upkeep => Proc.perform UpgradeEffect.upkeep

/-- Where requests are counted: in memory, or elsewhere. -/
inductive RateLimitStore where
  | inMemory (store : InMemoryRateLimitStore)
  | upstash

/-- Where tickets are kept: in memory, or in a table. -/
inductive TicketKeeper where
  | inMemory (process : TicketProcess)
  | supabase (table : TicketTable)

/-- Whose ticket a user presents. -/
def TicketKeeper.SameUser (db : TicketDatabase) : TicketKeeper → Text → Text → Prop
  | .inMemory _ => Eq
  | .supabase _ => TicketTable.SameUser db

/-- No ticket was issued yet. -/
def TicketKeeper.IsStarted : TicketKeeper → Prop
  | .inMemory p => ∃ clock, p = .started clock
  | .supabase s => ∃ clock, s = .started clock

/-- The stores of the server, and the history of its tickets. -/
structure Server where
  limits : RateLimitStore
  tickets : TicketKeeper
  history : List TicketEvent

/-- The server after something that its store of tickets has done. -/
def Server.kept (s : Server) (tickets : TicketKeeper) (events : List TicketEvent) : Server :=
  { s with tickets := tickets, history := s.history ++ events }

/-- What a call of the store in memory, or an action on the table, does to the server. -/
def Server.Does (db : TicketDatabase) (s s' : Server) (call : TicketProcess → TicketCall → Prop)
    (action : TicketTable → TicketAction → Prop) : Prop :=
  match s.tickets with
  | .inMemory p => ∃ c p', call p c ∧ p.step c = some p' ∧ s' = s.kept (.inMemory p') (p.events c)
  | .supabase t => ∃ a t', action t a ∧ t.step db a = some t' ∧
      s' = s.kept (.supabase t') (t.events db a)

/-- What the statement of `validate` resolves with: its answer, or an error if there is none. -/
def Resolves (answer : Option Text) : Delivery → Except JsError (Option Text) → Prop
  | .answered, reply => reply = .ok answer
  | _, reply => ∃ e, reply = .error e

/-- What the server answers: the store of rate limits may fail, or count elsewhere, and a socket can do
anything. -/
def serverEnv (db : TicketDatabase) : Proc.Env Server UpgradeEffect UpgradeEffect.Reply :=
  fun s effect reply s' =>
    match effect, reply with
    | .increment key, .ok limit =>
      match s.limits with
      | .inMemory store => ∃ now, limit = (store.increment key now).1 ∧
          s' = { s with limits := .inMemory (store.increment key now).2 }
      | .upstash => s' = s
    | .validate ticket, reply => s.Does db s'
        (fun p c => ∃ now, c = .validate ticket now ∧ reply = .ok (p.tickets.validate ticket now).1)
        (fun t a => ∃ now delivery, a = .validate ticket now delivery ∧
          Resolves (ticketAnswer (t.rows.consume ticket now).1) delivery reply)
    | .issue userId, _ => s.Does db s' (fun _ c => ∃ ticket now, c = .issue ticket userId (.finite 90) now)
        (fun _ a => ∃ ticket now, a = .issue ticket userId (.finite 90) now)
    | .upkeep, _ => s' = s ∨ s.Does db s' (fun _ c => ∃ now, c = .cleanup now)
        (fun _ a => ∃ position now delivery, a = .insert position now delivery)
    | _, _ => s' = s

/-- The calls on a server that has just started. -/
def serving {ι : Type} (settings : UpgradeSettings) (limits : RateLimitStore) (tickets : TicketKeeper)
    (calls : ι → ServerCall) : Proc.Pool ι Server UpgradeEffect UpgradeEffect.Reply Unit where
  state := ⟨limits, tickets, []⟩
  procs i := (calls i).proc settings

end DreamWeaver.Admission
