import DreamWeaver.Foundations.Interleaving
import DreamWeaver.Foundations.JsData
import DreamWeaver.Foundations.JsonWriter

/-! # The front door of the worker

The worker (`ws-worker/src/index.ts`) opens a live session for a request that presents a ticket, which it consumes
with a post to the API. It does not know the store of tickets: what it knows is the response. -/

namespace DreamWeaver.Worker

/-! ## The environment and the request -/

/-- What the front door reads of `Env`. -/
structure WorkerEnv where
  apiBaseUrl : Text
  internalToken : Text
  allowedOrigins : Option Text

/-- A request; the names of headers are in lower case. -/
structure WorkerRequest where
  pathname : Text
  headers : Record Text

/-- `parseAllowedOrigins` -/
def parseAllowedOrigins (raw : Option Text) : List Text :=
  (((orText raw []).splitOn 44).map trim).filter fun origin => !origin.isEmpty

/-- `parseTicketFromProtocols` -/
def parseTicketFromProtocols (protocolHeader : Option Text) : Option Text :=
  ((protocolHeader.filter fun header => !header.isEmpty).bind fun header =>
    (((header.splitOn 44).map trim).find? fun part => (lit "ticket.").isPrefixOf part).map fun part =>
      part.drop 7).filter fun ticket => !ticket.isEmpty

/-- The ticket that a request presents. -/
def WorkerRequest.ticket (request : WorkerRequest) : Option Text :=
  parseTicketFromProtocols (request.headers.get? (lit "sec-websocket-protocol"))

/-- The request is an upgrade to a WebSocket. -/
def WorkerRequest.isUpgrade (request : WorkerRequest) : Bool :=
  (request.headers.get? (lit "upgrade")).any fun upgrade => toLowerCase upgrade = lit "websocket"

/-- The origin is allowed; without a list every origin is. -/
def WorkerEnv.allows (env : WorkerEnv) (origin : Option Text) : Bool :=
  (parseAllowedOrigins env.allowedOrigins).isEmpty ||
    origin.any fun origin => !origin.isEmpty && decide (origin ∈ parseAllowedOrigins env.allowedOrigins)

/-! ## The post -/

/-- A post to the API: its URL, the header `x-worker-token` as it is received, and its body. -/
structure ConsumePost where
  url : Text
  workerToken : Option Text
  body : Text

/-- What comes back of a post. -/
structure FetchResponse where
  status : ℕ
  body : Text

/-- `response.ok` -/
def FetchResponse.ok (response : FetchResponse) : Bool := 200 ≤ response.status && response.status ≤ 299

/-- The path of the version of the API. -/
def apiVersion : Text := lit "/api/v1"

/-- The path behind it. -/
def consumePath : Text := lit "/live/tickets/consume"

/-- The base without the slashes at its end. -/
def withoutSlashes (base : Text) : Text := base.rdropWhile fun c => c == 47

/-- The URL that tickets are consumed at. -/
def WorkerEnv.consumeUrl (env : WorkerEnv) : Text :=
  let base := withoutSlashes env.apiBaseUrl
  if apiVersion.isSuffixOf base then base ++ consumePath else base ++ apiVersion ++ consumePath

/-- White space of a header, which is dropped around its value. -/
def isHeaderSpace (c : CodeUnit) : Bool := c == 9 || c == 10 || c == 13 || c == 32

/-- A value as it is received. -/
def headerValue (value : Text) : Text := (value.dropWhile isHeaderSpace).rdropWhile isHeaderSpace

/-- `JSON.stringify({ ticket })` -/
def ticketBody (ticket : Text) : Text := stringify (.obj [(lit "ticket", .str ticket)])

/-- What `consumeWsTicket` posts. -/
def WorkerEnv.consumePost (env : WorkerEnv) (ticket : Text) : ConsumePost where
  url := env.consumeUrl
  workerToken := some (headerValue env.internalToken)
  body := ticketBody ticket

/-! ## The door -/

/-- What the door awaits, and that it opens a socket. -/
inductive DoorEffect (E : Type) where
  /-- An effect of the API. -/
  | server (effect : E)
  | fetch (post : ConsumePost)
  /-- `server.accept()`, for a user. -/
  | accept (userId : Text)

/-- The values that effects resolve with. -/
abbrev DoorEffect.Reply {E : Type} (R : E → Type) : DoorEffect E → Type
  | .server effect => R effect
  | .fetch _ => FetchResponse
  | .accept _ => Unit

section

variable {E : Type} (R : E → Type) (env : WorkerEnv)

/-- The user id of a document, if it is a text with a unit. -/
def userIdOf (data : Json) : Option Text :=
  ((data.get (lit "userId")).bind Json.text?).filter fun userId => !userId.isEmpty

/-- `consumeWsTicket` -/
def consumeWsTicket (ticket : Text) : Proc (DoorEffect E) (DoorEffect.Reply R) (Option Text) := do
  let res ← Proc.perform (.fetch (env.consumePost ticket))
  if !FetchResponse.ok res then pure none
  else
    match parseJson (FetchResponse.body res) with
    | .error e => Proc.throw e
    | .ok data => pure (userIdOf data)

/-- `handleLiveWebSocket`, up to the sockets: the status of the response. -/
def handleLiveWebSocket (request : WorkerRequest) : Proc (DoorEffect E) (DoorEffect.Reply R) ℕ :=
  if !request.isUpgrade then pure 426
  else if !env.allows (request.headers.get? (lit "origin")) then pure 403
  else
    match request.ticket with
    | none => pure 401
    | some ticket => do
      let userId ← consumeWsTicket R env ticket
      match userId with
      | none => pure 403
      | some userId => do
        let _ ← Proc.perform (DoorEffect.accept userId)
        pure 101

/-- `fetch` of the worker. -/
def serveRequest (request : WorkerRequest) : Proc (DoorEffect E) (DoorEffect.Reply R) ℕ :=
  if request.pathname = lit "/api/v1/live/ws" then handleLiveWebSocket R env request else pure 404

end

/-! ## What a request does -/

/-- The request is for a live session, comes from an allowed origin, and presents a ticket. -/
structure WorkerRequest.Asks (env : WorkerEnv) (request : WorkerRequest) (ticket : Text) : Prop where
  pathname : request.pathname = lit "/api/v1/live/ws"
  upgrade : request.isUpgrade = true
  origin : env.allows (request.headers.get? (lit "origin")) = true
  ticket : request.ticket = some ticket

variable {E : Type} {R : E → Type} {env : WorkerEnv}

/-- An effect of the door with its reply. -/
abbrev DoorEvent (R : E → Type) := Proc.Event (DoorEffect E) (DoorEffect.Reply R)

/-- What the worker has done for a request before it awaits an effect. -/
def DoorChecked (env : WorkerEnv) (request : WorkerRequest) (past : List (DoorEvent R)) : DoorEffect E → Prop
  | .server _ => False
  | .fetch post => past = [] ∧ ∃ ticket, request.Asks env ticket ∧ post = env.consumePost ticket
  | .accept userId => ∃ ticket response data, request.Asks env ticket ∧
      past = [⟨.fetch (env.consumePost ticket), .ok response⟩] ∧ FetchResponse.ok response = true ∧
        parseJson response.body = .ok data ∧ userIdOf data = some userId

/-- **What the worker does for a request**, whatever comes back. -/
theorem steps_serveRequest (request : WorkerRequest) :
    (serveRequest R env request).Steps (DoorChecked env request) [] := by
  unfold serveRequest handleLiveWebSocket
  by_cases hpath : request.pathname = lit "/api/v1/live/ws"
  · rw [if_pos hpath]
    -- a check that fails ends the request before anything is awaited
    cases hupgrade : request.isUpgrade with
    | false => exact trivial
    | true =>
      cases horigin : env.allows (request.headers.get? (lit "origin")) with
      | false => exact trivial
      | true =>
        cases hticket : request.ticket with
        | none => exact trivial
        | some ticket =>
          have hasks : request.Asks env ticket := ⟨hpath, hupgrade, horigin, hticket⟩
          refine ⟨⟨rfl, ticket, hasks, rfl⟩, fun reply => ?_⟩
          -- whatever the post comes back with, a socket is opened for a user id only
          cases reply with
          | error e => trivial
          | ok response =>
            dsimp only [Proc.bind]
            cases hok : FetchResponse.ok response with
            | false => trivial
            | true =>
              cases hdata : parseJson (FetchResponse.body response) with
              | error e => exact trivial
              | ok data =>
                cases huser : userIdOf data with
                | none =>
                  simp only [huser]
                  trivial
                | some userId =>
                  simp only [huser]
                  refine ⟨⟨ticket, response, data, hasks, rfl, hok, hdata, huser⟩, fun reply => ?_⟩
                  cases reply <;> trivial
  · rw [if_neg hpath]
    trivial

/-! ## The URL -/

/-- The base of a worker is that of an API, with or without its version, and with slashes. -/
def WorkerEnv.PointsTo (env : WorkerEnv) (origin : Text) : Prop :=
  ∃ version n, (version = [] ∨ version = apiVersion) ∧ env.apiBaseUrl = origin ++ version ++ List.replicate n 47

theorem withoutSlashes_append {base : Text} (n : ℕ) (h : base.getLast? ≠ some 47) :
    withoutSlashes (base ++ List.replicate n 47) = base := by
  induction n with
  | zero =>
    rw [List.replicate_zero, List.append_nil, withoutSlashes, List.rdropWhile_eq_self_iff]
    intro hne hlast
    rw [List.getLast?_eq_getLast_of_ne_nil hne] at h
    exact h (congrArg some (by simpa using hlast))
  | succ n ih =>
    rw [List.replicate_succ', ← List.append_assoc, withoutSlashes, List.rdropWhile_concat_pos _ _ _ (by decide)]
    exact ih

/-- **The worker finds the API**, however its base is written. -/
theorem consumeUrl_of_pointsTo {origin : Text} (h : env.PointsTo origin) (hslash : origin.getLast? ≠ some 47)
    (hversion : ¬ apiVersion <:+ origin) : env.consumeUrl = origin ++ apiVersion ++ consumePath := by
  obtain ⟨version, n, hkind, hbase⟩ := h
  rw [WorkerEnv.consumeUrl, hbase]
  -- where the base ends with the version, the worker does not add it
  rcases hkind with rfl | rfl
  · rw [List.append_nil, withoutSlashes_append n hslash]
    simp [hversion]
  · have hlast : (origin ++ apiVersion).getLast? ≠ some 47 := by
      rw [List.getLast?_append, show apiVersion.getLast? = some 49 from rfl]
      exact fun heq => by cases heq
    rw [withoutSlashes_append n hlast]
    simp

end DreamWeaver.Worker
