import DreamWeaver.Admission.WebSocketAdmission
import DreamWeaver.Foundations.Embedding
import DreamWeaver.Worker.FrontDoor

/-! # Two front doors

Sockets are opened by the API itself and by the worker, which consumes a ticket with a post to
`/live/tickets/consume` (`api/src/routes/live.ts`). A post may be lost, refused by what comes before the route, or
served with its answer lost; anyone may post. Both doors take their tickets from one store. -/

namespace DreamWeaver.Admission

open Tickets Proc Worker

/-! ## The route -/

/-- Where the API is, and the token that workers show. -/
structure ApiSettings where
  origin : Text
  internalToken : Option Text

/-- The URL of the route. -/
def ApiSettings.consumeUrl (api : ApiSettings) : Text := api.origin ++ apiVersion ++ consumePath

/-- The post shows the token of workers. -/
def ApiSettings.trusts (api : ApiSettings) (post : ConsumePost) : Bool :=
  post.workerToken.any fun provided => !provided.isEmpty && decide (api.internalToken = some provided)

/-- The ticket of a body, which has a unit at least. -/
def postedTicket (body : Text) : Option Text :=
  match parseJson body with
  | .error _ => none
  | .ok data => ((data.get (lit "ticket")).bind Json.text?).filter fun ticket => !ticket.isEmpty

/-- `c.json({ error }, status)` -/
def errorResponse (error : String) (status : ℕ) : FetchResponse :=
  ⟨status, stringify (.obj [(lit "error", .str (lit error))])⟩

/-- `c.json({ userId })` -/
def userResponse (userId : Text) : FetchResponse := ⟨200, stringify (.obj [(lit "userId", .str userId)])⟩

/-- `POST /live/tickets/consume`, where an error of the store is answered by `onError`. -/
def consumeRoute (api : ApiSettings) (post : ConsumePost) : UpgradeProc FetchResponse :=
  if !api.trusts post then pure (errorResponse "Forbidden" 403)
  else
    match postedTicket post.body with
    | none => pure (errorResponse "Validation Error" 400)
    | some ticket => Proc.catchWith (do
          let userId ← Proc.perform (UpgradeEffect.validate ticket)
          match userId.filter fun text => !text.isEmpty with
          | none => pure (errorResponse "Forbidden" 403)
          | some userId => pure (userResponse userId))
        fun _ => pure (errorResponse "Internal Server Error" 500)

/-! ## The two services -/

/-- The settings of the API and of the worker. -/
structure Doors where
  settings : UpgradeSettings
  api : ApiSettings
  worker : WorkerEnv

/-- What happens at the doors. -/
inductive DoorCall where
  /-- A call on the API. -/
  | server (call : ServerCall)
  /-- Anyone posts to the route, and does with the response what they like. -/
  | post (post : ConsumePost)
  /-- A request to the worker. -/
  | worker (request : WorkerRequest)

/-- What both services await. -/
abbrev ServiceEffect := DoorEffect UpgradeEffect

/-- The values that it resolves with. -/
abbrev ServiceReply : ServiceEffect → Type := DoorEffect.Reply UpgradeEffect.Reply

/-- An effect with its reply. -/
abbrev ServiceEvent := Proc.Event ServiceEffect ServiceReply

/-- The procedure of a call. -/
def DoorCall.proc (doors : Doors) : DoorCall → Proc ServiceEffect ServiceReply Unit
  | .server call => (call.proc doors.settings).embed DoorEffect.server
  | .post sent => do
    let _ ← Proc.perform (DoorEffect.fetch sent)
    pure ()
  | .worker request => do
    let _ ← serveRequest UpgradeEffect.Reply doors.worker request
    pure ()

/-- What becomes of a post: it does not reach the route, or the route serves it and the answer may be lost. The rate
limit of the API counts it in either case. -/
def Served (db : TicketDatabase) (api : ApiSettings) (post : ConsumePost) (s : Server)
    (reply : Except JsError FetchResponse) (s' : Server) : Prop :=
  ∃ limits, (s' = { s with limits := limits } ∧ ∀ response, reply = .ok response → response.ok = false) ∨
    ∃ response, Run (serverEnv db) { s with limits := limits } (consumeRoute api post) (.ok response) s' ∧
      (reply = .ok response ∨ ∃ e, reply = .error e)

/-- What the services answer. What a post to another URL gets is another's answer. -/
def doorEnv (db : TicketDatabase) (api : ApiSettings) : Proc.Env Server ServiceEffect ServiceReply :=
  fun s effect reply s' =>
    match effect, reply with
    | .server effect, reply => serverEnv db s effect reply s'
    | .fetch post, reply => if post.url = api.consumeUrl then Served db api post s reply s' else s' = s
    | .accept _, _ => s' = s

/-- The calls on services that have just started. -/
def openDoors {ι : Type} (doors : Doors) (limits : RateLimitStore) (tickets : TicketKeeper)
    (calls : ι → DoorCall) : Proc.Pool ι Server ServiceEffect ServiceReply Unit where
  state := ⟨limits, tickets, []⟩
  procs i := (calls i).proc doors

/-! ## What a call is told -/

/-- The ticket that a call was told is accepted, and for whom. -/
def told (api : ApiSettings) : ServiceEvent → Option (Text × Text)
  | ⟨.server effect, reply⟩ => acceptance ⟨effect, reply⟩
  | ⟨.fetch post, .ok response⟩ =>
    if post.url = api.consumeUrl ∧ FetchResponse.ok response = true then
      match postedTicket post.body, parseJson (FetchResponse.body response) with
      | some ticket, .ok data => (userIdOf data).map fun userId => (ticket, userId)
      | _, _ => none
    else none
  | _ => none

/-- The user that a socket is opened for. -/
def userOf : ServiceEvent → Option Text
  | ⟨.server (.handleUpgrade _ userId), _⟩ => some userId
  | ⟨.accept userId, _⟩ => some userId
  | _ => none

/-- The ticket that a call presents. -/
def DoorCall.ticket (doors : Doors) : DoorCall → Option Text
  | .server call => call.ticket doors.settings
  | .post _ => none
  | .worker request => request.ticket

variable {db : TicketDatabase} {doors : Doors} {api : ApiSettings} {s s' : Server} {post : ConsumePost}

theorem told_fetch_of_not_ok {response : FetchResponse} (h : response.ok = false) :
    told api ⟨.fetch post, .ok response⟩ = none := by
  simp [told, h]

/-- What the route resolves with is read as the worker reads it. -/
theorem userIdOf_userResponse {userId : Text} (h : userId ≠ []) :
    ∃ data, parseJson (userResponse userId).body = .ok data ∧ userIdOf data = some userId := by
  have hproper : (Json.obj [(lit "userId", .str userId)]).Proper := (Json.Proper.str userId).single _
  refine ⟨_, parseJson_stringify hproper, ?_⟩
  rw [userIdOf, hproper.get_written]
  simp [Json.get, Json.field?, Json.written, Json.text?, h]

/-- What the worker posts is read as the route reads it. -/
theorem postedTicket_ticketBody {ticket : Text} (h : ticket ≠ []) : postedTicket (ticketBody ticket) = some ticket := by
  have hproper : (Json.obj [(lit "ticket", .str ticket)]).Proper := (Json.Proper.str ticket).single _
  rw [postedTicket, ticketBody, parseJson_stringify hproper]
  dsimp only
  rw [hproper.get_written]
  simp [Json.get, Json.field?, Json.written, Json.text?, h]

/-- **A post that is served** keeps the history of the tickets, and an acceptance that its response tells of is one
of the history. -/
theorem consumeRoute_step {response : FetchResponse}
    (h : Run (serverEnv db) s (consumeRoute api post) (.ok response) s') (hkept : s.tickets.Kept db s.history) :
    s'.tickets.Kept db s'.history ∧ s'.tickets.SameUser db = s.tickets.SameUser db ∧
      ∃ accepted, s'.history.filterMap acceptanceOf = s.history.filterMap acceptanceOf ++ accepted ∧
        (told api ⟨.fetch post, .ok response⟩).toList.Sublist accepted := by
  have hnothing {response' : FetchResponse} {status : ℕ} {error : String} (hstatus : ¬ status ≤ 299)
      (hrun : Run (serverEnv db) s (pure (errorResponse error status)) (.ok response') s') :
      s' = s ∧ told api ⟨.fetch post, .ok response'⟩ = none := by
    obtain ⟨hresponse, hstate⟩ := run_pure_iff.mp hrun
    obtain rfl := Except.ok.inj hresponse
    refine ⟨hstate, told_fetch_of_not_ok ?_⟩
    simp [FetchResponse.ok, errorResponse, hstatus]
  unfold consumeRoute at h
  cases htrusts : api.trusts post with
  | false =>
    rw [htrusts] at h
    obtain ⟨rfl, htold⟩ := hnothing (by decide) h
    exact ⟨hkept, rfl, [], by simp, by simp [htold]⟩
  | true =>
    rw [htrusts] at h
    cases hticket : postedTicket post.body with
    | none =>
      rw [hticket] at h
      obtain ⟨rfl, htold⟩ := hnothing (by decide) h
      exact ⟨hkept, rfl, [], by simp, by simp [htold]⟩
    | some ticket =>
      rw [hticket] at h
      obtain ⟨reply, s₁, hreply, hrest⟩ := run_await_iff.mp h
      obtain ⟨hkept₁, hsame, haccepted⟩ := serverEnv_step hreply hkept
      have hend {r : FetchResponse} (hrun : Run (serverEnv db) s₁ (pure r) (.ok response) s')
          (htold : ∀ pair, told api ⟨.fetch post, .ok r⟩ = some pair → acceptance ⟨.validate ticket, reply⟩ = some pair) :
          s'.tickets.Kept db s'.history ∧ s'.tickets.SameUser db = s.tickets.SameUser db ∧
            ∃ accepted, s'.history.filterMap acceptanceOf = s.history.filterMap acceptanceOf ++ accepted ∧
              (told api ⟨.fetch post, .ok response⟩).toList.Sublist accepted := by
        obtain ⟨hresponse, rfl⟩ := run_pure_iff.mp hrun
        obtain rfl := Except.ok.inj hresponse
        refine ⟨hkept₁, hsame, _, haccepted, ?_⟩
        cases hpair : told api ⟨.fetch post, .ok response⟩ with
        | none => exact List.nil_sublist _
        | some pair => rw [htold pair hpair]
      cases reply with
      | error e =>
        refine hend hrest fun pair hpair => ?_
        rw [told_fetch_of_not_ok rfl] at hpair
        cases hpair
      | ok answer =>
        cases hanswer : answer.filter fun text => !text.isEmpty with
        | none =>
          simp only [Proc.bind, hanswer] at hrest
          refine hend hrest fun pair hpair => ?_
          rw [told_fetch_of_not_ok rfl] at hpair
          cases hpair
        | some userId =>
          simp only [Proc.bind, hanswer] at hrest
          refine hend hrest fun pair hpair => ?_
          obtain ⟨hsome, hne⟩ := Option.filter_eq_some_iff.mp hanswer
          obtain ⟨data, hdata, huser⟩ := @userIdOf_userResponse userId (by simpa using hne)
          simp only [told, hticket, hdata, huser, Option.map_some] at hpair
          rw [hsome, ← (Option.ite_none_right_eq_some.mp hpair).2]
          rfl

/-- **One step of the services** keeps the history of the tickets, and what a call is told is in it. -/
theorem doorEnv_step {effect : ServiceEffect} {reply : Except JsError (ServiceReply effect)}
    (h : doorEnv db api s effect reply s') (hkept : s.tickets.Kept db s.history) :
    s'.tickets.Kept db s'.history ∧ s'.tickets.SameUser db = s.tickets.SameUser db ∧
      ∃ accepted, s'.history.filterMap acceptanceOf = s.history.filterMap acceptanceOf ++ accepted ∧
        (told api ⟨effect, reply⟩).toList.Sublist accepted := by
  cases effect with
  | server effect =>
    obtain ⟨hkept', hsame, haccepted⟩ := serverEnv_step h hkept
    exact ⟨hkept', hsame, _, haccepted, List.Sublist.refl _⟩
  | accept userId =>
    obtain rfl : s' = s := h
    exact ⟨hkept, rfl, [], by simp, List.nil_sublist _⟩
  | fetch post =>
    by_cases hurl : post.url = api.consumeUrl
    · simp only [doorEnv, if_pos hurl] at h
      obtain ⟨limits, ⟨rfl, hnot⟩ | ⟨response, hrun, hreply⟩⟩ := h
      · -- the post did not reach the route, and no answer is one of success
        refine ⟨hkept, rfl, [], by simp, ?_⟩
        cases reply with
        | error e => exact List.nil_sublist _
        | ok response => rw [told_fetch_of_not_ok (hnot response rfl), Option.toList_none]
      · obtain ⟨hkept', hsame, accepted, haccepted, htold⟩ := consumeRoute_step hrun hkept
        refine ⟨hkept', hsame, accepted, haccepted, ?_⟩
        rcases hreply with rfl | ⟨e, rfl⟩
        · exact htold
        · -- the ticket is used although its user was not told
          exact List.nil_sublist _
    · simp only [doorEnv, if_neg hurl] at h
      subst h
      refine ⟨hkept, rfl, [], by simp, ?_⟩
      cases reply with
      | error e => exact List.nil_sublist _
      | ok response => simp [told, hurl]

/-! ## Runs -/

variable {ι : Type} [DecidableEq ι] {limits : RateLimitStore} {tickets : TicketKeeper} {calls : ι → DoorCall}
  {ok : Server → ServiceEffect → Prop} {log : List (ι × ServiceEvent)}
  {c : Pool ι Server ServiceEffect ServiceReply Unit}

/-- **Every run** keeps the history of the tickets, and what its calls are told is in it, in order. -/
theorem told_sublist_of_runs (h : Runs (doorEnv db doors.api) ok (openDoors doors limits tickets calls) log c)
    (hstarted : tickets.IsStarted) :
    c.state.tickets.Kept db c.state.history ∧ c.state.tickets.SameUser db = tickets.SameUser db ∧
      (log.filterMap fun entry => told doors.api entry.2).Sublist (c.state.history.filterMap acceptanceOf) := by
  induction h with
  | start => exact ⟨hstarted.kept, rfl, List.Sublist.refl _⟩
  | @step log c₁ i effect next reply s' _ _ hreply _ ih =>
    obtain ⟨hkept, hsame, hlog⟩ := ih
    obtain ⟨hkept', hsame', accepted, haccepted, htold⟩ := doorEnv_step hreply hkept
    refine ⟨hkept', hsame'.trans hsame, ?_⟩
    rw [List.filterMap_append, haccepted]
    refine hlog.append ?_
    rw [List.filterMap_cons, List.filterMap_nil]
    cases hpair : told doors.api ⟨effect, reply⟩ with
    | none => exact List.nil_sublist _
    | some pair => rwa [hpair] at htold

/-- What a call has done before it awaits an effect. -/
def DoorBehaves (doors : Doors) (past : List ServiceEvent) (effect : ServiceEffect) : DoorCall → Prop
  | .server call => ∃ before effect', past = before.map (Event.embed DoorEffect.server) ∧
      effect = .server effect' ∧ Behaves doors.settings before effect' call
  | .post sent => past = [] ∧ effect = .fetch sent
  | .worker request => DoorChecked doors.worker request past effect

theorem steps_doorCall (call : DoorCall) :
    (call.proc doors).Steps (fun past effect => DoorBehaves doors past effect call) [] := by
  cases call with
  | server call =>
    refine @Steps.embed _ _ ServiceReply _ DoorEffect.server _ _ [] ?_
    refine (steps_call doors.settings call).imp ?_
    exact fun before effect hbehaves => ⟨before, effect, rfl, rfl, hbehaves⟩
  | post sent =>
    refine ⟨⟨rfl, rfl⟩, fun reply => ?_⟩
    cases reply <;> trivial
  | worker request =>
    refine (steps_serveRequest request).bind (ends_of_forall fun past r => ?_)
    cases r <;> trivial

/-- The worker posts to this API. -/
def Doors.Connected (doors : Doors) : Prop :=
  doors.worker.PointsTo doors.api.origin ∧ doors.api.origin.getLast? ≠ some 47 ∧ ¬ apiVersion <:+ doors.api.origin

/-- The worker is told of the ticket that it has posted. -/
theorem told_consumePost (hconnected : doors.Connected) {request : WorkerRequest} {ticket userId : Text}
    {response : FetchResponse} {data : Json} (hasks : request.Asks doors.worker ticket) (hok : response.ok = true)
    (hdata : parseJson response.body = .ok data) (huser : userIdOf data = some userId) :
    told doors.api ⟨.fetch (doors.worker.consumePost ticket), .ok response⟩ = some (ticket, userId) := by
  obtain ⟨hpoints, hslash, hversion⟩ := hconnected
  have hurl : doors.worker.consumeUrl = doors.api.consumeUrl := consumeUrl_of_pointsTo hpoints hslash hversion
  have hne : ticket ≠ [] := by
    have hticket := hasks.ticket
    rw [WorkerRequest.ticket, parseTicketFromProtocols, Option.filter_eq_some_iff] at hticket
    simpa using hticket.2
  simp only [told, hurl, hok, WorkerEnv.consumePost, postedTicket_ticketBody hne, hdata, huser]
  simp

/-- A socket is opened by a call that was told that its ticket is accepted, and that has opened none before. -/
theorem told_of_behaves (hconnected : doors.Connected) {call : DoorCall} {before : List ServiceEvent}
    {event : ServiceEvent} {userId : Text} (h : DoorBehaves doors before event.effect call)
    (huser : userOf event = some userId) : ∃ ticket, call.ticket doors = some ticket ∧
      (∃ event' ∈ before, told doors.api event' = some (ticket, userId)) ∧
        before.countP (fun event => (userOf event).isSome) = 0 := by
  obtain ⟨effect, reply⟩ := event
  cases call with
  | post sent =>
    obtain ⟨-, heffect⟩ := h
    obtain rfl : effect = .fetch sent := heffect
    cases huser
  | worker request =>
    cases effect with
    | server effect => cases h
    | fetch post => cases huser
    | accept user =>
      -- all that the worker has awaited by then is its post, whose answer names the user
      obtain ⟨ticket, response, data, hasks, rfl, hok, hdata, hid⟩ := h
      obtain rfl := Option.some.inj huser
      refine ⟨ticket, hasks.ticket, ⟨_, List.mem_singleton_self _, ?_⟩, rfl⟩
      exact told_consumePost hconnected hasks hok hdata hid
  | server call =>
    obtain ⟨before', effect', rfl, heffect, hbehaves⟩ := h
    obtain rfl : effect = .server effect' := heffect
    cases effect' with
    | handleUpgrade isLive user =>
      obtain rfl := Option.some.inj huser
      cases call with
      | upgrade request =>
        obtain ⟨ticket, limit, hasks, -, rfl⟩ := hbehaves
        exact ⟨ticket, hasks.ticket, ⟨_, List.mem_cons_of_mem _ (List.mem_singleton_self _), rfl⟩, rfl⟩
      | _ => cases hbehaves
    | _ => cases huser

/-- The entry opens a socket for a call that presents a ticket. -/
def opensFor (doors : Doors) (calls : ι → DoorCall) (ticket : Text) (entry : ι × ServiceEvent) : Bool :=
  (userOf entry.2).isSome && decide ((calls entry.1).ticket doors = some ticket)

/-- The entry tells that a ticket is accepted. -/
def tells (api : ApiSettings) (ticket : Text) (entry : ι × ServiceEvent) : Bool :=
  (told api entry.2).any fun pair => pair.1 = ticket

/-- **Both doors**: what a run of the services should be. -/
structure Guarded (db : TicketDatabase) (doors : Doors) (same : Text → Text → Prop) (calls : ι → DoorCall)
    (log : List (ι × ServiceEvent)) (history : List TicketEvent) : Prop where
  /-- A socket is opened only for a call with a ticket, which was redeemed for its user. -/
  admitted : ∀ i event userId, (i, event) ∈ log → userOf event = some userId →
    ∃ ticket, (calls i).ticket doors = some ticket ∧ Redeemed same history ticket userId
  /-- At most one socket is opened per ticket, whichever the doors. -/
  once : ∀ ticket, log.countP (opensFor doors calls ticket) ≤ 1
  /-- The worker opens a socket only for a request that it should serve. -/
  asked : ∀ i userId reply, (i, ⟨.accept userId, reply⟩) ∈ log →
    ∃ request ticket, calls i = .worker request ∧ request.Asks doors.worker ticket
  /-- A post that does not show the token of workers does nothing to the tickets. -/
  spared : ∀ i post reply, (i, ⟨.fetch post, reply⟩) ∈ log → doors.api.trusts post = false → ∀ s s',
    doorEnv db doors.api s (.fetch post) reply s' → s'.tickets = s.tickets ∧ s'.history = s.history

section

variable (h : Runs (doorEnv db doors.api) ok (openDoors doors limits tickets calls) log c)
include h

/-- What a call awaits, it may await after what it has done. -/
theorem doorBehaves_of_runs {i : ι} {before after : List ServiceEvent} {event : ServiceEvent}
    (hsplit : eventsOf i log = before ++ event :: after) : DoorBehaves doors before event.effect (calls i) :=
  (h.steps (steps_doorCall (calls i))).2 before event after hsplit

/-- An entry of the log comes after what its call may do before it. -/
theorem exists_doorBehaves {i : ι} {event : ServiceEvent} (hmem : (i, event) ∈ log) :
    ∃ before, DoorBehaves doors before event.effect (calls i) ∧ ∀ event' ∈ before, (i, event') ∈ log := by
  have hevent : event ∈ eventsOf i log :=
    List.mem_map.mpr ⟨(i, event), List.mem_filter.mpr ⟨hmem, decide_eq_true rfl⟩, rfl⟩
  obtain ⟨before, after, hsplit⟩ := List.append_of_mem hevent
  refine ⟨before, doorBehaves_of_runs h hsplit, fun event' hevent' => mem_of_mem_eventsOf ?_⟩
  rw [hsplit]
  exact List.mem_append_left _ hevent'

/-- A socket is opened for a call that was told that its ticket is accepted. -/
theorem told_of_opens (hconnected : doors.Connected) {i : ι} {event : ServiceEvent} {userId : Text}
    (hmem : (i, event) ∈ log) (huser : userOf event = some userId) : ∃ ticket, (calls i).ticket doors = some ticket ∧
      ∃ event', (i, event') ∈ log ∧ told doors.api event' = some (ticket, userId) := by
  obtain ⟨before, hbehaves, hbefore⟩ := exists_doorBehaves h hmem
  obtain ⟨ticket, hticket, ⟨event', hevent', htold⟩, -⟩ := told_of_behaves hconnected hbehaves huser
  exact ⟨ticket, hticket, event', hbefore event' hevent', htold⟩

/-- A call opens at most one socket. -/
theorem userOf_once (hconnected : doors.Connected) (i : ι) :
    (eventsOf i log).countP (fun event => (userOf event).isSome) ≤ 1 := by
  apply countP_le_one
  intro before event after hsplit hsome
  obtain ⟨userId, huser⟩ := Option.isSome_iff_exists.mp hsome
  obtain ⟨-, -, -, hnone⟩ := told_of_behaves hconnected (doorBehaves_of_runs h hsplit) huser
  exact hnone

/-- **At most one socket per ticket**: two would be of one call, since the ticket is accepted once. -/
theorem opensFor_once (hconnected : doors.Connected) {ticket : Text} (honce : log.countP (tells doors.api ticket) ≤ 1) :
    log.countP (opensFor doors calls ticket) ≤ 1 := by
  by_cases hsome : ∃ entry ∈ log, opensFor doors calls ticket entry = true
  · obtain ⟨⟨i, event⟩, hmem, hopens⟩ := hsome
    have htells (entry : ι × ServiceEvent) (hentry : entry ∈ log) (hopens : opensFor doors calls ticket entry = true) :
        ∃ event', (entry.1, event') ∈ log ∧ tells doors.api ticket (entry.1, event') = true := by
      obtain ⟨hopen, hticket⟩ := Bool.and_eq_true_iff.mp hopens
      obtain ⟨userId, huser⟩ := Option.isSome_iff_exists.mp hopen
      obtain ⟨ticket', hpresents, event', hmem', htold⟩ := told_of_opens h hconnected hentry huser
      rw [of_decide_eq_true hticket, Option.some_inj] at hpresents
      refine ⟨event', hmem', ?_⟩
      rw [tells, htold, hpresents]
      simp
    -- the call of the first opening was told of the ticket, and so was that of every other
    obtain ⟨first, hfirst, hfirst'⟩ := htells _ hmem hopens
    calc log.countP (opensFor doors calls ticket)
        ≤ log.countP (fun entry => (userOf entry.2).isSome && decide (entry.1 = i)) := by
          refine List.countP_mono_left fun entry hentry hopens' => ?_
          obtain ⟨second, hsecond, hsecond'⟩ := htells entry hentry hopens'
          have hsame := eq_of_countP_le_one honce hsecond hfirst hsecond' hfirst'
          rw [Bool.and_eq_true_iff]
          exact ⟨(Bool.and_eq_true_iff.mp hopens').1, decide_eq_true (Prod.mk.inj hsame).1⟩
      _ = (eventsOf i log).countP (fun event => (userOf event).isSome) := by
          rw [eventsOf, List.countP_map, List.countP_filter]
          rfl
      _ ≤ 1 := userOf_once h hconnected i
  · rw [List.countP_eq_zero.mpr fun entry hmem hopens => hsome ⟨entry, hmem, hopens⟩]
    exact Nat.zero_le 1

end

omit [DecidableEq ι] in
/-- What is told of a ticket is no more than its acceptances. -/
theorem countP_tells_le {history : List TicketEvent}
    (hsublist : (log.filterMap fun entry => told api entry.2).Sublist (history.filterMap acceptanceOf)) (ticket : Text) :
    log.countP (tells api ticket) ≤ history.countP (TicketEvent.accepts ticket) := by
  have hcount := hsublist.countP_le (p := fun pair : Text × Text => decide (pair.1 = ticket))
  rw [List.countP_filterMap, List.countP_filterMap] at hcount
  convert hcount using 2
  · funext entry
    rw [tells]
    cases told api entry.2 <;> rfl
  · funext event
    cases event with
    | validated t now answer => cases answer <;> rfl
    | _ => rfl

/-- An acceptance of a proper history redeems a ticket. -/
theorem redeemed_of_mem {history : List TicketEvent} {same : Text → Text → Prop} {ticket userId : Text}
    (hproper : Traced.AllAllowed (Proper same) [] history) (h : (ticket, userId) ∈ history.filterMap acceptanceOf) :
    Redeemed same history ticket userId := by
  obtain ⟨event, hevent, haccepted⟩ := List.mem_filterMap.mp h
  cases event with
  | validated t now answer =>
    cases answer with
    | none => cases haccepted
    | some user =>
      cases haccepted
      obtain ⟨before, after, rfl⟩ := List.append_of_mem hevent
      obtain ⟨hunused, owner, expiresAt, hissued, hsame, hnow⟩ := proper_of_allAllowed hproper
      exact ⟨before, after, owner, expiresAt, now, rfl, hissued, hsame, hnow, hunused⟩
  | _ => cases haccepted

/-- A post without the token of workers. -/
theorem spared_of_not_trusts {reply : Except JsError FetchResponse} (htrusts : api.trusts post = false)
    (h : doorEnv db api s (.fetch post) reply s') : s'.tickets = s.tickets ∧ s'.history = s.history := by
  by_cases hurl : post.url = api.consumeUrl
  · simp only [doorEnv, if_pos hurl] at h
    obtain ⟨limits, ⟨rfl, -⟩ | ⟨response, hrun, -⟩⟩ := h
    · exact ⟨rfl, rfl⟩
    · unfold consumeRoute at hrun
      rw [htrusts] at hrun
      obtain ⟨-, rfl⟩ := run_pure_iff.mp hrun
      exact ⟨rfl, rfl⟩
  · simp only [doorEnv, if_neg hurl] at h
    rw [h]
    exact ⟨rfl, rfl⟩

/-- **Admission at both doors**: in every run of the API and the worker, whatever posts are lost or answered in vain
and whoever else posts, a socket is opened only with a ticket that was issued to its user, had not expired and was
never used, and at most one per ticket at both doors together. -/
theorem two_doors (h : Runs (doorEnv db doors.api) ok (openDoors doors limits tickets calls) log c)
    (hstarted : tickets.IsStarted) (hconnected : doors.Connected) :
    Guarded db doors (tickets.SameUser db) calls log c.state.history := by
  obtain ⟨hkept, hsame, htold⟩ := told_sublist_of_runs h hstarted
  have hproper := hkept.proper
  rw [hsame] at hproper
  refine ⟨fun i event userId hmem huser => ?_, fun ticket => ?_, fun i userId reply hmem => ?_,
    fun i post reply hmem htrusts s s' henv => spared_of_not_trusts htrusts henv⟩
  · obtain ⟨ticket, hticket, event', hmem', htold'⟩ := told_of_opens h hconnected hmem huser
    refine ⟨ticket, hticket, redeemed_of_mem hproper (htold.subset ?_)⟩
    exact List.mem_filterMap.mpr ⟨_, hmem', htold'⟩
  · apply opensFor_once h hconnected
    exact (countP_tells_le htold ticket).trans (count_accepts_of_allAllowed hproper).1
  · obtain ⟨before, hbehaves, -⟩ := exists_doorBehaves h hmem
    cases hcall : calls i with
    | server call =>
      rw [hcall] at hbehaves
      obtain ⟨-, effect', -, heffect, -⟩ := hbehaves
      cases heffect
    | post sent =>
      rw [hcall] at hbehaves
      obtain ⟨-, heffect⟩ := hbehaves
      cases heffect
    | worker request =>
      rw [hcall] at hbehaves
      obtain ⟨ticket, response, data, hasks, -⟩ := hbehaves
      exact ⟨request, ticket, rfl, hasks⟩

/-! ## A run -/

/-- A procedure of a server that answers at once. -/
def atOnce {α : Type} : UpgradeProc α → Server → Except JsError α × Server
  | .done r, s => (r, s)
  | .await effect next, s => atOnce (next (prompt effect s).1) (prompt effect s).2

/-- The server goes on keeping its tickets in memory. -/
theorem inMemory_prompt (effect : UpgradeEffect) (h : s.inMemory = true) : (prompt effect s).2.inMemory = true := by
  obtain ⟨limits, tickets, history⟩ := s
  cases tickets with
  | supabase t => cases h
  | inMemory p =>
    cases effect with
    | increment key => cases limits <;> rfl
    | _ => rfl

theorem run_atOnce {α : Type} (p : UpgradeProc α) (h : s.inMemory = true) :
    Run (serverEnv db) s p (atOnce p s).1 (atOnce p s).2 := by
  induction p generalizing s with
  | done r => exact .done
  | await effect next ih => exact .await (serverEnv_prompt db effect s h) (ih _ (inMemory_prompt effect h))

/-- Services that answer at once. -/
def promptDoors (api : ApiSettings) (effect : ServiceEffect) (s : Server) : Except JsError (ServiceReply effect) × Server :=
  match effect with
  | .server effect => prompt effect s
  | .fetch post => if post.url = api.consumeUrl then atOnce (consumeRoute api post) s else (.error ⟨[], []⟩, s)
  | .accept _ => (.ok (), s)

/-- The route does not fail. -/
theorem exists_atOnce_consumeRoute (api : ApiSettings) (post : ConsumePost) (s : Server) :
    ∃ response, (atOnce (consumeRoute api post) s).1 = .ok response := by
  unfold consumeRoute
  cases api.trusts post with
  | false => exact ⟨_, rfl⟩
  | true =>
    cases postedTicket post.body with
    | none => exact ⟨_, rfl⟩
    | some ticket =>
      change ∃ response, (atOnce (Proc.await _ _) s).1 = .ok response
      rw [atOnce]
      cases (prompt (.validate ticket) s).1 with
      | error e => exact ⟨_, rfl⟩
      | ok answer =>
        cases hanswer : answer.filter fun text => !text.isEmpty with
        | none => exact ⟨_, by simp only [Proc.bind, hanswer]; rfl⟩
        | some userId => exact ⟨_, by simp only [Proc.bind, hanswer]; rfl⟩

theorem doorEnv_promptDoors (api : ApiSettings) (effect : ServiceEffect) (s : Server) (h : s.inMemory = true) :
    doorEnv db api s effect (promptDoors api effect s).1 (promptDoors api effect s).2 := by
  cases effect with
  | server effect => exact serverEnv_prompt db effect s h
  | accept userId => exact rfl
  | fetch post =>
    by_cases hurl : post.url = api.consumeUrl
    · simp only [doorEnv, promptDoors, if_pos hurl]
      obtain ⟨response, hresponse⟩ := exists_atOnce_consumeRoute api post s
      refine ⟨s.limits, Or.inr ⟨response, ?_, Or.inl hresponse⟩⟩
      rw [← hresponse]
      exact run_atOnce _ h
    · simp only [doorEnv, promptDoors, if_neg hurl]

/-- Both services of one origin. -/
def dreamDoors : Doors where
  settings := dreamSettings
  api := ⟨lit "https://api", some (lit "token")⟩
  worker := ⟨lit "https://api/api/v1/", lit " token", none⟩

/-- A request to the worker with the first ticket. -/
def workerKnock : DoorCall :=
  .worker ⟨livePath, [(lit "upgrade", lit "WebSocket"), (lit "sec-websocket-protocol", lit "dw.live.v1, ticket.t")]⟩

/-- A ticket is issued to ana and presented at the worker, twice, and at the API. -/
def doorKnocks : Fin 4 → DoorCall
  | 0 => .server (.issue (lit "ana"))
  | 1 => workerKnock
  | 2 => workerKnock
  | 3 => .server (knock livePath (lit "https://dream"))

/-- The three requests at the same time. -/
def doorKnocking : List (Fin 4 × ServiceEvent) × Pool (Fin 4) Server ServiceEffect ServiceReply Unit :=
  drive (fun s _ => s.inMemory = true) (promptDoors dreamDoors.api) (List.replicate 3 (List.finRange 4)).flatten []
    (openDoors dreamDoors (.inMemory {}) (.inMemory (.started 0)) doorKnocks)

theorem doorKnocking_runs : Runs (doorEnv noDatabase dreamDoors.api) (fun s _ => s.inMemory = true)
    (openDoors dreamDoors (.inMemory {}) (.inMemory (.started 0)) doorKnocks) doorKnocking.1 doorKnocking.2 := by
  unfold doorKnocking
  exact drive_runs (fun effect s hmemory => doorEnv_promptDoors dreamDoors.api effect s hmemory) _ .start

theorem two_doors_knocking :
    Guarded noDatabase dreamDoors Eq doorKnocks doorKnocking.1 doorKnocking.2.state.history ∧
      doorKnocking.1.countP (opensFor dreamDoors doorKnocks (lit "t")) = 1 := by
  have hstarted : (TicketKeeper.inMemory (.started 0)).IsStarted := ⟨0, rfl⟩
  have hconnected : dreamDoors.Connected := by
    refine ⟨⟨apiVersion, 1, Or.inr rfl, by decide⟩, by decide, by decide⟩
  refine ⟨two_doors doorKnocking_runs hstarted hconnected, ?_⟩
  decide +kernel

end DreamWeaver.Admission
