import DreamWeaver.Admission.UpgradeHandler

/-! # Who is admitted to a WebSocket

However the upgrade requests, the calls on the tickets and the work of their store interleave: a socket is
opened only for a request that has passed every check, in their order, and with a ticket of its own. What
a request has done so far determines what it does next (`Checked`), and the acceptances that requests were
told of are those of the history of the tickets. -/

namespace DreamWeaver.Admission

open Tickets Proc

/-- An effect of the server with its reply. -/
abbrev UpgradeEvent := Proc.Event UpgradeEffect UpgradeEffect.Reply

/-! ## What a request does -/

/-- The ticket that the request of a call presents. -/
def ServerCall.ticket (settings : UpgradeSettings) : ServerCall → Option Text
  | .upgrade request => (settings.parseUrl request.url).bind fun url => request.ticket settings url
  | _ => none

/-- The path of the sockets of a kind. -/
def pathOf (isLive : Bool) : Text := if isLive then livePath else eventsPath

/-- The request is for sockets of a kind, comes from an allowed origin, and presents a ticket. -/
def UpgradeRequest.Asks (settings : UpgradeSettings) (request : UpgradeRequest) (isLive : Bool)
    (ticket : Text) : Prop :=
  ∃ url, settings.parseUrl request.url = some url ∧ url.pathname = pathOf isLive ∧
    request.hasAllowedOrigin settings = true ∧ request.ticket settings url = some ticket

/-- What a request has done before it awaits an effect. -/
def Checked (settings : UpgradeSettings) (request : UpgradeRequest) (past : List UpgradeEvent) :
    UpgradeEffect → Prop
  | .increment key => past = [] ∧ key = request.clientIp
  | .validate ticket => ∃ isLive limit, request.Asks settings isLive ticket ∧ withinLimit limit = true ∧
      past = [⟨.increment request.clientIp, .ok limit⟩]
  | .handleUpgrade isLive userId => ∃ ticket limit, request.Asks settings isLive ticket ∧
      withinLimit limit = true ∧
        past = [⟨.increment request.clientIp, .ok limit⟩, ⟨.validate ticket, .ok (some userId)⟩]
  | .issue _ => False
  | .upkeep => False
  | _ => True

/-- The effect is one of the store of tickets. -/
def UpgradeEffect.usesTickets : UpgradeEffect → Bool
  | .validate _ => true
  | .issue _ => true
  | .upkeep => true
  | _ => false

/-- A socket is opened, if the handshake succeeds. -/
def opens : UpgradeEvent → Bool
  | ⟨.handleUpgrade _ _, _⟩ => true
  | _ => false

variable {settings : UpgradeSettings} {request : UpgradeRequest}

/-- What a request has done when its checks resolve with a ticket. -/
def Cleared (settings : UpgradeSettings) (request : UpgradeRequest) (past : List UpgradeEvent)
    (r : Except JsError (Option (Bool × Text))) : Prop :=
  ∀ isLive ticket, r = .ok (some (isLive, ticket)) → request.Asks settings isLive ticket ∧
    ∃ limit, withinLimit limit = true ∧ past = [⟨.increment request.clientIp, .ok limit⟩]

/-- A procedure that does what a request may do, and resolves with a ticket only when all is checked. -/
def Checks (settings : UpgradeSettings) (request : UpgradeRequest)
    (p : UpgradeProc (Option (Bool × Text))) (past : List UpgradeEvent) : Prop :=
  p.Steps (Checked settings request) past ∧ p.Ends (Cleared settings request) past

/-- A refusal may come at any time. -/
theorem checks_refuse {status : Text} {past : List UpgradeEvent} :
    Checks settings request (do refuse status; pure none) past := by
  refine ⟨⟨trivial, fun reply => ?_⟩, fun reply => ?_⟩
  · cases reply <;> trivial
  · cases reply with
    | ok _ => exact fun isLive ticket h => (nomatch h)
    | error e => exact fun isLive ticket h => (nomatch h)

theorem checks_checkCredentials {url : RequestUrl} {limit : RateCount}
    (hurl : settings.parseUrl request.url = some url)
    (hpath : ¬ (url.pathname ≠ livePath ∧ url.pathname ≠ eventsPath))
    (hlimit : withinLimit limit = true) :
    Checks settings request (checkCredentials settings request url)
      [⟨.increment request.clientIp, .ok limit⟩] := by
  unfold checkCredentials
  by_cases horigin : request.hasAllowedOrigin settings = true
  · rw [horigin]
    cases hticket : request.ticket settings url with
    | none => exact checks_refuse
    | some ticket =>
      refine ⟨trivial, fun isLive ticket' h => ?_⟩
      cases h
      refine ⟨⟨url, hurl, ?_, horigin, hticket⟩, limit, hlimit, rfl⟩
      rw [pathOf]
      by_cases hlive : url.pathname = livePath
      · rw [if_pos (decide_eq_true hlive), hlive]
      · have hevents : url.pathname = eventsPath := by
          by_contra hno
          exact hpath ⟨hlive, hno⟩
        rw [if_neg (by simp [hlive]), hevents]
  · simp only [horigin]
    exact checks_refuse

/-- The checks of a request, and what they resolve with. -/
theorem checks_checkUpgrade (settings : UpgradeSettings) (request : UpgradeRequest) :
    Checks settings request (checkUpgrade settings request) [] := by
  unfold checkUpgrade
  cases hurl : settings.parseUrl request.url with
  | none => exact ⟨trivial, fun isLive ticket h => (nomatch h)⟩
  | some url =>
    dsimp only
    by_cases hpath : url.pathname ≠ livePath ∧ url.pathname ≠ eventsPath
    · rw [if_pos hpath]
      exact checks_refuse
    · rw [if_neg hpath]
      -- the rate limit, and then the rest
      have hlimited : ∀ limit, Checks settings request (if !withinLimit limit then do
          refuse (lit "429 Too Many Requests"); pure none
          else checkCredentials settings request url) [⟨.increment request.clientIp, .ok limit⟩] := by
        intro limit
        by_cases hlimit : withinLimit limit = true
        · rw [hlimit]
          exact checks_checkCredentials hurl hpath hlimit
        · simp only [hlimit]
          exact checks_refuse
      refine ⟨⟨⟨rfl, rfl⟩, fun reply => ?_⟩, fun reply => ?_⟩
      · cases reply with
        | error e => trivial
        | ok limit => exact (hlimited limit).1
      · cases reply with
        | error e => exact fun isLive ticket h => (nomatch h)
        | ok limit => exact (hlimited limit).2

theorem steps_authTask {isLive : Bool} {ticket : Text} {limit : RateCount}
    (hasks : request.Asks settings isLive ticket) (hlimit : withinLimit limit = true) :
    (authTask isLive ticket).Steps (Checked settings request)
      [⟨.increment request.clientIp, .ok limit⟩] := by
  refine Steps.catchWith ⟨⟨isLive, limit, hasks, hlimit, rfl⟩, fun reply => ?_⟩
    fun _ _ => ⟨trivial, fun _ => trivial⟩
  cases reply with
  | error e => trivial
  | ok answer =>
    dsimp only [Proc.bind]
    cases hanswer : answer.filter fun text => !text.isEmpty with
    | none => exact ⟨trivial, fun _ => trivial⟩
    | some userId =>
      have hsome : answer = some userId := (Option.filter_eq_some_iff.mp hanswer).1
      refine ⟨⟨ticket, limit, hasks, hlimit, by rw [hsome]; rfl⟩, fun reply => ?_⟩
      cases reply <;> trivial

/-- **What a request does**, whatever the replies. -/
theorem steps_upgrade (settings : UpgradeSettings) (request : UpgradeRequest) :
    (upgrade settings request).Steps (Checked settings request) [] := by
  obtain ⟨hsteps, hends⟩ := checks_checkUpgrade settings request
  refine Steps.bind (hsteps.catchWith fun e past => ?_) (Ends.catchWith (hends.imp fun past r hr => ?_))
  · refine ⟨trivial, fun reply => ?_⟩
    cases reply <;> trivial
  · cases r with
    | error e =>
      intro reply
      cases reply <;> trivial
    | ok checked =>
      cases checked with
      | none => trivial
      | some cleared =>
        obtain ⟨isLive, ticket⟩ := cleared
        obtain ⟨hasks, limit, hlimit, rfl⟩ := hr isLive ticket rfl
        exact steps_authTask hasks hlimit

/-! ## Acceptances -/

/-- The ticket that a request was told is accepted, and for whom. -/
def acceptance : UpgradeEvent → Option (Text × Text)
  | ⟨.validate ticket, .ok (some userId)⟩ => some (ticket, userId)
  | _ => none

/-- The ticket that was accepted, and for whom. -/
def acceptanceOf : TicketEvent → Option (Text × Text)
  | .validated ticket _ (some userId) => some (ticket, userId)
  | _ => none

variable {db : TicketDatabase} {s s' : Server} {effect : UpgradeEffect}
  {reply : Except JsError effect.Reply} {call : TicketProcess → TicketCall → Prop}
  {action : TicketTable → TicketAction → Prop}

/-- The store has kept its history. -/
def TicketKeeper.Kept (db : TicketDatabase) (past : List TicketEvent) : TicketKeeper → Prop
  | .inMemory p => p.Kept past
  | .supabase t => t.Kept db past

theorem TicketKeeper.Kept.proper {past : List TicketEvent} {tickets : TicketKeeper}
    (h : tickets.Kept db past) : Traced.AllAllowed (Proper (tickets.SameUser db)) [] past := by
  cases tickets with
  | inMemory p => exact h.keeps.proper
  | supabase t =>
    obtain ⟨granted, hkeeps, -⟩ := TicketTable.Kept.keeps h
    exact hkeeps.proper

theorem TicketKeeper.IsStarted.kept {tickets : TicketKeeper} (h : tickets.IsStarted) :
    tickets.Kept db [] := by
  cases tickets with
  | inMemory p =>
    obtain ⟨clock, rfl⟩ := h
    exact @TicketProcess.kept_of_run _ clock [] rfl
  | supabase t =>
    obtain ⟨clock, rfl⟩ := h
    exact @TicketTable.kept_of_run db _ clock [] rfl

/-- What the store of tickets does keeps its history. -/
theorem Server.Does.kept (h : s.Does db s' call action) (hkept : s.tickets.Kept db s.history) :
    s'.tickets.Kept db s'.history ∧ s'.tickets.SameUser db = s.tickets.SameUser db := by
  rw [Server.Does] at h
  cases htickets : s.tickets with
  | inMemory p =>
    rw [htickets] at h hkept
    obtain ⟨c, p', -, hstep, rfl⟩ := h
    exact ⟨TicketProcess.Kept.step hkept hstep, rfl⟩
  | supabase t =>
    rw [htickets] at h hkept
    obtain ⟨a, t', -, hstep, rfl⟩ := h
    exact ⟨TicketTable.Kept.step hkept hstep, rfl⟩

/-- What the store of tickets adds to its history. -/
theorem Server.Does.history (h : s.Does db s' call action) :
    (∃ p c, call p c ∧ s'.history = s.history ++ p.events c) ∨
      ∃ t a, action t a ∧ s'.history = s.history ++ t.events db a := by
  rw [Server.Does] at h
  cases htickets : s.tickets with
  | inMemory p =>
    rw [htickets] at h
    obtain ⟨c, p', hcall, -, rfl⟩ := h
    exact Or.inl ⟨p, c, hcall, rfl⟩
  | supabase t =>
    rw [htickets] at h
    obtain ⟨a, t', haction, -, rfl⟩ := h
    exact Or.inr ⟨t, a, haction, rfl⟩

/-- What the store does without being asked to validate accepts nothing. -/
theorem acceptances_of_not_validate (h : s.Does db s' call action)
    (hcall : ∀ p c, call p c → (TicketProcess.events p c).filterMap acceptanceOf = [])
    (haction : ∀ t a, action t a → (TicketTable.events db t a).filterMap acceptanceOf = []) :
    s'.history.filterMap acceptanceOf = s.history.filterMap acceptanceOf := by
  rcases h.history with ⟨p, c, hc, heq⟩ | ⟨t, a, ha, heq⟩
  · rw [heq, List.filterMap_append, hcall p c hc, List.append_nil]
  · rw [heq, List.filterMap_append, haction t a ha, List.append_nil]

/-- What a request is told of its ticket is what the history says. -/
theorem acceptances_of_validate {ticket : Text} {reply : Except JsError (Option Text)}
    (h : serverEnv db s (.validate ticket) reply s') :
    s'.history.filterMap acceptanceOf =
      s.history.filterMap acceptanceOf ++ (acceptance ⟨.validate ticket, reply⟩).toList := by
  rcases Server.Does.history h with ⟨p, c, ⟨now, rfl, rfl⟩, heq⟩ | ⟨t, a, ⟨now, delivery, rfl, hreply⟩, heq⟩
  · rw [heq, List.filterMap_append, TicketProcess.events]
    cases (p.tickets.validate ticket now).1 <;> rfl
  · rw [heq, List.filterMap_append]
    cases delivery with
    | answered =>
      rw [show reply = .ok (ticketAnswer (t.rows.consume ticket now).1) from hreply, TicketTable.events]
      cases ticketAnswer (t.rows.consume ticket now).1 <;> rfl
    | lost =>
      obtain ⟨e, rfl⟩ := hreply
      rw [TicketTable.events]
      by_cases hsome : (t.rows.consume ticket now).1.isSome = true
      · rw [if_pos hsome]
        rfl
      · rw [if_neg hsome]
        rfl
    | failed =>
      obtain ⟨e, rfl⟩ := hreply
      rfl

/-- An effect that does not use the tickets leaves them as they are. -/
theorem spared_of_not_usesTickets (h : serverEnv db s effect reply s')
    (hnot : effect.usesTickets = false) : s'.tickets = s.tickets ∧ s'.history = s.history := by
  cases effect with
  | increment key =>
    cases reply with
    | error e => exact (show s' = s from h) ▸ ⟨rfl, rfl⟩
    | ok limit =>
      cases hlimits : s.limits with
      | inMemory store =>
        simp only [serverEnv, hlimits] at h
        obtain ⟨now, -, rfl⟩ := h
        exact ⟨rfl, rfl⟩
      | upstash =>
        simp only [serverEnv, hlimits] at h
        exact h ▸ ⟨rfl, rfl⟩
  | validate ticket => cases hnot
  | issue userId => cases hnot
  | upkeep => cases hnot
  | handleUpgrade isLive userId => exact (show s' = s from h) ▸ ⟨rfl, rfl⟩
  | refuse status => exact (show s' = s from h) ▸ ⟨rfl, rfl⟩
  | destroy => exact (show s' = s from h) ▸ ⟨rfl, rfl⟩

/-- **One step of the server**: it keeps the history of its tickets, and accepts the tickets that it says
it accepts. -/
theorem serverEnv_step (h : serverEnv db s effect reply s') (hkept : s.tickets.Kept db s.history) :
    s'.tickets.Kept db s'.history ∧ s'.tickets.SameUser db = s.tickets.SameUser db ∧
      s'.history.filterMap acceptanceOf =
        s.history.filterMap acceptanceOf ++ (acceptance ⟨effect, reply⟩).toList := by
  by_cases huses : effect.usesTickets = true
  · cases effect with
    | validate ticket =>
      obtain ⟨hnow, hsame⟩ := Server.Does.kept h hkept
      exact ⟨hnow, hsame, acceptances_of_validate h⟩
    | issue userId =>
      obtain ⟨hnow, hsame⟩ := Server.Does.kept h hkept
      refine ⟨hnow, hsame, (acceptances_of_not_validate h ?_ ?_).trans (List.append_nil _).symm⟩
      · rintro p c ⟨ticket, now, rfl⟩
        rfl
      · rintro t a ⟨ticket, now, rfl⟩
        rfl
    | upkeep =>
      rcases h with rfl | h
      · exact ⟨hkept, rfl, (List.append_nil _).symm⟩
      obtain ⟨hnow, hsame⟩ := Server.Does.kept h hkept
      refine ⟨hnow, hsame, (acceptances_of_not_validate h ?_ ?_).trans (List.append_nil _).symm⟩
      · rintro p c ⟨now, rfl⟩
        rfl
      · rintro t a ⟨position, now, delivery, rfl⟩
        rw [TicketTable.events]
        cases t.inserting[position]? with
        | none => rfl
        | some row =>
          dsimp only
          split <;> rfl
    | _ => cases huses
  · rw [Bool.not_eq_true] at huses
    obtain ⟨htickets, hhistory⟩ := spared_of_not_usesTickets h huses
    rw [htickets, hhistory]
    refine ⟨hkept, rfl, ?_⟩
    cases effect with
    | validate ticket => cases huses
    | _ => exact (List.append_nil _).symm

variable {ι : Type} {log : List (ι × UpgradeEvent)}

/-- A ticket was redeemed for a user: it was issued to that user, had not expired and was never used. -/
def Redeemed (same : Text → Text → Prop) (history : List TicketEvent) (ticket userId : Text) : Prop :=
  ∃ before after owner expiresAt, ∃ now : ℤ,
    history = before ++ .validated ticket now (some userId) :: after ∧
      .issued ticket owner expiresAt ∈ before ∧ same owner userId ∧ expiresAt.lt now = false ∧
        Unused ticket before

/-- A request was told that the ticket is accepted. -/
def accepts (ticket : Text) (event : UpgradeEvent) : Bool :=
  ((acceptance event).map fun pair => decide (pair.1 = ticket)).getD false

/-- The acceptances that the log has of a ticket are those of the history. -/
theorem countP_accepts {history : List TicketEvent}
    (heq : history.filterMap acceptanceOf = log.filterMap fun entry => acceptance entry.2) (ticket : Text) :
    log.countP (fun entry => accepts ticket entry.2) = history.countP (TicketEvent.accepts ticket) := by
  have hcount := congrArg (List.countP fun pair : Text × Text => decide (pair.1 = ticket)) heq
  rw [List.countP_filterMap, List.countP_filterMap] at hcount
  rw [show (fun entry : ι × UpgradeEvent => accepts ticket entry.2) = fun entry =>
    ((acceptance entry.2).map fun pair => decide (pair.1 = ticket)).getD false from rfl, ← hcount]
  congr 1
  funext event
  cases event with
  | validated t now answer => cases answer <;> rfl
  | _ => rfl

/-- A ticket that a request was told is accepted was redeemed. -/
theorem redeemed_of_accepted {history : List TicketEvent} {same : Text → Text → Prop} {i : ι}
    {ticket userId : Text} (hproper : Traced.AllAllowed (Proper same) [] history)
    (heq : history.filterMap acceptanceOf = log.filterMap fun entry => acceptance entry.2)
    (hmem : (i, ⟨.validate ticket, .ok (some userId)⟩) ∈ log) : Redeemed same history ticket userId := by
  have hin : (ticket, userId) ∈ history.filterMap acceptanceOf := by
    rw [heq]
    exact List.mem_filterMap.mpr ⟨_, hmem, rfl⟩
  obtain ⟨event, hevent, haccepted⟩ := List.mem_filterMap.mp hin
  cases event with
  | validated t now answer =>
    cases answer with
    | none => cases haccepted
    | some user =>
      cases haccepted
      obtain ⟨before, after, rfl⟩ := List.append_of_mem hevent
      obtain ⟨hunused, owner, expiresAt, hissued, hsame, hnow⟩ := proper_of_allAllowed hproper
      exact ⟨before, after, owner, expiresAt, now, rfl, hissued, hsame, hnow, hunused⟩
  | _ => cases haccepted

/-! ## Runs -/

variable [DecidableEq ι]

/-- The entry opens a socket for a call that presents a ticket. -/
def opensWith (settings : UpgradeSettings) (calls : ι → ServerCall) (ticket : Text)
    (entry : ι × UpgradeEvent) : Bool :=
  opens entry.2 && decide ((calls entry.1).ticket settings = some ticket)

/-- A request is refused for its path, its origin or its rate. -/
def UpgradeRequest.IsRefused (settings : UpgradeSettings) (request : UpgradeRequest)
    (events : List UpgradeEvent) : Prop :=
  (∀ url, settings.parseUrl request.url = some url → ∀ isLive, url.pathname ≠ pathOf isLive) ∨
    request.hasAllowedOrigin settings = false ∨
      ∃ key limit, ⟨.increment key, .ok limit⟩ ∈ events ∧ withinLimit limit = false

/-- **Admission**: what a run of the server should be. -/
structure Admits (db : TicketDatabase) (settings : UpgradeSettings) (same : Text → Text → Prop)
    (calls : ι → ServerCall) (log : List (ι × UpgradeEvent)) (history : List TicketEvent) : Prop where
  /-- A socket is opened only for a request that has passed every check, for the user of its ticket. -/
  admitted : ∀ before i isLive userId reply after,
    log = before ++ (i, ⟨.handleUpgrade isLive userId, reply⟩) :: after →
      ∃ request ticket limit, calls i = .upgrade request ∧ request.Asks settings isLive ticket ∧
        (i, ⟨.increment request.clientIp, .ok limit⟩) ∈ before ∧ withinLimit limit = true ∧
          (i, ⟨.validate ticket, .ok (some userId)⟩) ∈ before ∧ Redeemed same history ticket userId
  /-- At most one socket is opened per ticket. -/
  once : ∀ ticket, log.countP (opensWith settings calls ticket) ≤ 1
  /-- A request that is refused for its path, its origin or its rate does nothing to the tickets. -/
  spared : ∀ i request, calls i = .upgrade request → request.IsRefused settings (eventsOf i log) →
    ∀ event ∈ eventsOf i log, ∀ s s', serverEnv db s event.effect event.reply s' →
      s'.tickets = s.tickets ∧ s'.history = s.history

/-- What a call has done before it awaits an effect. -/
def Behaves (settings : UpgradeSettings) (past : List UpgradeEvent) (effect : UpgradeEffect) :
    ServerCall → Prop
  | .upgrade request => Checked settings request past effect
  | _ => effect.usesTickets = true

/-- Every call does what it may do. -/
theorem steps_call (settings : UpgradeSettings) (call : ServerCall) :
    (call.proc settings).Steps (fun past effect => Behaves settings past effect call) [] := by
  cases call with
  | upgrade request => exact steps_upgrade settings request
  | issue userId => exact ⟨rfl, fun reply => trivial⟩
  | consume ticket =>
    refine ⟨rfl, fun reply => ?_⟩
    cases reply <;> trivial
  | upkeep => exact ⟨rfl, fun reply => trivial⟩

/-- What satisfies a condition at most once is the same where it does. -/
theorem eq_of_countP_le_one {α : Type} {f : α → Bool} {l : List α} {a b : α} (h : l.countP f ≤ 1)
    (ha : a ∈ l) (hb : b ∈ l) (hfa : f a = true) (hfb : f b = true) : a = b := by
  rw [List.countP_eq_length_filter] at h
  have hina : a ∈ l.filter f := List.mem_filter.mpr ⟨ha, hfa⟩
  have hinb : b ∈ l.filter f := List.mem_filter.mpr ⟨hb, hfb⟩
  obtain ⟨i, hi, rfl⟩ := List.mem_iff_getElem.mp hina
  obtain ⟨j, hj, rfl⟩ := List.mem_iff_getElem.mp hinb
  congr 1
  omega

variable {limits : RateLimitStore} {tickets : TicketKeeper} {calls : ι → ServerCall}
  {ok : Server → UpgradeEffect → Prop}
  {c : Pool ι Server UpgradeEffect UpgradeEffect.Reply Unit}

/-- **Every run** keeps the history of its tickets, and the acceptances of its log are those of the
history. -/
theorem kept_of_runs (h : Runs (serverEnv db) ok (serving settings limits tickets calls) log c)
    (hstarted : tickets.IsStarted) :
    c.state.tickets.Kept db c.state.history ∧ c.state.tickets.SameUser db = tickets.SameUser db ∧
      c.state.history.filterMap acceptanceOf = log.filterMap fun entry => acceptance entry.2 := by
  induction h with
  | start => exact ⟨hstarted.kept, rfl, rfl⟩
  | @step log c₁ i effect next reply s' hruns hproc hreply _ ih =>
    obtain ⟨hkept, hsame, haccepted⟩ := ih
    obtain ⟨hkept', hsame', haccepted'⟩ := serverEnv_step hreply hkept
    refine ⟨hkept', hsame'.trans hsame, ?_⟩
    rw [haccepted', haccepted, List.filterMap_append]
    cases hacceptance : acceptance ⟨effect, reply⟩ with
    | none => simp [hacceptance]
    | some pair => simp [hacceptance]

/-- What a call awaits, it may await after what it has done. -/
theorem behaves_of_runs (h : Runs (serverEnv db) ok (serving settings limits tickets calls) log c) (i : ι)
    {before after : List UpgradeEvent} {event : UpgradeEvent}
    (hsplit : eventsOf i log = before ++ event :: after) :
    Behaves settings before event.effect (calls i) :=
  (h.steps (steps_call settings (calls i))).2 before event after hsplit

/-- A call that opens a socket is an upgrade request that has passed every check. -/
theorem checked_of_opens (h : Runs (serverEnv db) ok (serving settings limits tickets calls) log c) {i : ι}
    {before after : List UpgradeEvent} {isLive : Bool} {userId : Text}
    {reply : Except JsError (UpgradeEffect.handleUpgrade isLive userId).Reply}
    (hsplit : eventsOf i log = before ++ ⟨.handleUpgrade isLive userId, reply⟩ :: after) :
    ∃ request ticket limit, calls i = .upgrade request ∧ request.Asks settings isLive ticket ∧
      withinLimit limit = true ∧ before =
        [⟨.increment request.clientIp, .ok limit⟩, ⟨.validate ticket, .ok (some userId)⟩] := by
  have hbehaves := behaves_of_runs h i hsplit
  cases hcall : calls i with
  | upgrade request =>
    rw [hcall] at hbehaves
    obtain ⟨ticket, limit, hasks, hlimit, hbefore⟩ := hbehaves
    exact ⟨request, ticket, limit, rfl, hasks, hlimit, hbefore⟩
  | _ =>
    rw [hcall] at hbehaves
    cases hbehaves

/-- A request that asks for a socket presents its ticket. -/
theorem UpgradeRequest.Asks.ticket {isLive : Bool} {ticket : Text}
    (h : request.Asks settings isLive ticket) :
    (ServerCall.upgrade request).ticket settings = some ticket := by
  obtain ⟨url, hurl, -, -, hticket⟩ := h
  rw [ServerCall.ticket, hurl]
  exact hticket

/-- A socket that a call opens comes after the acceptance of its ticket. -/
theorem accepted_of_opens (h : Runs (serverEnv db) ok (serving settings limits tickets calls) log c)
    {i : ι} {event : UpgradeEvent} (hmem : (i, event) ∈ log) (hopens : opens event = true) :
    ∃ ticket userId, (calls i).ticket settings = some ticket ∧
      (i, ⟨.validate ticket, .ok (some userId)⟩) ∈ log := by
  have hevent : event ∈ eventsOf i log :=
    List.mem_map.mpr ⟨(i, event), List.mem_filter.mpr ⟨hmem, decide_eq_true rfl⟩, rfl⟩
  obtain ⟨before, after, hsplit⟩ := List.append_of_mem hevent
  obtain ⟨effect, reply⟩ := event
  cases effect with
  | handleUpgrade isLive userId =>
    obtain ⟨request, ticket, limit, hcall, hasks, -, rfl⟩ := checked_of_opens h hsplit
    exact ⟨ticket, userId, hcall ▸ hasks.ticket, mem_of_mem_eventsOf (by rw [hsplit]; simp)⟩
  | _ => cases hopens

/-- A call opens at most one socket. -/
theorem opens_once (h : Runs (serverEnv db) ok (serving settings limits tickets calls) log c) (i : ι) :
    (eventsOf i log).countP opens ≤ 1 := by
  apply countP_le_one
  rintro before ⟨effect, reply⟩ after hsplit hopens
  cases effect with
  | handleUpgrade isLive userId =>
    obtain ⟨request, ticket, limit, -, -, -, rfl⟩ := checked_of_opens h hsplit
    rfl
  | _ => cases hopens

/-- **At most one socket per ticket**: two would be two acceptances. -/
theorem countP_opensWith (h : Runs (serverEnv db) ok (serving settings limits tickets calls) log c)
    {ticket : Text} (honce : log.countP (fun entry => accepts ticket entry.2) ≤ 1) :
    log.countP (opensWith settings calls ticket) ≤ 1 := by
  by_cases hsome : ∃ entry ∈ log, opensWith settings calls ticket entry = true
  · obtain ⟨⟨i, event⟩, hmem, hopens⟩ := hsome
    -- the acceptance that comes before is the one of the ticket
    have haccepted : ∀ entry ∈ log, opensWith settings calls ticket entry = true →
        ∃ userId, (entry.1, (⟨.validate ticket, .ok (some userId)⟩ : UpgradeEvent)) ∈ log := by
      rintro ⟨j, event'⟩ hmem' hopens'
      obtain ⟨hopen, hticket⟩ := Bool.and_eq_true_iff.mp hopens'
      obtain ⟨ticket', userId, hpresents, haccept⟩ := accepted_of_opens h hmem' hopen
      rw [of_decide_eq_true hticket, Option.some_inj] at hpresents
      exact ⟨userId, by rw [hpresents]; exact haccept⟩
    obtain ⟨userId, hfirst⟩ := haccepted _ hmem hopens
    have hself : ∀ userId, accepts ticket ⟨.validate ticket, .ok (some userId)⟩ = true :=
      fun userId => decide_eq_true rfl
    calc log.countP (opensWith settings calls ticket)
        ≤ log.countP (fun entry => opens entry.2 && decide (entry.1 = i)) := by
          refine List.countP_mono_left fun entry hentry hopens' => ?_
          obtain ⟨userId', hsecond⟩ := haccepted entry hentry hopens'
          have hsame := eq_of_countP_le_one honce hsecond hfirst (hself userId') (hself userId)
          rw [Bool.and_eq_true_iff]
          exact ⟨(Bool.and_eq_true_iff.mp hopens').1, decide_eq_true (Prod.mk.inj hsame).1⟩
      _ = (eventsOf i log).countP opens := by
          rw [eventsOf, List.countP_map, List.countP_filter]
          rfl
      _ ≤ 1 := opens_once h i
  · rw [List.countP_eq_zero.mpr fun entry hmem hopens => hsome ⟨entry, hmem, hopens⟩]
    exact Nat.zero_le 1

/-- A request that is refused for its path, its origin or its rate asks nothing of the tickets. -/
theorem not_usesTickets_of_isRefused
    (h : Runs (serverEnv db) ok (serving settings limits tickets calls) log c) {i : ι}
    (hcall : calls i = .upgrade request) (hrefused : request.IsRefused settings (eventsOf i log))
    {event : UpgradeEvent} (hmem : event ∈ eventsOf i log) : event.effect.usesTickets = false := by
  obtain ⟨before, after, hsplit⟩ := List.append_of_mem hmem
  have hbehaves := behaves_of_runs h i hsplit
  rw [hcall] at hbehaves
  obtain ⟨effect, reply⟩ := event
  cases effect with
  | validate ticket =>
    -- the checks that come before have succeeded
    obtain ⟨isLive, limit, ⟨url, hurl, hpath, horigin, -⟩, hlimit, rfl⟩ := hbehaves
    rcases hrefused with hother | hforeign | ⟨key, limit', hcounted, hexceeded⟩
    · exact absurd hpath (hother url hurl isLive)
    · rw [horigin] at hforeign
      cases hforeign
    · obtain ⟨before', after', hsplit'⟩ := List.append_of_mem hcounted
      have hfirst := behaves_of_runs h i hsplit'
      rw [hcall] at hfirst
      obtain ⟨rfl, -⟩ := hfirst
      rw [hsplit] at hsplit'
      cases hsplit'
      rw [hlimit] at hexceeded
      cases hexceeded
  | issue userId => cases hbehaves
  | upkeep => cases hbehaves
  | _ => rfl

/-- **Admission**: in every run of the server, a socket is opened only for a request to one of the two
paths, from an allowed origin, within the rate limit, with a ticket that was issued to the user of the
socket, had not expired and was never used; at most one per ticket; and a request that is refused for its
path, its origin or its rate uses no ticket. -/
theorem websocket_admission (h : Runs (serverEnv db) ok (serving settings limits tickets calls) log c)
    (hstarted : tickets.IsStarted) :
    Admits db settings (tickets.SameUser db) calls log c.state.history := by
  obtain ⟨hkept, hsame, haccepted⟩ := kept_of_runs h hstarted
  have hproper := hkept.proper
  rw [hsame] at hproper
  refine ⟨fun before i isLive userId reply after hlog => ?_, fun ticket => ?_,
    fun i request hcall hrefused event hmem s s' henv => ?_⟩
  · have hsplit : eventsOf i log = eventsOf i before ++ ⟨.handleUpgrade isLive userId, reply⟩ ::
        eventsOf i after := by
      rw [hlog]
      simp [eventsOf]
    obtain ⟨request, ticket, limit, hcall, hasks, hlimit, hbefore⟩ := checked_of_opens h hsplit
    have hvalidated : (i, (⟨.validate ticket, .ok (some userId)⟩ : UpgradeEvent)) ∈ before :=
      mem_of_mem_eventsOf (by rw [hbefore]; simp)
    refine ⟨request, ticket, limit, hcall, hasks, mem_of_mem_eventsOf (by rw [hbefore]; simp), hlimit,
      hvalidated, @redeemed_of_accepted _ _ _ _ i _ _ hproper haccepted ?_⟩
    rw [hlog]
    exact List.mem_append_left _ hvalidated
  · refine countP_opensWith h ?_
    rw [countP_accepts haccepted]
    exact (count_accepts_of_allAllowed hproper).1
  · exact spared_of_not_usesTickets henv (not_usesTickets_of_isRefused h hcall hrefused hmem)

/-! ## A run -/

/-- The server keeps its tickets in memory. -/
def Server.inMemory (s : Server) : Bool :=
  match s.tickets with
  | .inMemory _ => true
  | .supabase _ => false

/-- A server that answers at once; time stands still, and every ticket that is drawn is longer than those
before it. -/
def prompt (effect : UpgradeEffect) (s : Server) : Except JsError effect.Reply × Server :=
  match effect, s.tickets with
  | .increment key, _ =>
    match s.limits with
    | .inMemory store =>
      (.ok (store.increment key 0).1, { s with limits := .inMemory (store.increment key 0).2 })
    | .upstash => (.ok ⟨1, 60⟩, s)
  | .validate ticket, .inMemory p => (.ok (p.tickets.validate ticket p.clock).1,
      s.kept (.inMemory ⟨(p.tickets.validate ticket p.clock).2, p.clock, p.drawn⟩)
        (p.events (.validate ticket p.clock)))
  | .issue userId, .inMemory p =>
    let ticket := p.drawn.flatten ++ lit "t"
    (.ok (), s.kept
      (.inMemory ⟨p.tickets.issue ticket userId (.finite 90) p.clock, p.clock, ticket :: p.drawn⟩)
        (p.events (.issue ticket userId (.finite 90) p.clock)))
  | .handleUpgrade _ _, _ => (.ok true, s)
  | _, _ => (.error ⟨[], []⟩, s)

theorem serverEnv_prompt (db : TicketDatabase) (effect : UpgradeEffect) (s : Server)
    (hmemory : s.inMemory = true) :
    serverEnv db s effect (prompt effect s).1 (prompt effect s).2 := by
  obtain ⟨limits, tickets, history⟩ := s
  cases tickets with
  | supabase t => cases hmemory
  | inMemory p =>
    cases effect with
    | increment key =>
      cases limits with
      | inMemory store => exact ⟨0, rfl, rfl⟩
      | upstash => exact rfl
    | validate ticket =>
      refine ⟨.validate ticket p.clock, _, ⟨p.clock, rfl, rfl⟩, ?_, rfl⟩
      exact if_neg (lt_irrefl p.clock)
    | issue userId =>
      have hfresh : p.drawn.flatten ++ lit "t" ∉ p.drawn := by
        intro hmem
        have hle := (List.sublist_flatten_of_mem hmem).length_le
        rw [List.length_append, show (lit "t").length = 1 from rfl] at hle
        omega
      refine ⟨.issue (p.drawn.flatten ++ lit "t") userId (.finite 90) p.clock, _, ⟨_, _, rfl⟩, ?_, rfl⟩
      exact (if_neg (lt_irrefl p.clock)).trans (if_neg hfresh)
    | upkeep => exact Or.inl rfl
    | _ => exact rfl

/-- A server for one origin, which reads the URLs of the two paths. -/
def dreamSettings : UpgradeSettings where
  parseUrl text :=
    if text = livePath ∨ text = eventsPath then some ⟨text, none⟩ else none
  allowedOrigins := [lit "https://dream"]
  isProduction := true

/-- A request with the first ticket. -/
def knock (path origin : Text) : ServerCall :=
  .upgrade ⟨path, [(lit "origin", origin), (lit "sec-websocket-protocol", lit "dw.events.v1, ticket.t")],
    none⟩

/-- A ticket is issued to ana, and three requests present it: one from elsewhere, and one for each path. -/
def knocks : Fin 4 → ServerCall
  | 0 => .issue (lit "ana")
  | 1 => knock livePath (lit "https://else")
  | 2 => knock livePath (lit "https://dream")
  | 3 => knock eventsPath (lit "https://dream")

/-- The three requests at the same time. -/
def knocking : List (Fin 4 × UpgradeEvent) × Pool (Fin 4) Server UpgradeEffect UpgradeEffect.Reply Unit :=
  drive (fun s _ => s.inMemory = true) prompt [0, 1, 2, 3, 1, 2, 3, 1, 2, 3] []
    (serving dreamSettings (.inMemory {}) (.inMemory (.started 0)) knocks)

/-- A database without users. -/
def noDatabase : TicketDatabase where
  user? _ := none
  user?_ne_nil _ h := (nomatch h)
  timestamptz _ := none
  timestamptz_toISOString _ _ h := (nomatch h)

theorem websocket_admission_knocking :
    Admits noDatabase dreamSettings Eq knocks knocking.1 knocking.2.state.history ∧
      knocking.1.countP (opensWith dreamSettings knocks (lit "t")) = 1 := by
  have hstarted : (TicketKeeper.inMemory (.started 0)).IsStarted := ⟨0, rfl⟩
  refine ⟨websocket_admission (drive_runs (serverEnv_prompt noDatabase) _ .start) hstarted, ?_⟩
  decide +kernel

end DreamWeaver.Admission
