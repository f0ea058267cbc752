import DreamWeaver.Gateway.GeminiAIGateway
import DreamWeaver.Moderation.ReviewFeedback

/-! # The feedback routes

The routes of `api/src/routes/feedback.ts` behind `authMiddleware` (`api/src/middleware/auth.ts`). The two
routes of moderation have a second middleware that looks for a moderator, and goes on whether it has found
one or not: whoever is authenticated moderates. -/

namespace DreamWeaver.Moderation

open Proc Stories
open Gateway.GeminiAIGateway (optionalString requiredString)

/-! ## Requests and responses -/

/-- `ApiUser` -/
structure ApiUser where
  id : Text
  email : Option Text
  role : Option Text
  deriving DecidableEq, Repr

/-- What `adminAuthMiddleware` looks for: `service_role`, `admin`, or an address of the staff. -/
def ApiUser.isModerator (user : ApiUser) : Bool :=
  user.role = some (lit "service_role") || user.role = some (lit "admin") ||
    user.email.any fun email => (lit "@dreamweaver.app").isSuffixOf email

/-- The routes, with the JSON of the body where there is one; `none` is a body that is not JSON. -/
inductive FeedbackRoute where
  /-- `POST /` -/
  | submit (body : Option Json)
  /-- `GET /admin/pending` -/
  | pending
  /-- `POST /admin/:id/resolve` -/
  | resolve (id : Text) (body : Option Json)
  /-- `POST /jury` -/
  | jury (body : Option Json)

/-- A request, with the headers that are read. -/
structure FeedbackRequest where
  authorization : Option Text
  demoMode : Option Text
  route : FeedbackRoute
  now : ℕ

/-- The JSON of a response. -/
inductive ResponseBody where
  | error (message : Text)
  | created (feedback : Feedback)
  | listed (feedback : List Feedback)
  | reviewed (output : ReviewFeedbackOutput)
  | verdict

/-- A response. -/
structure Response where
  status : ℕ
  body : ResponseBody

/-- The feedback that a response lists. -/
def Response.listed (response : Response) : List Feedback :=
  match response.body with
  | .listed feedback => feedback
  | _ => []

/-- `c.json({ success: false, error: message }, status)` -/
def refusal (status : ℕ) (message : Text) : Response := ⟨status, .error message⟩

/-! ## Bodies -/

/-- `z.enum(['story', 'moment', 'character', 'conversation'])` -/
def contentTypeOf (text : Text) : Option ContentType :=
  if text = lit "story" then some .story
  else if text = lit "moment" then some .moment
  else if text = lit "character" then some .character
  else if text = lit "conversation" then some .conversation
  else none

/-- `z.enum(['flag', 'rating', 'correction'])` -/
def feedbackTypeOf (text : Text) : Option FeedbackType :=
  if text = lit "flag" then some .flag
  else if text = lit "rating" then some .rating
  else if text = lit "correction" then some .correction
  else none

/-- `z.enum(['dismissed', 'ban_content', 'warning'])` -/
def resolutionOf (text : Text) : Option ReviewResolution :=
  if text = lit "dismissed" then some .dismissed
  else if text = lit "ban_content" then some .banContent
  else if text = lit "warning" then some .warning
  else none

/-- `createFeedbackSchema`, with the user who submits the feedback. -/
def createFeedbackSchema (userId : Text) : Json → Option CreateFeedbackInput
  | .obj fields => do
    let contentId ← (requiredString fields (lit "contentId")).filter isUuid
    let contentType ← (requiredString fields (lit "contentType")).bind contentTypeOf
    let type ← (requiredString fields (lit "type")).bind feedbackTypeOf
    let reason ← optionalString fields (lit "reason")
    let details ← optionalString fields (lit "details")
    some ⟨userId, contentId, contentType, type, reason, details⟩
  | _ => none

/-- `resolveSchema`, with the id of the feedback. -/
def resolveSchema (feedbackId : Text) : Json → Option ReviewFeedbackInput
  | .obj fields => do
    let adminId ← requiredString fields (lit "adminId")
    let resolution ← (requiredString fields (lit "resolution")).bind resolutionOf
    let adminNotes ← optionalString fields (lit "adminNotes")
    some ⟨feedbackId, adminId, resolution, adminNotes⟩
  | _ => none

/-- The review is of the feedback with that id. -/
theorem feedbackId_of_resolveSchema {id : Text} {body : Option Json} {input : ReviewFeedbackInput}
    (h : body.bind (resolveSchema id) = some input) : input.feedbackId = id := by
  obtain ⟨value, -, hvalue⟩ := Option.bind_eq_some_iff.mp h
  cases value with
  | obj fields =>
    simp only [resolveSchema, Option.bind_eq_bind, Option.bind_eq_some_iff, Option.some.injEq] at hvalue
    obtain ⟨adminId, -, text, -, adminNotes, -, rfl⟩ := hvalue
    rfl
  | _ => cases hvalue

/-- What the schema of `POST /jury` accepts. -/
def jurySchema : Json → Bool
  | .obj fields =>
    ((requiredString fields (lit "verdict")).any fun verdict =>
        verdict = lit "approved" || verdict = lit "needs_work") &&
      (optionalString fields (lit "message")).isSome &&
      match Json.field? fields (lit "context") with
      | none | some (.obj _) => true
      | some _ => false
  | _ => false

/-! ## Effects -/

/-- What the routes await. -/
inductive RouteEffect where
  | storage (effect : StorageEffect)
  /-- `supabase.auth.getUser(token)` -/
  | getUser (token : Option Text)
  /-- `from('demo_feedback').insert(…)`, a table of its own. -/
  | insertVerdict (verdict : Json)

/-- The values that effects resolve with. There is no user if there is an error. -/
abbrev RouteEffect.Reply : RouteEffect → Type
  | .storage effect => effect.Reply
  | .getUser _ => Option ApiUser
  | .insertVerdict _ => Answer Unit

abbrev RouteProc := Proc RouteEffect RouteEffect.Reply

/-- An operation on the tables, in a route. -/
def onTables {α : Type} (p : StorageProc α) : RouteProc α := p.embed RouteEffect.storage

/-- The replies, and the tables afterwards. -/
def routeEnv : Env Database RouteEffect RouteEffect.Reply := fun db effect =>
  match effect with
  | .storage effect => fun reply db' => storageEnv db effect reply db'
  | _ => fun _ db' => db' = db

/-! ## Middleware -/

/-- What the middleware and the routes are configured with. -/
structure FeedbackApp where
  clients : Supabase
  production : Bool
  loadTestAuth : Bool
  hasCredentials : Bool

/-- `authHeader.split(' ')[1]` -/
def secondWord (header : Text) : Option Text := (header.splitOn 32)[1]?

/-- The user of the demo mode. -/
def genericDemoUser : ApiUser :=
  ⟨lit "00000000-0000-0000-0000-000000000001", some (lit "demo@dreamweaver.ai"), some (lit "authenticated")⟩

/-- The user of load tests. -/
def loadTestUser : ApiUser :=
  ⟨lit "load_test_user_123", some (lit "tester@example.com"), some (lit "authenticated")⟩

namespace FeedbackApp

variable (app : FeedbackApp)

/-- The user that a bearer has without a valid token: that of the demo mode or of load tests. -/
def userWithoutToken (request : FeedbackRequest) (header : Text) : Option ApiUser :=
  if request.demoMode = some (lit "true") then some genericDemoUser
  else if secondWord header = some (lit "mock_load_test_token") ∧ app.production = false ∧
      app.loadTestAuth = true then some loadTestUser
  else none

/-- The request's `Authorization` header, if it is that of a bearer. -/
def bearerHeader (request : FeedbackRequest) : Option Text :=
  request.authorization.filter fun header => (lit "Bearer ").isPrefixOf header

/-- `authMiddleware` -/
def authMiddleware (request : FeedbackRequest) (next : ApiUser → RouteProc Response) : RouteProc Response :=
  match bearerHeader request with
  | none => pure (refusal 401 (lit "Unauthorized: Missing or invalid Authorization header"))
  | some header =>
    match app.userWithoutToken request header with
    | some user => next user
    | none =>
      if app.hasCredentials then
        Proc.catchWith (do
          match ← (perform (RouteEffect.getUser (secondWord header)) : RouteProc (Option ApiUser)) with
          | none => pure (refusal 401 (lit "Unauthorized: Invalid token"))
          | some user => next user)
          fun _ => pure (refusal 500 (lit "Internal server error during authentication"))
      else pure (refusal 500 (lit "Server configuration error"))

/-- `adminAuthMiddleware`: the response that would forbid the request is commented out. -/
def adminAuthMiddleware (user : ApiUser) (next : RouteProc Response) : RouteProc Response := do
  if user.role ≠ some (lit "service_role") ∧ user.role ≠ some (lit "admin") ∧
      (user.email.any fun email => (lit "@dreamweaver.app").isSuffixOf email) = true then pure ()
  next

/-! ## Routes -/

/-- The error response of `zValidator`. -/
def invalidBody : Response := refusal 400 (lit "Invalid body")

/-- `FlagContentUseCase.execute` -/
def flagContent (input : CreateFeedbackInput) : StorageProc Feedback :=
  if input.userId = [] then throw ⟨lit "Error", lit "UserId is required"⟩
  else if input.contentId = [] then throw ⟨lit "Error", lit "ContentId is required"⟩
  else SupabaseFeedbackRepository.create app.clients input

/-- The handler of `POST /`. -/
def submit (body : Option Json) (user : ApiUser) : RouteProc Response :=
  match body.bind (createFeedbackSchema user.id) with
  | none => pure invalidBody
  | some input =>
    Proc.catchWith (do
      let feedback ← onTables (app.flagContent input)
      pure ⟨200, .created feedback⟩)
      fun _ => pure (refusal 500 (lit "Failed to submit feedback"))

/-- The handler of `GET /admin/pending`. -/
def listPending : RouteProc Response :=
  Proc.catchWith (do
    let pending ← onTables (SupabaseFeedbackRepository.findPending app.clients)
    pure ⟨200, .listed pending⟩)
    fun _ => pure (refusal 500 (lit "Internal Error"))

/-- The handler of `POST /admin/:id/resolve`. -/
def resolve (id : Text) (body : Option Json) (now : ℕ) : RouteProc Response :=
  match body.bind (resolveSchema id) with
  | none => pure invalidBody
  | some input =>
    Proc.catchWith (do
      let output ← onTables (ReviewFeedbackUseCase.execute app.clients input now)
      pure ⟨200, .reviewed output⟩)
      fun error => pure (refusal 500 error.message)

/-- The handler of `POST /jury`. -/
def jury (body : Option Json) : RouteProc Response :=
  match body.filter jurySchema with
  | none => pure invalidBody
  | some verdict =>
    if app.clients.supabaseAdmin then do
      match ← (perform (RouteEffect.insertVerdict verdict) : RouteProc (Answer Unit)) with
      | .data _ => pure ⟨200, .verdict⟩
      | .error _ => pure (refusal 500 (lit "Failed to record verdict"))
    else pure (refusal 500 (lit "Database not configured"))

/-- A request to the routes. -/
def handle (request : FeedbackRequest) : RouteProc Response :=
  match request.route with
  | .submit body => app.authMiddleware request fun user => app.submit body user
  | .pending => app.authMiddleware request fun user => adminAuthMiddleware user app.listPending
  | .resolve id body => app.authMiddleware request fun user =>
      adminAuthMiddleware user (app.resolve id body request.now)
  | .jury body => app.jury body

end FeedbackApp

/-! ## What requests do -/

/-- Nothing more is resolved or blocked. -/
structure Untouched (db db' : Database) : Prop where
  resolved : ∀ id row', db'.feedback id = some row' → row'.status = .resolved →
    ∃ row, db.feedback id = some row ∧ row.status = .resolved
  blocked : ∀ contentType id, db'.Blocks contentType id → db.Blocks contentType id

theorem Untouched.refl (db : Database) : Untouched db db := ⟨fun _ row h hs => ⟨row, h, hs⟩, fun _ _ h => h⟩

theorem Untouched.trans {db db₁ db' : Database} (h₁ : Untouched db db₁) (h₂ : Untouched db₁ db') :
    Untouched db db' where
  resolved id row' hrow' hstatus := by
    obtain ⟨row, hrow, hresolved⟩ := h₂.resolved id row' hrow' hstatus
    exact h₁.resolved id row hrow hresolved
  blocked contentType id h := h₁.blocked contentType id (h₂.blocked contentType id h)

/-- **A request that moderates nothing**: it lists, resolves and blocks nothing. -/
structure Spares (db : Database) (r : Except JsError Response) (db' : Database) : Prop where
  listed : ∀ response, r = .ok response → response.listed = []
  untouched : Untouched db db'

/-- An effect with its reply. -/
abbrev RouteEvent := Event RouteEffect RouteEffect.Reply

/-- The replies that `good` admits. -/
def routeWith (good : RouteEvent → Prop) : Env Database RouteEffect RouteEffect.Reply :=
  fun db effect reply db' => routeEnv db effect reply db' ∧ good ⟨effect, reply⟩

/-- What a procedure of the routes ends in. -/
abbrev RouteEndsIn {α : Type} (good : RouteEvent → Prop) (Q : Except JsError α → Database → Prop)
    (p : RouteProc α) (db : Database) : Prop :=
  p.Upholds (routeWith good) (fun _ _ => True) Q db

variable {good : RouteEvent → Prop} {db db' : Database} {app : FeedbackApp} {request : FeedbackRequest}

/-- A response that lists nothing. -/
theorem spares_response {response : Response} (h : response.listed = []) (huntouched : Untouched db db') :
    Spares db (.ok response) db' := by
  refine ⟨?_, huntouched⟩
  rintro _ ⟨⟩
  exact h

theorem spares_refusal {response : Response} (h : response.listed = []) : Spares db (.ok response) db :=
  spares_response h (Untouched.refl db)

theorem spares_error {e : JsError} (huntouched : Untouched db db') : Spares db (.error e) db' :=
  ⟨fun _ h => (nomatch h), huntouched⟩

/-- An operation on the tables ends in a route in what it ends in. -/
theorem routeEndsIn_onTables {α : Type} {Q : Except JsError α → Database → Prop} {p : StorageProc α}
    (h : EndsIn (fun _ => True) Q p db) : RouteEndsIn good Q (onTables p) db := by
  refine Upholds.embed ?_
  exact @Upholds.view _ _ _ _ (storageWith fun _ => True) (fun _ _ => True) p Q Database id _ db
    (fun _ _ _ _ hreply => ⟨hreply.1, trivial⟩) h

/-- **Authentication**: as the user of the demo mode or of load tests, or by a token that Supabase knows. -/
def Authenticates (good : RouteEvent → Prop) (app : FeedbackApp) (request : FeedbackRequest) : Prop :=
  ∃ header, FeedbackApp.bearerHeader request = some header ∧
    ((app.userWithoutToken request header).isSome = true ∨
      ∃ user, good ⟨.getUser (secondWord header), .ok (some user)⟩)

/-- A response in place of an error lists nothing. -/
theorem Spares.catchWith {p : RouteProc Response} {handler : JsError → Response}
    (h : RouteEndsIn good (Spares db) p db) (hhandler : ∀ e, (handler e).listed = []) :
    RouteEndsIn good (Spares db) (p.catchWith fun e => pure (handler e)) db := by
  refine Upholds.catchWith (h.imp fun r db' hspares => ?_)
  cases r with
  | ok response => exact hspares
  | error e => exact spares_response (hhandler e) hspares.untouched

/-- Behind `authMiddleware` is what an authenticated user does. -/
theorem spares_authMiddleware {next : ApiUser → RouteProc Response}
    (hnext : Authenticates good app request → ∀ user, RouteEndsIn good (Spares db) (next user) db) :
    RouteEndsIn good (Spares db) (app.authMiddleware request next) db := by
  unfold FeedbackApp.authMiddleware
  cases hheader : FeedbackApp.bearerHeader request with
  | none => exact spares_refusal rfl
  | some header =>
    dsimp only
    cases huser : app.userWithoutToken request header with
    | some user => exact hnext ⟨header, hheader, .inl (by rw [huser]; rfl)⟩ user
    | none =>
      dsimp only
      split
      · refine Spares.catchWith (Upholds.bind (upholds_perform_true fun reply db' hreply => ?_)) fun _ => rfl
        obtain ⟨hsame, hgood⟩ := hreply
        obtain rfl : db' = db := hsame
        cases reply with
        | error e => exact spares_error (Untouched.refl db')
        | ok found =>
          cases found with
          | none => exact spares_refusal rfl
          | some user => exact hnext ⟨header, hheader, .inr ⟨user, hgood⟩⟩ user
      · exact spares_refusal rfl

/-- **Behind `adminAuthMiddleware`** is what everybody does. -/
theorem spares_adminAuthMiddleware {user : ApiUser} {next : RouteProc Response}
    (hnext : RouteEndsIn good (Spares db) next db) :
    RouteEndsIn good (Spares db) (FeedbackApp.adminAuthMiddleware user next) db := by
  unfold FeedbackApp.adminAuthMiddleware
  split <;> exact hnext

/-- The answer to an operation on the tables. -/
theorem spares_onTables {α : Type} {p : StorageProc α} {body : α → ResponseBody} {handler : JsError → Response}
    (hhandler : ∀ e, (handler e).listed = [])
    (h : EndsIn (fun _ => True) (fun r db' => Untouched db db' ∧ ∀ a, r = .ok a →
      Response.listed ⟨200, body a⟩ = []) p db) :
    RouteEndsIn good (Spares db) (Proc.catchWith (do
      let a ← onTables p
      pure ⟨200, body a⟩) fun e => pure (handler e)) db := by
  refine Spares.catchWith (Upholds.bind ((routeEndsIn_onTables h).imp fun r db' hr => ?_)) hhandler
  cases r with
  | error e => exact spares_error hr.1
  | ok a => exact spares_response (hr.2 a rfl) hr.1

/-- New feedback is pending. -/
theorem endsIn_flagContent {input : CreateFeedbackInput} :
    EndsIn (fun _ => True) (fun _ db' => Untouched db db') (app.flagContent input) db := by
  unfold FeedbackApp.flagContent
  split
  · exact Untouched.refl db
  · split
    · exact Untouched.refl db
    · refine endsIn_requireClient (Upholds.bind (endsIn_query fun reply db' henv _ => ?_))
        fun e => Untouched.refl db
      cases reply with
      | error e =>
        rw [show db' = db from henv]
        exact Untouched.refl db
      | ok answer =>
        refine endsIn_dataOrThrow ?_ ?_
        · rintro feedback rfl
          obtain ⟨-, -, hpending, rfl⟩ := henv
          refine ⟨fun id row' hrow' hresolved => ?_, fun contentType id hblocks => by cases contentType <;> exact hblocks⟩
          by_cases hid : id = feedback.id
          · subst hid
            have hnew : Function.update db.feedback feedback.id (some feedback.toFeedbackRow) feedback.id =
                some row' := hrow'
            rw [Function.update_self, Option.some_inj] at hnew
            rw [← hnew, hpending] at hresolved
            cases hresolved
          · exact ⟨row', (Function.update_of_ne hid ..).symm.trans hrow', hresolved⟩
        · rintro _ rfl e
          rw [show db' = db from henv]
          exact Untouched.refl db

/-- Where no feedback is pending, none is listed. -/
theorem endsIn_findPending (hnone : ∀ id row, db.feedback id = some row → row.status ≠ .pending) :
    EndsIn (fun _ => True) (fun r db' => Untouched db db' ∧ ∀ pending, r = .ok pending → pending = [])
      (SupabaseFeedbackRepository.findPending app.clients) db := by
  refine endsIn_requireClient (Upholds.bind (endsIn_query fun reply db' henv _ => ?_))
    fun e => ⟨Untouched.refl db, fun _ h => nomatch h⟩
  obtain ⟨rfl, hrows⟩ := henv
  cases reply with
  | error e => exact ⟨Untouched.refl db', fun _ h => nomatch h⟩
  | ok answer =>
    refine endsIn_dataOrThrow ?_ ?_
    · rintro rows rfl
      refine ⟨Untouched.refl db', ?_⟩
      rintro _ ⟨⟩
      refine List.eq_nil_iff_forall_not_mem.mpr fun feedback hmem => ?_
      obtain ⟨hrow, hpending⟩ := (hrows rows rfl feedback).mp hmem
      exact hnone _ _ hrow hpending
    · rintro _ rfl e
      exact ⟨Untouched.refl db', fun _ h => nomatch h⟩

/-- Feedback that is not there is not reviewed. -/
theorem endsIn_review_of_missing {input : ReviewFeedbackInput} {now : ℕ}
    (hnone : db.feedback input.feedbackId = none) :
    EndsIn (fun _ => True) (fun _ db' => Untouched db db')
      (ReviewFeedbackUseCase.execute app.clients input now) db := by
  refine Upholds.bind (endsIn_findFeedback.imp fun r db₁ h => ?_)
  obtain ⟨rfl, hfound⟩ := h
  cases r with
  | error e => exact Untouched.refl db₁
  | ok found =>
    cases found with
    | none => exact Untouched.refl db₁
    | some feedback =>
      obtain ⟨-, hrow⟩ := hfound feedback rfl
      rw [hnone] at hrow
      cases hrow

/-! ## Runs of requests -/

/-- A request that is handled. -/
abbrev FeedbackCall := Call FeedbackRequest Database RouteEffect RouteEffect.Reply Response

/-- The user of a request, if Supabase knows one, is not a moderator. The users of the demo mode and of load
tests are none. -/
def FeedbackCall.ByNonModerator (call : FeedbackCall) : Prop :=
  ∀ token user, (⟨.getUser token, .ok (some user)⟩ : RouteEvent) ∈ call.events → user.isModerator = false

/-- **A request that has nothing to moderate**: it is not to a route of moderation, or it does not
authenticate, or there is no feedback that it could list or resolve. -/
def FeedbackCall.Powerless (app : FeedbackApp) (call : FeedbackCall) : Prop :=
  match call.op.route with
  | .pending => ¬ Authenticates (· ∈ call.events) app call.op ∨
      ∀ id row, call.before.feedback id = some row → row.status ≠ .pending
  | .resolve id body => ¬ Authenticates (· ∈ call.events) app call.op ∨
      body.bind (resolveSchema id) = none ∨ call.before.feedback id = none
  | _ => True

/-- **A request that has nothing to moderate** moderates nothing. -/
theorem spares_handle {call : FeedbackCall} (h : call.Powerless app) :
    RouteEndsIn (· ∈ call.events) (Spares call.before) (app.handle call.op) call.before := by
  unfold FeedbackApp.handle
  rw [FeedbackCall.Powerless] at h
  cases hroute : call.op.route with
  | submit body =>
    refine spares_authMiddleware fun _ user => ?_
    unfold FeedbackApp.submit
    cases body.bind (createFeedbackSchema user.id) with
    | none => exact spares_refusal rfl
    | some input =>
      exact spares_onTables (fun _ => rfl) (endsIn_flagContent.imp fun r db' huntouched =>
        ⟨huntouched, fun _ _ => rfl⟩)
  | pending =>
    rw [hroute] at h
    refine spares_authMiddleware fun hauthenticates user => spares_adminAuthMiddleware ?_
    rcases h with hrefused | hnone
    · exact absurd hauthenticates hrefused
    · exact spares_onTables (fun _ => rfl) ((endsIn_findPending hnone).imp fun r db' hpending =>
        ⟨hpending.1, hpending.2⟩)
  | resolve id body =>
    rw [hroute] at h
    refine spares_authMiddleware fun hauthenticates user => spares_adminAuthMiddleware ?_
    unfold FeedbackApp.resolve
    cases hinput : body.bind (resolveSchema id) with
    | none => exact spares_refusal rfl
    | some input =>
      have hid : input.feedbackId = id := feedbackId_of_resolveSchema hinput
      rcases h with hrefused | hinvalid | hnone
      · exact absurd hauthenticates hrefused
      · rw [hinput] at hinvalid
        cases hinvalid
      · exact spares_onTables (fun _ => rfl) ((endsIn_review_of_missing (by rw [hid, hnone])).imp
          fun r db' huntouched => ⟨huntouched, fun _ _ => rfl⟩)
  | jury body =>
    dsimp only
    unfold FeedbackApp.jury
    split
    · exact spares_refusal rfl
    · split
      · refine Upholds.bind (upholds_perform_true fun reply db' hreply => ?_)
        obtain rfl : db' = call.before := hreply.1
        cases reply with
        | error e => exact spares_error (Untouched.refl _)
        | ok answer => cases answer <;> exact spares_refusal rfl
      · exact spares_refusal rfl

/-- What a request by somebody who is not a moderator has moderated: nothing. -/
def FeedbackCall.Unmoderated (app : FeedbackApp) (call : FeedbackCall) : Prop :=
  ∀ after, Logs routeEnv call.before (app.handle call.op) call.events call.result after →
    Spares call.before call.result after

variable {calls : List FeedbackCall}

/-- **Only moderators moderate**: in every run whose requests by others have nothing to moderate, none of
these requests lists, resolves or blocks anything; and where no request is by a moderator, nothing more is
resolved or blocked in the end. -/
theorem only_moderators_moderate (h : Sequence routeEnv app.handle db calls db')
    (hpowerless : ∀ call ∈ calls, call.ByNonModerator → call.Powerless app) :
    (∀ call ∈ calls, call.ByNonModerator → call.Unmoderated app) ∧
      ((∀ call ∈ calls, call.ByNonModerator) → Untouched db db') := by
  have hspares : ∀ call ∈ calls, call.ByNonModerator → call.Unmoderated app := by
    intro call hcall hby after hrun
    have hrestricted := hrun.restrict fun event hmem => hmem
    exact (hrestricted.upheld (spares_handle (hpowerless call hcall hby))).1
  refine ⟨hspares, fun hall => ?_⟩
  have hunmoderated : ∀ call ∈ calls, call.Unmoderated app := fun call hcall =>
    hspares call hcall (hall call hcall)
  refine h.invariant (J := fun _ s => Untouched db s) hunmoderated (Untouched.refl db) ?_
  intro calls s₁ op log r s₂ huntouched hcall hrun
  exact huntouched.trans (hcall s₂ hrun).untouched

/-- The replies where every query succeeds, apart from listings, and Supabase knows no token. -/
def routeAnswering : (effect : RouteEffect) → Database → Except JsError effect.Reply × Database
  | .storage effect, db => answering effect db
  | .getUser _, db => (.ok none, db)
  | .insertVerdict _, db => (.ok (.data ()), db)

theorem routeEnv_answering (effect : RouteEffect) (db : Database) :
    routeEnv db effect (routeAnswering effect db).1 (routeAnswering effect db).2 := by
  cases effect with
  | storage effect => exact storageEnv_answering effect db
  | _ => rfl

/-- The service in production. -/
def productionApp : FeedbackApp := ⟨bothClients, true, false, true⟩

/-- A request to ban the content that is flagged, with two headers. -/
def banRequest (authorization demoMode : Option Text) : FeedbackRequest where
  authorization := authorization
  demoMode := demoMode
  route := .resolve (lit "flag") (some (.obj
    [(lit "adminId", .str (lit "nobody")), (lit "resolution", .str (lit "ban_content"))]))
  now := 1

/-- Requests to the service, where a story is flagged. -/
def feedbackCalls (requests : List FeedbackRequest) : List FeedbackCall × Database :=
  recordCalls productionApp.handle routeAnswering requests [] (flagged (some moonRow))

theorem sequence_feedbackCalls (requests : List FeedbackRequest) :
    Sequence routeEnv productionApp.handle (flagged (some moonRow)) (feedbackCalls requests).1
      (feedbackCalls requests).2 :=
  sequence_recordCalls routeEnv_answering requests .start

/-- None of these requests is by a moderator. -/
theorem byNonModerator_feedbackCalls (requests : List FeedbackRequest) :
    ∀ call ∈ (feedbackCalls requests).1, call.ByNonModerator := by
  refine forall_recordCalls (fun op s token user hmem => ?_) fun _ hcall => (nomatch hcall)
  obtain ⟨db, hreply⟩ := reply_of_record hmem
  cases hreply

/-- A request without the header of a bearer moderates nothing. -/
theorem only_moderators_moderate_noBearer :
    Untouched (flagged (some moonRow)) (feedbackCalls [banRequest none none]).2 ∧
      ∀ call ∈ (feedbackCalls [banRequest none none]).1, call.Unmoderated productionApp := by
  have hmoderate := only_moderators_moderate (sequence_feedbackCalls [banRequest none none]) fun call hcall _ => by
    obtain rfl := List.mem_singleton.mp hcall
    refine .inl ?_
    rintro ⟨header, hheader, -⟩
    cases hheader
  have hnone := byNonModerator_feedbackCalls [banRequest none none]
  exact ⟨hmoderate.2 hnone, fun call hcall => hmoderate.1 call hcall (hnone call hcall)⟩

/-- A request of the demo mode, with any token. -/
def demoRequest : FeedbackRequest := banRequest (some (lit "Bearer x")) (some (lit "true"))

/-- The user of the demo mode bans the story, and is not a moderator. -/
theorem demo_user_moderates :
    genericDemoUser.isModerator = false ∧
      Sequence routeEnv productionApp.handle (flagged (some moonRow)) (feedbackCalls [demoRequest]).1
        (feedbackCalls [demoRequest]).2 ∧
      (∀ call ∈ (feedbackCalls [demoRequest]).1, call.ByNonModerator) ∧
      (((feedbackCalls [demoRequest]).2.stories moonId).map StoryRow.status) = some .blocked ∧
      ¬ Untouched (flagged (some moonRow)) (feedbackCalls [demoRequest]).2 := by
  have hblocked : (((feedbackCalls [demoRequest]).2.stories moonId).map StoryRow.status) = some .blocked := by
    decide +kernel
  refine ⟨by decide, sequence_feedbackCalls _, byNonModerator_feedbackCalls _, hblocked, fun h => ?_⟩
  obtain ⟨row', hrow', hstatus'⟩ := Option.map_eq_some_iff.mp hblocked
  obtain ⟨row, hrow, hstatus⟩ := h.blocked .story moonId ⟨row', hrow', hstatus'⟩
  have hcompleted : ((flagged (some moonRow)).stories moonId).map StoryRow.status = some .completed := by
    decide +kernel
  rw [hrow, Option.map_some, hstatus] at hcompleted
  cases hcompleted

end DreamWeaver.Moderation
