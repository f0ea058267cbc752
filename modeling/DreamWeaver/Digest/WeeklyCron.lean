import DreamWeaver.Digest.SendWeeklyDigest
import DreamWeaver.Foundations.Batches
import DreamWeaver.Moderation.Storage

/-! # The cron job of the weekly digests

`GET /weekly-digest` (`api/src/routes/cron.ts`) asks the database for the stories of the last week, of which it takes
2000 at most, in no order. The users whose stories it gets have their digests made, ten at a time. Whatever fails for
one of them is recorded, and the others go on. -/

namespace DreamWeaver.Digest

open Proc Moderation

/-! ## The digest of one user -/

/-- `data.user` of `getUserById`, as far as it is read. -/
structure AuthUser where
  email : Option Text
  childName : Option Text

/-- What the digest of a user awaits. -/
inductive CronEffect where
  /-- `supabaseAdmin.auth.admin.getUserById(userId)` -/
  | getUserById (userId : Text)
  /-- `weekly_digest_enabled` of the `user_preferences` of a user -/
  | userPreferences (userId : Text)
  /-- `container.sendWeeklyDigestUseCase.execute(input)` -/
  | sendWeeklyDigest (input : WeeklyDigestInput)

/-- What an effect is replied with. -/
abbrev CronEffect.Reply : CronEffect → Type
  | .getUserById _ => Answer (Option AuthUser)
  | .userPreferences _ => Answer (Option Bool)
  | .sendWeeklyDigest _ => WeeklyDigestOutput

abbrev CronProc := Proc CronEffect CronEffect.Reply

abbrev CronEvent := Event CronEffect CronEffect.Reply

/-- An entry of `results`. -/
structure CronResult where
  userId : Text
  sent : Option Bool
  storiesCount : Option ℕ
  highlightMoment : Option Text
  skipped : Option Text
  error : Option Text
  deriving DecidableEq, Repr

/-- `{ userId, error }` -/
def CronResult.failure (userId error : Text) : CronResult := ⟨userId, none, none, none, none, some error⟩

/-- `{ data }`, where an error leaves no data. -/
def dataOf {α : Type} : Answer (Option α) → Option α
  | .data data => data
  | .error _ => none

/-- `value || default` for a text that may be missing. -/
def textOr (value : Option Text) (default : Text) : Text := if value.getD [] = [] then default else value.getD []

/-- `processUserDigest` -/
def processUserDigest (hasAdmin : Bool) (userId : Text) : CronProc CronResult :=
  if !hasAdmin then pure (.failure userId (lit "No admin client"))
  else do
    let profile ← (perform (CronEffect.getUserById userId) : CronProc (Answer (Option AuthUser)))
    match dataOf profile with
    | none => pure (.failure userId (lit "Failed to load user profile"))
    | some user =>
      let email := user.email.getD []
      if email = [] then pure (.failure userId (lit "Missing email"))
      else do
        let prefs ← (perform (CronEffect.userPreferences userId) : CronProc (Answer (Option Bool)))
        if dataOf prefs = some false then
          pure ⟨userId, some false, some 0, none, some (lit "weekly_digest_disabled"), none⟩
        else do
          let input : WeeklyDigestInput := ⟨userId, email, textOr user.childName (lit "Your child")⟩
          let result ← (perform (CronEffect.sendWeeklyDigest input) : CronProc WeeklyDigestOutput)
          pure ⟨userId, some result.sent, some result.storiesCount, result.highlightMoment, none, none⟩

/-- The entry for a promise that has settled; `String(result.reason)` of an error. -/
def entryOf (userId : Text) : Except JsError CronResult → CronResult
  | .ok result => result
  | .error reason => .failure userId (reason.name ++ lit ": " ++ reason.message)

/-! ## The route -/

/-- `BATCH_SIZE` -/
def batchSize : ℕ := 10

/-- The slices of `for (let i = 0; i < userIds.length; i += BATCH_SIZE)`. -/
def batches (userIds : List Text) : List (List Text) :=
  (List.range ((userIds.length + batchSize - 1) / batchSize)).map fun k =>
    (userIds.drop (batchSize * k)).take batchSize

/-- `user_id` and `created_at` of a story. -/
structure ActiveRow where
  userId : Text
  createdAt : ℕ
  deriving DecidableEq, Repr

/-- `Array.from(new Set(storyRows.map(r => r.user_id).filter(Boolean)))` -/
def userIdsOf (storyRows : List ActiveRow) : List Text :=
  distinct ((storyRows.map ActiveRow.userId).filter fun userId => userId ≠ [])

/-- What an unordered query with a limit gives: some of the rows, and all of them if they are no more. -/
def IsLimited {α : Type} (rows : List α) (limit : ℕ) (found : List α) : Prop :=
  ∃ order : List α, order.Perm rows ∧ found = order.take limit

/-- The rows of the last week. -/
def weekOf (zone : LocalZone) (now : ℕ) (rows : List ActiveRow) : List ActiveRow :=
  rows.filter fun row => zone.addDays now (-7) ≤ row.createdAt

/-- The environment of the server, and whether there is a `supabaseAdmin`. -/
structure CronConfig where
  production : Bool
  cronSecret : Option Text
  hasAdmin : Bool

/-- A response: its status and its body. -/
structure CronResponse where
  status : ℕ
  success : Option Bool
  error : Option Text
  results : List CronResult
  processedCount : Option ℕ
  deriving DecidableEq, Repr

/-- What is refused before the database is asked. -/
def refusal (config : CronConfig) (authorization : Option Text) : Option CronResponse :=
  if config.production ∧ (authorization.getD [] = [] ∨
      authorization.getD [] ≠ lit "Bearer " ++ config.cronSecret.getD (lit "undefined")) then
    some ⟨401, none, some (lit "Unauthorized"), [], none⟩
  else if !config.hasAdmin then
    some ⟨500, some false, some (lit "Supabase service role is required for cron jobs"), [], none⟩
  else none

/-- Replies of any kind, errors too. -/
def anyReply : Env Unit CronEffect CronEffect.Reply := fun _ _ _ _ => True

/-- **A run of the route** at a time over the stories of the database, with what it did for whom and its response. -/
inductive CronRuns (config : CronConfig) (authorization : Option Text) (zone : LocalZone) (now : ℕ)
    (rows : List ActiveRow) : List (Text × CronEvent) → CronResponse → Prop
  | refused {response : CronResponse} (h : refusal config authorization = some response) :
      CronRuns config authorization zone now rows [] response
  | failed (message : Text) (h : refusal config authorization = none) :
      CronRuns config authorization zone now rows []
        ⟨500, some false, some (lit "Failed to fetch active users: " ++ message), [], none⟩
  | processed {found : List ActiveRow} {log : List (Text × CronEvent)}
      {settled : List (Text × Except JsError CronResult)} (h : refusal config authorization = none)
      (hfound : IsLimited (weekOf zone now rows) 2000 found)
      (hsettles : Settles anyReply (processUserDigest config.hasAdmin) () (batches (userIdsOf found)) log settled ()) :
      CronRuns config authorization zone now rows log
        ⟨200, some true, none, settled.map fun entry => entryOf entry.1 entry.2, some settled.length⟩

end DreamWeaver.Digest
