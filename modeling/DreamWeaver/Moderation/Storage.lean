import DreamWeaver.Foundations.JsArithmetic
import DreamWeaver.Foundations.Sequence
import DreamWeaver.Stories.StoryEntity

/-! # What moderation stores

The tables behind `SupabaseStoryRepository`, `SupabaseMomentRepository`, `SupabaseFeedbackRepository` and
`SupabaseModerationRepository` (`api/src/infrastructure`), with an effect for every query that these
repositories make and for every pause of `withRetry`. A query is answered with data or with an error, or
its promise rejects; it is one transaction, which is not carried out unless it is answered with data.
Dates are in milliseconds. -/

namespace DreamWeaver.Moderation

open Proc Stories

/-! ## The tables -/

/-- `StoryRow`, without its key `id`. -/
structure StoryRow where
  userId : Text
  title : Text
  content : Text
  theme : Text
  status : StoryStatus
  audioUrl : Option Text
  createdAt : ℕ
  generatedAt : Option ℕ
  deriving DecidableEq, Repr

/-- The `status` of a row of `golden_moments`. -/
inductive MomentStatus where
  | active
  | blocked
  deriving DecidableEq, Repr

/-- What is read of a row of `golden_moments`, without its key. -/
structure MomentRow where
  userId : Text
  status : MomentStatus
  deriving DecidableEq, Repr

/-- `ModerationContentType` -/
inductive ModerationContentType where
  | character
  deriving DecidableEq, Repr

/-- A row of `moderation_blocks`, without its key. -/
structure ModerationBlock where
  adminId : Text
  reason : Option Text
  notes : Option Text
  blockedAt : ℕ
  deriving DecidableEq, Repr

/-- `Feedback['contentType']` -/
inductive ContentType where
  | story
  | moment
  | character
  | conversation
  deriving DecidableEq, Repr

/-- `FeedbackType` -/
inductive FeedbackType where
  | flag
  | rating
  | correction
  deriving DecidableEq, Repr

/-- `Feedback['status']` -/
inductive FeedbackStatus where
  | pending
  | reviewed
  | resolved
  deriving DecidableEq, Repr

/-- `Feedback['resolution']` -/
inductive FeedbackResolution where
  | dismissed
  | actionTaken
  deriving DecidableEq, Repr

/-- `CreateFeedbackInput` -/
structure CreateFeedbackInput where
  userId : Text
  contentId : Text
  contentType : ContentType
  type : FeedbackType
  reason : Option Text
  details : Option Text
  deriving DecidableEq, Repr

/-- A row of `feedback`, without its key `id`. -/
structure FeedbackRow extends CreateFeedbackInput where
  status : FeedbackStatus
  resolution : Option FeedbackResolution
  adminNotes : Option Text
  resolvedAt : Option ℕ
  createdAt : ℕ
  deriving DecidableEq, Repr

/-- `Feedback` -/
structure Feedback extends FeedbackRow where
  id : Text
  deriving DecidableEq, Repr

/-- The tables, by their keys. -/
structure Database where
  stories : Text → Option StoryRow
  moments : Text → Option MomentRow
  blocks : ModerationContentType → Text → Option ModerationBlock
  feedback : Text → Option FeedbackRow

/-- The tables with a story. -/
def Database.withStory (db : Database) (id : Text) (row : StoryRow) : Database :=
  { db with stories := Function.update db.stories id (some row) }

/-- The tables with a moment. -/
def Database.withMoment (db : Database) (id : Text) (row : MomentRow) : Database :=
  { db with moments := Function.update db.moments id (some row) }

/-- The tables with a block. -/
def Database.withBlock (db : Database) (contentType : ModerationContentType) (contentId : Text)
    (block : ModerationBlock) : Database :=
  { db with
    blocks := Function.update db.blocks contentType
      (Function.update (db.blocks contentType) contentId (some block)) }

/-! ## Rows and entities -/

/-- `mapRowToStory` -/
def mapRowToStory (isUrl : Text → Bool) (id : Text) (row : StoryRow) : Except JsError StoryProps := do
  let content ← StoryContent.fromRawText row.content
  let story ← Story.create isUrl {
    id := id
    title := row.title
    content := content
    theme := row.theme
    ownerId := row.userId
    status := row.status
    createdAt := row.createdAt
    generatedAt := row.generatedAt
    audioUrl := row.audioUrl.filter fun url => !url.isEmpty }
  return story.props

/-- `mapStoryToRow` -/
def mapStoryToRow (story : StoryProps) : StoryRow where
  userId := story.ownerId
  title := story.title
  content := joinWith (lit "\n\n") story.content.paragraphs
  theme := story.theme
  status := story.status
  audioUrl := story.audioUrl.filter fun url => !url.isEmpty
  createdAt := story.createdAt
  generatedAt := story.generatedAt

/-- The story of a row has its key, its owner and its status. -/
theorem mapRowToStory_ok {isUrl : Text → Bool} {id : Text} {row : StoryRow} {story : StoryProps}
    (h : mapRowToStory isUrl id row = .ok story) :
    story.id = id ∧ story.ownerId = row.userId ∧ story.status = row.status := by
  unfold mapRowToStory at h
  cases hcontent : StoryContent.fromRawText row.content with
  | error e =>
    rw [hcontent] at h
    cases h
  | ok content =>
    rw [hcontent] at h
    dsimp only [bind, Except.bind] at h
    split at h
    · cases h
    · rename_i hcreate
      cases h
      rw [Story.props_of_create hcreate]
      exact ⟨rfl, rfl, rfl⟩

/-! ## Queries -/

/-- What a query is answered with: `{ data, error }`. -/
inductive Answer (α : Type) where
  | data (data : α)
  | error (message : Text)

/-- The columns that an update of feedback sets. -/
structure FeedbackUpdate where
  status : FeedbackStatus
  resolution : Option FeedbackResolution
  adminNotes : Option Text
  resolvedAt : Option ℕ
  deriving DecidableEq, Repr

/-- The row afterwards: a column that is `undefined` is not sent. -/
def FeedbackUpdate.apply (update : FeedbackUpdate) (row : FeedbackRow) : FeedbackRow :=
  { row with
    status := update.status
    resolution := update.resolution.or row.resolution
    adminNotes := update.adminNotes.or row.adminNotes
    resolvedAt := update.resolvedAt.or row.resolvedAt }

/-- The tables with columns of feedback set. -/
def Database.setFeedback (db : Database) (id : Text) (update : FeedbackUpdate) : Database :=
  { db with feedback := Function.update db.feedback id ((db.feedback id).map update.apply) }

/-- What the repositories await. -/
inductive StorageEffect where
  /-- `from('stories').select('*').eq('id', id).single()` -/
  | selectStory (id : Text)
  /-- `from('stories').upsert(row, { onConflict: 'id' })` -/
  | upsertStory (id : Text) (row : StoryRow)
  /-- `from('stories').select('*').eq('user_id', userId)`, newest first, with a `limit` if there is one. -/
  | selectStoriesOf (userId : Text) (limit : Option JsNumber)
  /-- `from('golden_moments').select('*').eq('id', id).eq('status', 'active').single()` -/
  | selectMoment (id : Text)
  /-- `from('golden_moments').update({ status: 'blocked' }).eq('id', id).select('id')` -/
  | blockMoment (id : Text)
  /-- `from('moderation_blocks').upsert(…, { onConflict: 'content_type,content_id' })` -/
  | upsertBlock (contentType : ModerationContentType) (contentId : Text) (block : ModerationBlock)
  /-- `from('feedback').insert(…).select().single()` -/
  | insertFeedback (input : CreateFeedbackInput)
  /-- `from('feedback').update(…).eq('id', id)` -/
  | updateFeedback (id : Text) (update : FeedbackUpdate)
  /-- `from('feedback').select('*').eq('status', 'pending')`, newest first. -/
  | selectPending
  /-- `from('feedback').select('*').eq('id', id).single()` -/
  | selectFeedback (id : Text)
  /-- `setTimeout` -/
  | pause (milliseconds : ℕ)

/-- What a query is answered with. -/
abbrev StorageEffect.Reply : StorageEffect → Type
  | .selectStory _ => Answer StoryRow
  | .upsertStory _ _ => Answer Unit
  | .selectStoriesOf _ _ => Answer (List (Text × StoryRow))
  | .selectMoment _ => Answer MomentRow
  | .blockMoment _ => Answer (List Text)
  | .upsertBlock _ _ _ => Answer Unit
  | .insertFeedback _ => Answer Feedback
  | .updateFeedback _ _ => Answer Unit
  | .selectPending => Answer (List Feedback)
  | .selectFeedback _ => Answer Feedback
  | .pause _ => Unit

/-- A procedure of the repositories. -/
abbrev StorageProc := Proc StorageEffect StorageEffect.Reply

/-- The stories of a user, newest first. -/
structure Listing (db : Database) (userId : Text) (rows : List (Text × StoryRow)) : Prop where
  mem : ∀ id row, (id, row) ∈ rows ↔ db.stories id = some row ∧ row.userId = userId
  nodup : rows.Nodup
  newest : rows.Pairwise fun a b => b.2.createdAt ≤ a.2.createdAt

/-- The answers, and the tables afterwards. -/
def storageEnv : Env Database StorageEffect StorageEffect.Reply := fun db effect =>
  match effect with
  | .selectStory id => fun reply db' => db' = db ∧ ∀ row, reply = .ok (.data row) → db.stories id = some row
  | .upsertStory id row => fun reply db' =>
    match reply with
    | .ok (.data _) => db' = db.withStory id row
    | _ => db' = db
  | .selectStoriesOf userId limit => fun reply db' => db' = db ∧ ∀ rows, reply = .ok (.data rows) →
    ∃ all, Listing db userId all ∧
      match limit with
      | none => rows = all
      | some limit => ∃ n : ℕ, limit = .finite n ∧ rows = all.take n
  | .selectMoment id => fun reply db' => db' = db ∧ ∀ row, reply = .ok (.data row) →
    db.moments id = some row ∧ row.status = .active
  | .blockMoment id => fun reply db' =>
    match reply with
    | .ok (.data ids) =>
      match db.moments id with
      | none => db' = db ∧ ids = []
      | some row => db' = db.withMoment id { row with status := .blocked } ∧ ids = [id]
    | _ => db' = db
  | .upsertBlock contentType contentId block => fun reply db' =>
    match reply with
    | .ok (.data _) => db' = db.withBlock contentType contentId block
    | _ => db' = db
  | .insertFeedback input => fun reply db' =>
    match reply with
    | .ok (.data feedback) => db.feedback feedback.id = none ∧ feedback.toCreateFeedbackInput = input ∧
        feedback.status = .pending ∧
        db' = { db with feedback := Function.update db.feedback feedback.id (some feedback.toFeedbackRow) }
    | _ => db' = db
  | .updateFeedback id update => fun reply db' =>
    match reply with
    | .ok (.data _) => db' = db.setFeedback id update
    | _ => db' = db
  | .selectPending => fun reply db' => db' = db ∧ ∀ rows, reply = .ok (.data rows) →
    ∀ feedback, feedback ∈ rows ↔
      db.feedback feedback.id = some feedback.toFeedbackRow ∧ feedback.status = .pending
  | .selectFeedback id => fun reply db' => db' = db ∧ ∀ feedback, reply = .ok (.data feedback) →
    feedback.id = id ∧ db.feedback id = some feedback.toFeedbackRow
  | .pause _ => fun reply db' => reply = .ok () ∧ db' = db

end DreamWeaver.Moderation
