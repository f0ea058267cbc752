import DreamWeaver.Moderation.Storage

/-! # The repositories

`SupabaseStoryRepository`, `SupabaseMomentRepository`, `SupabaseFeedbackRepository` and
`SupabaseModerationRepository`, with one lemma for each function that moderation calls: what it ends in,
whatever the answers are. -/

namespace DreamWeaver.Moderation

open Proc Stories

/-- The clients that the repositories have, and the URL parser of the platform. -/
structure Supabase where
  supabase : Bool
  supabaseAdmin : Bool
  isUrl : Text → Bool

/-- `supabaseAdmin || supabase` is there. -/
def Supabase.hasClient (clients : Supabase) : Bool := clients.supabaseAdmin || clients.supabase

/-- `if (!client) throw new Error(message)` -/
def requireClient {α : Type} (present : Bool) (message : String) (p : StorageProc α) : StorageProc α :=
  if present then p else throw ⟨lit "Error", lit message⟩

/-- `await new Promise(resolve => setTimeout(resolve, delay))` in `withRetry`. -/
def backoff (attempt : ℕ) : StorageProc Unit := perform (StorageEffect.pause (min (1000 * 2 ^ attempt) 10000))

/-- `withRetry` with its default options. -/
def withRetry {α : Type} (operation : StorageProc α) : StorageProc α := retrying backoff operation 3 0

/-- `if (error) throw new Error(…)` on the answer to a query. -/
def dataOrThrow {α : Type} (message : String) : Answer α → StorageProc α
  | .data data => pure data
  | .error error => throw ⟨lit "Error", lit message ++ error⟩

/-- A value, or the error that was thrown while it was computed. -/
def ofExcept {α : Type} : Except JsError α → StorageProc α
  | .ok a => pure a
  | .error e => throw e

/-! ## The functions -/

variable (clients : Supabase)

namespace SupabaseStoryRepository

/-- `findById` -/
def findById (id : Text) : StorageProc (Option StoryProps) :=
  requireClient clients.hasClient "Supabase client not initialized - Critical Infrastructure Missing" <|
    withRetry do
      match ← (perform (StorageEffect.selectStory id) : StorageProc (Answer StoryRow)) with
      | .error _ => pure none
      | .data row =>
        let story ← ofExcept (mapRowToStory clients.isUrl id row)
        pure (some story)

/-- `save` -/
def save (story : StoryProps) : StorageProc Unit :=
  requireClient clients.hasClient "Supabase client not initialized" <|
    withRetry do
      let answer ← (perform (StorageEffect.upsertStory story.id (mapStoryToRow story)) :
        StorageProc (Answer Unit))
      dataOrThrow "Failed to save story: " answer

/-- The stories of the rows that a query was answered with. -/
def storiesOf (rows : List (Text × StoryRow)) : Except JsError (List StoryProps) :=
  rows.mapM fun row => mapRowToStory clients.isUrl row.1 row.2

/-- `findByUserId` -/
def findByUserId (userId : Text) : StorageProc (List StoryProps) :=
  requireClient clients.hasClient "Supabase client not initialized - Critical Infrastructure Missing" <|
    withRetry do
      let answer ← (perform (StorageEffect.selectStoriesOf userId none) :
        StorageProc (Answer (List (Text × StoryRow))))
      let rows ← dataOrThrow "Failed to fetch stories: " answer
      ofExcept (storiesOf clients rows)

/-- `findRecent` -/
def findRecent (userId : Text) (limit : JsNumber) : StorageProc (List StoryProps) :=
  requireClient clients.hasClient "Supabase client not initialized - Critical Infrastructure Missing" <|
    withRetry do
      let answer ← (perform (StorageEffect.selectStoriesOf userId (some limit)) :
        StorageProc (Answer (List (Text × StoryRow))))
      let rows ← dataOrThrow "Failed to fetch recent stories: " answer
      ofExcept (storiesOf clients rows)

end SupabaseStoryRepository

namespace SupabaseMomentRepository

/-- `findById`, which gives an active moment by its row. -/
def findById (id : Text) : StorageProc (Option MomentRow) :=
  requireClient clients.hasClient "Supabase client not initialized" do
    match ← (perform (StorageEffect.selectMoment id) : StorageProc (Answer MomentRow)) with
    | .error _ => pure none
    | .data row => pure (some row)

/-- `block` -/
def block (id : Text) : StorageProc Bool :=
  requireClient clients.hasClient "Supabase client not initialized" do
    let answer ← (perform (StorageEffect.blockMoment id) : StorageProc (Answer (List Text)))
    let ids ← dataOrThrow "Failed to block moment: " answer
    pure (!ids.isEmpty)

end SupabaseMomentRepository

/-- `SupabaseModerationRepository.block`, called at `now`; an empty reason or note is stored as `null`. -/
def SupabaseModerationRepository.block (contentType : ModerationContentType) (contentId adminId : Text)
    (reason notes : Option Text) (now : ℕ) : StorageProc Unit :=
  requireClient clients.supabaseAdmin "Supabase service role is required for moderation actions" do
    let answer ← (perform (StorageEffect.upsertBlock contentType contentId
      ⟨adminId, reason.filter fun s => !s.isEmpty, notes.filter fun s => !s.isEmpty, now⟩) :
      StorageProc (Answer Unit))
    dataOrThrow "Failed to persist moderation block: " answer

namespace SupabaseFeedbackRepository

/-- `create` -/
def create (input : CreateFeedbackInput) : StorageProc Feedback :=
  requireClient clients.hasClient "Supabase client not initialized" do
    let answer ← (perform (StorageEffect.insertFeedback input) : StorageProc (Answer Feedback))
    dataOrThrow "Failed to create feedback: " answer

/-- `update` -/
def update (feedback : Feedback) : StorageProc Unit :=
  requireClient clients.hasClient "Supabase client not initialized" do
    let answer ← (perform (StorageEffect.updateFeedback feedback.id
      ⟨feedback.status, feedback.resolution, feedback.adminNotes, feedback.resolvedAt⟩) :
      StorageProc (Answer Unit))
    dataOrThrow "Failed to update feedback: " answer

/-- `findPending` -/
def findPending : StorageProc (List Feedback) :=
  requireClient clients.hasClient "Supabase client not initialized" do
    let answer ← (perform StorageEffect.selectPending : StorageProc (Answer (List Feedback)))
    dataOrThrow "Failed to fetch pending feedback: " answer

/-- `findById` -/
def findById (id : Text) : StorageProc (Option Feedback) :=
  requireClient clients.hasClient "Supabase client not initialized" do
    match ← (perform (StorageEffect.selectFeedback id) : StorageProc (Answer Feedback)) with
    | .error _ => pure none
    | .data feedback => pure (some feedback)

end SupabaseFeedbackRepository

/-! ## What they end in -/

/-- An effect with its reply. -/
abbrev StorageEvent := Event StorageEffect StorageEffect.Reply

/-- The answers that `good` admits. -/
def storageWith (good : StorageEvent → Prop) : Env Database StorageEffect StorageEffect.Reply :=
  fun db effect reply db' => storageEnv db effect reply db' ∧ good ⟨effect, reply⟩

/-- What a procedure on the tables ends in. -/
abbrev EndsIn {α : Type} (good : StorageEvent → Prop) (Q : Except JsError α → Database → Prop)
    (p : StorageProc α) (db : Database) : Prop :=
  p.Upholds (storageWith good) (fun _ _ => True) Q db

section EndsIn

variable {α : Type} {good : StorageEvent → Prop} {Q : Except JsError α → Database → Prop}
  {p : StorageProc α} {db : Database} {clients : Supabase} {id : Text}

theorem endsIn_query {effect : StorageEffect} {Q : Except JsError effect.Reply → Database → Prop}
    (h : ∀ reply db', storageEnv db effect reply db' → good ⟨effect, reply⟩ → Q reply db') :
    EndsIn good Q (perform effect) db :=
  upholds_perform_true fun reply db' hreply => h reply db' hreply.1 hreply.2

theorem endsIn_requireClient {present : Bool} {message : String} (hp : EndsIn good Q p db)
    (hmissing : ∀ e, Q (.error e) db) : EndsIn good Q (requireClient present message p) db := by
  unfold requireClient
  split
  · exact hp
  · exact hmissing _

/-- An operation that changes nothing when it rejects is tried again from the same tables. -/
theorem endsIn_withRetry (hp : EndsIn good (fun r db' => Q r db' ∧ ((∃ e, r = .error e) → db' = db)) p db) :
    EndsIn good Q (withRetry p) db :=
  upholds_retrying_of_unchanged (fun _ => endsIn_query fun _ _ hpause _ => hpause) hp 3 0

/-- The data of an answer, or an error. -/
theorem endsIn_dataOrThrow {message : String} {answer : Answer α}
    (hdata : ∀ a, answer = .data a → Q (.ok a) db)
    (herror : ∀ m, answer = .error m → ∀ e, Q (.error e) db) :
    EndsIn good Q (dataOrThrow message answer) db := by
  cases answer with
  | data a => exact hdata a rfl
  | error m => exact herror m rfl _

theorem endsIn_ofExcept {x : Except JsError α} (h : Q x db) : EndsIn good Q (ofExcept x) db := by
  cases x with
  | ok a => exact h
  | error e => exact h

/-- Weaken what a procedure ends in. -/
theorem EndsIn.imp {Q' : Except JsError α → Database → Prop} (h : EndsIn good Q p db)
    (himp : ∀ r db', Q r db' → Q' r db') : EndsIn good Q' p db := Upholds.imp h himp

/-! ### Stories -/

/-- A story that is found is that of its row; none is found only where a query was answered with an
error. -/
def Found (good : StorageEvent → Prop) (clients : Supabase) (id : Text) (db : Database) :
    Except JsError (Option StoryProps) → Prop
  | .ok (some story) => ∃ row, db.stories id = some row ∧ mapRowToStory clients.isUrl id row = .ok story
  | .ok none => ∃ message, good ⟨.selectStory id, .ok (.error message)⟩
  | .error _ => True

/-- `findById` changes nothing. -/
theorem endsIn_findStory :
    EndsIn good (fun r db' => db' = db ∧ Found good clients id db r)
      (SupabaseStoryRepository.findById clients id) db := by
  refine endsIn_requireClient (endsIn_withRetry (Upholds.bind (endsIn_query fun reply db' henv hgood => ?_)))
    fun e => ⟨rfl, trivial⟩
  obtain ⟨rfl, hrow⟩ := henv
  cases reply with
  | error e => exact ⟨⟨rfl, trivial⟩, fun _ => rfl⟩
  | ok answer =>
    cases answer with
    | error message => exact ⟨⟨rfl, message, hgood⟩, fun _ => rfl⟩
    | data row =>
      refine Upholds.bind (endsIn_ofExcept ?_)
      cases hstory : mapRowToStory clients.isUrl id row with
      | error e => exact ⟨⟨rfl, trivial⟩, fun _ => rfl⟩
      | ok story => exact ⟨⟨rfl, row, hrow row rfl, hstory⟩, fun _ => rfl⟩

/-- `save` stores the row of the story, or rejects and stores nothing. -/
theorem endsIn_saveStory {story : StoryProps} :
    EndsIn good (fun r db' => match r with
        | .ok _ => db' = db.withStory story.id (mapStoryToRow story)
        | .error _ => db' = db)
      (SupabaseStoryRepository.save clients story) db := by
  refine endsIn_requireClient (endsIn_withRetry (Upholds.bind (endsIn_query fun reply db' henv _ => ?_)))
    fun e => rfl
  cases reply with
  | error e => exact ⟨henv, fun _ => henv⟩
  | ok answer =>
    refine endsIn_dataOrThrow ?_ ?_
    · rintro _ rfl
      exact ⟨henv, fun ⟨_, h⟩ => nomatch h⟩
    · rintro _ rfl e
      exact ⟨henv, fun _ => henv⟩

/-! ### Moments, blocks and feedback -/

/-- `block` blocks a moment that is there, and says whether it was. -/
theorem endsIn_blockMoment :
    EndsIn good (fun r db' => match r with
        | .ok blocked => (db'.feedback = db.feedback ∧ db'.stories = db.stories) ∧
            blocked = (db.moments id).isSome ∧
            ((db.moments id).isSome = true → ∃ row, db'.moments id = some row ∧ row.status = .blocked)
        | .error _ => db' = db)
      (SupabaseMomentRepository.block clients id) db := by
  refine endsIn_requireClient (Upholds.bind (endsIn_query fun reply db' henv _ => ?_)) fun e => rfl
  cases reply with
  | error e => exact henv
  | ok answer =>
    refine Upholds.bind (endsIn_dataOrThrow ?_ ?_)
    · rintro ids rfl
      dsimp only [storageEnv] at henv
      cases hmoment : db.moments id with
      | none =>
        rw [hmoment] at henv
        obtain ⟨rfl, rfl⟩ := henv
        exact ⟨⟨rfl, rfl⟩, rfl, fun h => nomatch h⟩
      | some row =>
        rw [hmoment] at henv
        obtain ⟨rfl, rfl⟩ := henv
        exact ⟨⟨rfl, rfl⟩, rfl, fun _ => ⟨_, Function.update_self .., rfl⟩⟩
    · rintro _ rfl e
      exact henv

/-- `findById` of moments changes nothing. -/
theorem endsIn_findMoment :
    EndsIn good (fun _ db' => db' = db) (SupabaseMomentRepository.findById clients id) db := by
  refine endsIn_requireClient (Upholds.bind (endsIn_query fun reply db' henv _ => ?_)) fun e => rfl
  obtain ⟨rfl, -⟩ := henv
  cases reply with
  | error e => rfl
  | ok answer => cases answer <;> rfl

/-- `block` stores the block of a character, or rejects and stores nothing. -/
theorem endsIn_blockContent {contentType : ModerationContentType} {adminId : Text}
    {reason notes : Option Text} {now : ℕ} :
    EndsIn good (fun r db' => match r with
        | .ok _ => (db'.feedback = db.feedback ∧ db'.stories = db.stories) ∧
            (db'.blocks contentType id).isSome = true
        | .error _ => db' = db)
      (SupabaseModerationRepository.block clients contentType id adminId reason notes now) db := by
  refine endsIn_requireClient (Upholds.bind (endsIn_query fun reply db' henv _ => ?_)) fun e => rfl
  cases reply with
  | error e => exact henv
  | ok answer =>
    refine endsIn_dataOrThrow ?_ ?_
    · rintro _ rfl
      rw [show db' = _ from henv]
      refine ⟨⟨rfl, rfl⟩, ?_⟩
      dsimp only [Database.withBlock]
      rw [Function.update_self, Function.update_self]
      rfl
    · rintro _ rfl e
      exact henv

/-- `findById` of feedback changes nothing, and gives what is in the table. -/
theorem endsIn_findFeedback :
    EndsIn good (fun r db' => db' = db ∧ ∀ feedback, r = .ok (some feedback) →
        feedback.id = id ∧ db.feedback id = some feedback.toFeedbackRow)
      (SupabaseFeedbackRepository.findById clients id) db := by
  refine endsIn_requireClient (Upholds.bind (endsIn_query fun reply db' henv _ => ?_)) fun e => ⟨rfl, ?_⟩
  · obtain ⟨rfl, hrow⟩ := henv
    cases reply with
    | error e => exact ⟨rfl, fun _ h => nomatch h⟩
    | ok answer =>
      cases answer with
      | error message => exact ⟨rfl, fun _ h => nomatch h⟩
      | data feedback =>
        refine ⟨rfl, ?_⟩
        rintro _ ⟨⟩
        exact hrow feedback rfl
  · exact fun _ h => nomatch h

/-- The columns of feedback that `update` sends. -/
def Feedback.columns (feedback : Feedback) : FeedbackUpdate :=
  ⟨feedback.status, feedback.resolution, feedback.adminNotes, feedback.resolvedAt⟩

/-- `update` sets the columns, or rejects and sets nothing. -/
theorem endsIn_updateFeedback {feedback : Feedback} :
    EndsIn good (fun r db' => match r with
        | .ok _ => db' = db.setFeedback feedback.id feedback.columns
        | .error _ => db' = db)
      (SupabaseFeedbackRepository.update clients feedback) db := by
  refine endsIn_requireClient (Upholds.bind (endsIn_query fun reply db' henv _ => ?_)) fun e => rfl
  cases reply with
  | error e => exact henv
  | ok answer =>
    refine endsIn_dataOrThrow ?_ ?_
    · rintro _ rfl
      exact henv
    · rintro _ rfl e
      exact henv

end EndsIn

end DreamWeaver.Moderation
