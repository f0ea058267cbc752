import DreamWeaver.Moderation.Repositories

/-! # Reviews of feedback

`ReviewFeedbackUseCase.execute` (`api/src/application/use-cases/ReviewFeedbackUseCase.ts`) bans the content
that was flagged, and resolves the feedback after that. A review that rejects leaves the feedback as it is,
and one that returns has blocked the content, where there is any. -/

namespace DreamWeaver.Moderation

open Proc Stories

/-! ## The use case -/

/-- `ReviewFeedbackInput['resolution']` -/
inductive ReviewResolution where
  | dismissed
  | banContent
  | warning
  deriving DecidableEq, Repr

/-- `ReviewFeedbackInput` -/
structure ReviewFeedbackInput where
  feedbackId : Text
  adminId : Text
  resolution : ReviewResolution
  adminNotes : Option Text

/-- `ReviewFeedbackOutput` -/
structure ReviewFeedbackOutput where
  feedback : Feedback
  actionTaken : Text

/-- `Story.block` -/
def blockStory (story : StoryProps) : StoryProps := { story with status := .blocked }

namespace ReviewFeedbackUseCase

variable (clients : Supabase) (input : ReviewFeedbackInput) (now : ℕ)

/-- Ban the content of the feedback, and say what was done. -/
def banContent (feedback : Feedback) : StorageProc Text :=
  match feedback.contentType with
  | .story => do
    match ← SupabaseStoryRepository.findById clients feedback.contentId with
    | some story =>
      SupabaseStoryRepository.save clients (blockStory story)
      pure (lit "Content blocked")
    | none => pure (lit "Content not found (already deleted?)")
  | .moment => do
    let blocked ← SupabaseMomentRepository.block clients feedback.contentId
    pure (if blocked then lit "Moment blocked" else lit "Moment not found (already deleted?)")
  | .character => do
    SupabaseModerationRepository.block clients .character feedback.contentId input.adminId feedback.reason
      input.adminNotes now
    pure (lit "Character blocked")
  | .conversation => pure (lit "Content blocked")

/-- What the resolution does. -/
def applyAction (feedback : Feedback) : StorageProc Text :=
  if input.resolution = .banContent then banContent clients input now feedback
  else pure (lit "No action taken")

/-- The feedback after the review. -/
def reviewed (feedback : Feedback) : Feedback :=
  { feedback with
    status := .resolved
    resolution := some (if input.resolution = .dismissed then .dismissed else .actionTaken)
    adminNotes := input.adminNotes
    resolvedAt := some now }

/-- `execute` -/
def execute : StorageProc ReviewFeedbackOutput := do
  match ← SupabaseFeedbackRepository.findById clients input.feedbackId with
  | none => throw ⟨lit "Error", lit "Feedback not found"⟩
  | some feedback =>
    let actionDescription ← applyAction clients input now feedback
    SupabaseFeedbackRepository.update clients (reviewed input now feedback)
    pure ⟨reviewed input now feedback, actionDescription⟩

end ReviewFeedbackUseCase

/-! ## Content -/

/-- There is content of a type with an id. A character is known by its id only. -/
def Database.Has (db : Database) : ContentType → Text → Prop
  | .story, id => (db.stories id).isSome = true
  | .moment, id => (db.moments id).isSome = true
  | .character, _ => True
  | .conversation, _ => True

/-- Content of a type with an id is blocked in storage. -/
def Database.Blocks (db : Database) : ContentType → Text → Prop
  | .story, id => ∃ row, db.stories id = some row ∧ row.status = .blocked
  | .moment, id => ∃ row, db.moments id = some row ∧ row.status = .blocked
  | .character, id => (db.blocks .character id).isSome = true
  | .conversation, _ => False

/-- A read of a story that is answered with an error. -/
def FailedRead (event : StorageEvent) : Prop := ∃ id message, event = ⟨.selectStory id, .ok (.error message)⟩

open ReviewFeedbackUseCase

variable {clients : Supabase} {input : ReviewFeedbackInput} {now : ℕ} {good : StorageEvent → Prop}
  {db db' : Database} {feedback : Feedback}

/-- No story that was blocked is not any more. -/
def KeepsBlocked (db db' : Database) : Prop := ∀ id, db.Blocks .story id → db'.Blocks .story id

theorem keepsBlocked_of_stories (h : db'.stories = db.stories) : KeepsBlocked db db' := by
  intro id hblocked
  show ∃ row, db'.stories id = some row ∧ _
  rw [h]
  exact hblocked

/-- A blocked story that is stored is one more. -/
theorem keepsBlocked_withStory {id : Text} {row : StoryRow} (h : row.status = .blocked) :
    KeepsBlocked db (db.withStory id row) := by
  intro id' hblocked
  by_cases hid : id' = id
  · subst hid
    exact ⟨row, Function.update_self .., h⟩
  · obtain ⟨row', hrow', hstatus⟩ := hblocked
    exact ⟨row', (Function.update_of_ne hid ..).trans hrow', hstatus⟩

/-- What a ban does to content: what is there is blocked, where no read fails. -/
def Banned (good : StorageEvent → Prop) (db : Database) (contentType : ContentType) (id : Text)
    (db' : Database) : Prop :=
  contentType ≠ .conversation → db.Has contentType id → (∀ event, good event → ¬ FailedRead event) →
    db'.Blocks contentType id

/-- **A ban** blocks the content, or rejects and leaves everything as it is. -/
theorem endsIn_banContent :
    EndsIn good (fun r db' => match r with
        | .ok _ => (db'.feedback = db.feedback ∧ KeepsBlocked db db') ∧
            Banned good db feedback.contentType feedback.contentId db'
        | .error _ => db' = db)
      (banContent clients input now feedback) db := by
  unfold banContent
  cases htype : feedback.contentType with
  | story =>
    refine Upholds.bind (endsIn_findStory.imp fun r db₁ h => ?_)
    obtain ⟨rfl, hfound⟩ := h
    cases r with
    | error e => rfl
    | ok found =>
      cases found with
      | none =>
        obtain ⟨message, hgood⟩ := hfound
        exact ⟨⟨rfl, keepsBlocked_of_stories rfl⟩, fun _ _ hreads => absurd ⟨_, _, rfl⟩ (hreads _ hgood)⟩
      | some story =>
        obtain ⟨row, -, hstory⟩ := hfound
        refine Upholds.bind (endsIn_saveStory.imp fun r db₂ h => ?_)
        cases r with
        | error e => exact h
        | ok _ =>
          have hid : (blockStory story).id = feedback.contentId := (mapRowToStory_ok hstory).1
          rw [hid] at h
          subst h
          exact ⟨⟨rfl, keepsBlocked_withStory rfl⟩, fun _ _ _ => ⟨_, Function.update_self .., rfl⟩⟩
  | moment =>
    refine Upholds.bind (endsIn_blockMoment.imp fun r db₁ h => ?_)
    cases r with
    | error e => exact h
    | ok blocked => exact ⟨⟨h.1.1, keepsBlocked_of_stories h.1.2⟩, fun _ hthere _ => h.2.2 hthere⟩
  | character =>
    refine Upholds.bind (endsIn_blockContent.imp fun r db₁ h => ?_)
    cases r with
    | error e => exact h
    | ok _ => exact ⟨⟨h.1.1, keepsBlocked_of_stories h.1.2⟩, fun _ _ _ => h.2⟩
  | conversation => exact ⟨⟨rfl, keepsBlocked_of_stories rfl⟩, fun h => absurd rfl h⟩

/-- What a review with a resolution ends in. -/
theorem endsIn_applyAction :
    EndsIn good (fun r db' => match r with
        | .ok _ => (db'.feedback = db.feedback ∧ KeepsBlocked db db') ∧ (input.resolution = .banContent →
            Banned good db feedback.contentType feedback.contentId db')
        | .error _ => db' = db)
      (applyAction clients input now feedback) db := by
  unfold applyAction
  split
  · refine endsIn_banContent.imp fun r db₁ h => ?_
    cases r with
    | error e => exact h
    | ok _ => exact ⟨h.1, fun _ => h.2⟩
  · rename_i hother
    exact ⟨⟨rfl, keepsBlocked_of_stories rfl⟩, fun h => absurd h hother⟩

/-- What a review ends in: the feedback is resolved and, after a ban, its content is blocked; or the
review rejects, and all feedback is as it was. -/
def Reviewed (good : StorageEvent → Prop) (input : ReviewFeedbackInput) (now : ℕ) (db : Database)
    (r : Except JsError ReviewFeedbackOutput) (db' : Database) : Prop :=
  match r with
  | .ok _ => ∃ feedback : Feedback, db.feedback input.feedbackId = some feedback.toFeedbackRow ∧
      db'.feedback = Function.update db.feedback input.feedbackId
        (some ((reviewed input now feedback).columns.apply feedback.toFeedbackRow)) ∧
      (input.resolution = .banContent → Banned good db feedback.contentType feedback.contentId db')
  | .error _ => db'.feedback = db.feedback

/-- **The use case** ends so. -/
theorem endsIn_reviewFeedback :
    EndsIn good (fun r db' => Reviewed good input now db r db' ∧ KeepsBlocked db db')
      (execute clients input now) db := by
  refine Upholds.bind (endsIn_findFeedback.imp fun r db₁ h => ?_)
  obtain ⟨rfl, hfound⟩ := h
  cases r with
  | error e => exact ⟨rfl, keepsBlocked_of_stories rfl⟩
  | ok found =>
    cases found with
    | none => exact ⟨rfl, keepsBlocked_of_stories rfl⟩
    | some feedback =>
      obtain ⟨hid, hstored⟩ := hfound feedback rfl
      refine Upholds.bind (endsIn_applyAction.imp fun r db₂ haction => ?_)
      cases r with
      | error e =>
        subst haction
        exact ⟨rfl, keepsBlocked_of_stories rfl⟩
      | ok actionDescription =>
        obtain ⟨⟨hsame, hkeeps⟩, hban⟩ := haction
        refine Upholds.bind (endsIn_updateFeedback.imp fun r db₃ hupdate => ?_)
        cases r with
        | error e =>
          subst hupdate
          exact ⟨hsame, hkeeps⟩
        | ok _ =>
          have hid' : (reviewed input now feedback).id = input.feedbackId := hid
          rw [hid'] at hupdate
          subst hupdate
          refine ⟨⟨feedback, hstored, ?_, hban⟩, hkeeps⟩
          show Function.update db₂.feedback _ ((db₂.feedback input.feedbackId).map _) = _
          rw [hsame, hstored]
          rfl

/-! ## Bans -/

variable {log : List StorageEvent} {r : Except JsError ReviewFeedbackOutput}

/-- What a ban has come to. Where it returns, the feedback is resolved, and its content, if it is there and
no read of it has failed, is blocked; where it rejects, all feedback is as it was. -/
def BanSettled (input : ReviewFeedbackInput) (db : Database) (log : List StorageEvent)
    (r : Except JsError ReviewFeedbackOutput) (db' : Database) : Prop :=
  match r with
  | .ok _ => ∃ row row', db.feedback input.feedbackId = some row ∧
      db'.feedback input.feedbackId = some row' ∧ row'.status = .resolved ∧
      (row.contentType ≠ .conversation → db.Has row.contentType row.contentId →
        (∀ event ∈ log, ¬ FailedRead event) → db'.Blocks row.contentType row.contentId)
  | .error _ => db'.feedback = db.feedback

/-- **A ban resolves feedback after it has blocked the content**, whatever the tables hold and whichever
queries fail. -/
theorem ban_settles (clients : Supabase) (now : ℕ) (hban : input.resolution = .banContent)
    (h : Logs storageEnv db (execute clients input now) log r db') : BanSettled input db log r db' := by
  have hrun := h.restrict fun event hmem => hmem
  have hreviewed : Reviewed (· ∈ log) input now db r db' := (hrun.upheld endsIn_reviewFeedback).1.1
  cases r with
  | error e => exact hreviewed
  | ok output =>
    obtain ⟨feedback, hstored, hresolved, hblocks⟩ := hreviewed
    exact ⟨_, _, hstored, by rw [hresolved, Function.update_self], rfl, hblocks hban⟩

/-- The answer to a read of a single row. -/
def answerOf {α : Type} : Option α → Answer α
  | none => .error (lit "no rows")
  | some row => .data row

theorem answerOf_eq_data {α : Type} {row : α} {found : Option α} (h : answerOf found = .data row) :
    found = some row := by
  cases found with
  | none => cases h
  | some _ => cases h; rfl

/-- The replies where every query is answered, apart from listings. -/
def answering : (effect : StorageEffect) → Database → Except JsError effect.Reply × Database
  | .selectStory id, db => (.ok (answerOf (db.stories id)), db)
  | .upsertStory id row, db => (.ok (.data ()), db.withStory id row)
  | .selectStoriesOf _ _, db => (.ok (.error (lit "canceling statement due to statement timeout")), db)
  | .selectMoment id, db => (.ok (answerOf ((db.moments id).filter fun row => row.status = .active)), db)
  | .blockMoment id, db =>
    match db.moments id with
    | none => (.ok (.data []), db)
    | some row => (.ok (.data [id]), db.withMoment id { row with status := .blocked })
  | .upsertBlock contentType contentId block, db => (.ok (.data ()), db.withBlock contentType contentId block)
  | .insertFeedback _, db => (.ok (.error (lit "no rows")), db)
  | .updateFeedback id update, db => (.ok (.data ()), db.setFeedback id update)
  | .selectPending, db => (.ok (.error (lit "canceling statement due to statement timeout")), db)
  | .selectFeedback id, db => (.ok (answerOf ((db.feedback id).map fun row => ⟨row, id⟩)), db)
  | .pause _, db => (.ok (), db)

theorem storageEnv_answering (effect : StorageEffect) (db : Database) :
    storageEnv db effect (answering effect db).1 (answering effect db).2 := by
  cases effect with
  | selectStory id => exact ⟨rfl, fun row h => answerOf_eq_data (Except.ok.inj h)⟩
  | selectMoment id =>
    refine ⟨rfl, fun row h => ?_⟩
    obtain ⟨hrow, hactive⟩ := Option.filter_eq_some_iff.mp (answerOf_eq_data (Except.ok.inj h))
    exact ⟨hrow, of_decide_eq_true hactive⟩
  | blockMoment id =>
    unfold answering
    cases hmoment : db.moments id <;> simp [storageEnv, hmoment]
  | selectFeedback id =>
    refine ⟨rfl, fun feedback h => ?_⟩
    obtain ⟨row, hrow, rfl⟩ := Option.map_eq_some_iff.mp (answerOf_eq_data (Except.ok.inj h))
    exact ⟨rfl, hrow⟩
  | selectStoriesOf userId limit => exact ⟨rfl, fun _ h => nomatch h⟩
  | selectPending => exact ⟨rfl, fun _ h => nomatch h⟩
  | pause milliseconds => exact ⟨rfl, rfl⟩
  | _ => rfl

/-- The id of a story. -/
def moonId : Text := lit "0e8c5a4e-7b1d-4c3a-9f2e-000000000001"

/-- The owner of that story. -/
def moonOwner : Text := lit "0e8c5a4e-7b1d-4c3a-9f2e-00000000000a"

/-- A story of one paragraph. -/
def moonRow : StoryRow where
  userId := moonOwner
  title := lit "Moon"
  content := lit "The moon rises."
  theme := lit "moon"
  status := .completed
  audioUrl := none
  createdAt := 0
  generatedAt := none

/-- Feedback that flags a content of a type. -/
def flagOf (contentType : ContentType) : FeedbackRow where
  userId := moonOwner
  contentId := moonId
  contentType := contentType
  type := .flag
  reason := some (lit "harmful")
  details := none
  status := .pending
  resolution := none
  adminNotes := none
  resolvedAt := none
  createdAt := 0

/-- Tables with that feedback, and with a story or without. -/
def flagged (story : Option StoryRow) : Database where
  stories id := if id = moonId then story else none
  moments _ := none
  blocks _ _ := none
  feedback id := if id = lit "flag" then some (flagOf .story) else none

/-- A ban of the content of that feedback. -/
def banOf (feedbackId : String) : ReviewFeedbackInput := ⟨lit feedbackId, lit "admin", .banContent, none⟩

/-- Both clients, and a parser that accepts every URL. -/
def bothClients : Supabase := ⟨true, true, fun _ => true⟩

/-- The run of the ban. -/
def banned (story : Option StoryRow) :
    List StorageEvent × Except JsError ReviewFeedbackOutput × Database :=
  record answering (flagged story) (execute bothClients (banOf "flag") 1)

theorem logs_banned (story : Option StoryRow) : Logs storageEnv (flagged story)
    (execute bothClients (banOf "flag") 1) (banned story).1 (banned story).2.1 (banned story).2.2 :=
  logs_record storageEnv_answering _ _

/-- A story is blocked. -/
theorem ban_settles_story :
    BanSettled (banOf "flag") (flagged (some moonRow)) (banned (some moonRow)).1 (banned (some moonRow)).2.1
        (banned (some moonRow)).2.2 ∧
      (((banned (some moonRow)).2.2.stories moonId).map StoryRow.status) = some .blocked :=
  ⟨ban_settles bothClients 1 rfl (logs_banned (some moonRow)), by decide +kernel⟩

/-- What would be asked of a ban: where it returns for content that is there, the content is blocked and
the feedback is resolved, and in every other case the feedback stays as it is. -/
def ResolvesOnlyBlocked (input : ReviewFeedbackInput) (db : Database)
    (r : Except JsError ReviewFeedbackOutput) (db' : Database) : Prop :=
  ∀ row, db.feedback input.feedbackId = some row →
    ((∃ output, r = .ok output) ∧ db.Has row.contentType row.contentId →
      db'.Blocks row.contentType row.contentId ∧
        ∃ row', db'.feedback input.feedbackId = some row' ∧ row'.status = .resolved) ∧
    (¬ ((∃ output, r = .ok output) ∧ db.Has row.contentType row.contentId) →
      db'.feedback input.feedbackId = some row)

/-- The ban of a story that is not there resolves the feedback. -/
theorem ban_of_missing_resolves :
    Logs storageEnv (flagged none) (execute bothClients (banOf "flag") 1) (banned none).1 (banned none).2.1
        (banned none).2.2 ∧
      ¬ ResolvesOnlyBlocked (banOf "flag") (flagged none) (banned none).2.1 (banned none).2.2 := by
  refine ⟨logs_banned none, fun h => ?_⟩
  have hstays := (h (flagOf .story) (by decide +kernel)).2 fun hthere => Bool.noConfusion (hthere.2)
  have hresolved : ((banned none).2.2.feedback (lit "flag")).map FeedbackRow.status = some .resolved := by
    decide +kernel
  rw [show (banned none).2.2.feedback (lit "flag") = _ from hstays] at hresolved
  cases hresolved

end DreamWeaver.Moderation
