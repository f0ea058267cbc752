import DreamWeaver.Moderation.ReviewFeedback
import DreamWeaver.Sharing.SharedLink

/-! # Sharing, reading and blocking content

The use cases that give stories out, `GetStoryUseCase`, `GetSharedContentUseCase`, `GetStoryHistoryUseCase`
and the history of the demo, next to those that share, review and save them, as the operations of one
platform: the tables, the shared links and the time. -/

namespace DreamWeaver.Moderation

open Proc Stories
open Sharing (ShareEffect SharedLink SharedLinkType SharedContentResult PublicStory storyToPublicJSON shareEnv)

/-! ## The use cases -/

variable (clients : Supabase)

/-- `GetStoryUseCase.execute` -/
def GetStoryUseCase.execute (userId storyId : Text) : StorageProc StoryProps := do
  match ← SupabaseStoryRepository.findById clients storyId with
  | none => throw ⟨lit "Error", lit "Story not found"⟩
  | some story =>
    if story.ownerId ≠ userId then
      throw ⟨lit "Error", lit "Unauthorized: You do not have permission to view this story"⟩
    else pure story

/-- `GetStoryHistoryInput['filter']` -/
inductive HistoryFilter where
  | all
  | starred
  | recent
  deriving DecidableEq, Repr

/-- `GetStoryHistoryInput` -/
structure GetStoryHistoryInput where
  userId : Text
  limit : Option JsNumber
  filter : Option HistoryFilter

/-- `input.limit && length > input.limit` -/
def GetStoryHistoryInput.exceeds (input : GetStoryHistoryInput) (length : ℕ) : Bool :=
  match input.limit with
  | none => false
  | some limit => limit ≠ .nan && limit ≠ .finite 0 && limit.lt length

/-- The length of `xs.slice(0, end)`. -/
def sliceLength (limit : JsNumber) (length : ℕ) : ℕ :=
  match limit with
  | .nan => 0
  | .negInfinity => 0
  | .posInfinity => length
  | .finite x => if x < 0 then length - (JsNumber.trunc x).natAbs else min length (JsNumber.trunc x).toNat

/-- The `switch` of `GetStoryHistoryUseCase.execute`. -/
def fetchStories (input : GetStoryHistoryInput) : StorageProc (List StoryProps) :=
  match input.filter with
  | some .recent => SupabaseStoryRepository.findRecent clients input.userId (input.limit.getD (.finite 10))
  | _ => SupabaseStoryRepository.findByUserId clients input.userId

/-- `GetStoryHistoryUseCase.execute`: the stories; `total` is their number. -/
def GetStoryHistoryUseCase.execute (input : GetStoryHistoryInput) : StorageProc (List StoryProps) :=
  if input.userId = [] then throw ⟨lit "Error", lit "User ID is required"⟩
  else do
    let stories ← fetchStories clients input
    if input.exceeds stories.length then
      pure (stories.take (sliceLength (input.limit.getD .nan) stories.length))
    else pure stories

/-- `DEMO_USER.id` -/
def demoUser : Text := lit "00000000-0000-0000-0000-000000000001"

/-- The stories of the demo's `GET /history`. -/
def demoHistory : StorageProc (List PublicStory) := do
  let stories ← SupabaseStoryRepository.findRecent clients demoUser (.finite 20)
  pure (stories.map storyToPublicJSON)

/-! ## The platform -/

/-- The tables, and the shared links with the time. -/
structure Platform where
  database : Database
  sharing : Sharing.World

/-- What the operations await. -/
inductive PlatformEffect where
  | storage (effect : StorageEffect)
  | share (effect : ShareEffect)
  /-- `from('shared_links').insert(row)` -/
  | insertLink (link : SharedLink)
  /-- `crypto.randomUUID()`, for the id of a story. -/
  | randomUUID

/-- The values that effects resolve with. -/
abbrev PlatformEffect.Reply : PlatformEffect → Type
  | .storage effect => effect.Reply
  | .share effect => effect.Reply
  | .insertLink _ => Answer Unit
  | .randomUUID => Text

abbrev PlatformProc := Proc PlatformEffect PlatformEffect.Reply

/-- The replies, and the platform afterwards. A random id is one that no story has. -/
def platformEnv (isUrl : Text → Bool) : Env Platform PlatformEffect PlatformEffect.Reply :=
  fun platform effect =>
    match effect with
    | .storage effect => fun reply platform' =>
      storageEnv platform.database effect reply platform'.database ∧ platform'.sharing = platform.sharing
    | .share (.carryOut (.findStory id)) => fun reply platform' =>
      shareEnv platform.sharing (.carryOut (.findStory id)) reply platform'.sharing ∧
        platform'.database = platform.database ∧ ∀ story, reply = .ok (some story) →
          ∃ row, platform.database.stories id = some row ∧ mapRowToStory isUrl id row = .ok story
    | .share effect => fun reply platform' =>
      shareEnv platform.sharing effect reply platform'.sharing ∧ platform'.database = platform.database
    | .insertLink link => fun reply platform' =>
      platform'.database = platform.database ∧
        match reply with
        | .ok (.data _) => platform'.sharing =
            { platform.sharing with links := Function.update platform.sharing.links link.token (some link) }
        | _ => platform'.sharing = platform.sharing
    | .randomUUID => fun reply platform' =>
      platform' = platform ∧ ∀ id, reply = .ok id → platform.database.stories id = none

/-- An operation on the tables, on the platform. -/
def onStorage {α : Type} (p : StorageProc α) : PlatformProc α := p.embed PlatformEffect.storage

/-- An operation on shared links, on the platform. -/
def onSharing {α : Type} (p : Sharing.ShareProc α) : PlatformProc α := p.embed PlatformEffect.share

/-- `CreateShareLinkRequest` -/
structure CreateShareLinkRequest where
  ownerId : Text
  resourceId : Text
  type : SharedLinkType

/-- The check of `CreateShareLinkUseCase.execute`: what is shared belongs to the one who shares it. -/
def checkOwner (request : CreateShareLinkRequest) : StorageProc Unit :=
  match request.type with
  | .story => do
    let story ← SupabaseStoryRepository.findById clients request.resourceId
    if (story.map StoryProps.ownerId) = some request.ownerId then pure ()
    else throw ⟨lit "Error", lit "Not authorized to share this story"⟩
  | .moment => do
    let moment ← SupabaseMomentRepository.findById clients request.resourceId
    if (moment.map MomentRow.userId) = some request.ownerId then pure ()
    else throw ⟨lit "Error", lit "Not authorized to share this moment"⟩

/-- `CreateShareLinkUseCase.execute`, with what `SharedLink.generate` makes of the request: the token, the
number of views and the expiry. -/
def CreateShareLinkUseCase.execute (request : CreateShareLinkRequest) (token : Text)
    (maxViews expiresAt : ℕ) : PlatformProc SharedLink := do
  onStorage (checkOwner clients request)
  let link : SharedLink := ⟨request.resourceId, request.type, token, maxViews, 0, expiresAt⟩
  let answer ← (perform (PlatformEffect.insertLink link) : PlatformProc (Answer Unit))
  match answer with
  | .data _ => pure link
  | .error message => throw ⟨lit "Error", lit "Failed to save shared link: " ++ message⟩

/-- A story is saved under a new id, as `GenerateStoryUseCase` and `ToolExecutionRouter` do. -/
def saveNewStory (props : StoryProps) : PlatformProc StoryProps := do
  let id ← (perform PlatformEffect.randomUUID : PlatformProc Text)
  match Story.create clients.isUrl { props with id := id } with
  | .error e => throw e
  | .ok story =>
    onStorage (SupabaseStoryRepository.save clients story.props)
    pure story.props

/-! ## Operations -/

/-- A call of a use case. -/
inductive ContentOperation where
  | getStory (userId storyId : Text)
  | getSharedContent (token : Text)
  | getStoryHistory (input : GetStoryHistoryInput)
  | demoHistory
  | createShareLink (request : CreateShareLinkRequest) (token : Text) (maxViews expiresAt : ℕ)
  | reviewFeedback (input : ReviewFeedbackInput) (now : ℕ)
  | saveNewStory (props : StoryProps)

/-- The result of a call. -/
inductive ContentResult where
  | story (story : StoryProps)
  | shared (result : Option SharedContentResult)
  | stories (stories : List StoryProps)
  | publicStories (stories : List PublicStory)
  | link (link : SharedLink)
  | reviewed (output : ReviewFeedbackOutput)
  | saved (storyId : Text)

/-- The procedure of an operation. -/
def ContentOperation.task : ContentOperation → PlatformProc ContentResult
  | .getStory userId storyId => do
    let story ← onStorage (GetStoryUseCase.execute clients userId storyId)
    pure (.story story)
  | .getSharedContent token => do
    let result ← onSharing (Sharing.execute token)
    pure (.shared result)
  | .getStoryHistory input => do
    let stories ← onStorage (GetStoryHistoryUseCase.execute clients input)
    pure (.stories stories)
  | .demoHistory => do
    let stories ← onStorage (Moderation.demoHistory clients)
    pure (.publicStories stories)
  | .createShareLink request token maxViews expiresAt => do
    let link ← CreateShareLinkUseCase.execute clients request token maxViews expiresAt
    pure (.link link)
  | .reviewFeedback input now => do
    let output ← onStorage (ReviewFeedbackUseCase.execute clients input now)
    pure (.reviewed output)
  | .saveNewStory props => do
    let story ← Moderation.saveNewStory clients props
    pure (.saved story.id)

end DreamWeaver.Moderation
