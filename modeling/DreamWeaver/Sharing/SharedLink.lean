import DreamWeaver.Foundations.Process
import DreamWeaver.Stories.StoryEntity

/-! # Shared links

A shared link (`api/src/domain/entities/SharedLink.ts`) gives anyone who has its token a view of a
story or a moment, for a number of views and until it expires. `GetSharedContentUseCase.execute` reads
the link, checks it, has the database count the view and reads the content; the database counts a view
only while the link is valid. Every call of a repository is two effects, the query, which the database
carries out at one moment, and the answer, which arrives later. -/

namespace DreamWeaver.Sharing

open Stories Proc

/-! ## The link -/

/-- `SharedLinkType` -/
inductive SharedLinkType where
  | story
  | moment
  deriving DecidableEq, Repr

/-- `SharedLink`, `expiresAt` in milliseconds. -/
structure SharedLink where
  resourceId : Text
  type : SharedLinkType
  token : Text
  maxViews : ℕ
  currentViews : ℕ
  expiresAt : ℕ
  deriving DecidableEq, Repr

/-- `SharedLink.isValid` at a time. -/
def SharedLink.isValid (link : SharedLink) (now : ℕ) : Bool :=
  now < link.expiresAt && link.currentViews < link.maxViews

/-- `SharedLink.incrementView` -/
def SharedLink.incrementView (link : SharedLink) : SharedLink :=
  { link with currentViews := link.currentViews + 1 }

/-- The table `shared_links`, whose tokens are unique. -/
abbrev SharedLinks := Text → Option SharedLink

/-- `increment_shared_link_views(p_token)` at a time: one `UPDATE` with its `WHERE`. -/
def incrementSharedLinkViews (token : Text) (now : ℕ) (links : SharedLinks) : SharedLinks :=
  match links token with
  | none => links
  | some link =>
    if now < link.expiresAt ∧ link.currentViews < link.maxViews then
      Function.update links token (some link.incrementView)
    else links

/-! ## What is shared -/

/-- `MomentProps`, dates in milliseconds. -/
structure MomentProps where
  id : Text
  userId : Text
  storyId : Text
  mediaUrl : Text
  description : Option Text
  createdAt : ℕ
  deriving DecidableEq, Repr

/-- `Omit<MomentProps, 'userId'>` -/
structure PublicMoment where
  id : Text
  storyId : Text
  mediaUrl : Text
  description : Option Text
  createdAt : ℕ
  deriving DecidableEq, Repr

/-- `Moment.toPublicJSON` -/
def MomentProps.toPublicJSON (moment : MomentProps) : PublicMoment :=
  ⟨moment.id, moment.storyId, moment.mediaUrl, moment.description, moment.createdAt⟩

/-- `Omit<StoryProps, 'ownerId'>` -/
structure PublicStory where
  id : Text
  title : Text
  content : StoryContent
  theme : Text
  status : StoryStatus
  createdAt : ℕ
  generatedAt : Option ℕ
  audioUrl : Option Text
  deriving DecidableEq, Repr

/-- `Story.toPublicJSON` -/
def storyToPublicJSON (story : StoryProps) : PublicStory :=
  ⟨story.id, story.title, story.content, story.theme, story.status, story.createdAt,
    story.generatedAt, story.audioUrl⟩

/-- The content of a link: `PublicStoryProps | GoldenMomentProps`. -/
inductive SharedContent where
  | story (story : PublicStory)
  | moment (moment : PublicMoment)
  deriving DecidableEq, Repr

/-- `SharedContentResult` -/
structure SharedContentResult where
  type : SharedLinkType
  content : Option SharedContent
  isExpired : Bool
  deriving DecidableEq, Repr

/-! ## The repositories -/

/-- The queries that the repositories make. -/
inductive Query where
  /-- `rpc('get_shared_link_by_token', { p_token: token })` -/
  | getSharedLinkByToken (token : Text)
  /-- `rpc('increment_shared_link_views', { p_token: token })` -/
  | incrementSharedLinkViews (token : Text)
  /-- `storyRepository.findById(id)`, which gives a story by its properties. -/
  | findStory (id : Text)
  /-- `momentRepository.findById(id)` -/
  | findMoment (id : Text)
  deriving DecidableEq

/-- What a query asks for. -/
abbrev Query.Result : Query → Type
  | .getSharedLinkByToken _ => Option SharedLink
  | .incrementSharedLinkViews _ => Unit
  | .findStory _ => Option StoryProps
  | .findMoment _ => Option MomentProps

/-- What a view of a link awaits. -/
inductive ShareEffect where
  /-- The database carries a query out. -/
  | carryOut (query : Query)
  /-- Its answer arrives. -/
  | arrive (query : Query)
  deriving DecidableEq

/-- The reply to an effect; what arrives, arrives at a time. -/
abbrev ShareEffect.Reply : ShareEffect → Type
  | .carryOut query => query.Result
  | .arrive _ => ℕ

abbrev ShareProc := Proc ShareEffect ShareEffect.Reply

/-- The result of a query, with the time at which it arrives. -/
def ask (query : Query) : ShareProc (query.Result × ℕ) := do
  let result ← (perform (ShareEffect.carryOut query) : ShareProc query.Result)
  let now ← (perform (ShareEffect.arrive query) : ShareProc ℕ)
  pure (result, now)

/-- `SupabaseShareRepository.findByToken`: no link if there is an error. -/
def findByToken (token : Text) : ShareProc (Option (SharedLink × ℕ)) :=
  Proc.catchWith (do
      let (link, now) ← ask (.getSharedLinkByToken token)
      pure (link.map fun link => (link, now)))
    fun _ => pure none

/-- `SupabaseShareRepository.incrementViews` -/
def incrementViews (token : Text) : ShareProc Unit :=
  Proc.catchWith (do
      let _ ← ask (.incrementSharedLinkViews token)
      pure ())
    fun error => throw
      ⟨lit "Error", lit "Failed to increment shared link views: " ++ error.message⟩

/-! ## The use case -/

/-- The content that a link leads to. -/
def contentOf (link : SharedLink) : ShareProc (Option SharedContent) :=
  match link.type with
  | .story => do
    let (story, _) ← ask (.findStory link.resourceId)
    pure (story.map fun story => .story (storyToPublicJSON story))
  | .moment => do
    let (moment, _) ← ask (.findMoment link.resourceId)
    pure (moment.map fun moment => .moment moment.toPublicJSON)

/-- What a view of a valid link does: count it, then read the content. -/
def view (link : SharedLink) (token : Text) : ShareProc (Option SharedContentResult) := do
  incrementViews token
  let content ← contentOf link
  match content with
  | none => pure none
  | some content => pure (some ⟨link.type, some content, false⟩)

/-- `GetSharedContentUseCase.execute` -/
def execute (token : Text) : ShareProc (Option SharedContentResult) := do
  let found ← findByToken token
  match found with
  | none => pure none
  | some (link, now) =>
    if !link.isValid now then pure (some ⟨link.type, none, true⟩)
    else view link token

/-- A call of `execute` has returned content. -/
def returnsContent : ShareProc (Option SharedContentResult) → Bool
  | .done (.ok (some result)) => result.content.isSome
  | _ => false

/-! ## The world -/

/-- The links, and the time. -/
structure World where
  links : SharedLinks
  now : ℕ

/-- The replies, and the world afterwards. Time passes; a query that fails may have been carried out;
the repositories of stories and moments may reply anything. -/
def shareEnv : Env World ShareEffect ShareEffect.Reply := fun world effect =>
  match effect with
  | .carryOut (.getSharedLinkByToken token) => fun reply world' =>
    world.now ≤ world'.now ∧ world'.links = world.links ∧
      ∀ found, reply = .ok found → found = world.links token
  | .carryOut (.incrementSharedLinkViews token) => fun reply world' =>
    world.now ≤ world'.now ∧
      (world'.links = incrementSharedLinkViews token world.now world.links ∨
        world'.links = world.links ∧ ∃ e, reply = .error e)
  | .carryOut (.findStory _) | .carryOut (.findMoment _) => fun _ world' =>
    world.now ≤ world'.now ∧ world'.links = world.links
  | .arrive _ => fun reply world' =>
    world.now ≤ world'.now ∧ world'.links = world.links ∧ reply = .ok world.now

end DreamWeaver.Sharing
