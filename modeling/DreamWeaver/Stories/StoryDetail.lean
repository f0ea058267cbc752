import DreamWeaver.Stories.SupabaseStoryRepository

/-! # A story in full

`GET /stories/:id` (`api/src/routes/story.ts`) behind its authentication, with the use case that it calls
(`api/src/application/use-cases/GetStoryUseCase.ts`). A field that is `undefined` is not in the body. -/

namespace DreamWeaver.Stories

variable {isUrl : Text → Bool}

/-- What the use case asks the repository. -/
abbrev FindStory (isUrl : Text → Bool) : Type := Text → Except JsError (Option (Story isUrl Time))

/-- `GetStoryUseCase.execute` -/
def GetStoryUseCase.execute (find : FindStory isUrl) (userId storyId : Text) : Except JsError (Story isUrl Time) := do
  match ← find storyId with
  | none => throw ⟨lit "Error", lit "Story not found"⟩
  | some story =>
    if story.props.ownerId ≠ userId then
      throw ⟨lit "Error", lit "Unauthorized: You do not have permission to view this story"⟩
    return story

/-- A chapter as it is sent. -/
def StoryChapter.toJSON (chapter : StoryChapter) : Json :=
  .obj ([(lit "title", .str chapter.title), (lit "content", .str chapter.content)] ++
    (chapter.audioHint.map fun hint => (lit "audioHint", Json.str hint)).toList)

/-- `StoryContent.toJSON` -/
def StoryContent.toJSON (content : StoryContent) : Json :=
  .obj [
    (lit "paragraphs", .arr (content.paragraphs.map Json.str)),
    (lit "chapters", .arr (content.chapters.map StoryChapter.toJSON)),
    (lit "sleepScore", .num (.ofExact content.sleepScore))]

/-- The `data` of the response. -/
def detailData (story : Story isUrl Time) : Json :=
  .obj ([
    (lit "id", .str story.props.id),
    (lit "title", .str story.props.title),
    (lit "theme", .str story.props.theme),
    (lit "content", story.props.content.toJSON),
    (lit "status", .str story.props.status.text),
    (lit "estimatedReadingTime", .num (.ofExact story.getEstimatedReadingTime)),
    (lit "createdAt", .str (toISOString story.props.createdAt)),
    (lit "generatedAt", (story.props.generatedAt.map fun t => Json.str (toISOString t)).getD .null)] ++
    (story.props.audioUrl.map fun url => (lit "audioUrl", Json.str url)).toList)

/-- The response to an error. -/
def failedDetail (error : JsError) : JsonResponse :=
  if error.message = lit "Story not found" then
    ⟨404, .obj [(lit "success", .bool false), (lit "error", .str (lit "Story not found"))]⟩
  else if (lit "Unauthorized").isPrefixOf error.message then
    ⟨403, .obj [(lit "success", .bool false), (lit "error", .str (lit "Unauthorized"))]⟩
  else ⟨500, .obj [(lit "success", .bool false), (lit "error", .str (lit "Failed to retrieve story"))]⟩

/-- `GET /:id` -/
def getStory (find : FindStory isUrl) (userId id : Text) : JsonResponse :=
  match GetStoryUseCase.execute find userId id with
  | .ok story => ⟨200, .obj [(lit "success", .bool true), (lit "data", detailData story)]⟩
  | .error error => failedDetail error

/-- The owner of a story gets it. -/
theorem getStory_of_owner {find : FindStory isUrl} {id : Text} {story : Story isUrl Time}
    (h : find id = .ok (some story)) : getStory find story.props.ownerId id
      = ⟨200, .obj [(lit "success", .bool true), (lit "data", detailData story)]⟩ := by
  have hexecute : GetStoryUseCase.execute find story.props.ownerId id = .ok story := by
    rw [GetStoryUseCase.execute, h]
    dsimp only [bind, Except.bind]
    rw [if_neg (not_not_intro rfl)]
    rfl
  rw [getStory, hexecute]

end DreamWeaver.Stories
