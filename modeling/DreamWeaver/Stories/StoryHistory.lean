import DreamWeaver.Foundations.JsArithmetic
import DreamWeaver.Foundations.JsData
import DreamWeaver.Stories.StoryEntity

/-! # The stories of a user

`GET /stories` (`api/src/routes/story.ts`) behind its authentication, with the use case that it calls
(`api/src/application/use-cases/GetStoryHistoryUseCase.ts`). The repository is a parameter; a response is
its status and the document in its body. -/

namespace DreamWeaver.Stories

/-! ## The use case -/

/-- The `filter` of `GetStoryHistoryInput`. -/
inductive HistoryFilter where
  | all
  | starred
  | recent
  deriving DecidableEq, Repr

/-- `GetStoryHistoryInput` -/
structure GetStoryHistoryInput where
  userId : Text
  limit : Option JsNumber
  filter : Option HistoryFilter

/-- `GetStoryHistoryOutput` -/
structure GetStoryHistoryOutput (isUrl : Text → Bool) where
  stories : List (Story isUrl)
  total : ℕ

/-- What the use case asks the repository. -/
structure StoryLists (isUrl : Text → Bool) where
  findByUserId : Text → Except JsError (List (Story isUrl))
  findRecent : Text → JsNumber → Except JsError (List (Story isUrl))

/-- `items.slice(0, end)` -/
def sliceTo {α : Type} (items : List α) : JsNumber → List α
  | .nan => []
  | .negInfinity => []
  | .posInfinity => items
  | .finite x =>
    if JsNumber.trunc x < 0 then items.take ((items.length : ℤ) + JsNumber.trunc x).toNat
    else items.take (JsNumber.trunc x).toNat

/-- `if (limit && items.length > limit) items = items.slice(0, limit)` -/
def limited {α : Type} (items : List α) : Option JsNumber → List α
  | none => items
  | some limit =>
    if limit ≠ .nan ∧ limit ≠ .finite 0 ∧ limit.lt items.length then sliceTo items limit else items

variable {isUrl : Text → Bool}

/-- `GetStoryHistoryUseCase.execute` -/
def GetStoryHistoryUseCase.execute (repository : StoryLists isUrl) (input : GetStoryHistoryInput) :
    Except JsError (GetStoryHistoryOutput isUrl) := do
  if input.userId.isEmpty then throw ⟨lit "Error", lit "User ID is required"⟩
  let stories ← match input.filter with
    | some .recent => repository.findRecent input.userId (input.limit.getD (.finite 10))
    | some .starred => repository.findByUserId input.userId
    | _ => repository.findByUserId input.userId
  let stories := limited stories input.limit
  return ⟨stories, stories.length⟩

/-! ## The route -/

/-- A response with a JSON body. -/
structure JsonResponse where
  status : ℕ
  body : Json

/-- `response.ok` -/
def JsonResponse.ok (response : JsonResponse) : Bool := 200 ≤ response.status && response.status ≤ 299

/-- The text of a status. -/
def StoryStatus.text : StoryStatus → Text
  | .generating => lit "generating"
  | .completed => lit "completed"
  | .failed => lit "failed"
  | .blocked => lit "blocked"

/-- `date.toISOString()` of a date with a time value, which throws if the date is invalid. -/
def isoText (ms : ℕ) : Except JsError Text :=
  match JsNumber.toDate (.finite ms) with
  | some time => .ok (toISOString time)
  | none => .error ⟨lit "RangeError", lit "Invalid time value"⟩

/-- `date?.toISOString() ?? null` -/
def isoOrNull : Option ℕ → Except JsError Json
  | none => .ok .null
  | some ms => (isoText ms).map Json.str

/-- An element of `formattedStories`. -/
def formatStory (story : Story isUrl) : Except JsError Json := do
  let createdAt ← isoText story.props.createdAt
  let generatedAt ← isoOrNull story.props.generatedAt
  return .obj [
    (lit "id", .str story.props.id),
    (lit "title", .str story.props.title),
    (lit "theme", .str story.props.theme),
    (lit "status", .str story.props.status.text),
    (lit "estimatedReadingTime", .num (.ofExact story.getEstimatedReadingTime)),
    (lit "createdAt", .str createdAt),
    (lit "generatedAt", generatedAt)]

/-- A number in a document: `null` if it is not finite. -/
def numberJson : JsNumber → Json
  | .finite x => .num (.finite x)
  | _ => .null

/-- The body of the response that lists stories. -/
def historyBody (formattedStories : List Json) (total : ℕ) (limit : JsNumber) : Json :=
  .obj [
    (lit "success", .bool true),
    (lit "data", .obj [
      (lit "stories", .arr formattedStories),
      (lit "total", .num (.ofExact total)),
      (lit "limit", numberJson limit)])]

/-- `parseInt(c.req.query('limit') || '20', 10)`; a literal that `parseInt` would read with radix 16 is a
zero with radix 10. -/
def queryLimit (query : Option Text) : JsNumber :=
  let text := orText query (lit "20")
  if (splitRadix (splitSign (trimStart text)).2).1 = 16 then .finite 0 else parseInt text

/-- `GET /` -/
def listStories (repository : StoryLists isUrl) (userId : Text) (query : Option Text) : JsonResponse :=
  let limit := queryLimit query
  let answer : Except JsError Json := do
    let history ← GetStoryHistoryUseCase.execute repository ⟨userId, some limit, none⟩
    let formattedStories ← history.stories.mapM formatStory
    return historyBody formattedStories history.total limit
  match answer with
  | .ok body => ⟨200, body⟩
  | .error error => ⟨500, .obj [(lit "success", .bool false), (lit "error", .str error.message)]⟩

variable {story : Story isUrl} {entry body : Json} {repository : StoryLists isUrl} {userId : Text}
  {query : Option Text}

/-- **What is sent of a story is its outline**: the fields of an entry, among which there is no content. -/
theorem formatStory_ok (h : formatStory story = .ok entry) : ∃ createdAt generatedAt,
    isoText story.props.createdAt = .ok createdAt ∧ isoOrNull story.props.generatedAt = .ok generatedAt ∧
      entry = .obj [
        (lit "id", .str story.props.id),
        (lit "title", .str story.props.title),
        (lit "theme", .str story.props.theme),
        (lit "status", .str story.props.status.text),
        (lit "estimatedReadingTime", .num (.ofExact story.getEstimatedReadingTime)),
        (lit "createdAt", .str createdAt),
        (lit "generatedAt", generatedAt)] := by
  obtain ⟨createdAt, hcreated, h⟩ := exists_of_bind_ok h
  obtain ⟨generatedAt, hgenerated, h⟩ := exists_of_bind_ok h
  exact ⟨createdAt, generatedAt, hcreated, hgenerated, (Except.ok.inj h).symm⟩

/-- A response of the route is a list of stories in an envelope, or an error. -/
theorem listStories_cases (repository : StoryLists isUrl) (userId : Text) (query : Option Text) :
    (∃ entries total, listStories repository userId query
      = ⟨200, historyBody entries total (queryLimit query)⟩) ∨
    (listStories repository userId query).ok = false := by
  rw [listStories]
  split
  · rename_i body hanswer
    left
    obtain ⟨history, -, hrest⟩ := exists_of_bind_ok hanswer
    obtain ⟨entries, -, hbody⟩ := exists_of_bind_ok hrest
    exact ⟨entries, history.total, by rw [Except.ok.inj hbody]⟩
  · exact .inr rfl

end DreamWeaver.Stories
