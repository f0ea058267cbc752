import DreamWeaver.Foundations.JsValue
import DreamWeaver.Stories.StoryHistory

/-! # The story repository of the client

`ApiStoryRepository` (`src/infrastructure/persistence/ApiStoryRepository.ts`) with the entities of the
client (`src/domain`), and what it makes of the response of `GET /stories`. The server sends the stories in
an envelope with their number; the client takes what is in the envelope for the list itself. -/

namespace DreamWeaver.Client

open Stories (StoryChapter JsonResponse paragraphsOf noParagraphError)

/-! ## The entities of the client -/

/-- `StoryContent` of the client. -/
structure StoryContent where
  paragraphs : List Text
  chapters : List StoryChapter
  sleepScore : JsNumber

/-- `StoryContent.create` of the client. -/
def StoryContent.create (paragraphs : List Text) (chapters : Option (List StoryChapter))
    (sleepScore : Option JsNumber) : Except JsError StoryContent :=
  if paragraphs = [] then .error noParagraphError
  else .ok ⟨paragraphs, chapters.getD [], sleepScore.getD (.finite 5)⟩

/-- `StoryContent.fromRawText` of the client. -/
def StoryContent.fromRawText (text : Text) : Except JsError StoryContent :=
  StoryContent.create (paragraphsOf text) none none

/-- `Story` of the client. It takes what the document has: `none` is `undefined`, and a date is `none` when
it is invalid. -/
structure Story where
  id : Option Json
  title : Option Json
  content : StoryContent
  theme : Option Json
  status : Option Json
  ownerId : Option Json
  audioUrl : Option Json
  createdAt : Option Time
  generatedAt : Option (Option Time)

/-! ## Decoding -/

/-- The texts among values. -/
def stringsOf (items : List Json) : List Text :=
  items.filterMap fun item => match item with
    | .str s => some s
    | _ => none

/-- `new Date(value)`; what it makes of anything but a text in the format of `toISOString` depends on the
engine. -/
def newDate (otherDates : Json → Option Time) : Option Json → Option Time
  | none => none
  | some (.str s) => (parseIso s).or (otherDates (.str s))
  | some value => otherDates value

/-- The `audioHint` of a chapter, if it is one of the four. -/
def audioHintOf : Option Json → Option Text
  | some (.str hint) =>
    if hint = lit "gentle" ∨ hint = lit "excited" ∨ hint = lit "whispered" ∨ hint = lit "normal" then some hint
    else none
  | _ => none

/-- A chapter, unless its title or its content is not a text. -/
def parseChapter : Json → Option StoryChapter
  | .obj fields =>
    match Json.field? fields (lit "title"), Json.field? fields (lit "content") with
    | some (.str title), some (.str content) =>
      some ⟨title, content, audioHintOf (Json.field? fields (lit "audioHint"))⟩
    | _, _ => none
  | _ => none

/-- `parseChapters` -/
def parseChapters : Option Json → Option (List StoryChapter)
  | some (.arr raw) =>
    let chapters := raw.filterMap parseChapter
    if chapters.isEmpty then none else some chapters
  | _ => none

/-- `typeof value === 'number' ? value : undefined` -/
def numberOf : Option Json → Option JsNumber
  | some (.num x) => some x
  | _ => none

/-- `contentStr`: the text of a content that is not an object. -/
def contentStr : Option Json → Text
  | some (.arr items) => joinWith (lit "\n\n") (stringsOf items)
  | some (.str s) => s
  | _ => []

/-- `finalContent` -/
def finalContent (content : Option Json) : Except JsError StoryContent :=
  match content with
  | some (.obj c) =>
    match Json.field? c (lit "paragraphs") with
    | none => StoryContent.fromRawText (contentStr content)
    | some paragraphs =>
      let kept := match paragraphs with
        | .arr items => (stringsOf items).filter fun p => !p.isEmpty
        | _ => []
      StoryContent.create kept (parseChapters (Json.field? c (lit "chapters")))
        (numberOf (Json.field? c (lit "sleepScore")))
  | _ => StoryContent.fromRawText (contentStr content)

/-- The fields of a value: one that is not an object has none, and `null` cannot be asked for them. -/
def fieldsOf : Json → Except JsError (List (Text × Json))
  | .null => .error ⟨lit "TypeError", lit "Cannot read properties of null"⟩
  | .obj fields => .ok fields
  | _ => .ok []

/-- `mapDtoToEntity` -/
def mapDtoToEntity (otherDates : Json → Option Time) (dto : Json) : Except JsError Story := do
  let fields ← fieldsOf dto
  let content ← finalContent (Json.field? fields (lit "content"))
  let ownerId := Json.field? fields (lit "ownerId")
  let generatedAt := Json.field? fields (lit "generatedAt")
  return {
    id := Json.field? fields (lit "id")
    title := Json.field? fields (lit "title")
    content := content
    theme := Json.field? fields (lit "theme")
    status := Json.field? fields (lit "status")
    ownerId := if isTruthy ownerId then ownerId else some (.str (lit "unknown"))
    audioUrl := Json.field? fields (lit "audioUrl")
    createdAt := newDate otherDates (Json.field? fields (lit "createdAt"))
    generatedAt := if isTruthy generatedAt then some (newDate otherDates generatedAt) else none }

/-- `(json.data || []).map(dto => this.mapDtoToEntity(dto))` -/
def mapData (otherDates : Json → Option Time) (json : Json) : Except JsError (List Story) := do
  let fields ← fieldsOf json
  match Json.field? fields (lit "data") with
  | some (.arr items) => items.mapM (mapDtoToEntity otherDates)
  | data =>
    if isTruthy data then throw ⟨lit "TypeError", lit "(json.data || []).map is not a function"⟩
    else return []

/-! ## The repository -/

/-- `baseUrl` -/
def baseUrl : Text := lit "/api/v1/stories"

/-- What the repository has: the access token, if there is a session, and the network. -/
structure ApiAccess where
  accessToken : Option Text
  fetch : Text → Except JsError JsonResponse

/-- `if (!token) throw new Error('Not authenticated')`, the request, and
`if (!response.ok) throw new Error(message)` -/
def ApiAccess.request (access : ApiAccess) (path : Text) (message : String) : Except JsError Json := do
  if (access.accessToken.getD []).isEmpty then throw ⟨lit "Error", lit "Not authenticated"⟩
  let response ← access.fetch path
  if !response.ok then throw ⟨lit "Error", lit message⟩
  return response.body

namespace ApiStoryRepository

/-- `findByUserId`; the request does not depend on the user id. -/
def findByUserId (otherDates : Json → Option Time) (access : ApiAccess) : Except JsError (List Story) := do
  let json ← access.request baseUrl "Failed to fetch stories"
  mapData otherDates json

/-- `findRecent`, with the limit as the language writes it. -/
def findRecent (otherDates : Json → Option Time) (access : ApiAccess) (limit : Text) :
    Except JsError (List Story) := do
  let json ← access.request (baseUrl ++ lit "?limit=" ++ limit) "Failed to fetch recent stories"
  mapData otherDates json

end ApiStoryRepository

/-! ## What is lost on the way -/

section Delivery

variable {isUrl : Text → Bool} {otherDates : Json → Option Time} {story : Stories.Story isUrl}
  {entries : List Json} {entry : Json} {total : ℕ} {limit : JsNumber} {access : ApiAccess}
  {path : Text} {message : String}

/-- A time value as the date that it makes. -/
def dateOf (ms : ℕ) : Option Time := JsNumber.toDate (.finite ms)

/-- A story of the client is a story of the server: its id, its title, its content and its dates. -/
structure SameStory (story : Stories.Story isUrl) (decoded : Story) : Prop where
  id : decoded.id = some (.str story.props.id)
  title : decoded.title = some (.str story.props.title)
  paragraphs : decoded.content.paragraphs = story.props.content.paragraphs
  createdAt : decoded.createdAt = dateOf story.props.createdAt
  generatedAt : decoded.generatedAt = story.props.generatedAt.map dateOf

/-- The client ends up with stories: with the same ones, in the same order. -/
def Delivered (stories : List (Stories.Story isUrl)) (result : Except JsError (List Story)) : Prop :=
  ∃ decoded, result = .ok decoded ∧ List.Forall₂ SameStory stories decoded

/-- A rejection delivers nothing, not even an empty list. -/
theorem not_delivered_of_error {stories : List (Stories.Story isUrl)} {result : Except JsError (List Story)}
    (h : ∃ e, result = .error e) : ¬ Delivered stories result := by
  rintro ⟨decoded, hok, -⟩
  obtain ⟨e, he⟩ := h
  cases hok.symm.trans he

/-- The envelope is not a list, but it counts as true, so that it is not replaced by an empty one. -/
theorem mapData_envelope : mapData otherDates (Stories.historyBody entries total limit)
    = .error ⟨lit "TypeError", lit "(json.data || []).map is not a function"⟩ := rfl

/-- The client rejects what the route answers: an error as such, and a list for its envelope. -/
theorem request_rejects {repository : Stories.StoryLists isUrl} {userId : Text} {query : Option Text}
    (hfetch : access.fetch path = .ok (Stories.listStories repository userId query)) :
    ∃ e, (access.request path message >>= mapData otherDates) = .error e := by
  rw [ApiAccess.request, hfetch]
  by_cases htoken : (access.accessToken.getD []).isEmpty = true
  · rw [if_pos htoken]
    exact ⟨_, rfl⟩
  rw [if_neg htoken]
  rcases Stories.listStories_cases repository userId query with ⟨entries, total, hlist⟩ | hfailed
  · have henvelope : mapData otherDates (Stories.historyBody entries total (Stories.queryLimit query)) = _ :=
      mapData_envelope
    rw [hlist]
    exact ⟨_, henvelope⟩
  · dsimp only [bind, Except.bind, pure, Except.pure]
    rw [hfailed]
    exact ⟨_, rfl⟩

/-- **Without the envelope the stories would be lost all the same**: an entry of the list has no content,
and the client makes no story without a paragraph. -/
theorem mapDtoToEntity_outline (h : Stories.formatStory story = .ok entry) :
    mapDtoToEntity otherDates entry = .error noParagraphError := by
  obtain ⟨createdAt, generatedAt, -, -, rfl⟩ := Stories.formatStory_ok h
  rfl

/-- **No list of stories is delivered**: on what the route answers, whatever the stories of the user are,
the client ends up with no list at all, be it through `findByUserId` or through `findRecent`. -/
theorem never_delivered (repository : Stories.StoryLists isUrl) (userId : Text)
    (queryOf : Text → Option Text) (accessToken : Option Text) (otherDates : Json → Option Time)
    (limit : Text) (stories : List (Stories.Story isUrl)) :
    let access : ApiAccess :=
      ⟨accessToken, fun path => .ok (Stories.listStories repository userId (queryOf path))⟩
    ¬ Delivered stories (ApiStoryRepository.findByUserId otherDates access) ∧
      ¬ Delivered stories (ApiStoryRepository.findRecent otherDates access limit) :=
  ⟨not_delivered_of_error (request_rejects rfl), not_delivered_of_error (request_rejects rfl)⟩

/-- A story of one paragraph. -/
def lullaby : Stories.Story fun _ => true where
  props := {
    id := lit "00000000-0000-4000-8000-000000000001"
    title := lit "Lullaby"
    content := ⟨[lit "Sleep well."], [], 5, List.cons_ne_nil _ _⟩
    theme := lit "stars"
    status := .completed
    ownerId := lit "00000000-0000-4000-8000-000000000002"
    createdAt := 0
    generatedAt := none
    audioUrl := none }
  valid := by decide

/-- The repository of a user who owns that story. -/
def lullabies : Stories.StoryLists fun _ => true := ⟨fun _ => .ok [lullaby], fun _ _ => .ok [lullaby]⟩

/-- A client with a session, connected to the route. -/
def lullabyClient : ApiAccess :=
  ⟨some (lit "token"), fun _ => .ok (Stories.listStories lullabies lullaby.props.ownerId none)⟩

/-- **A story that is not delivered**: the server lists it, and the client throws. -/
theorem lullaby_lost : (Stories.listStories lullabies lullaby.props.ownerId none).status = 200 ∧
    ¬ Delivered [lullaby] (ApiStoryRepository.findByUserId (fun _ => none) lullabyClient) ∧
    ¬ Delivered [lullaby] (ApiStoryRepository.findRecent (fun _ => none) lullabyClient (lit "10")) :=
  ⟨by decide +kernel, not_delivered_of_error (request_rejects rfl), not_delivered_of_error (request_rejects rfl)⟩

end Delivery

end DreamWeaver.Client
