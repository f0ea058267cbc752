import DreamWeaver.Foundations.TextStream
import DreamWeaver.Stories.GenerateStory

/-! # The streamed story

`POST /generate/stream` (`src/api/src/routes/story.ts`) writes the title and the paragraphs of the story that the use
case has made. `StoryService.generateStoryStream` decodes the chunks of the body as they come, and `StoryRequestPage`
appends every text to what it shows. The network cuts the bytes where it wants, and may break off. -/

namespace DreamWeaver.Client

open Stories

/-! ## The route -/

/-- What the route answers: a refusal by the middleware or of the body, or a stream of texts. -/
inductive StreamAnswer where
  | refused
  | stream (writes : List Text)

/-- What ends the title and every paragraph. -/
def blankLine : Text := lit "\n\n"

/-- What is written of a story. -/
def storyWrites (story : StoryProps) : List Text :=
  (story.title ++ blankLine) :: story.content.paragraphs.map fun paragraph => paragraph ++ blankLine

/-- `POST /generate/stream`, where `request` is what the middleware and the schema make of a request. -/
def generateStream (request : Option GenerateStoryRequest)
    (execute : GenerateStoryRequest → Except JsError GenerateStoryResponse) : StreamAnswer :=
  match request with
  | none => .refused
  | some request =>
    match execute request with
    | .ok result => .stream (storyWrites result.story)
    -- the headers are sent: `streamText` logs the error and closes the stream
    | .error _ => .stream []

/-- The texts of an answer. -/
def StreamAnswer.writes : StreamAnswer → List Text
  | .refused => []
  | .stream writes => writes

/-- What a page can show of an answer: halves of surrogate pairs are replaced, a byte order mark is dropped. -/
def StreamAnswer.text (answer : StreamAnswer) : Text := dropMark (answer.writes.flatMap toWellFormed)

/-- The bytes of a stream: every text is encoded on its own. -/
def bytesOfWrites (writes : List Text) : List UInt8 := writes.flatMap encodeUtf8

/-! ## The client -/

/-- What a client sees of a response: the chunks that it reads, and whether the stream was closed or broke. -/
structure StreamResponse where
  ok : Bool
  statusText : Text
  body : Option (List (List UInt8) × Except JsError Unit)

/-- What an asynchronous generator yields, and how it ends. -/
structure Yielded where
  texts : List Text
  outcome : Except JsError Unit

/-- `generateStoryStream`, from what `apiFetch` gives. -/
def generateStoryStream : Except JsError StreamResponse → Yielded
  | .error e => ⟨[], .error e⟩
  | .ok response =>
    if response.ok then
      match response.body with
      | none => ⟨[], .ok ()⟩
      | some (chunks, ending) => ⟨TextDecoder.fresh.decodeAll chunks, ending⟩
    else ⟨[], .error ⟨lit "Error", lit "Streaming failed: " ++ response.statusText⟩⟩

/-- `setStreamingContent(prev => prev + chunk)` for the texts that came. -/
def streamingContent (texts : List Text) : Text := texts.foldl (fun prev chunk => prev ++ chunk) []

theorem streamingContent_eq (texts : List Text) : streamingContent texts = texts.flatten := by
  have hfold (prev : Text) : texts.foldl (fun prev chunk => prev ++ chunk) prev = prev ++ texts.flatten := by
    induction texts generalizing prev with
    | nil => simp
    | cons chunk texts ih => simp [ih]
  exact hfold []

/-! ## The network -/

/-- What a client can get of an answer. -/
inductive Delivers : StreamAnswer → Except JsError StreamResponse → Prop
  /-- The request or the headers were lost. -/
  | lost (answer : StreamAnswer) (e : JsError) : Delivers answer (.error e)
  | refused (statusText : Text) (body) : Delivers .refused (.ok ⟨false, statusText, body⟩)
  /-- The stream was read to its end. -/
  | whole (statusText : Text) {writes : List Text} {chunks : List (List UInt8)}
      (h : chunks.flatten = bytesOfWrites writes) :
      Delivers (.stream writes) (.ok ⟨true, statusText, some (chunks, .ok ())⟩)
  /-- The connection broke. -/
  | broken (statusText : Text) (e : JsError) {writes : List Text} {chunks : List (List UInt8)}
      (h : chunks.flatten <+: bytesOfWrites writes) :
      Delivers (.stream writes) (.ok ⟨true, statusText, some (chunks, .error e)⟩)

/-! ## What the page shows -/

/-- The bytes of a stream are read back. -/
theorem readComplete_bytesOfWrites (writes : List Text) :
    readComplete (bytesOfWrites writes) = (writes.flatMap toWellFormed, []) := by
  induction writes with
  | nil => rfl
  | cons text writes ih =>
    rw [bytesOfWrites, List.flatMap_cons, readComplete_encodeUtf8, ← bytesOfWrites, ih, List.flatMap_cons]

/-- The texts of chunks that came begin what can be shown. -/
theorem flatten_decodeAll_begins {writes : List Text} {chunks : List (List UInt8)}
    (h : chunks.flatten <+: bytesOfWrites writes) :
    (TextDecoder.fresh.decodeAll chunks).flatten <+: (StreamAnswer.stream writes).text := by
  rw [TextDecoder.flatten_decodeAll_fresh]
  apply dropMark_prefix
  have hbegins := readComplete_prefix h
  rwa [readComplete_bytesOfWrites] at hbegins

/-- The texts of all chunks are what can be shown. -/
theorem flatten_decodeAll_whole {writes : List Text} {chunks : List (List UInt8)}
    (h : chunks.flatten = bytesOfWrites writes) :
    (TextDecoder.fresh.decodeAll chunks).flatten = (StreamAnswer.stream writes).text := by
  rw [TextDecoder.flatten_decodeAll_fresh, h, readComplete_bytesOfWrites]
  rfl

/-- **The page shows the story of the route.** However the network cuts and breaks the stream, the page shows a
beginning of the title and the paragraphs at every moment, and all of them when the generator returns. -/
theorem streamed_story {request : Option GenerateStoryRequest}
    {execute : GenerateStoryRequest → Except JsError GenerateStoryResponse}
    {response : Except JsError StreamResponse} (h : Delivers (generateStream request execute) response) :
    (∀ texts, texts <+: (generateStoryStream response).texts →
      streamingContent texts <+: (generateStream request execute).text) ∧
    ((generateStoryStream response).outcome = .ok () →
      streamingContent (generateStoryStream response).texts = (generateStream request execute).text) := by
  -- at every moment a beginning of the texts has come
  have hmoment {texts all : List Text} {text : Text} (htexts : texts <+: all) (hall : all.flatten <+: text) :
      streamingContent texts <+: text := by
    obtain ⟨more, rfl⟩ := htexts
    rw [streamingContent_eq]
    rw [List.flatten_append] at hall
    exact (List.prefix_append _ _).trans hall
  generalize generateStream request execute = answer at h ⊢
  cases h with
  | lost _ e =>
    constructor
    · exact fun texts htexts => hmoment htexts List.nil_prefix
    · intro houtcome
      cases houtcome
  | refused statusText body =>
    constructor
    · exact fun texts htexts => hmoment htexts List.nil_prefix
    · intro houtcome
      cases houtcome
  | whole statusText hchunks =>
    have hall := flatten_decodeAll_whole hchunks
    constructor
    · exact fun texts htexts => hmoment htexts (hall ▸ List.prefix_rfl)
    · intro _
      rw [streamingContent_eq]
      exact hall
  | broken statusText e hchunks =>
    constructor
    · exact fun texts htexts => hmoment htexts (flatten_decodeAll_begins hchunks)
    · intro houtcome
      cases houtcome

/-- A story of one paragraph. -/
def snowStory : GenerateStoryResponse where
  story :=
    { id := lit "s", title := lit "É", content := ⟨[lit "Snow."], [], 0, List.cons_ne_nil _ _⟩, theme := lit "snow",
      status := .completed, ownerId := lit "u", createdAt := 0, generatedAt := none, audioUrl := none }
  estimatedReadingTime := 1
  audioUrl := none
  newlyUnlockedCompanions := none

/-- A request for it. -/
def snowRequest : GenerateStoryRequest where
  theme := lit "snow"
  childName := none
  childAge := none
  duration := none
  userId := none
  accessToken := none
  voiceProfileId := none
  mood := none
  previousStoryId := none
  requestId := none
  traceId := none

/-- The first letter is cut in two. -/
theorem streamed_story_snow :
    streamingContent (TextDecoder.fresh.decodeAll
      [[0xC3], [0x89, 10, 10, 83], [110, 111, 119, 46, 10], [10]]) = lit "É\n\nSnow.\n\n" := by
  have hcut : [[0xC3], [0x89, 10, 10, 83], [110, 111, 119, 46, 10], [10]].flatten =
      bytesOfWrites (storyWrites snowStory.story) := by decide +kernel
  refine ((@streamed_story (some snowRequest) (fun _ => .ok snowStory) _ (.whole (lit "OK") hcut)).2 rfl).trans ?_
  decide +kernel

end DreamWeaver.Client
