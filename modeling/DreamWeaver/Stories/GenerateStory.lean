import DreamWeaver.Foundations.Traced
import DreamWeaver.Safety.SafetyGuardian
import DreamWeaver.Stories.StoryEntity

/-! # Generating a story

`GenerateStoryUseCase.execute` (`api/src/application/use-cases/GenerateStoryUseCase.ts`): validate
the request, consult the conductor, stream the story (or fall back to one answer), check it, clean
it, narrate it, create and save the story, and publish its beats. The collaborators of the use case
are functions that may answer anything or reject; what the use case does to the world is the trace
of a `Traced` computation. -/

namespace DreamWeaver.Stories

open Regex Safety

/-! ## Requests, collaborators and effects -/

/-- `GenerateStoryRequest` -/
structure GenerateStoryRequest where
  theme : Text
  childName : Option Text
  childAge : Option JsNumber
  duration : Option Text
  userId : Option Text
  accessToken : Option Text
  voiceProfileId : Option Text
  mood : Option Text
  previousStoryId : Option Text
  requestId : Option Text
  traceId : Option Text
  deriving DecidableEq, Repr

/-- The configuration the conductor refines. -/
structure SessionConfig where
  theme : Text
  duration : Option Text
  childName : Option Text
  childAge : Option JsNumber
  deriving DecidableEq, Repr

/-- What the use case reads of `ConductSessionResult`. -/
structure SessionResult where
  refinedRequest : SessionConfig
  contextualNotes : Option Text
  deriving DecidableEq, Repr

/-- The fields of a companion the use case reads. -/
structure Companion where
  id : Text
  name : Text
  species : Text
  description : Text
  deriving DecidableEq, Repr

/-- The context of a story told again. -/
structure ReinstantiateContext where
  originalTitle : Text
  originalTheme : Text
  storyStructure : Text
  deriving DecidableEq, Repr

/-- `StoryPromptVariables` -/
structure StoryPromptVariables where
  config : SessionConfig
  style : Text
  memoryContext : Option Text
  reinstantiateContext : Option ReinstantiateContext
  unlockedCompanions : List Text
  forStreaming : Bool
  deriving DecidableEq, Repr

/-- `GenerateStoryInput` -/
structure GenerateStoryInput where
  config : SessionConfig
  style : Text
  customPrompt : Text
  deriving DecidableEq, Repr

/-- One run of the story stream: the chunks it yields and how it ends. -/
structure StreamRun where
  chunks : List Text
  ending : Except JsError Unit

/-- What the use case reads of `GenerateStoryOutput`. -/
structure GeneratedStory where
  title : Text
  content : Text
  deriving DecidableEq, Repr

/-- The payloads of the events the use case publishes. -/
inductive EventPayload where
  | storyChunkGenerated (userId sessionId storyId text : Text) (isFullBeat : Bool)
  | storyBeatCompleted (userId storyId : Text) (beatIndex totalBeats : ℕ)
  | storyGenerationCompleted (userId sessionId storyId : Text)
  deriving DecidableEq, Repr

/-- A published event. -/
structure DomainEvent where
  id : Text
  requestId : Text
  traceId : Option Text
  payload : EventPayload
  timestamp : ℕ
  deriving DecidableEq, Repr

/-- The collaborators of the use case. The event bus, the speech service, the story repository and
the voice repository are optional. `readyVoiceModel` is the model id of a voice profile that is
ready, and `freshId` gives the random identifiers in the order of their use. -/
structure Collaborators where
  isUrl : Text → Bool
  showNat : ℕ → Text
  freshId : ℕ → Text
  now : ℕ
  checkUnlock : ℕ → Text → Except JsError (List Companion)
  conductStorySession : GenerateStoryRequest → Except JsError SessionResult
  getStoryPrompt : StoryPromptVariables → Except JsError Text
  generateStoryStream : GenerateStoryInput → StreamRun
  generateStory : GenerateStoryInput → Except JsError GeneratedStory
  safetyGuardian : SafetyGuardian
  getSafetyFallback : Except JsError Text
  publish : Option (DomainEvent → Except JsError Unit)
  synthesize : Option (Text → Option Text → Except JsError (Option Text))
  readyVoiceModel : Option (Text → Except JsError (Option Text))
  findStory : Option (Text → Except JsError (Option StoryProps))
  saveStory : Option (StoryProps → Except JsError Unit)

/-- What the use case does to the world. -/
inductive Effect where
  /-- An event is handed to the event bus. -/
  | published (event : DomainEvent)
  /-- The guardian has been run on a text. -/
  | checked (text : Text) (result : SafetyCheckResult)
  /-- A text is sent to speech synthesis. -/
  | synthesized (text : Text) (voiceModelId : Option Text)
  /-- A story is handed to the repository. -/
  | saved (story : StoryProps)
  deriving DecidableEq, Repr

/-- `GenerateStoryResponse` -/
structure GenerateStoryResponse where
  story : StoryProps
  estimatedReadingTime : ℕ
  audioUrl : Option Text
  newlyUnlockedCompanions : Option (List Companion)
  deriving DecidableEq, Repr

/-! ## Titles and texts -/

/-- The placeholder title. -/
def untitled : Text := lit "Untitled Story"

/-- `lines[0].replace('Title: ', '').trim()` on the first line of a text. -/
def titleLine (text : Text) : Text := trim (removeFirst (lit "Title: ") (firstLine text).1)

/-- The title after one more chunk: it is read off once the text has a second line. -/
def nextTitle (title text : Text) : Text :=
  if title = untitled ∧ (firstLine text).2 = true then titleLine text else title

/-- `safety.isSafe ? (safety.sanitizedContent || generatedContentText) : safety.fallbackContent!` -/
def finalContent (safety : SafetyCheckResult) (generatedContentText : Text) : Text :=
  if safety.isSafe then orText safety.sanitizedContent generatedContentText
  else safety.fallbackContent.getD []

/-- `/^#? ?Title:? .+\n+/` -/
def titlePattern : Regex :=
  seqs [.start, opt (exactly "#"), opt (exactly " "), exactly "Title", opt (exactly ":"),
    exactly " ", some1 .dot, some1 (.unit 10)]

/-- `finalContent.replace(/^#? ?Title:? .+\n+/, '').trim()` -/
def cleanContent (text : Text) : Text := trim (removeOnce titlePattern text)

/-- The text of a narration: the paragraphs joined by spaces. -/
def narration (paragraphs : List Text) : Text := joinWith (lit " ") paragraphs

/-! ## The steps of the use case -/

namespace GenerateStoryUseCase

variable (c : Collaborators) (request : GenerateStoryRequest)

/-- The error `validateRequest` throws on a blank theme. -/
def themeRequired : JsError := ⟨lit "Error", lit "Theme is required"⟩

/-- The error `validateRequest` throws on an age out of range. -/
def ageOutOfRange : JsError := ⟨lit "Error", lit "Child age must be between 2 and 12"⟩

/-- `age < 2 || age > 12` -/
def outOfRange : JsNumber → Bool
  | .nan => false
  | .negInfinity => true
  | .posInfinity => true
  | .finite age => age < 2 || 12 < age

/-- `validateRequest` -/
def validateRequest : Except JsError Unit :=
  if (trim request.theme).isEmpty then .error themeRequired
  else if request.childAge.any outOfRange then .error ageOutOfRange
  else .ok ()

/-- A user id that is present: `if (request.userId)`. -/
def presentUser : Option Text := request.userId.filter fun u => !u.isEmpty

/-- What is known before the story is generated. -/
structure Prepared where
  companions : List Companion
  refinedRequest : SessionConfig
  storyPrompt : Text
  storyStreamPrompt : Text

/-- The context of the story to be told again, if one was named and is found. -/
def reinstantiate : Except JsError (Option ReinstantiateContext) :=
  match request.previousStoryId.filter (fun s => !s.isEmpty), c.findStory with
  | some storyId, some findById => do
    let previous ← findById storyId
    return previous.map fun story =>
      ⟨story.title, story.theme, joinWith (lit "\n\n") story.content.paragraphs⟩
  | _, _ => return none

/-- The variables of the two story prompts. -/
def promptVariables (session : SessionResult) (companions : List Companion)
    (reinstantiateContext : Option ReinstantiateContext) (forStreaming : Bool) :
    StoryPromptVariables where
  config := session.refinedRequest
  style := lit "bedtime"
  memoryContext := session.contextualNotes
  reinstantiateContext := reinstantiateContext
  unlockedCompanions := companions.map Companion.name
  forStreaming := forStreaming

/-- Everything up to the two prompts. -/
def prepare : Except JsError Prepared := do
  validateRequest request
  let companions ← match presentUser request with
    | some userId => c.checkUnlock 0 userId
    | none => .ok []
  let session ← c.conductStorySession request
  let reinstantiateContext ← reinstantiate c request
  let storyPrompt ←
    c.getStoryPrompt (promptVariables session companions reinstantiateContext false)
  let storyStreamPrompt ←
    c.getStoryPrompt (promptVariables session companions reinstantiateContext true)
  return ⟨companions, session.refinedRequest, storyPrompt, storyStreamPrompt⟩

/-- Hand an event to the event bus, if there is one. -/
def publish (event : DomainEvent) : Traced Effect Unit :=
  match c.publish with
  | none => pure ()
  | some bus => do
    Traced.emit (.published event)
    Traced.lift (bus event)

/-- The id of the story to be. -/
def newStoryId : Text := c.freshId 0

/-- The event of one chunk; `n` counts the identifiers used before it. -/
def chunkEvent (n : ℕ) (chunk : Text) : DomainEvent where
  id := c.freshId n
  requestId := orText request.requestId (lit "unknown")
  traceId := request.traceId
  payload := .storyChunkGenerated (orText request.userId (lit "unknown"))
    (orText request.requestId (lit "unknown")) (newStoryId c) chunk false
  timestamp := c.now

/-- The loop over the chunks of the stream: accumulate the text, read off the title, and publish
each chunk. -/
def streamLoop : ℕ → Text → Text → List Text → Traced Effect (Text × Text)
  | _, title, accumulated, [] => pure (title, accumulated)
  | n, title, accumulated, chunk :: chunks => do
    let accumulated := accumulated ++ chunk
    let title := nextTitle title accumulated
    publish c (chunkEvent c request n chunk)
    streamLoop (n + 1) title accumulated chunks

/-- The input of both generation calls, but for the prompt. -/
def generationInput (prepared : Prepared) (prompt : Text) : GenerateStoryInput :=
  ⟨prepared.refinedRequest, lit "bedtime", prompt⟩

/-- The streaming attempt: title and text when the stream completes. -/
def streamStory (prepared : Prepared) : Traced Effect (Text × Text) := do
  let run := c.generateStoryStream (generationInput prepared prepared.storyStreamPrompt)
  let streamed ← streamLoop c request 1 untitled [] run.chunks
  Traced.lift run.ending
  return streamed

/-- The non-streaming fallback. -/
def fallbackStory (prepared : Prepared) : Traced Effect (Text × Text) := do
  let generated ← Traced.lift (c.generateStory (generationInput prepared prepared.storyPrompt))
  return (generated.title, generated.content)

/-- Title and text of the generated story. -/
def generate (prepared : Prepared) : Traced Effect (Text × Text) :=
  Traced.catchWith (streamStory c request prepared) fun _ => fallbackStory c prepared

/-- The safety check: the text the use case carries on with. -/
def checkSafety (prepared : Prepared) (generatedContentText : Text) : Traced Effect Text := do
  let fallback ← Traced.lift c.getSafetyFallback
  let safety ← Traced.lift (c.safetyGuardian.checkContent generatedContentText
    prepared.refinedRequest.childAge (some fallback) none)
  Traced.emit (.checked generatedContentText safety)
  return finalContent safety generatedContentText

/-- The voice model to narrate with, if a ready profile was named. -/
def voiceModel : Except JsError (Option Text) :=
  match request.voiceProfileId.filter (fun s => !s.isEmpty), c.readyVoiceModel with
  | some profileId, some findById => findById profileId
  | _, _ => .ok none

/-- The audio of the story, if speech synthesis is available and succeeds. -/
def narrate (content : StoryContent) : Traced Effect (Option Text) :=
  match c.synthesize with
  | none => pure none
  | some synthesize =>
    Traced.catchWith (do
      let voice ← Traced.lift (voiceModel c request)
      Traced.emit (.synthesized (narration content.paragraphs) voice)
      Traced.lift (synthesize (narration content.paragraphs) voice))
      fun _ => pure none

/-- The properties of the new story. -/
def storyProps (title : Text) (content : StoryContent) (audioUrl : Option Text) : StoryProps where
  id := newStoryId c
  title := title
  content := content
  theme := request.theme
  status := .completed
  ownerId := orText request.userId (lit "system")
  createdAt := c.now
  generatedAt := some c.now
  audioUrl := audioUrl

/-- Save the story if there is a repository and a user. -/
def persist (story : StoryProps) : Traced Effect Unit :=
  match c.saveStory, presentUser request with
  | some save, some _ => do
    Traced.emit (.saved story)
    Traced.lift (save story)
  | _, _ => pure ()

/-- The companions the user has now and had not before. -/
def newlyUnlocked (companions : List Companion) : Except JsError (Option (List Companion)) :=
  match presentUser request with
  | none => .ok none
  | some userId => do
    let postCompanions ← c.checkUnlock 1 userId
    let diff := postCompanions.filter fun k => !companions.any fun k' => k'.id == k.id
    return if diff.isEmpty then none else some diff

/-- The event of one beat. -/
def beatEvent (storyId : Text) (totalBeats i : ℕ) : DomainEvent where
  id := storyId ++ lit "_beat_" ++ c.showNat i
  requestId := orText request.requestId (lit "unknown")
  traceId := request.traceId
  payload := .storyBeatCompleted (orText request.userId (lit "unknown")) storyId i totalBeats
  timestamp := c.now

/-- The event of the completed story; `n` counts the identifiers used before it. -/
def completedEvent (n : ℕ) (userId storyId : Text) : DomainEvent where
  id := c.freshId n
  requestId := orText request.requestId storyId
  traceId := request.traceId
  payload := .storyGenerationCompleted userId (orText request.requestId storyId) storyId
  timestamp := c.now

/-- Publish the given beats of a story one after the other. -/
def publishBeats (storyId : Text) (totalBeats : ℕ) : List ℕ → Traced Effect Unit
  | [] => pure ()
  | i :: rest => do
    publish c (beatEvent c request storyId totalBeats i)
    publishBeats storyId totalBeats rest

/-- The completion events: one per paragraph, and one for the story. -/
def publishCompletion (n : ℕ) (story : StoryProps) : Traced Effect Unit := do
  let totalBeats := story.content.paragraphs.length
  publishBeats c request story.id totalBeats (List.range totalBeats)
  match presentUser request with
  | some userId => publish c (completedEvent c request n userId story.id)
  | none => pure ()

/-- Everything after the safety check, from the text the use case carries on with. -/
def release (prepared : Prepared) (title finalContent : Text) :
    Traced Effect GenerateStoryResponse := do
  let content ← Traced.lift (StoryContent.fromRawText (cleanContent finalContent))
  let audioUrl ← narrate c request content
  let story ← Traced.lift (Story.create c.isUrl (storyProps c request title content audioUrl))
  persist c request story.props
  let newlyUnlockedCompanions ← Traced.lift (newlyUnlocked c request prepared.companions)
  let run := c.generateStoryStream (generationInput prepared prepared.storyStreamPrompt)
  publishCompletion c request (run.chunks.length + 1) story.props
  return ⟨story.props, story.getEstimatedReadingTime, audioUrl, newlyUnlockedCompanions⟩

/-- `execute` -/
def execute : Traced Effect GenerateStoryResponse := do
  let prepared ← Traced.lift (prepare c request)
  let (title, generatedContentText) ← generate c request prepared
  let finalContent ← checkSafety c prepared generatedContentText
  release c request prepared title finalContent

end GenerateStoryUseCase

end DreamWeaver.Stories
