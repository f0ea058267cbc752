import DreamWeaver.Cache.CachePort
import DreamWeaver.Foundations.JsonText
import DreamWeaver.Foundations.Process

/-! # The AI gateway

`GeminiAIGateway` (`api/src/infrastructure/adapters/GeminiAIGateway.ts`): story generation with a
response cache, streaming, agent thoughts and structured output, behind a circuit breaker whose
state lives in a `CachePort`. Every method is an asynchronous procedure; its effects are the
operations on the cache, the reading of the clock and the calls of the AI provider. The log lines of
the source and the live session are left out. -/

namespace DreamWeaver.Gateway

open Cache

/-! ## Usage and cost -/

/-- The token counts the provider reports; a field that is not a number reads as absent. -/
structure UsageMetadata where
  promptTokenCount : Option ℕ
  candidatesTokenCount : Option ℕ
  totalTokenCount : Option ℕ
  deriving DecidableEq, Repr

/-- The result of `estimateFinOpsCost`. -/
structure FinOpsEstimate where
  tokensInput : ℕ
  tokensOutput : ℕ
  tokensTotal : ℚ
  costEstimateUsd : ℚ
  deriving DecidableEq, Repr

/-- The double `0.000000075`: dollars for an input token. -/
def inputTokenPrice : ℚ := double (75 / 10 ^ 9)

/-- The double `0.0000003`: dollars for an output token. -/
def outputTokenPrice : ℚ := double (3 / 10 ^ 7)

/-- `(tokensInput * 0.000000075) + (tokensOutput * 0.0000003)` -/
def estimateCost (tokensInput tokensOutput : ℕ) : ℚ :=
  double (double (tokensInput * inputTokenPrice) + double (tokensOutput * outputTokenPrice))

/-- `estimateFinOpsCost` on a reported usage. -/
def estimateFinOpsCost (usage : UsageMetadata) : FinOpsEstimate :=
  let tokensInput := usage.promptTokenCount.getD 0
  let tokensOutput := usage.candidatesTokenCount.getD 0
  { tokensInput := tokensInput
    tokensOutput := tokensOutput
    tokensTotal := match usage.totalTokenCount with
      | some total => total
      | none => double (tokensInput + tokensOutput)
    costEstimateUsd := estimateCost tokensInput tokensOutput }

/-! ## Configuration -/

/-- `AIConfig`; an absent field is `none`. -/
structure AIConfig where
  modelName : Option Text
  modelFlash : Option Text
  modelPro : Option Text
  enableThinkingLevel : Option Bool
  thinkingLevelFlash : Option Text
  thinkingLevelPro : Option Text
  timeoutMs : Option ℚ
  tokenBudgetPerSession : Option ℚ
  costThresholdUsd : Option ℚ
  failureThreshold : Option ℚ
  circuitResetMs : Option ℚ
  deriving DecidableEq, Repr

/-- The fields of a `GeminiAIGateway`. `hasClient` says whether an API key was found, `showOther` is
the language's format of the numbers that are not integers up to `2 ^ 53` in magnitude, and `zodError` is the
error of the schema library for a value that a schema refuses. -/
structure GeminiAIGateway where
  hasClient : Bool
  modelFlash : Text
  modelPro : Text
  enableThinkingLevel : Bool
  thinkingLevelFlash : Option Text
  thinkingLevelPro : Option Text
  timeoutMs : ℚ
  tokenBudgetPerSession : ℚ
  costThresholdUsd : ℚ
  failureThreshold : ℚ
  circuitResetMs : ℚ
  showOther : ℚ → Text
  zodError : Json → JsError

/-- `value || default` on an optional number: zero is falsy too. -/
def orNumber (value : Option ℚ) (default : ℚ) : ℚ := (value.filter (· ≠ 0)).getD default

/-- A text that is present: `if (value)`. -/
def truthyText (value : Option Text) : Option Text := value.filter fun s => !s.isEmpty

/-- The constructor; `env` is `process.env`. -/
def GeminiAIGateway.create (showOther : ℚ → Text) (zodError : Json → JsError)
    (env : Text → Option Text) (apiKey : Option Text) (config : AIConfig) : GeminiAIGateway :=
  let modelName := orText (truthyText config.modelName)
    (orText (env (lit "GEMINI_MODEL")) (lit "gemini-3-flash-preview"))
  { hasClient := ((truthyText apiKey).or (truthyText (env (lit "GEMINI_API_KEY")))).isSome
    modelFlash := orText config.modelFlash (orText (env (lit "GEMINI_MODEL_FLASH")) modelName)
    modelPro := orText config.modelPro (orText (env (lit "GEMINI_MODEL_PRO")) modelName)
    enableThinkingLevel := config.enableThinkingLevel.getD
      (env (lit "GEMINI_ENABLE_THINKING_LEVEL") == some (lit "true"))
    thinkingLevelFlash := (truthyText config.thinkingLevelFlash).or
      (truthyText (env (lit "GEMINI_THINKING_LEVEL_FLASH")))
    thinkingLevelPro := (truthyText config.thinkingLevelPro).or
      (truthyText (env (lit "GEMINI_THINKING_LEVEL_PRO")))
    timeoutMs := orNumber config.timeoutMs 15000
    tokenBudgetPerSession := orNumber config.tokenBudgetPerSession 50000
    costThresholdUsd := orNumber config.costThresholdUsd (1 / 2)
    failureThreshold := orNumber config.failureThreshold 5
    circuitResetMs := orNumber config.circuitResetMs 60000
    showOther := showOther
    zodError := zodError }

/-! ## Effects -/

/-- What a model is asked: its settings, the conversation so far and the message. -/
structure ModelRequest where
  model : Text
  systemInstruction : Option Text
  responseSchema : Option Json
  thinkingLevel : Option Text
  history : List (Text × Text)
  message : Text

/-- A response of the provider. -/
structure ModelResponse where
  text : Text
  usageMetadata : Option UsageMetadata
  deriving DecidableEq, Repr

/-- A streamed response: the chunks, and whether the stream ends or breaks off. -/
structure ModelStream where
  chunks : List Text
  ending : Except JsError Unit

/-- The effects of the gateway. -/
inductive GatewayEffect where
  /-- An operation on the cache. -/
  | cache (op : CacheOp)
  /-- `Date.now()` -/
  | now
  /-- `generateContent` or `sendMessage`, raced against the timeout. -/
  | generateContent (request : ModelRequest)
  /-- `generateContentStream` -/
  | generateContentStream (request : ModelRequest)
  /-- The response of a stream that has ended, for its usage. -/
  | streamResponse (request : ModelRequest)

/-- What an effect resolves with. -/
abbrev GatewayEffect.Reply : GatewayEffect → Type
  | .cache op => op.Reply
  | .now => ℕ
  | .generateContent _ => ModelResponse
  | .generateContentStream _ => ModelStream
  | .streamResponse _ => Option UsageMetadata

/-- An asynchronous procedure of the gateway. -/
abbrev GatewayProc (α : Type) := Proc GatewayEffect GatewayEffect.Reply α

/-- `this.cache.get(key)` -/
def cacheGet (key : Text) : GatewayProc (Option Text) := Proc.perform (GatewayEffect.cache (.get key))

/-- `this.cache.set(key, value, ttlSeconds)` -/
def cacheSet (key value : Text) (ttlSeconds : ℚ) : GatewayProc Unit :=
  Proc.perform (GatewayEffect.cache (.set key value (some ttlSeconds)))

/-- `this.cache.increment(key, ttlSeconds)` -/
def cacheIncrement (key : Text) (ttlSeconds : Option ℚ) : GatewayProc ℚ :=
  Proc.perform (GatewayEffect.cache (.increment key ttlSeconds))

/-- `this.cache.delete(key)` -/
def cacheDelete (key : Text) : GatewayProc Unit := Proc.perform (GatewayEffect.cache (.delete key))

/-- `Date.now()` -/
def readClock : GatewayProc ℕ := Proc.perform GatewayEffect.now

/-- `model.generateContent(…)` or `chat.sendMessage(…)`, raced against the timeout. -/
def askModel (request : ModelRequest) : GatewayProc ModelResponse :=
  Proc.perform (GatewayEffect.generateContent request)

/-- `model.generateContentStream(…)` -/
def askStream (request : ModelRequest) : GatewayProc ModelStream :=
  Proc.perform (GatewayEffect.generateContentStream request)

/-- `result.response` -/
def awaitStreamResponse (request : ModelRequest) : GatewayProc (Option UsageMetadata) :=
  Proc.perform (GatewayEffect.streamResponse request)

/-! ## The circuit breaker -/

/-- `new Error(message)` -/
def plainError (message : Text) : JsError := ⟨lit "Error", message⟩

/-- `CB_KEY_prefix` -/
def breakerPrefix : Text := lit "cb:gemini:"

/-- The key of the open flag. -/
def openKey : Text := breakerPrefix ++ lit "open"

/-- The key of the failure counter. -/
def failuresKey : Text := breakerPrefix ++ lit "failures"

/-- The key of the token total. -/
def tokensKey : Text := breakerPrefix ++ lit "tokens"

/-- The key of the cost total. -/
def costKey : Text := breakerPrefix ++ lit "cost"

/-- 24 hours, in seconds. -/
def retentionSec : ℚ := 60 * 60 * 24

/-- The error of an open circuit. -/
def circuitOpenError : JsError := plainError (lit <|
  "[CircuitBreaker] Circuit is OPEN - AI calls temporarily blocked due to failures or cost " ++
    "threshold")

namespace GeminiAIGateway

variable (g : GeminiAIGateway)

/-- `x.toString()` -/
def showNumber (x : JsNumber) : Text := numberToString g.showOther x

/-- The error of a reached cost threshold. -/
def costError (totalCostUsd : JsNumber) : JsError :=
  plainError (lit "[CircuitBreaker] Cost threshold exceeded: $" ++
    toFixed g.showOther 4 totalCostUsd ++ lit " >= $" ++ g.showNumber (.finite g.costThresholdUsd))

/-- The error of a reached token budget. -/
def tokenError (tokensUsed : JsNumber) : JsError :=
  plainError (lit "[CircuitBreaker] Token budget exceeded: " ++ g.showNumber tokensUsed ++
    lit " >= " ++ g.showNumber (.finite g.tokenBudgetPerSession))

/-- `this.circuitResetMs / 1000` -/
def resetSeconds : ℚ := double (g.circuitResetMs / 1000)

/-- `openCircuit` -/
def openCircuit : GatewayProc Unit := cacheSet openKey (lit "true") g.resetSeconds

/-- A total kept in the cache: `text ? parse(text) : 0`. -/
def readTotal (parse : Text → JsNumber) (stored : Option Text) : JsNumber :=
  match truthyText stored with
  | some text => parse text
  | none => .finite 0

/-- `checkCircuitBreaker` -/
def checkCircuitBreaker : GatewayProc Unit := do
  let isOpen ← cacheGet openKey
  if (truthyText isOpen).isSome then Proc.throw circuitOpenError
  else
    let totalCostUsd := readTotal parseFloat (← cacheGet costKey)
    if totalCostUsd.atLeast g.costThresholdUsd then
      g.openCircuit
      Proc.throw (g.costError totalCostUsd)
    else
      let tokensUsed := readTotal parseInt (← cacheGet tokensKey)
      if tokensUsed.atLeast g.tokenBudgetPerSession then
        g.openCircuit
        Proc.throw (g.tokenError tokensUsed)
      else pure ()

/-- `recordSuccess`: reset the failures, count the call up and add its tokens and its cost. -/
def recordSuccess (tokensUsed costUsd : ℚ) : GatewayProc Unit := do
  cacheDelete failuresKey
  let _ ← cacheIncrement tokensKey none
  let newTokens := (readTotal parseInt (← cacheGet tokensKey)).add (.finite tokensUsed)
  cacheSet tokensKey (g.showNumber newTokens) retentionSec
  let newCost := (readTotal parseFloat (← cacheGet costKey)).add (.finite costUsd)
  cacheSet costKey (toFixed g.showOther 6 newCost) retentionSec

/-- `recordFailure` -/
def recordFailure : GatewayProc Unit := do
  let failures ← cacheIncrement failuresKey (some g.resetSeconds)
  if g.failureThreshold ≤ failures then g.openCircuit else pure ()

/-- `resetCircuitBreaker` -/
def resetCircuitBreaker : GatewayProc Unit := do
  cacheDelete openKey
  cacheDelete failuresKey
  cacheDelete tokensKey
  cacheDelete costKey

/-- The result of `getCircuitStatus`. -/
structure CircuitStatus where
  isOpen : Bool
  failures : JsNumber
  totalCostUsd : JsNumber
  totalTokensUsed : JsNumber
  deriving DecidableEq, Repr

/-- `getCircuitStatus` -/
def getCircuitStatus : GatewayProc CircuitStatus := do
  let isOpen ← cacheGet openKey
  let failures ← cacheGet failuresKey
  let cost ← cacheGet costKey
  let tokens ← cacheGet tokensKey
  pure ⟨isOpen == some (lit "true"), readTotal parseInt failures, readTotal parseFloat cost,
    readTotal parseInt tokens⟩

/-- `const finOps = this.logFinOps(…); if (finOps) await this.recordSuccess(…)` -/
def recordUsage : Option UsageMetadata → GatewayProc Unit
  | some usage =>
    g.recordSuccess (estimateFinOpsCost usage).tokensTotal (estimateFinOpsCost usage).costEstimateUsd
  | none => pure ()

/-- What the methods other than the stream have in common: ask the provider, record the usage,
finish with the response, and record a failure when any of this throws. -/
def attempt {α : Type} (request : ModelRequest) (finish : ModelResponse → GatewayProc α) : GatewayProc α :=
  Proc.catchWith (do
      let response ← askModel request
      g.recordUsage response.usageMetadata
      finish response)
    fun error => do
      g.recordFailure
      Proc.throw error

/-! ## Stories -/

/-- What the gateway reads of a `GenerateStoryInput`. -/
structure StoryInput where
  theme : Text
  childAge : Option ℚ
  style : Option Text
  customPrompt : Option Text
  deriving DecidableEq, Repr

/-- The metadata of a generated story. -/
structure StoryMetadata where
  theme : Text
  readingLevel : Text
  tone : Text
  deriving DecidableEq, Repr

/-- `GenerateStoryOutput` as the gateway makes it. -/
structure StoryOutput where
  title : Text
  content : Text
  metadata : StoryMetadata
  deriving DecidableEq, Repr

/-- The response of the provider after `storyResponseSchema`. -/
structure StoryData where
  title : Text
  content : Text
  theme : Option Text
  tone : Option Text
  deriving DecidableEq, Repr

/-- `hash << 5`, `hash & hash`: the signed 32-bit integer of a number. -/
def toInt32 (x : ℤ) : ℤ := Int.bmod x (2 ^ 32)

/-- One turn of the loop of `hashPrompt`. -/
def hashStep (hash : ℤ) (char : CodeUnit) : ℤ := toInt32 (toInt32 (hash * 2 ^ 5) - hash + char.toNat)

/-- The hash of a prompt. -/
def promptHash (prompt : Text) : ℤ := prompt.foldl hashStep 0

/-- `hashPrompt` -/
def hashPrompt (prompt : Text) : Text := lit "story_" ++ showInt (promptHash prompt)

/-- `z.string().optional()` on a field of an object. -/
def optionalString (fields : List (Text × Json)) (key : Text) : Option (Option Text) :=
  match Json.field? fields key with
  | none => some none
  | some (.str s) => some (some s)
  | some _ => none

/-- `z.string()` on a field of an object. -/
def requiredString (fields : List (Text × Json)) (key : Text) : Option Text :=
  match Json.field? fields key with
  | some (.str s) => some s
  | _ => none

/-- `z.number().optional()` on a field of an object accepts it. -/
def optionalNumber (fields : List (Text × Json)) (key : Text) : Bool :=
  match Json.field? fields key with
  | none | some (.num _) => true
  | some _ => false

/-- `storyResponseSchema`: the data of a value that the schema accepts. -/
def storyResponseData : Json → Option StoryData
  | .obj fields => do
    let title ← requiredString fields (lit "title")
    let content ← requiredString fields (lit "content")
    if optionalNumber fields (lit "sleepScore") then
      match Json.field? fields (lit "metadata") with
      | none => some ⟨title, content, none, none⟩
      | some (.obj metadata) => do
        let theme ← optionalString metadata (lit "theme")
        let tone ← optionalString metadata (lit "tone")
        some ⟨title, content, theme, tone⟩
      | some _ => none
    else none
  | _ => none

/-- `schema.parse(rawData)` -/
def parseSchema {α : Type} (schema : Json → Option α) (rawData : Json) : Except JsError α :=
  match schema rawData with
  | some data => .ok data
  | none => .error (g.zodError rawData)

/-- `input.childAge ? `Age ${input.childAge}` : 'General'` -/
def readingLevel (input : StoryInput) : Text :=
  match input.childAge.filter (· ≠ 0) with
  | some age => lit "Age " ++ g.showNumber (.finite age)
  | none => lit "General"

/-- The story result: the defaults of the input, overridden by the metadata of the response. -/
def storyResult (input : StoryInput) (data : StoryData) : StoryOutput where
  title := data.title
  content := data.content
  metadata := {
    theme := data.theme.getD input.theme
    readingLevel := g.readingLevel input
    tone := data.tone.getD (orText input.style (lit "bedtime")) }

/-- The members of the metadata of a story. -/
def StoryMetadata.members (m : StoryMetadata) : List (Text × Text × Json) :=
  [(lit "theme", quote m.theme, .str m.theme),
    (lit "readingLevel", quote m.readingLevel, .str m.readingLevel),
    (lit "tone", quote m.tone, .str m.tone)]

/-- The members of a story: keys, texts and values. -/
def StoryOutput.members (story : StoryOutput) : List (Text × Text × Json) :=
  [(lit "title", quote story.title, .str story.title),
    (lit "content", quote story.content, .str story.content),
    (lit "metadata", objectText (story.metadata.members.map fun m => (m.1, m.2.1)),
      .obj (story.metadata.members.map fun m => (m.1, m.2.2)))]

/-- A story as a value. -/
def StoryOutput.toJson (story : StoryOutput) : Json :=
  .obj (story.members.map fun m => (m.1, m.2.2))

/-- `JSON.stringify(story)` -/
def StoryOutput.toText (story : StoryOutput) : Text :=
  objectText (story.members.map fun m => (m.1, m.2.1))

/-- `CACHE_TTL_SEC` -/
def cacheTtlSec : ℚ := 60 * 30

/-- `cacheStoryResponse` -/
def cacheStoryResponse (cacheKey : Text) (response : StoryOutput) : GatewayProc Unit :=
  cacheSet cacheKey response.toText cacheTtlSec

/-- An object schema with the given properties. -/
def objectSchema (properties : List (Text × Json)) (required : List Text) : Json :=
  .obj [(lit "type", .str (lit "object")), (lit "properties", .obj properties),
    (lit "required", .arr (required.map .str))]

/-- A schema that is only a type. -/
def typeSchema (type : String) : Json := .obj [(lit "type", .str (lit type))]

/-- The response schema of a story. -/
def storyResponseSchema : Json :=
  objectSchema [(lit "title", typeSchema "string"), (lit "content", typeSchema "string"),
      (lit "sleepScore", typeSchema "number"),
      (lit "metadata", .obj [(lit "type", .str (lit "object")),
        (lit "properties", .obj [(lit "theme", typeSchema "string"),
          (lit "tone", typeSchema "string")])])]
    [lit "title", lit "content", lit "sleepScore"]

/-- A thinking level, if they are enabled. -/
def thinkingLevel (level : Option Text) : Option Text :=
  if g.enableThinkingLevel then truthyText level else none

/-- The request for a story. -/
def storyRequest (prompt : Text) : ModelRequest where
  model := g.modelFlash
  systemInstruction := none
  responseSchema := some storyResponseSchema
  thinkingLevel := g.thinkingLevel g.thinkingLevelFlash
  history := []
  message := prompt

/-- `String(error)` for an error object. -/
def errorText (e : JsError) : Text := e.name ++ lit ": " ++ e.message

/-- The inner `try` of `generateStory`: validate the response and cache the story. -/
def validateStory (input : StoryInput) (cacheKey : Text) (response : ModelResponse) : GatewayProc Json :=
  Proc.catchWith (do
      let rawData ← Proc.done (parseJson response.text)
      let data ← Proc.done (g.parseSchema storyResponseData rawData)
      cacheStoryResponse cacheKey (g.storyResult input data)
      pure (g.storyResult input data).toJson)
    fun e => Proc.throw (plainError (lit "Failed to validate Gemini response: " ++ errorText e))

/-- `generateStory` after a cache miss. -/
def generateFresh (input : StoryInput) (prompt : Text) : GatewayProc Json := do
  g.checkCircuitBreaker
  g.attempt (g.storyRequest prompt) (g.validateStory input (hashPrompt prompt))

/-- The error of a gateway without client. -/
def notConfigured : JsError := plainError (lit "Gemini API Key not configured")

/-- `generateStory` -/
def generateStory (input : StoryInput) : GatewayProc Json :=
  if g.hasClient then
    match truthyText input.customPrompt with
    | none => Proc.throw (plainError
        (lit "GeminiAIGateway requires customPrompt (Prompt-as-Code violation)"))
    | some prompt => do
      let cachedJson ← cacheGet (hashPrompt prompt)
      match truthyText cachedJson with
      | some text => Proc.done (parseJson text)
      | none => g.generateFresh input prompt
  else Proc.throw notConfigured

/-! ## Streams -/

/-- The error of a timeout. -/
def timeoutError : JsError := plainError (lit "AI Service Timeout")

/-- The loop over the chunks: each one is yielded unless the time is over. -/
def streamChunks (startTime : ℕ) : List Text → GatewayProc Unit
  | [] => pure ()
  | _ :: chunks => do
    let now ← readClock
    if g.timeoutMs < (now : ℚ) - startTime then Proc.throw timeoutError
    else streamChunks startTime chunks

/-- The request for a stream. -/
def streamRequest (prompt : Text) : ModelRequest where
  model := g.modelFlash
  systemInstruction := none
  responseSchema := none
  thinkingLevel := none
  history := []
  message := prompt

/-- `generateStoryStream`, run to its end: the chunks it yields. -/
def generateStoryStream (input : StoryInput) : GatewayProc (List Text) :=
  if g.hasClient then do
    g.checkCircuitBreaker
    match truthyText input.customPrompt with
    | none => Proc.throw (plainError (lit "GeminiAIGateway: Streaming requires customPrompt"))
    | some prompt => do
      let startTime ← readClock
      Proc.catchWith (do
          let result ← askStream (g.streamRequest prompt)
          g.streamChunks startTime result.chunks
          Proc.done result.ending
          let usage ← awaitStreamResponse (g.streamRequest prompt)
          g.recordUsage usage
          pure result.chunks)
        fun error => do
          g.recordFailure
          Proc.throw error
  else Proc.throw notConfigured

/-! ## Agent thoughts and structured output -/

/-- What the gateway reads of an `AgentThoughtInput`. -/
structure ThoughtInput where
  systemPrompt : Text
  userMessage : Option Text
  messageHistory : Option (List (Text × Text))
  deriving DecidableEq, Repr

/-- `AgentThoughtOutput`; `reasoning` repeats `thought`. -/
structure ThoughtOutput where
  goalsConsidered : List Text
  conflictsIdentified : Option Text
  tradeOffMade : Option Text
  thought : Text
  reasoning : Text
  action : Text
  confidence : JsNumber
  parameters : Option (List (Text × Json))

/-- `z.string().nullable()` on a field of an object. -/
def nullableString (fields : List (Text × Json)) (key : Text) : Option (Option Text) :=
  match Json.field? fields key with
  | some .null => some none
  | some (.str s) => some (some s)
  | _ => none

/-- `z.array(z.string())` -/
def stringArray : List Json → Option (List Text)
  | [] => some []
  | .str s :: rest => (stringArray rest).map (s :: ·)
  | _ => none

/-- `z.record(z.unknown())` on the entries of an object: one with the key `__proto__` is left out. -/
def recordEntries (entries : List (Text × Json)) : List (Text × Json) :=
  entries.filter fun e => e.1 != lit "__proto__"

/-- `agentThoughtZodSchema` and the output made of its data. -/
def thoughtData : Json → Option ThoughtOutput
  | .obj fields => do
    let goals ← match Json.field? fields (lit "goals_considered") with
      | some (.arr items) => stringArray items
      | _ => none
    let conflicts ← nullableString fields (lit "conflicts_identified")
    let tradeOff ← nullableString fields (lit "trade_off_made")
    let thought ← requiredString fields (lit "thought")
    let action ← requiredString fields (lit "action")
    let confidence ← match Json.field? fields (lit "confidence") with
      | some (.num x) => some x
      | _ => none
    let parameters ← match Json.field? fields (lit "parameters") with
      | none => some none
      | some (.obj entries) => some (some (recordEntries entries))
      | some _ => none
    some ⟨goals, conflicts, tradeOff, thought, thought, action, confidence, parameters⟩
  | _ => none

/-- The response schema of a thought. -/
def thoughtResponseSchema : Json :=
  objectSchema [(lit "goals_considered", .obj [(lit "type", .str (lit "array")),
        (lit "items", typeSchema "string")]),
      (lit "conflicts_identified", .obj [(lit "type", .str (lit "string")),
        (lit "nullable", .bool true)]),
      (lit "trade_off_made", .obj [(lit "type", .str (lit "string")), (lit "nullable", .bool true)]),
      (lit "thought", typeSchema "string"), (lit "action", typeSchema "string"),
      (lit "confidence", typeSchema "number"),
      (lit "parameters", .obj [(lit "type", .str (lit "object")), (lit "properties", .obj [])])]
    [lit "goals_considered", lit "thought", lit "action", lit "confidence"]

/-- The request for a thought: a chat message after a history, or a single message. -/
def thoughtRequest (input : ThoughtInput) : ModelRequest where
  model := g.modelPro
  systemInstruction := some input.systemPrompt
  responseSchema := some thoughtResponseSchema
  thinkingLevel := g.thinkingLevel g.thinkingLevelPro
  history := input.messageHistory.getD []
  message :=
    if (input.messageHistory.getD []).isEmpty then
      orText input.userMessage (lit "Evaluate current state.")
    else orText input.userMessage []

/-- `generateAgentThought` -/
def generateAgentThought (input : ThoughtInput) : GatewayProc ThoughtOutput :=
  if g.hasClient then do
    g.checkCircuitBreaker
    g.attempt (g.thoughtRequest input) fun response => do
      let rawData ← Proc.done (parseJson response.text)
      Proc.done (g.parseSchema thoughtData rawData)
  else Proc.throw notConfigured

/-- The argument of `generateStructured`. -/
structure StructuredInput where
  systemPrompt : Option Text
  userMessage : Text
  schema : Json

/-- The request for structured output. -/
def structuredRequest (input : StructuredInput) : ModelRequest where
  model := g.modelPro
  systemInstruction := input.systemPrompt
  responseSchema := some input.schema
  thinkingLevel := g.thinkingLevel g.thinkingLevelPro
  history := []
  message := input.userMessage

/-- `generateStructured` -/
def generateStructured (input : StructuredInput) : GatewayProc Json :=
  if g.hasClient then do
    g.checkCircuitBreaker
    g.attempt (g.structuredRequest input) fun response => Proc.done (parseJson response.text)
  else Proc.throw notConfigured

end GeminiAIGateway

end DreamWeaver.Gateway
