import DreamWeaver.Gateway.GeminiAIGateway

/-! # Runs of the gateway

The world of the gateway is its cache, the clock and the record of what the AI provider was asked
and what it answered. The cache answers as the adapter does, the clock never goes back, and the
provider may answer anything. `Calls` are the sequences of calls of the four methods. -/

namespace DreamWeaver.Gateway

open Cache Proc

/-- A question to the provider, with its answer. -/
inductive Asked where
  | content (request : ModelRequest) (reply : Except JsError ModelResponse)
  | stream (request : ModelRequest) (reply : Except JsError ModelStream)
  | streamResponse (request : ModelRequest) (reply : Except JsError (Option UsageMetadata))

/-- The usage that an answer reports. -/
def Asked.usage : Asked → Option UsageMetadata
  | .content _ (.ok response) => response.usageMetadata
  | .streamResponse _ (.ok usage) => usage
  | _ => none

/-- What the provider was asked. -/
def Asked.request : Asked → ModelRequest
  | .content request _ | .stream request _ | .streamResponse request _ => request

/-- The state of the world; what was asked last comes first. -/
structure World (σ : Type) where
  cache : σ
  now : ℕ
  asked : List Asked

variable {σ : Type} {port : CachePort σ}

/-- The world before the first call. -/
def World.initial (port : CachePort σ) (now : ℕ) : World σ := ⟨port.initial, now, []⟩

/-- The replies that the world allows. -/
def gatewayEnv (port : CachePort σ) : Env (World σ) GatewayEffect GatewayEffect.Reply :=
  fun w effect => match effect with
    | .cache op => fun reply w' => ∃ now, w.now ≤ now ∧ reply = (port.perform w.cache now op).1 ∧
        w' = ⟨(port.perform w.cache now op).2, now, w.asked⟩
    | .now => fun reply w' => ∃ now, w.now ≤ now ∧ reply = .ok now ∧ w' = ⟨w.cache, now, w.asked⟩
    | .generateContent request => fun reply w' => ∃ now, w.now ≤ now ∧
        w' = ⟨w.cache, now, .content request reply :: w.asked⟩
    | .generateContentStream request => fun reply w' => ∃ now, w.now ≤ now ∧
        w' = ⟨w.cache, now, .stream request reply :: w.asked⟩
    | .streamResponse request => fun reply w' => ∃ now, w.now ≤ now ∧
        w' = ⟨w.cache, now, .streamResponse request reply :: w.asked⟩

/-- A call of one of the four methods. -/
inductive GatewayCall where
  | generateStory (input : GeminiAIGateway.StoryInput)
  | generateStoryStream (input : GeminiAIGateway.StoryInput)
  | generateAgentThought (input : GeminiAIGateway.ThoughtInput)
  | generateStructured (input : GeminiAIGateway.StructuredInput)

/-- What a call resolves with. -/
abbrev GatewayCall.Result : GatewayCall → Type
  | .generateStory _ => Json
  | .generateStoryStream _ => List Text
  | .generateAgentThought _ => GeminiAIGateway.ThoughtOutput
  | .generateStructured _ => Json

/-- The procedure of a call. -/
def GatewayCall.run (g : GeminiAIGateway) : (call : GatewayCall) → GatewayProc call.Result
  | .generateStory input => g.generateStory input
  | .generateStoryStream input => g.generateStoryStream input
  | .generateAgentThought input => g.generateAgentThought input
  | .generateStructured input => g.generateStructured input

/-- One call, whatever comes of it. -/
def Call (g : GeminiAIGateway) (port : CachePort σ) (w w' : World σ) : Prop :=
  ∃ (call : GatewayCall) (r : Except JsError call.Result), Run (gatewayEnv port) w (call.run g) r w'

/-- A sequence of calls. -/
def Calls (g : GeminiAIGateway) (port : CachePort σ) : World σ → World σ → Prop :=
  Relation.ReflTransGen (Call g port)

/-! ## The clock and the record -/

/-- A reply takes no time back and forgets no question. -/
theorem gatewayEnv_mono {w w' : World σ} {effect : GatewayEffect}
    {reply : Except JsError effect.Reply} (h : gatewayEnv port w effect reply w') :
    w.now ≤ w'.now ∧ w.asked <:+ w'.asked := by
  cases effect with
  | cache op =>
    obtain ⟨now, hnow, -, rfl⟩ := h
    exact ⟨hnow, List.suffix_rfl⟩
  | now =>
    obtain ⟨now, hnow, -, rfl⟩ := h
    exact ⟨hnow, List.suffix_rfl⟩
  | generateContent request =>
    obtain ⟨now, hnow, rfl⟩ := h
    exact ⟨hnow, List.suffix_cons _ _⟩
  | generateContentStream request =>
    obtain ⟨now, hnow, rfl⟩ := h
    exact ⟨hnow, List.suffix_cons _ _⟩
  | streamResponse request =>
    obtain ⟨now, hnow, rfl⟩ := h
    exact ⟨hnow, List.suffix_cons _ _⟩

/-- No run goes back in time. -/
theorem run_now_le {α : Type} {p : GatewayProc α} {r : Except JsError α} {w w' : World σ}
    (h : Run (gatewayEnv port) w p r w') : w.now ≤ w'.now :=
  h.invariant (I := fun s => w.now ≤ s.now)
    (fun _ _ _ _ hle hstep => hle.trans (gatewayEnv_mono hstep).1) le_rfl

/-- No run forgets a question. -/
theorem run_asked_suffix {α : Type} {p : GatewayProc α} {r : Except JsError α} {w w' : World σ}
    (h : Run (gatewayEnv port) w p r w') : w.asked <:+ w'.asked :=
  h.invariant (I := fun s => w.asked <:+ s.asked)
    (fun _ _ _ _ hsuffix hstep => hsuffix.trans (gatewayEnv_mono hstep).2) List.suffix_rfl

/-! ## Runs of the effects -/

section Effects

variable {w w' : World σ}

theorem run_cacheGet_iff {key : Text} {r : Except JsError (Option Text)} :
    Run (gatewayEnv port) w (cacheGet key) r w' ↔
      ∃ now, w.now ≤ now ∧ r = (port.perform w.cache now (.get key)).1 ∧
        w' = ⟨(port.perform w.cache now (.get key)).2, now, w.asked⟩ :=
  run_perform_iff

theorem run_cacheSet_iff {key value : Text} {ttl : ℚ} {r : Except JsError Unit} :
    Run (gatewayEnv port) w (cacheSet key value ttl) r w' ↔
      ∃ now, w.now ≤ now ∧ r = (port.perform w.cache now (.set key value (some ttl))).1 ∧
        w' = ⟨(port.perform w.cache now (.set key value (some ttl))).2, now, w.asked⟩ :=
  run_perform_iff

theorem run_cacheIncrement_iff {key : Text} {ttl : Option ℚ} {r : Except JsError ℚ} :
    Run (gatewayEnv port) w (cacheIncrement key ttl) r w' ↔
      ∃ now, w.now ≤ now ∧ r = (port.perform w.cache now (.increment key ttl)).1 ∧
        w' = ⟨(port.perform w.cache now (.increment key ttl)).2, now, w.asked⟩ :=
  run_perform_iff

theorem run_cacheDelete_iff {key : Text} {r : Except JsError Unit} :
    Run (gatewayEnv port) w (cacheDelete key) r w' ↔
      ∃ now, w.now ≤ now ∧ r = (port.perform w.cache now (.delete key)).1 ∧
        w' = ⟨(port.perform w.cache now (.delete key)).2, now, w.asked⟩ :=
  run_perform_iff

theorem run_askModel_iff {request : ModelRequest} {r : Except JsError ModelResponse} :
    Run (gatewayEnv port) w (askModel request) r w' ↔
      ∃ now, w.now ≤ now ∧ w' = ⟨w.cache, now, .content request r :: w.asked⟩ :=
  run_perform_iff

theorem run_askStream_iff {request : ModelRequest} {r : Except JsError ModelStream} :
    Run (gatewayEnv port) w (askStream request) r w' ↔
      ∃ now, w.now ≤ now ∧ w' = ⟨w.cache, now, .stream request r :: w.asked⟩ :=
  run_perform_iff

theorem run_awaitStreamResponse_iff {request : ModelRequest}
    {r : Except JsError (Option UsageMetadata)} :
    Run (gatewayEnv port) w (awaitStreamResponse request) r w' ↔
      ∃ now, w.now ≤ now ∧ w' = ⟨w.cache, now, .streamResponse request r :: w.asked⟩ :=
  run_perform_iff

end Effects

/-! ## Plain effects -/

/-- The keys of the breaker and of the totals. -/
def accountKeys : Set Text := {openKey, failuresKey, tokensKey, costKey}

/-- The effects that have nothing to do with cached stories. -/
def Plain : GatewayEffect → Prop
  | .cache op => op.key ∈ accountKeys
  | _ => True

section Plain

variable {g : GeminiAIGateway} {I : World σ → Prop}

/-- The loop over the chunks of a stream only reads the clock. -/
theorem keeps_streamChunks (hclock : Keeps (gatewayEnv port) I readClock) (startTime : ℕ)
    (chunks : List Text) : Keeps (gatewayEnv port) I (g.streamChunks startTime chunks) := by
  induction chunks with
  | nil => exact keeps_done _
  | cons chunk chunks ih =>
    refine hclock.bind fun now => ?_
    split
    · exact keeps_done _
    · exact ih

-- an invariant that no plain effect disturbs
variable (hI : ∀ effect, Plain effect → ∀ (w : World σ) reply w', I w →
  gatewayEnv port w effect reply w' → I w')

include hI

theorem keeps_plain {effect : GatewayEffect} (h : Plain effect) :
    Keeps (gatewayEnv port) I (Proc.perform effect : GatewayProc effect.Reply) :=
  keeps_perform (hI effect h)

theorem keeps_askModel (request : ModelRequest) : Keeps (gatewayEnv port) I (askModel request) :=
  keeps_plain hI trivial

theorem keeps_openCircuit : Keeps (gatewayEnv port) I g.openCircuit :=
  keeps_plain hI (Or.inl rfl)

theorem keeps_checkCircuitBreaker : Keeps (gatewayEnv port) I g.checkCircuitBreaker := by
  refine Keeps.bind (keeps_plain hI (Or.inl rfl)) fun isOpen => ?_
  split
  · exact keeps_done _
  refine Keeps.bind (keeps_plain hI (Or.inr (Or.inr (Or.inr rfl)))) fun cost => ?_
  dsimp only
  split
  · exact (keeps_openCircuit hI).bind fun _ => keeps_done _
  refine Keeps.bind (keeps_plain hI (Or.inr (Or.inr (Or.inl rfl)))) fun tokens => ?_
  split
  · exact (keeps_openCircuit hI).bind fun _ => keeps_done _
  · exact keeps_done _

theorem keeps_recordFailure : Keeps (gatewayEnv port) I g.recordFailure := by
  refine Keeps.bind (keeps_plain hI (Or.inr (Or.inl rfl))) fun failures => ?_
  split
  · exact keeps_openCircuit hI
  · exact keeps_done _

theorem keeps_recordUsage (usage : Option UsageMetadata) :
    Keeps (gatewayEnv port) I (g.recordUsage usage) := by
  cases usage with
  | none => exact keeps_done _
  | some usage =>
    have htokens : tokensKey ∈ accountKeys := Or.inr (Or.inr (Or.inl rfl))
    have hcost : costKey ∈ accountKeys := Or.inr (Or.inr (Or.inr rfl))
    refine Keeps.bind (keeps_plain hI (Or.inr (Or.inl rfl))) fun _ => ?_
    refine Keeps.bind (keeps_plain hI htokens) fun _ => ?_
    refine Keeps.bind (keeps_plain hI htokens) fun _ => ?_
    refine Keeps.bind (keeps_plain hI htokens) fun _ => ?_
    exact Keeps.bind (keeps_plain hI hcost) fun _ => keeps_plain hI hcost

/-- A `try` around a question to the provider. -/
theorem keeps_guarded {α : Type} {body : GatewayProc α} (hbody : Keeps (gatewayEnv port) I body) :
    Keeps (gatewayEnv port) I (body.catchWith fun error => do g.recordFailure; Proc.throw error) :=
  hbody.catchWith fun _ => (keeps_recordFailure hI).bind fun _ => keeps_done _

theorem keeps_attempt {α : Type} {request : ModelRequest} {finish : ModelResponse → GatewayProc α}
    (hfinish : ∀ response, Keeps (gatewayEnv port) I (finish response)) :
    Keeps (gatewayEnv port) I (g.attempt request finish) := by
  refine keeps_guarded hI ((keeps_askModel hI request).bind fun response => ?_)
  exact (keeps_recordUsage hI _).bind fun _ => hfinish response

theorem keeps_generateStoryStream (input : GeminiAIGateway.StoryInput) :
    Keeps (gatewayEnv port) I (g.generateStoryStream input) := by
  unfold GeminiAIGateway.generateStoryStream
  split
  · refine (keeps_checkCircuitBreaker hI).bind fun _ => ?_
    split
    · exact keeps_done _
    refine Keeps.bind (keeps_plain hI trivial) fun startTime => keeps_guarded hI ?_
    refine Keeps.bind (keeps_plain hI trivial) fun result => ?_
    refine (keeps_streamChunks (keeps_plain hI trivial) _ _).bind fun _ => ?_
    refine (keeps_done _).bind fun _ => ?_
    refine Keeps.bind (keeps_plain hI trivial) fun usage => ?_
    exact (keeps_recordUsage hI usage).bind fun _ => keeps_done _
  · exact keeps_done _

theorem keeps_generateAgentThought (input : GeminiAIGateway.ThoughtInput) :
    Keeps (gatewayEnv port) I (g.generateAgentThought input) := by
  unfold GeminiAIGateway.generateAgentThought
  split
  · refine (keeps_checkCircuitBreaker hI).bind fun _ => keeps_attempt hI fun response => ?_
    exact (keeps_done _).bind fun _ => keeps_done _
  · exact keeps_done _

theorem keeps_generateStructured (input : GeminiAIGateway.StructuredInput) :
    Keeps (gatewayEnv port) I (g.generateStructured input) := by
  unfold GeminiAIGateway.generateStructured
  split
  · exact (keeps_checkCircuitBreaker hI).bind fun _ => keeps_attempt hI fun _ => keeps_done _
  · exact keeps_done _

end Plain

/-! ## A world that answers by itself -/

/-- A gateway with a key and the default configuration. -/
def defaultGateway : GeminiAIGateway :=
  GeminiAIGateway.create (fun _ => []) (fun _ => ⟨lit "ZodError", []⟩) (fun _ => none)
    (some (lit "key")) ⟨none, none, none, none, none, none, none, none, none, none, none⟩

/-- Time stands still, the provider answers each request in one way, and streams break off. -/
def steadyWorld (port : CachePort σ) (answer : ModelRequest → Except JsError ModelResponse) :
    World σ → (effect : GatewayEffect) → Except JsError effect.Reply × World σ
  | w, .cache op => ((port.perform w.cache w.now op).1,
      ⟨(port.perform w.cache w.now op).2, w.now, w.asked⟩)
  | w, .now => (.ok w.now, w)
  | w, .generateContent request =>
    (answer request, { w with asked := .content request (answer request) :: w.asked })
  | w, .generateContentStream request =>
    (.error GeminiAIGateway.timeoutError, { w with asked := .stream request (.error GeminiAIGateway.timeoutError) :: w.asked })
  | w, .streamResponse request =>
    (.ok none, { w with asked := .streamResponse request (.ok none) :: w.asked })

/-- The world allows these answers. -/
theorem gatewayEnv_steadyWorld (answer : ModelRequest → Except JsError ModelResponse)
    (w : World σ) (effect : GatewayEffect) :
    gatewayEnv port w effect (steadyWorld port answer w effect).1
      (steadyWorld port answer w effect).2 := by
  cases effect <;> exact ⟨w.now, le_rfl, by simp [steadyWorld]⟩

end DreamWeaver.Gateway
