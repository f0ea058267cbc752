import DreamWeaver.Foundations.JsonWriter
import DreamWeaver.Foundations.ResponseSchema
import DreamWeaver.Foundations.Sequence
import DreamWeaver.Gateway.Recording
import DreamWeaver.Gateway.StoryCache

/-! # Response schemas and validation

`generateStory` and `generateAgentThought` say twice what they expect of the model: in the response schema
that they send with the request, and in the schema by which they validate the answer. A story that conforms to
the first is always taken by the second. A thought may leave out its nullable fields by the first, and is then
refused by the second; and of its parameters one named `__proto__` is lost. -/

namespace DreamWeaver.Gateway

open Cache Proc GeminiAIGateway
open ResponseSchema hiding typeSchema

/-! ## What a run shows -/

/-- The answer of the model in an event, with the request. -/
def answerIn : GatewayEvent → Option (ModelRequest × ModelResponse)
  | ⟨.generateContent request, .ok response⟩ => some (request, response)
  | _ => none

/-- The effect counts a failure of the circuit breaker. -/
def countsFailure : GatewayEffect → Bool
  | .cache (.increment key _) => key == failuresKey
  | _ => false

/-- No failure was counted. -/
def NoFailure (log : List GatewayEvent) : Prop := ∀ event ∈ log, countsFailure event.effect = false

/-- The model has answered with a value that conforms to the schema that was sent with the request. -/
def AnsweredWith (raw : Json) (log : List GatewayEvent) : Prop :=
  ∃ event ∈ log, ∃ request response schema, answerIn event = some (request, response) ∧
    request.responseSchema = some schema ∧ conforms schema raw = true ∧ parseJson response.text = .ok raw

/-- The story has the fields of the answer. -/
structure StoryFields (fields : List (Text × Json)) (story : StoryOutput) : Prop where
  title : Json.field? fields (lit "title") = some (.str story.title)
  content : Json.field? fields (lit "content") = some (.str story.content)
  theme (metadata : List (Text × Json)) (theme : Text) :
    Json.field? fields (lit "metadata") = some (.obj metadata) →
      Json.field? metadata (lit "theme") = some (.str theme) → story.metadata.theme = theme
  tone (metadata : List (Text × Json)) (tone : Text) :
    Json.field? fields (lit "metadata") = some (.obj metadata) →
      Json.field? metadata (lit "tone") = some (.str tone) → story.metadata.tone = tone

/-- A nullable text as a value. -/
def nullableJson : Option Text → Json
  | none => .null
  | some s => .str s

/-- The thought has the fields of the answer; a nullable one may be missing. -/
structure ThoughtFields (fields : List (Text × Json)) (output : ThoughtOutput) : Prop where
  goals : Json.field? fields (lit "goals_considered") = some (.arr (output.goalsConsidered.map .str))
  conflicts : (Json.field? fields (lit "conflicts_identified")).getD .null
    = nullableJson output.conflictsIdentified
  tradeOff : (Json.field? fields (lit "trade_off_made")).getD .null = nullableJson output.tradeOffMade
  thought : Json.field? fields (lit "thought") = some (.str output.thought)
  reasoning : Json.field? fields (lit "thought") = some (.str output.reasoning)
  action : Json.field? fields (lit "action") = some (.str output.action)
  confidence : Json.field? fields (lit "confidence") = some (.num output.confidence)
  parameters : Json.field? fields (lit "parameters") = output.parameters.map .obj

/-- The call resolves with the fields of the answer. -/
def GatewayCall.ReturnsFields : (call : GatewayCall) → Json → call.Result → Prop
  | .generateStory _, raw, result =>
    ∃ fields story, raw = .obj fields ∧ result = story.toJson ∧ StoryFields fields story
  | .generateAgentThought _, raw, output => ∃ fields, raw = .obj fields ∧ ThoughtFields fields output
  | .generateStoryStream _, _, _ => False
  | .generateStructured _, raw, result => result = raw

/-- The answer was taken: the call resolves with its fields, and no failure was counted. -/
def GatewayCall.Takes (call : GatewayCall) (raw : Json) (log : List GatewayEvent)
    (r : Except JsError call.Result) : Prop :=
  (∃ result, r = .ok result ∧ call.ReturnsFields raw result) ∧ NoFailure log

/-- The calls that validate what the model answers. -/
def GatewayCall.Validates : GatewayCall → Prop
  | .generateStory _ => True
  | .generateAgentThought _ => True
  | _ => False

/-- The answer has all that the validation asks for: the nullable fields of a thought are there, and none of
its parameters has the name of the prototype. -/
def GatewayCall.Complete : GatewayCall → Json → Prop
  | .generateAgentThought _, .obj fields =>
    (Json.field? fields (lit "conflicts_identified")).isSome = true ∧
      (Json.field? fields (lit "trade_off_made")).isSome = true ∧
      ∀ entries, Json.field? fields (lit "parameters") = some (.obj entries) →
        ∀ e ∈ entries, e.1 ≠ lit "__proto__"
  | _, _ => True

/-! ## Validation -/

section Validation

variable {properties fields : List (Text × Json)} {raw : Json} {key : Text}

theorem requiredString_of_field {s : Text} (h : Json.field? fields key = some (.str s)) :
    requiredString fields key = some s := by
  rw [requiredString, h]

/-- An entry that is said to be a number may be left out, or is one. -/
theorem optionalNumber_of_conforms (hproperties : propertiesHold properties fields = true)
    (hkey : (key, ResponseSchema.typeSchema "number") ∈ properties) : optionalNumber fields key = true := by
  unfold optionalNumber
  cases hget : Json.field? fields key with
  | none => rfl
  | some v =>
    have htype := propertiesHold_iff.mp hproperties _ hkey v hget
    rw [conforms_typeSchema] at htype
    obtain ⟨x, rfl⟩ := hasType_number.mp htype
    rfl

/-- An entry that is said to be a string may be left out, or is one. -/
theorem optionalString_of_conforms (hproperties : propertiesHold properties fields = true)
    (hkey : (key, ResponseSchema.typeSchema "string") ∈ properties) :
    ∃ text, optionalString fields key = some text ∧
      ∀ s, Json.field? fields key = some (.str s) → text = some s := by
  unfold optionalString
  cases hget : Json.field? fields key with
  | none => exact ⟨none, rfl, fun s h => nomatch h⟩
  | some v =>
    have htype := propertiesHold_iff.mp hproperties _ hkey v hget
    rw [conforms_typeSchema] at htype
    obtain ⟨s, rfl⟩ := JsonSchema.hasType_string.mp htype
    exact ⟨some s, rfl, fun s' h => by injection h with h; injection h with h; rw [h]⟩

/-- An entry that is said to be a string or `null`, when it is there. -/
theorem nullableString_of_conforms (hproperties : propertiesHold properties fields = true)
    (hkey : (key, nullableSchema "string") ∈ properties) (hsome : (Json.field? fields key).isSome = true) :
    ∃ text, nullableString fields key = some text ∧
      (Json.field? fields key).getD .null = nullableJson text := by
  obtain ⟨v, hv⟩ := Option.isSome_iff_exists.mp hsome
  rw [nullableString, hv]
  rcases conforms_nullableSchema.mp (propertiesHold_iff.mp hproperties _ hkey v hv) with rfl | htype
  · exact ⟨none, rfl, rfl⟩
  · obtain ⟨s, rfl⟩ := JsonSchema.hasType_string.mp htype
    exact ⟨some s, rfl, rfl⟩

theorem isSome_of_nullableString {text : Option Text} (h : nullableString fields key = some text) :
    (Json.field? fields key).isSome = true := by
  cases hget : Json.field? fields key with
  | none =>
    rw [nullableString, hget] at h
    cases h
  | some v => rfl

theorem stringArray_map (texts : List Text) : stringArray (texts.map .str) = some texts := by
  induction texts with
  | nil => rfl
  | cons s texts ih => rw [List.map_cons, stringArray, ih, Option.map_some]

/-- Items that are all strings. -/
theorem exists_texts {values : List Json} (h : ∀ v ∈ values, ∃ s, v = .str s) :
    ∃ texts : List Text, values = texts.map .str := by
  induction values with
  | nil => exact ⟨[], rfl⟩
  | cons v values ih =>
    obtain ⟨⟨s, rfl⟩, hvalues⟩ := List.forall_mem_cons.mp h
    obtain ⟨texts, rfl⟩ := ih hvalues
    exact ⟨s :: texts, rfl⟩

/-- **A story that conforms is valid**, and the result has its fields. -/
theorem exists_storyData (g : GeminiAIGateway) (input : StoryInput)
    (h : conforms storyResponseSchema raw = true) :
    ∃ fields data, raw = .obj fields ∧ storyResponseData raw = some data ∧
      StoryFields fields (g.storyResult input data) := by
  obtain ⟨fields, rfl, hproperties, hrequired⟩ := conforms_objectSchema.mp h
  obtain ⟨title, htitle⟩ := exists_string hproperties (.head _) (hrequired _ (.head _))
  obtain ⟨content, hcontent⟩ :=
    exists_string hproperties (.tail _ (.head _)) (hrequired _ (.tail _ (.head _)))
  have hscore : optionalNumber fields (lit "sleepScore") = true :=
    optionalNumber_of_conforms hproperties (.tail _ (.tail _ (.head _)))
  cases hmeta : Json.field? fields (lit "metadata") with
  | none =>
    have hdata : storyResponseData (.obj fields) = some ⟨title, content, none, none⟩ := by
      unfold storyResponseData
      dsimp only
      rw [requiredString_of_field htitle, requiredString_of_field hcontent, hscore, hmeta]
      rfl
    have hnone (metadata : List (Text × Json)) : Json.field? fields (lit "metadata") ≠ some (.obj metadata) := by
      rw [hmeta]
      nofun
    exact ⟨fields, _, rfl, hdata, htitle, hcontent, fun metadata _ h => absurd h (hnone metadata),
      fun metadata _ h => absurd h (hnone metadata)⟩
  | some v =>
    obtain ⟨metadata, rfl, hmetadata⟩ := conforms_properties.mp
      (propertiesHold_iff.mp hproperties _ (.tail _ (.tail _ (.tail _ (.head _)))) v hmeta)
    obtain ⟨theme, htheme, hthemeEq⟩ : ∃ text, optionalString metadata (lit "theme") = some text ∧ _ :=
      optionalString_of_conforms hmetadata (.head _)
    obtain ⟨tone, htone, htoneEq⟩ : ∃ text, optionalString metadata (lit "tone") = some text ∧ _ :=
      optionalString_of_conforms hmetadata (.tail _ (.head _))
    have hsome (metadata' : List (Text × Json))
        (h : Json.field? fields (lit "metadata") = some (.obj metadata')) : metadata' = metadata :=
      (Json.obj.inj (Option.some.inj (hmeta.symm.trans h))).symm
    have hdata : storyResponseData (.obj fields) = some ⟨title, content, theme, tone⟩ := by
      unfold storyResponseData
      dsimp only
      rw [requiredString_of_field htitle, requiredString_of_field hcontent, hscore, hmeta]
      simp [htheme, htone]
    refine ⟨fields, _, rfl, hdata, htitle, hcontent, fun metadata' s hmeta' hs => ?_, fun metadata' s hmeta' hs => ?_⟩
    · rw [hsome metadata' hmeta'] at hs
      rw [storyResult, hthemeEq s hs, Option.getD_some]
    · rw [hsome metadata' hmeta'] at hs
      rw [storyResult, htoneEq s hs, Option.getD_some]

/-- What a conforming thought has in any case. -/
structure ThoughtBasis (fields : List (Text × Json)) (goals : List Text) (thought action : Text)
    (confidence : JsNumber) (parameters : Option (List (Text × Json))) : Prop where
  goals : Json.field? fields (lit "goals_considered") = some (.arr (goals.map .str))
  thought : Json.field? fields (lit "thought") = some (.str thought)
  action : Json.field? fields (lit "action") = some (.str action)
  confidence : Json.field? fields (lit "confidence") = some (.num confidence)
  parameters : Json.field? fields (lit "parameters") = parameters.map .obj

/-- The validation of such a thought depends on the nullable fields alone. -/
theorem ThoughtBasis.thoughtData {goals : List Text} {thought action : Text} {confidence : JsNumber}
    {parameters : Option (List (Text × Json))} (h : ThoughtBasis fields goals thought action confidence parameters) :
    thoughtData (.obj fields) = (do
      let conflicts ← nullableString fields (lit "conflicts_identified")
      let tradeOff ← nullableString fields (lit "trade_off_made")
      some ⟨goals, conflicts, tradeOff, thought, thought, action, confidence, parameters.map recordEntries⟩) := by
  have hparameters := h.parameters
  cases parameters with
  | none =>
    simp only [GeminiAIGateway.thoughtData, h.goals, stringArray_map, requiredString_of_field h.thought,
      requiredString_of_field h.action, h.confidence, hparameters, Option.map_none, Option.bind_eq_bind,
      Option.bind_some]
  | some entries =>
    simp only [GeminiAIGateway.thoughtData, h.goals, stringArray_map, requiredString_of_field h.thought,
      requiredString_of_field h.action, h.confidence, hparameters, Option.map_some, Option.bind_eq_bind,
      Option.bind_some]

theorem ThoughtBasis.parameters_eq {goals : List Text} {thought action : Text} {confidence : JsNumber}
    {parameters : Option (List (Text × Json))} {entries : List (Text × Json)}
    (h : ThoughtBasis fields goals thought action confidence parameters)
    (hentries : Json.field? fields (lit "parameters") = some (.obj entries)) : parameters = some entries := by
  have hparameters := h.parameters
  rw [hentries] at hparameters
  cases parameters with
  | none => cases hparameters
  | some entries' => rw [Json.obj.inj (Option.some.inj hparameters)]

/-- A thought that conforms. -/
structure ConformingThought (fields : List (Text × Json)) : Prop where
  basis : ∃ goals thought action confidence parameters,
    ThoughtBasis fields goals thought action confidence parameters
  conflicts : (Json.field? fields (lit "conflicts_identified")).isSome = true →
    ∃ text, nullableString fields (lit "conflicts_identified") = some text ∧
      (Json.field? fields (lit "conflicts_identified")).getD .null = nullableJson text
  tradeOff : (Json.field? fields (lit "trade_off_made")).isSome = true →
    ∃ text, nullableString fields (lit "trade_off_made") = some text ∧
      (Json.field? fields (lit "trade_off_made")).getD .null = nullableJson text

theorem exists_conformingThought (h : conforms thoughtResponseSchema raw = true) :
    ∃ fields, raw = .obj fields ∧ ConformingThought fields := by
  obtain ⟨fields, rfl, hproperties, hrequired⟩ := conforms_objectSchema.mp h
  -- the properties in their order: goals, conflicts, trade-off, thought, action, confidence, parameters
  have hold := propertiesHold_iff.mp hproperties
  obtain ⟨v, hgoals⟩ := Option.isSome_iff_exists.mp (hrequired _ (.head _))
  obtain ⟨values, rfl, hvalues⟩ := conforms_arraySchema.mp (hold _ (.head _) v hgoals)
  obtain ⟨goals, rfl⟩ := exists_texts fun item hmem => JsonSchema.hasType_string.mp
    (conforms_typeSchema.symm.trans (hvalues item hmem))
  obtain ⟨thought, hthought⟩ := exists_string hproperties (.tail _ (.tail _ (.tail _ (.head _))))
    (hrequired _ (.tail _ (.head _)))
  obtain ⟨action, haction⟩ := exists_string hproperties (.tail _ (.tail _ (.tail _ (.tail _ (.head _)))))
    (hrequired _ (.tail _ (.tail _ (.head _))))
  obtain ⟨c, hconfidence⟩ := Option.isSome_iff_exists.mp (hrequired _ (.tail _ (.tail _ (.tail _ (.head _)))))
  have hnumber := hold _ (.tail _ (.tail _ (.tail _ (.tail _ (.tail _ (.head _)))))) c hconfidence
  obtain ⟨confidence, rfl⟩ := hasType_number.mp (conforms_typeSchema.symm.trans hnumber)
  refine ⟨fields, rfl, ?_, nullableString_of_conforms hproperties (.tail _ (.head _)),
    nullableString_of_conforms hproperties (.tail _ (.tail _ (.head _)))⟩
  cases hparameters : Json.field? fields (lit "parameters") with
  | none => exact ⟨goals, thought, action, confidence, none, hgoals, hthought, haction, hconfidence, hparameters⟩
  | some p =>
    obtain ⟨entries, rfl, -⟩ := conforms_properties.mp
      (hold _ (.tail _ (.tail _ (.tail _ (.tail _ (.tail _ (.tail _ (.head _))))))) p hparameters)
    exact ⟨goals, thought, action, confidence, some entries, hgoals, hthought, haction, hconfidence, hparameters⟩

/-- No entry has the name of the prototype if all of them are kept. -/
theorem recordEntries_eq_self_iff {entries : List (Text × Json)} :
    recordEntries entries = entries ↔ ∀ e ∈ entries, e.1 ≠ lit "__proto__" := by
  rw [recordEntries, List.filter_eq_self]
  exact forall₂_congr fun e _ => bne_iff_ne

/-- **A thought that conforms is valid, with all its fields,** if and only if it is complete. -/
theorem ConformingThought.exists_data_iff (h : ConformingThought fields) :
    (∃ output, GeminiAIGateway.thoughtData (.obj fields) = some output ∧ ThoughtFields fields output) ↔
      (Json.field? fields (lit "conflicts_identified")).isSome = true ∧
        (Json.field? fields (lit "trade_off_made")).isSome = true ∧
        ∀ entries, Json.field? fields (lit "parameters") = some (.obj entries) →
          ∀ e ∈ entries, e.1 ≠ lit "__proto__" := by
  obtain ⟨goals, thought, action, confidence, parameters, hbasis⟩ := h.basis
  rw [hbasis.thoughtData]
  constructor
  · rintro ⟨output, hdata, hfields⟩
    obtain ⟨conflicts, hconflicts, hdata⟩ := Option.bind_eq_some_iff.mp hdata
    obtain ⟨tradeOff, htradeOff, hdata⟩ := Option.bind_eq_some_iff.mp hdata
    refine ⟨isSome_of_nullableString hconflicts, isSome_of_nullableString htradeOff, fun entries hentries => ?_⟩
    have hkept := hfields.parameters
    rw [← Option.some.inj hdata, hentries] at hkept
    obtain rfl := hbasis.parameters_eq hentries
    exact recordEntries_eq_self_iff.mp (Json.obj.inj (Option.some.inj hkept)).symm
  · rintro ⟨hconflicts, htradeOff, hparameters⟩
    obtain ⟨conflicts, hconflicts, hconflictsEq⟩ := h.conflicts hconflicts
    obtain ⟨tradeOff, htradeOff, htradeOffEq⟩ := h.tradeOff htradeOff
    rw [hconflicts, htradeOff]
    refine ⟨_, rfl, hbasis.goals, hconflictsEq, htradeOffEq, hbasis.thought, hbasis.thought, hbasis.action,
      hbasis.confidence, ?_⟩
    rw [hbasis.parameters]
    cases parameters with
    | none => rfl
    | some entries =>
      rw [Option.map_some, Option.map_some, Option.map_some,
        recordEntries_eq_self_iff.mpr (hparameters entries hbasis.parameters)]

end Validation

/-! ## Runs -/

section Runs

variable {g : GeminiAIGateway} {α β : Type} {past log : List GatewayEvent}

/-- Neither does the model answer in the event, nor is a failure counted. -/
def Uneventful (event : GatewayEvent) : Prop := answerIn event = none ∧ countsFailure event.effect = false

/-- **What a call makes of the answer**: of the request it is the answer to, it ends in `Q`, and a call that
resolves has counted no failure. -/
def Judged (request : ModelRequest) (Q : ModelResponse → Except JsError α → Prop) (past : List GatewayEvent)
    (r : Except JsError α) : Prop :=
  AllAnswered past → ∀ event ∈ past, ∀ request' response, answerIn event = some (request', response) →
    request' = request ∧ Q response r ∧ ((∃ a, r = .ok a) → NoFailure past)

/-- Nothing is judged where nothing was answered. -/
theorem judged_of_uneventful {request : ModelRequest} {Q : ModelResponse → Except JsError α → Prop}
    {r : Except JsError α} (h : ∀ event ∈ past, Uneventful event) : Judged request Q past r := by
  intro _ event hmem request' response hanswer
  rw [(h event hmem).1] at hanswer
  cases hanswer

theorem only_openCircuit : g.openCircuit.Only Uneventful := only_perform fun _ => ⟨rfl, rfl⟩

theorem only_checkCircuitBreaker : g.checkCircuitBreaker.Only Uneventful := by
  refine Only.bind (only_perform fun _ => ⟨rfl, rfl⟩) fun isOpen => ?_
  split
  · exact only_done
  refine Only.bind (only_perform fun _ => ⟨rfl, rfl⟩) fun cost => ?_
  dsimp only
  split
  · exact Only.bind only_openCircuit fun _ => only_done
  refine Only.bind (only_perform fun _ => ⟨rfl, rfl⟩) fun tokens => ?_
  split
  · exact Only.bind only_openCircuit fun _ => only_done
  · exact only_pure

theorem only_recordUsage (usage : Option UsageMetadata) : (g.recordUsage usage).Only Uneventful := by
  cases usage with
  | none => exact only_pure
  | some usage =>
    refine Only.bind (only_perform fun _ => ⟨rfl, rfl⟩) fun _ => ?_
    refine Only.bind (only_perform fun _ => ⟨rfl, show (tokensKey == failuresKey) = false by decide⟩) fun _ => ?_
    refine Only.bind (only_perform fun _ => ⟨rfl, rfl⟩) fun _ => ?_
    refine Only.bind (only_perform fun _ => ⟨rfl, rfl⟩) fun _ => ?_
    exact Only.bind (only_perform fun _ => ⟨rfl, rfl⟩) fun _ => only_perform fun _ => ⟨rfl, rfl⟩

theorem resolves_recordUsage (usage : Option UsageMetadata) : (g.recordUsage usage).Resolves (· = .ok ()) := by
  cases usage with
  | none => exact resolves_pure rfl
  | some usage => exact fun _ _ _ _ _ _ => rfl

/-- The recording of a failure asks the model nothing, and the error is thrown again. -/
theorem only_failed (error : JsError) :
    (do g.recordFailure; Proc.throw error : GatewayProc α).Only fun event => answerIn event = none := by
  refine Only.bind (Only.bind (only_perform fun _ => rfl) fun failures => ?_) fun _ => only_done
  split
  · exact only_perform fun _ => rfl
  · exact only_pure

theorem resolves_failed (error : JsError) :
    (do g.recordFailure; Proc.throw error : GatewayProc α).Resolves (· = .error error) := by
  refine Resolves.bind (Resolves.bind (resolves_perform fun failures => ?_))
  dsimp only
  split
  · exact fun _ => rfl
  · exact rfl

/-- After an uneventful beginning. -/
theorem ends_judged_bind {p : GatewayProc β} {f : β → GatewayProc α} {request : ModelRequest}
    {Q : ModelResponse → Except JsError α → Prop} (hp : p.Only Uneventful)
    (hpast : ∀ event ∈ past, Uneventful event)
    (hf : ∀ b past', (∀ event ∈ past', Uneventful event) → (f b).Ends (Judged request Q) past') :
    (p >>= f).Ends (Judged request Q) past := by
  refine Ends.bind ((hp.ends_steps past).imp ?_)
  rintro past' r ⟨steps, rfl, hsteps⟩
  have hquiet : ∀ event ∈ past ++ steps, Uneventful event :=
    List.forall_mem_append.mpr ⟨hpast, hsteps⟩
  cases r with
  | ok b => exact hf b _ hquiet
  | error e => exact judged_of_uneventful hquiet

/-- **An attempt judges the answer** as the rest of the call does. -/
theorem ends_attempt {request : ModelRequest} {finish : ModelResponse → GatewayProc α}
    {Q : ModelResponse → Except JsError α → Prop} (hpast : ∀ event ∈ past, Uneventful event)
    (honly : ∀ response, (finish response).Only Uneventful)
    (hresolves : ∀ response, (finish response).Resolves (Q response)) :
    (g.attempt request finish).Ends (Judged request Q) past := by
  refine Ends.catchWith (Ends.bind fun reply => ?_)
  cases reply with
  | error e =>
    -- the model has not answered
    change (do g.recordFailure; Proc.throw e : GatewayProc α).Ends (Judged request Q) _
    refine (ends_of_forall (Q := fun _ _ => True) fun _ _ => trivial).frame.imp ?_
    exact fun past' r hprefix hanswered => absurd hanswered (not_allAnswered_after hprefix.1)
  | ok response =>
    have honly' : (do g.recordUsage response.usageMetadata; finish response).Only Uneventful :=
      (only_recordUsage _).bind fun _ => honly response
    have hresolves' : (do g.recordUsage response.usageMetadata; finish response).Resolves (Q response) :=
      Resolves.bind ((resolves_recordUsage _).imp fun r hr => by rw [hr]; exact hresolves response)
    refine ((honly'.ends_steps _).and (hresolves'.ends _)).imp ?_
    rintro past' r ⟨⟨steps, rfl, hsteps⟩, hQ⟩
    have hcases {event : GatewayEvent} (hmem : event ∈ past ++ [⟨.generateContent request, .ok response⟩] ++ steps) :
        Uneventful event ∨ event = ⟨.generateContent request, .ok response⟩ := by
      rcases List.mem_append.mp hmem with hmem | hmem
      · rcases List.mem_append.mp hmem with hmem | hmem
        · exact .inl (hpast event hmem)
        · exact .inr (List.mem_singleton.mp hmem)
      · exact .inl (hsteps event hmem)
    have hanswer {event : GatewayEvent} (hmem : event ∈ past ++ [⟨.generateContent request, .ok response⟩] ++ steps)
        {request' : ModelRequest} {response' : ModelResponse}
        (h : answerIn event = some (request', response')) : request' = request ∧ response' = response := by
      rcases hcases hmem with hquiet | rfl
      · rw [hquiet.1] at h
        cases h
      · injection h with h
        injection h with hrequest hresponse
        exact ⟨hrequest.symm, hresponse.symm⟩
    cases r with
    | ok a =>
      intro hanswered event hmem request' response' h
      obtain ⟨rfl, rfl⟩ := hanswer hmem h
      refine ⟨rfl, hQ hanswered, fun _ event' hmem' => ?_⟩
      rcases hcases hmem' with hquiet | rfl
      · exact hquiet.2
      · rfl
    | error e =>
      refine (((only_failed e).ends_steps _).and ((resolves_failed e).ends _)).imp ?_
      rintro past' r ⟨⟨steps', rfl, hsteps'⟩, hr⟩ hanswered event hmem request' response' h
      rcases List.mem_append.mp hmem with hmem | hmem
      · obtain ⟨rfl, rfl⟩ := hanswer hmem h
        rw [hr hanswered]
        refine ⟨rfl, hQ fun event hmem => hanswered event (List.mem_append_left _ hmem), ?_⟩
        exact fun ⟨a, ha⟩ => nomatch ha
      · rw [hsteps' event hmem] at h
        cases h

/-! ## The two calls -/

/-- What `generateStory` ends with, once the model has answered. -/
def StoryVerdict (g : GeminiAIGateway) (input : StoryInput) (response : ModelResponse) (r : Except JsError Json) :
    Prop :=
  ∀ raw data, parseJson response.text = .ok raw → storyResponseData raw = some data →
    r = .ok (g.storyResult input data).toJson

theorem only_validateStory (input : StoryInput) (cacheKey : Text) (response : ModelResponse) :
    (g.validateStory input cacheKey response).Only Uneventful := by
  refine Only.catchWith ?_ fun _ => only_done
  refine Only.bind only_done fun rawData => Only.bind only_done fun data => ?_
  exact Only.bind (only_perform fun _ => ⟨rfl, rfl⟩) fun _ => only_pure

theorem resolves_validateStory (input : StoryInput) (cacheKey : Text) (response : ModelResponse) :
    (g.validateStory input cacheKey response).Resolves (StoryVerdict g input response) := by
  refine Resolves.catchWith (Resolves.bind (resolves_done ?_))
  cases hparse : parseJson response.text with
  | error e =>
    intro raw data hraw
    rw [hparse] at hraw
    cases hraw
  | ok raw =>
    refine Resolves.bind (resolves_done ?_)
    cases hdata : storyResponseData raw with
    | none =>
      rw [parseSchema, hdata]
      intro raw' data hraw hdata'
      rw [Except.ok.inj (hparse.symm.trans hraw), hdata'] at hdata
      cases hdata
    | some data =>
      rw [parseSchema, hdata]
      intro _ raw' data' hraw hdata'
      rw [← Except.ok.inj (hparse.symm.trans hraw), hdata] at hdata'
      rw [Option.some.inj hdata']

theorem ends_generateStory (input : StoryInput) : ∃ prompt,
    (g.generateStory input).Ends (Judged (g.storyRequest prompt) (StoryVerdict g input)) [] := by
  unfold generateStory
  split
  · cases hprompt : truthyText input.customPrompt with
    | none => exact ⟨[], judged_of_uneventful fun event hmem => nomatch hmem⟩
    | some prompt =>
      refine ⟨prompt, ends_judged_bind (only_perform fun _ => ⟨rfl, rfl⟩) (fun event hmem => nomatch hmem) ?_⟩
      intro cachedJson past hpast
      cases truthyText cachedJson with
      | some text => exact judged_of_uneventful hpast
      | none =>
        refine ends_judged_bind only_checkCircuitBreaker hpast fun _ past' hpast' => ?_
        exact ends_attempt hpast' (only_validateStory input _) (resolves_validateStory input _)
  · exact ⟨[], judged_of_uneventful fun event hmem => nomatch hmem⟩

/-- What `generateAgentThought` ends with, once the model has answered. -/
def ThoughtVerdict (g : GeminiAIGateway) (response : ModelResponse) (r : Except JsError ThoughtOutput) : Prop :=
  ∀ raw, parseJson response.text = .ok raw → r = g.parseSchema thoughtData raw

theorem ends_generateAgentThought (input : ThoughtInput) :
    (g.generateAgentThought input).Ends (Judged (g.thoughtRequest input) (ThoughtVerdict g)) [] := by
  unfold generateAgentThought
  split
  · refine ends_judged_bind only_checkCircuitBreaker (fun event hmem => nomatch hmem) fun _ past hpast => ?_
    refine ends_attempt hpast (fun response => Only.bind only_done fun _ => only_done) fun response => ?_
    refine Resolves.bind (resolves_done ?_)
    cases hparse : parseJson response.text with
    | error e =>
      intro raw hraw
      rw [hparse] at hraw
      cases hraw
    | ok raw =>
      intro raw' hraw
      rw [Except.ok.inj (hparse.symm.trans hraw)]
  · exact judged_of_uneventful fun event hmem => nomatch hmem

/-- **When what conforms is taken**: for every run of `generateStory` or `generateAgentThought` whose effects are
all answered and in which the model answers with a value that conforms to the schema it was sent, the answer is
taken if and only if it has all that the validation asks for. A story always has. -/
theorem takes_iff_complete {σ : Type} {env : Env σ GatewayEffect GatewayEffect.Reply} {s s' : σ}
    (call : GatewayCall) {r : Except JsError call.Result} {raw : Json} (hcall : call.Validates)
    (hlog : Logs env s (call.run g) log r s') (hanswered : AllAnswered log) (hraw : AnsweredWith raw log) :
    call.Takes raw log r ↔ call.Complete raw := by
  obtain ⟨event, hmem, request, response, schema, hevent, hschema, hconforms, hparse⟩ := hraw
  cases call with
  | generateStoryStream input => exact hcall.elim
  | generateStructured input => exact hcall.elim
  | generateStory input =>
    obtain ⟨prompt, hends⟩ := ends_generateStory (g := g) input
    obtain ⟨rfl, hverdict, hquiet⟩ := hlog.ended hends hanswered event hmem _ _ hevent
    obtain rfl : storyResponseSchema = schema := Option.some.inj hschema
    obtain ⟨fields, data, rfl, hdata, hfields⟩ := exists_storyData g input hconforms
    have hr := hverdict _ data hparse hdata
    refine iff_of_true ⟨⟨_, hr, fields, _, rfl, rfl, hfields⟩, hquiet ⟨_, hr⟩⟩ ?_
    trivial
  | generateAgentThought input =>
    obtain ⟨rfl, hverdict, hquiet⟩ :=
      hlog.ended (ends_generateAgentThought (g := g) input) hanswered event hmem _ _ hevent
    obtain rfl : thoughtResponseSchema = schema := Option.some.inj hschema
    obtain ⟨fields, rfl, hthought⟩ := exists_conformingThought hconforms
    have hr := hverdict _ hparse
    rw [parseSchema] at hr
    refine Iff.trans ?_ hthought.exists_data_iff
    constructor
    · rintro ⟨⟨output, rfl, fields', hfields', hreturns⟩, -⟩
      obtain rfl := Json.obj.inj hfields'
      cases hdata : thoughtData (.obj fields) with
      | none =>
        rw [hdata] at hr
        cases hr
      | some output' =>
        rw [hdata] at hr
        exact ⟨output', rfl, Except.ok.inj hr ▸ hreturns⟩
    · rintro ⟨output, hdata, hreturns⟩
      rw [hdata] at hr
      exact ⟨⟨output, hr, fields, rfl, hreturns⟩, hquiet ⟨_, hr⟩⟩

/-- The events and the result of a question for a thought that the model answers with a text. -/
def thoughtAnswered (text : Text) :=
  record (fun e w => steadyWorld InMemoryCache.port (fun _ => .ok ⟨text, none⟩) w e)
    (World.initial InMemoryCache.port 0)
    (GatewayCall.run defaultGateway (.generateAgentThought ⟨lit "You are an agent.", none, none⟩))

theorem logs_thoughtAnswered (text : Text) : Logs (gatewayEnv InMemoryCache.port)
    (World.initial InMemoryCache.port 0)
    (GatewayCall.run defaultGateway (.generateAgentThought ⟨lit "You are an agent.", none, none⟩))
    (thoughtAnswered text).1 (thoughtAnswered text).2.1 (thoughtAnswered text).2.2 :=
  logs_record (fun e w => gatewayEnv_steadyWorld _ w e) _ _

theorem answeredWith_thoughtAnswered {text : Text} {raw : Json} (hparse : parseJson text = .ok raw)
    (hraw : conforms thoughtResponseSchema raw = true)
    (hanswer : ((thoughtAnswered text).1.any fun event =>
      (answerIn event).map Prod.snd == some ⟨text, none⟩) = true)
    (hok : ((thoughtAnswered text).1.all fun event => event.reply.isOk) = true) :
    AllAnswered (thoughtAnswered text).1 ∧ AnsweredWith raw (thoughtAnswered text).1 := by
  have hanswered : AllAnswered (thoughtAnswered text).1 := fun event hmem =>
    exists_ok_of_isOk (List.all_eq_true.mp hok event hmem)
  obtain ⟨event, hmem, hevent⟩ := List.any_eq_true.mp hanswer
  obtain ⟨⟨request, response⟩, hevent, hresponse⟩ := Option.map_eq_some_iff.mp (beq_iff_eq.mp hevent)
  obtain rfl : response = ⟨text, none⟩ := hresponse
  have hrequest := ((logs_thoughtAnswered text).ended
    (ends_generateAgentThought (g := defaultGateway) _) hanswered event hmem _ _ hevent).1
  exact ⟨hanswered, event, hmem, request, _, _, hevent, hrequest ▸ rfl, hraw, hparse⟩

/-- A thought that leaves out what it may leave out. -/
def bareFields : List (Text × Json) :=
  [(lit "goals_considered", .arr []), (lit "thought", .str (lit "rest")), (lit "action", .str (lit "wait")),
    (lit "confidence", .num (.finite 1))]

/-- The same with its nullable fields. -/
def wholeFields : List (Text × Json) :=
  (lit "conflicts_identified", .null) :: (lit "trade_off_made", .null) :: bareFields

theorem proper_of_bareFields {e : Text × Json} (h : e ∈ bareFields) : e.2.Proper := by
  rcases List.mem_cons.mp h with rfl | h
  · exact .arr fun v hv => nomatch hv
  rcases List.mem_cons.mp h with rfl | h
  · exact .str _
  rcases List.mem_cons.mp h with rfl | h
  · exact .str _
  · have hone : JsNumber.ofExact 1 = .finite 1 := by decide +kernel
    rw [List.mem_singleton.mp h]
    exact .num fun q hq => JsNumber.finite.inj hq ▸ hone

theorem parseJson_bareThought : parseJson (stringify (.obj bareFields)) = .ok (.obj bareFields) :=
  parseJson_stringify (.obj (by decide) fun _ h => proper_of_bareFields h)

theorem parseJson_wholeThought : parseJson (stringify (.obj wholeFields)) = .ok (.obj wholeFields) := by
  refine parseJson_stringify (.obj (by decide) fun e h => ?_)
  rcases List.mem_cons.mp h with rfl | h
  · exact .null
  rcases List.mem_cons.mp h with rfl | h
  · exact .null
  · exact proper_of_bareFields h

/-- A whole thought is taken. -/
theorem whole_thought_is_taken :
    (GatewayCall.generateAgentThought ⟨lit "You are an agent.", none, none⟩).Takes (.obj wholeFields)
      (thoughtAnswered (stringify (.obj wholeFields))).1 (thoughtAnswered (stringify (.obj wholeFields))).2.1 := by
  obtain ⟨hanswered, hraw⟩ := answeredWith_thoughtAnswered parseJson_wholeThought (by decide +kernel)
    (by decide +kernel) (by decide +kernel)
  refine (takes_iff_complete (.generateAgentThought _) trivial (logs_thoughtAnswered _) hanswered hraw).mpr ?_
  exact ⟨rfl, rfl, fun entries h => nomatch h⟩

/-- **A bare thought conforms, and is refused**, and a failure is counted. -/
theorem bare_thought_is_refused : ¬ ∀ (g : GeminiAIGateway) (σ : Type)
    (env : Env σ GatewayEffect GatewayEffect.Reply) (s s' : σ) (call : GatewayCall)
    (r : Except JsError call.Result) (log : List GatewayEvent) (raw : Json), call.Validates →
    Logs env s (call.run g) log r s' → AllAnswered log → AnsweredWith raw log → call.Takes raw log r := by
  intro hclaim
  obtain ⟨hanswered, hraw⟩ := answeredWith_thoughtAnswered parseJson_bareThought (by decide +kernel)
    (by decide +kernel) (by decide +kernel)
  obtain ⟨-, hquiet⟩ := hclaim defaultGateway _ _ _ _ (.generateAgentThought _) _ _ _ trivial
    (logs_thoughtAnswered (stringify (.obj bareFields))) hanswered hraw
  have hfailure : ((thoughtAnswered (stringify (.obj bareFields))).1.any fun event => countsFailure event.effect) = true := by
    decide +kernel
  obtain ⟨event, hmem, hcounts⟩ := List.any_eq_true.mp hfailure
  rw [hquiet event hmem] at hcounts
  cases hcounts

end Runs

end DreamWeaver.Gateway
