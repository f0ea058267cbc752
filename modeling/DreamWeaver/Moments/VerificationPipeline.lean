import DreamWeaver.Foundations.Embedding
import DreamWeaver.Foundations.JsValue
import DreamWeaver.Foundations.JsonSchema
import DreamWeaver.Foundations.JsonWriter

/-! # The verification pipeline

`VerificationPipeline` (`api/src/domain/services/VerificationPipeline.ts`) lets an item pass in three stages:
a static rule, a model that validates it, and the queue for human review where the model is not sure. What
the model replies is untrusted: it counts only where it passes the strict schema, and anything else, an
exception included, is a rejection. -/

namespace DreamWeaver.Moments

open Proc

/-! ## Structured replies -/

/-- The input of `generateStructured`. -/
structure StructuredInput where
  systemPrompt : Text
  userMessage : Text
  schema : Json

/-- A reply that passed a strict schema: a flag, a text, and a confidence between 0 and 1. -/
structure Judgement where
  flag : Bool
  text : Text
  confidence : ℚ
  unit : 0 ≤ confidence ∧ confidence ≤ 1

/-- The names of the flag and of the text of a judgement. -/
structure JudgementShape where
  flag : Text
  text : Text
  deriving DecidableEq, Repr

/-- The JSON schema of such a judgement, which is sent to the model. -/
def JudgementShape.schema (shape : JudgementShape) : Json :=
  .obj [
    (lit "type", .str (lit "object")),
    (lit "properties", .obj [
      (shape.flag, .obj [(lit "type", .str (lit "boolean"))]),
      (shape.text, .obj [(lit "type", .str (lit "string"))]),
      (lit "confidence", .obj [(lit "type", .str (lit "number"))])]),
    (lit "required", .arr [.str shape.flag, .str shape.text, .str (lit "confidence")]),
    (lit "additionalProperties", .bool false)]

/-- The error `parse` throws; its message lists what is wrong, and is only logged. -/
def judgementError : JsError := ⟨lit "ZodError", lit "Invalid judgement"⟩

/-- `z.object({ flag: z.boolean(), text: z.string(), confidence: z.number().min(0).max(1) }).strict().parse(reply)`,
with `none` for a reply that is `undefined`. -/
def JudgementShape.parse (shape : JudgementShape) : Option Json → Except JsError Judgement
  | some (.obj fields) =>
    if fields.all fun entry => entry.1 = shape.flag || entry.1 = shape.text || entry.1 = lit "confidence" then
      match Json.field? fields shape.flag, Json.field? fields shape.text, Json.field? fields (lit "confidence") with
      | some (.bool flag), some (.str text), some (.num (.finite confidence)) =>
        if h : 0 ≤ confidence ∧ confidence ≤ 1 then .ok ⟨flag, text, confidence, h⟩ else .error judgementError
      | _, _, _ => .error judgementError
    else .error judgementError
  | _ => .error judgementError

variable {shape : JudgementShape} {json : Json} {judgement : Judgement}

/-- What a reply that passes the strict schema is. -/
theorem JudgementShape.parse_eq_ok (h : shape.parse (some json) = .ok judgement) : ∃ fields, json = .obj fields ∧
    (∀ entry ∈ fields, entry.1 = shape.flag ∨ entry.1 = shape.text ∨ entry.1 = lit "confidence") ∧
    Json.field? fields shape.flag = some (.bool judgement.flag) ∧
    Json.field? fields shape.text = some (.str judgement.text) ∧
    Json.field? fields (lit "confidence") = some (.num (.finite judgement.confidence)) := by
  unfold JudgementShape.parse at h
  split at h
  · rename_i fields heq
    split at h
    · rename_i hnames
      split at h
      · rename_i flag text confidence hflag htext hconfidence
        split at h
        · obtain rfl := Except.ok.inj h
          refine ⟨fields, Option.some.inj heq, fun entry hmem => ?_, hflag, htext, hconfidence⟩
          have hname := List.all_eq_true.mp hnames entry hmem
          rwa [Bool.or_eq_true, Bool.or_eq_true, decide_eq_true_iff, decide_eq_true_iff, decide_eq_true_iff,
            or_assoc] at hname
        · cases h
      · cases h
    · cases h
  · cases h

open JsonSchema in
/-- **What passes the strict schema satisfies the JSON schema** that was sent to the model. -/
theorem JudgementShape.conforms_of_parse (h : shape.parse (some json) = .ok judgement) :
    conforms shape.schema json = true := by
  obtain ⟨fields, rfl, -, hflag, htext, hconfidence⟩ := JudgementShape.parse_eq_ok h
  have htypes : (lit "type" ≠ lit "properties" ∧ lit "required" ≠ lit "enum") ∧
      lit "properties" ≠ lit "type" := by decide
  simp [schema, conforms, keywordsHold, keywordHolds, propertiesHold, hasType, hasRequired, hflag, htext,
    hconfidence, htypes]

/-- The shape of the validator's reply. -/
def validation : JudgementShape := ⟨lit "approved", lit "reason"⟩

/-! ## Items and results -/

/-- The `type` of a `VerifiableContent`. -/
inductive VerifiableType where
  | goldenMoment
  | safetyAction
  deriving DecidableEq, Repr

/-- The text of a type. -/
def VerifiableType.text : VerifiableType → Text
  | .goldenMoment => lit "GOLDEN_MOMENT"
  | .safetyAction => lit "SAFETY_ACTION"

/-- `VerifiableContent` -/
structure VerifiableContent where
  type : VerifiableType
  content : Json
  metadata : Option Json

/-- The `stage` of a `VerificationResult`. -/
inductive VerificationStage where
  | rule
  | model
  | human
  deriving DecidableEq, Repr

/-- `VerificationResult` -/
structure VerificationResult where
  approved : Bool
  stage : VerificationStage
  reason : Text
  confidence : ℚ
  deriving DecidableEq, Repr

/-- `EnqueueHumanReviewInput` -/
structure EnqueueHumanReviewInput where
  item : VerifiableContent
  reason : Text
  confidence : ℚ

/-- The prompts that the prompt service gives, or what it throws. -/
structure PromptServicePort where
  getMemoryCuratorSystemPrompt : Except JsError Text
  getVerificationValidatorSystemPrompt : VerifiableType → Except JsError Text

/-- What the pipeline awaits: a structured reply of the model, and the queue for human review. -/
inductive ReviewEffect where
  | generateStructured (input : StructuredInput)
  | enqueue (input : EnqueueHumanReviewInput)

/-- What an effect is answered with; a structured reply may be any value. -/
abbrev ReviewEffect.Reply : ReviewEffect → Type
  | .generateStructured _ => Option Json
  | .enqueue _ => Unit

/-- A procedure of the pipeline. -/
abbrev ReviewProc := Proc ReviewEffect ReviewEffect.Reply

/-- An event of the pipeline. -/
abbrev ReviewEvent := Event ReviewEffect ReviewEffect.Reply

/-! ## The stages -/

namespace VerificationPipeline

/-- `passedRuleCheck`: the description of a moment is a text of at least 10 units. -/
def passedRuleCheck (item : VerifiableContent) : Bool :=
  match item.type with
  | .goldenMoment =>
    match item.content.get (lit "description") with
    | some (.str description) => 10 ≤ description.length
    | _ => false
  | .safetyAction => true

/-- The item as it is shown to the validator. -/
def itemText (item : VerifiableContent) : Text :=
  stringify (.obj [
    (lit "type", .str item.type.text),
    (lit "content", item.content),
    (lit "metadata", item.metadata.getD (.obj []))])

/-- What `performModelCheck` returns. -/
structure ModelCheck where
  approved : Bool
  reason : Text
  confidence : ℚ
  deriving DecidableEq, Repr

/-- `performModelCheck`; what is thrown in it is a rejection. -/
def performModelCheck (prompts : PromptServicePort) (item : VerifiableContent) : ReviewProc ModelCheck :=
  catchWith (do
    let systemPrompt ← (Proc.done (prompts.getVerificationValidatorSystemPrompt item.type) : ReviewProc Text)
    let result ← (perform (ReviewEffect.generateStructured ⟨systemPrompt, itemText item, validation.schema⟩) :
      ReviewProc (Option Json))
    let validated ← (Proc.done (validation.parse result) : ReviewProc Judgement)
    pure ⟨validated.flag, validated.text, validated.confidence⟩)
    fun _ => pure ⟨false, lit "Validator error", 0⟩

/-- `0.8` -/
def approvalThreshold : ℚ := double (4 / 5)

/-- `verify` -/
def verify (prompts : PromptServicePort) (item : VerifiableContent) : ReviewProc VerificationResult :=
  if !passedRuleCheck item then
    pure ⟨false, .rule, lit "Failed static safety rules", 1⟩
  else do
    let modelResult ← performModelCheck prompts item
    if !modelResult.approved then
      pure ⟨false, .model, orText (some modelResult.reason) (lit "AI Validator rejected"), modelResult.confidence⟩
    else if modelResult.confidence < approvalThreshold then do
      let _ ← (perform (ReviewEffect.enqueue
        ⟨item, lit "Low confidence model validation", modelResult.confidence⟩) : ReviewProc Unit)
      pure ⟨false, .human, lit "Flagged for human review", modelResult.confidence⟩
    else pure ⟨true, .model, lit "All checks passed", modelResult.confidence⟩

/-! ## What the stages do -/

variable {prompts : PromptServicePort} {item : VerifiableContent}

/-- The event of the validator's reply. -/
def validatorEvent (systemPrompt : Text) (item : VerifiableContent) (reply : Except JsError (Option Json)) :
    ReviewEvent :=
  ⟨.generateStructured ⟨systemPrompt, itemText item, validation.schema⟩, reply⟩

/-- What a model check has done when it returns: the validator was not asked, its reply did not pass the
schema, or its reply is what is returned. -/
inductive Checked (item : VerifiableContent) : List ReviewEvent → ModelCheck → Prop
  | unasked : Checked item [] ⟨false, lit "Validator error", 0⟩
  | failed (systemPrompt : Text) {reply : Except JsError (Option Json)}
      (hreply : ∀ json judgement, reply = .ok json → validation.parse json ≠ .ok judgement) :
      Checked item [validatorEvent systemPrompt item reply] ⟨false, lit "Validator error", 0⟩
  | judged (systemPrompt : Text) {json : Option Json} {judgement : Judgement}
      (hjson : validation.parse json = .ok judgement) :
      Checked item [validatorEvent systemPrompt item (.ok json)]
        ⟨judgement.flag, judgement.text, judgement.confidence⟩

/-- A model check never rejects. -/
theorem ends_performModelCheck :
    (performModelCheck prompts item).Ends (fun steps r => ∃ check, r = .ok check ∧ Checked item steps check) [] := by
  refine Ends.catchWith (Ends.bind ?_)
  cases prompts.getVerificationValidatorSystemPrompt item.type with
  | error e => exact ⟨_, rfl, .unasked⟩
  | ok systemPrompt =>
    refine Ends.bind (ends_perform fun reply => ?_)
    cases reply with
    | error e => exact ⟨_, rfl, .failed systemPrompt fun _ _ h => nomatch h⟩
    | ok json =>
      refine Ends.bind ?_
      cases hjson : validation.parse json with
      | error e =>
        refine ⟨_, rfl, .failed systemPrompt ?_⟩
        rintro _ judgement ⟨⟩ hok
        cases hjson.symm.trans hok
      | ok judgement => exact ⟨_, rfl, .judged systemPrompt hjson⟩

/-- What a verification has done when it ends: the item was turned down, with or without asking the
validator; or it was approved without enough confidence and submitted for human review; or it was approved. -/
inductive Verified (item : VerifiableContent) : List ReviewEvent → Except JsError VerificationResult → Prop
  | unasked {result : VerificationResult} (hresult : result.approved = false) : Verified item [] (.ok result)
  | rejected (systemPrompt : Text) {reply : Except JsError (Option Json)} {result : VerificationResult}
      (hreply : ∀ json judgement, reply = .ok json → validation.parse json = .ok judgement →
        judgement.flag = false)
      (hresult : result.approved = false) : Verified item [validatorEvent systemPrompt item reply] (.ok result)
  | flagged (systemPrompt : Text) {json : Option Json} {judgement : Judgement} {reason : Text}
      {queued : Except JsError Unit} {r : Except JsError VerificationResult}
      (hjson : validation.parse json = .ok judgement) (hflag : judgement.flag = true)
      (hlow : judgement.confidence < approvalThreshold)
      (hr : ∀ result, r = .ok result → result.approved = false) :
      Verified item [validatorEvent systemPrompt item (.ok json),
        ⟨.enqueue ⟨item, reason, judgement.confidence⟩, queued⟩] r
  | approved (systemPrompt : Text) {json : Option Json} {judgement : Judgement} {result : VerificationResult}
      (hrule : passedRuleCheck item = true) (hjson : validation.parse json = .ok judgement)
      (hflag : judgement.flag = true) (hhigh : approvalThreshold ≤ judgement.confidence)
      (hresult : result.approved = true) :
      Verified item [validatorEvent systemPrompt item (.ok json)] (.ok result)

/-- **What a verification does**, whatever the validator and the queue reply. -/
theorem ends_verify : (verify prompts item).Ends (Verified item) [] := by
  unfold verify
  cases hrule : passedRuleCheck item with
  | false => exact .unasked rfl
  | true =>
    refine Ends.bind (ends_performModelCheck.imp fun steps r hchecked => ?_)
    obtain ⟨check, rfl, hchecked⟩ := hchecked
    cases hchecked with
    | unasked => exact .unasked rfl
    | failed systemPrompt hreply =>
      exact .rejected systemPrompt (fun json judgement hjson h => absurd h (hreply json judgement hjson)) rfl
    | @judged systemPrompt json judgement hjson =>
      dsimp only
      cases hflag : judgement.flag with
      | false =>
        refine .rejected systemPrompt ?_ rfl
        rintro _ judgement' ⟨⟩ hjson'
        obtain rfl := Except.ok.inj (hjson.symm.trans hjson')
        exact hflag
      | true =>
        by_cases hlow : judgement.confidence < approvalThreshold
        · -- where the queue fails the verification rejects, and approves nothing either
          rw [if_neg (by simp), if_pos hlow]
          refine Ends.bind (ends_perform fun queued => ?_)
          cases queued with
          | error e => exact .flagged systemPrompt hjson hflag hlow fun _ h => nomatch h
          | ok _ =>
            refine .flagged systemPrompt hjson hflag hlow ?_
            rintro _ ⟨⟩
            rfl
        · rw [if_neg (by simp), if_neg hlow]
          exact .approved systemPrompt hrule hjson hflag (not_lt.mp hlow) rfl

end VerificationPipeline

end DreamWeaver.Moments
