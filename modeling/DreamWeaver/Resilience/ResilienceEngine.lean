import DreamWeaver.Foundations.JsArithmetic
import DreamWeaver.Foundations.JsValue

/-! # The resilience engine

`ResilienceEngine.assessFailure` (`api/src/domain/services/ResilienceEngine.ts`) decides what is done about a
failure. A failure of unknown type is classified by its message, with an ordered list of tests for keywords:
the first test that succeeds decides. The log lines are left out. -/

namespace DreamWeaver.Resilience

/-! ## Failures -/

/-- `FailureType` -/
inductive FailureType where
  | networkTimeout
  | schemaDrift
  | safetyViolation
  | tokenLimit
  | apiRateLimit
  | apiAuthError
  | apiServerError
  | apiBadRequest
  | qualityBreach
  | unknown
  deriving DecidableEq, Repr

/-- What the engine reads of `context['error']`: a string, or another value with its `message`, `none` where
that is `undefined`, and its `String(error)`. -/
inductive ContextError where
  | text (text : Text)
  | value (message : Option Json) (asText : Text)

/-- `ResilienceEvent`; the error of its context is `none` where it counts as false, up to the empty string. -/
structure ResilienceEvent where
  type : FailureType
  error : Option ContextError
  attempt : JsNumber
  costSoFar : JsNumber

/-- The actions of a `CorrectionPlan`. -/
inductive CorrectionAction where
  | retry
  | selfCorrect
  | fallback
  | abort
  | degradeService
  deriving DecidableEq, Repr

/-- The models of a `CorrectionPlan` that the engine names. -/
inductive CorrectionModel where
  | flash
  | edge
  deriving DecidableEq, Repr

/-- The parameters of a `CorrectionPlan`. -/
inductive CorrectionParameters where
  | correction (instruction : Text) (errorContext : Option ContextError)
  | pause (timeoutMs : JsNumber)

/-- `CorrectionPlan` -/
structure CorrectionPlan where
  action : CorrectionAction
  model : CorrectionModel
  estimatedCost : ℚ
  parameters : Option CorrectionParameters

/-! ## Classification -/

/-- `msg`, where `toLowerCase` is called on it next: a `message` that is true and no string has none. -/
def errorMessage : ContextError → Except JsError Text
  | .text text => .ok text
  | .value message asText =>
    match message.filter Json.truthy with
    | none => .ok asText
    | some (.str text) => .ok text
    | some _ => .error ⟨lit "TypeError", lit "msg.toLowerCase is not a function"⟩

/-- One of the words occurs. -/
def mentions (words : List String) (lowerMsg : Text) : Bool := words.any fun word => includes lowerMsg (lit word)

/-- The words of a rate limit. -/
def rateLimitWords : List String := ["429", "rate limit", "quota"]

/-- The words of a failed authorisation. -/
def authWords : List String := ["401", "403", "auth", "permission"]

/-- The words of a failure of the server. -/
def serverWords : List String := ["500", "503", "internal", "unavailable"]

/-- The words of a bad request. -/
def badRequestWords : List String := ["400", "bad request", "invalid argument"]

/-- The words of a text that is not as its schema says. -/
def schemaWords : List String := ["json", "parse"]

/-- The words of a refusal. -/
def refusalWords : List String := ["safety", "blocked"]

/-- The tests of `mapErrorToFailureType`, in their order. -/
def classification : List (List String × FailureType) :=
  [(rateLimitWords, .apiRateLimit),
    (authWords, .apiAuthError),
    (serverWords, .apiServerError),
    (badRequestWords, .apiBadRequest),
    (schemaWords, .schemaDrift),
    (refusalWords, .safetyViolation),
    (["timeout"], .networkTimeout),
    (["quality gate", "breach"], .qualityBreach)]

/-- The first of the tests that succeeds on a message in lower case. -/
def classify (lowerMsg : Text) : FailureType :=
  match classification.find? fun test => mentions test.1 lowerMsg with
  | some test => test.2
  | none => .unknown

/-- `mapErrorToFailureType` -/
def mapErrorToFailureType (error : ContextError) : Except JsError FailureType := do
  let msg ← errorMessage error
  pure (classify (toLowerCase msg))

/-! ## Plans -/

/-- A plan without parameters, on the edge and without cost. -/
def onEdge (action : CorrectionAction) : CorrectionPlan := ⟨action, .edge, 0, none⟩

/-- The plan of another attempt after a pause. -/
def retryAfter (timeoutMs : JsNumber) : CorrectionPlan := ⟨.retry, .flash, 0, some (.pause timeoutMs)⟩

/-- The plan for a type of failure; `pow2` is `Math.pow(2, ·)`. -/
def planFor (pow2 : JsNumber → JsNumber) (error : Option ContextError) (attempt : JsNumber) :
    FailureType → CorrectionPlan
  | .schemaDrift => ⟨.selfCorrect, .flash, double (5 / 10 ^ 5), some (.correction (lit "Fix the JSON syntax") error)⟩
  | .networkTimeout => retryAfter ((JsNumber.finite 5000).mul (attempt.add (.finite 1)))
  | .apiServerError => retryAfter ((JsNumber.finite 5000).mul (attempt.add (.finite 1)))
  | .apiRateLimit => retryAfter ((JsNumber.finite 1000).mul (pow2 attempt))
  | .safetyViolation => onEdge .fallback
  | .apiAuthError => onEdge .fallback
  | .apiBadRequest => onEdge .fallback
  | .tokenLimit => onEdge .abort
  | .qualityBreach => onEdge .degradeService
  | .unknown => onEdge .fallback

/-- The error of a context, if it counts as true. -/
def ResilienceEvent.reported (event : ResilienceEvent) : Option ContextError :=
  event.error.filter fun error => match error with
    | .text text => !text.isEmpty
    | .value _ _ => true

/-- `refinedType` -/
def refinedType (event : ResilienceEvent) : Except JsError FailureType :=
  match event.type, event.reported with
  | .unknown, some error => mapErrorToFailureType error
  | type, _ => .ok type

/-- `assessFailure` -/
def assessFailure (pow2 : JsNumber → JsNumber) (event : ResilienceEvent) : Except JsError CorrectionPlan := do
  let type ← refinedType event
  if event.costSoFar.exceeds (double (1 / 20)) then pure (onEdge .abort)
  else if event.attempt.atLeast 3 then pure (onEdge .fallback)
  else pure (planFor pow2 event.error event.attempt type)

/-! ## Refusals -/

/-- The plan does not ask the model again. -/
def CorrectionPlan.IsFinal (plan : CorrectionPlan) : Prop := plan.action ≠ .retry ∧ plan.action ≠ .selfCorrect

instance (plan : CorrectionPlan) : Decidable plan.IsFinal := inferInstanceAs (Decidable (_ ∧ _))

/-- The message says that the content was refused. -/
def SaysRefused (msg : Text) : Prop := mentions refusalWords (toLowerCase msg) = true

/-- No word of a failure that is retried decides before the refusal is seen. -/
def Undisguised (lowerMsg : Text) : Prop :=
  mentions rateLimitWords lowerMsg = false ∧
    (mentions authWords lowerMsg = true ∨ mentions serverWords lowerMsg = false ∧
      (mentions badRequestWords lowerMsg = true ∨ mentions schemaWords lowerMsg = false))

/-- The types of failures that are retried, or corrected by the model. -/
def IsRetried (type : FailureType) : Prop :=
  type = .schemaDrift ∨ type = .networkTimeout ∨ type = .apiServerError ∨ type = .apiRateLimit

variable {pow2 : JsNumber → JsNumber} {event : ResilienceEvent} {error : ContextError} {msg : Text}

variable (pow2) in
theorem isFinal_planFor_iff (error : Option ContextError) (attempt : JsNumber) (type : FailureType) :
    (planFor pow2 error attempt type).IsFinal ↔ ¬ IsRetried type := by
  cases type with
  | schemaDrift => exact iff_of_false (fun h => h.2 rfl) (not_not_intro (.inl rfl))
  | networkTimeout => exact iff_of_false (fun h => h.1 rfl) (not_not_intro (.inr (.inl rfl)))
  | apiServerError => exact iff_of_false (fun h => h.1 rfl) (not_not_intro (.inr (.inr (.inl rfl))))
  | apiRateLimit => exact iff_of_false (fun h => h.1 rfl) (not_not_intro (.inr (.inr (.inr rfl))))
  | safetyViolation => exact iff_of_true ⟨nofun, nofun⟩ (by simp [IsRetried])
  | tokenLimit => exact iff_of_true ⟨nofun, nofun⟩ (by simp [IsRetried])
  | apiAuthError => exact iff_of_true ⟨nofun, nofun⟩ (by simp [IsRetried])
  | apiBadRequest => exact iff_of_true ⟨nofun, nofun⟩ (by simp [IsRetried])
  | qualityBreach => exact iff_of_true ⟨nofun, nofun⟩ (by simp [IsRetried])
  | unknown => exact iff_of_true ⟨nofun, nofun⟩ (by simp [IsRetried])

/-- The tests one after the other, as far as that for a refusal. -/
theorem classify_of_refused {lowerMsg : Text} (h : mentions refusalWords lowerMsg = true) : classify lowerMsg =
    if mentions rateLimitWords lowerMsg then .apiRateLimit
    else if mentions authWords lowerMsg then .apiAuthError
    else if mentions serverWords lowerMsg then .apiServerError
    else if mentions badRequestWords lowerMsg then .apiBadRequest
    else if mentions schemaWords lowerMsg then .schemaDrift
    else .safetyViolation := by
  unfold classify classification
  cases hrate : mentions rateLimitWords lowerMsg with
  | true => simp [hrate]
  | false =>
    cases hauth : mentions authWords lowerMsg with
    | true => simp [hrate, hauth]
    | false =>
      cases hserver : mentions serverWords lowerMsg with
      | true => simp [hrate, hauth, hserver]
      | false =>
        cases hbad : mentions badRequestWords lowerMsg with
        | true => simp [hrate, hauth, hserver, hbad]
        | false =>
          cases hschema : mentions schemaWords lowerMsg with
          | true => simp [hrate, hauth, hserver, hbad, hschema]
          | false => simp [hrate, hauth, hserver, hbad, hschema, h]

/-- **A refusal is classified as a failure that is retried** exactly when a word of one decides first. -/
theorem isRetried_classify_iff {lowerMsg : Text} (h : mentions refusalWords lowerMsg = true) :
    ¬ IsRetried (classify lowerMsg) ↔ Undisguised lowerMsg := by
  rw [classify_of_refused h, Undisguised]
  cases mentions rateLimitWords lowerMsg with
  | true => simp [IsRetried]
  | false =>
    cases mentions authWords lowerMsg with
    | true => simp [IsRetried]
    | false =>
      cases mentions serverWords lowerMsg with
      | true => simp [IsRetried]
      | false =>
        cases mentions badRequestWords lowerMsg with
        | true => simp [IsRetried]
        | false =>
          cases mentions schemaWords lowerMsg with
          | true => simp [IsRetried]
          | false => simp [IsRetried]

/-- An error whose message says something is reported. -/
theorem reported_of_saysRefused (herror : event.error = some error) (hmessage : errorMessage error = .ok msg)
    (hrefused : SaysRefused msg) : event.reported = some error := by
  rw [ResilienceEvent.reported, herror, Option.filter_some]
  cases error with
  | value message asText => rfl
  | text text =>
    -- an empty text counts as false, but it does not say that the content was refused
    obtain rfl : text = msg := Except.ok.inj hmessage
    cases text with
    | cons c s => rfl
    | nil => exact absurd hrefused (by unfold SaysRefused; decide)

/-- **When a refusal is final**: when the cost is too high, or there were too many attempts, or no word of a
failure that is retried occurs in the message in a way that decides first. -/
theorem refusal_final_iff (pow2 : JsNumber → JsNumber) (event : ResilienceEvent) (error : ContextError) (msg : Text)
    (hunknown : event.type = .unknown) (herror : event.error = some error) (hmessage : errorMessage error = .ok msg)
    (hrefused : SaysRefused msg) :
    (∃ plan, assessFailure pow2 event = .ok plan ∧ plan.IsFinal) ↔
      event.costSoFar.exceeds (double (1 / 20)) = true ∨ event.attempt.atLeast 3 = true ∨
        Undisguised (toLowerCase msg) := by
  have htype : refinedType event = .ok (classify (toLowerCase msg)) := by
    rw [refinedType, hunknown, reported_of_saysRefused herror hmessage hrefused]
    show mapErrorToFailureType error = _
    rw [mapErrorToFailureType, hmessage]
    rfl
  have hanswer : assessFailure pow2 event =
      if event.costSoFar.exceeds (double (1 / 20)) then .ok (onEdge .abort)
      else if event.attempt.atLeast 3 then .ok (onEdge .fallback)
      else .ok (planFor pow2 event.error event.attempt (classify (toLowerCase msg))) := by
    rw [assessFailure, htype]
    rfl
  rw [hanswer]
  -- the tests of `assessFailure` in their order: the cost, the attempts, the type
  cases event.costSoFar.exceeds (double (1 / 20)) with
  | true => exact iff_of_true ⟨_, rfl, nofun, nofun⟩ (.inl rfl)
  | false =>
    cases event.attempt.atLeast 3 with
    | true => exact iff_of_true ⟨_, rfl, nofun, nofun⟩ (.inr (.inl rfl))
    | false =>
      have hfinal := (isFinal_planFor_iff pow2 event.error event.attempt _).trans (isRetried_classify_iff hrefused)
      constructor
      · rintro ⟨plan, hplan, h⟩
        obtain rfl : _ = plan := Except.ok.inj hplan
        exact .inr (.inr (hfinal.1 h))
      · rintro (h | h | h)
        · cases h
        · cases h
        · exact ⟨_, rfl, hfinal.2 h⟩

/-- The event of a first failure of unknown type with a message. -/
def unknownFailure (message : String) : ResilienceEvent := ⟨.unknown, some (.text (lit message)), .finite 1, .finite 0⟩

theorem refusal_final_plain :
    ∃ plan, assessFailure (fun _ => .finite 2) (unknownFailure "Blocked for SAFETY reasons") = .ok plan ∧ plan.IsFinal :=
  (refusal_final_iff (fun _ => .finite 2) (unknownFailure "Blocked for SAFETY reasons") _ _ rfl rfl rfl
    (by unfold SaysRefused; decide +kernel)).2 (.inr (.inr (by unfold Undisguised; decide +kernel)))

/-- A refusal that calls the content unavailable is taken for a failure of the server: the model is asked again. -/
theorem refusal_retried : SaysRefused (lit "Response blocked: content unavailable due to safety") ∧
    ((assessFailure (fun _ => .finite 2)
      (unknownFailure "Response blocked: content unavailable due to safety")).map (·.action) = .ok .retry) :=
  ⟨by unfold SaysRefused; decide +kernel, by decide +kernel⟩

end DreamWeaver.Resilience
