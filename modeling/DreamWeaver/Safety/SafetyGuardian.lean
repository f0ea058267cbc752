import DreamWeaver.Foundations.JsValue
import DreamWeaver.Foundations.Regex

/-! # The safety guardian

`SafetyGuardian.checkContent` of `api/src/domain/services/SafetyGuardian.ts`, layer by layer: the
injection patterns, the banned patterns, the semantic verdict of the AI service with its schema and
its catch-all, the age heuristic, and the removal of leaked `<thinking>` blocks. The AI service and
the prompt service are collaborators that may return anything or throw. -/

namespace DreamWeaver.Safety

open Regex

/-! ## The pattern tables -/

/-- A case-insensitive pattern of the guardian with its source text. -/
structure Pattern where
  source : Text
  regex : Regex

/-- `INJECTION_PATTERNS` -/
def injectionPatterns : List Regex :=
  [ -- /ignore\s+(previous|all|above)\s+instructions?/i
    seqs [folding "ignore", some1 .space,
      alts [folding "previous", folding "all", folding "above"], some1 .space,
      folding "instruction", opt (folding "s")],
    -- /disregard\s+(your|the)\s+(rules|guidelines|instructions)/i
    seqs [folding "disregard", some1 .space, alts [folding "your", folding "the"], some1 .space,
      alts [folding "rules", folding "guidelines", folding "instructions"]],
    -- /you\s+are\s+now\s+(?:a|an)?\s*\w+/i
    seqs [folding "you", some1 .space, folding "are", some1 .space, folding "now", some1 .space,
      opt (alts [folding "a", folding "an"]), .many true .space, some1 .word],
    -- /pretend\s+(?:to\s+be|you\s+are)/i
    seqs [folding "pretend", some1 .space,
      alts [seqs [folding "to", some1 .space, folding "be"],
        seqs [folding "you", some1 .space, folding "are"]]],
    -- /\bDAN\b|\bDeveloper\s+Mode\b/i
    alts [seqs [.boundary, folding "DAN", .boundary],
      seqs [.boundary, folding "Developer", some1 .space, folding "Mode", .boundary]],
    -- /\[\s*SYSTEM\s*\]/i
    seqs [folding "[", .many true .space, folding "SYSTEM", .many true .space, folding "]"],
    -- /\x7b\s*"role"\s*:\s*"system"/i
    seqs [folding "\x7b", .many true .space, folding "\"role\"", .many true .space, folding ":",
      .many true .space, folding "\"system\""],
    -- /<\/?(?:system|assistant|user)>/i
    seqs [folding "<", opt (folding "/"),
      alts [folding "system", folding "assistant", folding "user"], folding ">"],
    -- /roleplay\s+as\s+(?:a|an)?\s*(?:evil|malicious|bad)/i
    seqs [folding "roleplay", some1 .space, folding "as", some1 .space,
      opt (alts [folding "a", folding "an"]), .many true .space,
      alts [folding "evil", folding "malicious", folding "bad"]]]

/-- `BANNED_PATTERNS` -/
def bannedPatterns : List Pattern :=
  [ { source := lit "/\\b(violence|blood|killing|death|monster\\s+under\\s+the\\s+bed)\\b/i"
      regex := seqs [.boundary,
        alts [folding "violence", folding "blood", folding "killing", folding "death",
          seqs [folding "monster", some1 .space, folding "under", some1 .space, folding "the",
            some1 .space, folding "bed"]],
        .boundary] },
    { source := lit "/\\b(scary|fright|terror|nightmare)\\b/i"
      regex := seqs [.boundary,
        alts [folding "scary", folding "fright", folding "terror", folding "nightmare"],
        .boundary] },
    { source := lit "/\\b(bad\\s+words|adult\\s+themes)\\b/i"
      regex := seqs [.boundary,
        alts [seqs [folding "bad", some1 .space, folding "words"],
          seqs [folding "adult", some1 .space, folding "themes"]],
        .boundary] } ]

/-- `complexWords` of layer 3. -/
def complexWords : List Text := [lit "existential", lit "misery", lit "taxes", lit "politics"]

/-- `/<thinking>[\s\S]*?<\/thinking>/gi` of layer 4. -/
def thinkingBlock : Regex :=
  seqs [folding "<thinking>", .many false .any, folding "</thinking>"]

/-! ## Results and requests -/

/-- The `reason` of a refusal. -/
inductive Reason where
  | injection
  | prohibited (pattern : Text)
  | flagged (reason : Text)
  | systemError
  | tooComplex (childAge : JsNumber)
  deriving DecidableEq, Repr

/-- The text of a reason; `showNumber` is the language's number formatting. -/
def Reason.message (showNumber : JsNumber → Text) : Reason → Text
  | .injection => lit "Layer 0 Violation: Prompt injection attempt detected"
  | .prohibited pattern => lit "Layer 1 Violation: Found prohibited pattern: " ++ pattern
  | .flagged reason => lit "Layer 2 Violation: " ++ reason
  | .systemError => lit "Safety Validation System Error (Fail Closed)"
  | .tooComplex childAge =>
      lit "Layer 3 Violation: Content too complex for age " ++ showNumber childAge

/-- `SafetyCheckResult` -/
structure SafetyCheckResult where
  isSafe : Bool
  reason : Option Reason
  fallbackContent : Option Text
  sanitizedContent : Option Text
  deriving DecidableEq, Repr

/-- What `generateStructured` is asked. -/
structure StructuredRequest where
  systemPrompt : Text
  userMessage : Text
  schema : Json
  traceId : Option Text

/-- A verdict that has passed `safetySchema`. -/
structure SafetyVerdict where
  isSafe : Bool
  reason : Option Text
  deriving DecidableEq, Repr

/-- The collaborators of the guardian: `aiService.generateStructured`, which may throw or resolve
with any value, and `promptService.getSafetyValidatorSystemPrompt`. -/
structure SafetyGuardian where
  generateStructured : StructuredRequest → Except JsError (Option Json)
  getSafetyValidatorSystemPrompt : JsNumber → Except JsError Text

/-- The JSON schema sent along with the semantic check. -/
def verdictSchema : Json :=
  .obj [
    (lit "type", .str (lit "object")),
    (lit "properties", .obj [
      (lit "isSafe", .obj [(lit "type", .str (lit "boolean"))]),
      (lit "reason", .obj [(lit "type", .str (lit "string"))])]),
    (lit "required", .arr [.str (lit "isSafe")]),
    (lit "additionalProperties", .bool false)]

/-- The error `safetySchema.parse` throws. -/
def zodError : JsError := ⟨lit "ZodError", lit "Invalid input"⟩

/-- `safetySchema.parse`: an object with a boolean `isSafe`, an optional string `reason` and no
other key. -/
def parseVerdict : Option Json → Except JsError SafetyVerdict
  | some (.obj fields) =>
    if fields.all fun entry => entry.1 == lit "isSafe" || entry.1 == lit "reason" then
      match Json.field? fields (lit "isSafe"), Json.field? fields (lit "reason") with
      | some (.bool isSafe), none => .ok ⟨isSafe, none⟩
      | some (.bool isSafe), some (.str reason) => .ok ⟨isSafe, some reason⟩
      | _, _ => .error zodError
    else .error zodError
  | _ => .error zodError

/-- The longest part of a text that the semantic layer is shown, in code units. -/
def semanticLimit : ℕ := 2000

/-- `Content: ${text.substring(0, 2000)}` -/
def semanticMessage (text : Text) : Text := lit "Content: " ++ text.take semanticLimit

/-- The request of the semantic layer. -/
def semanticRequest (systemPrompt text : Text) (traceId : Option Text) : StructuredRequest where
  systemPrompt := systemPrompt
  userMessage := semanticMessage text
  schema := verdictSchema
  traceId := traceId

/-- The `try` block of layer 2: prompt, call and schema check, each of which may throw. -/
def SafetyGuardian.semanticVerdict (g : SafetyGuardian) (text : Text) (childAge : JsNumber)
    (traceId : Option Text) : Except JsError SafetyVerdict := do
  let systemPrompt ← g.getSafetyValidatorSystemPrompt childAge
  let verdict ← g.generateStructured (semanticRequest systemPrompt text traceId)
  parseVerdict verdict

/-- Layer 3 raises something: the child is under five and a complex word occurs. -/
def ageRestricted (childAge : JsNumber) (text : Text) : Bool :=
  childAge.lt 5 && complexWords.any fun w => includes (toLowerCase text) w

/-- `text.replace(/<thinking>…<\/thinking>/gi, '').trim()` -/
def sanitized (text : Text) : Text := trim (removeAll thinkingBlock text)

/-- Layer 4: what a safe result carries as `sanitizedContent`. -/
def sanitizedContent (text : Text) : Text :=
  if sanitized text ≠ trim text then sanitized text else text

/-- A refusal. -/
def refuse (reason : Reason) (fallbackContent : Option Text) : SafetyCheckResult :=
  ⟨false, some reason, fallbackContent, none⟩

/-- `checkContent` -/
def SafetyGuardian.checkContent (g : SafetyGuardian) (text : Text) (childAge : Option JsNumber)
    (fallbackContent traceId : Option Text) : Except JsError SafetyCheckResult :=
  let age := childAge.getD (.finite 5)
  if injectionPatterns.any fun p => p.test text then
    .ok (refuse .injection (some (orText fallbackContent (lit "Content blocked for security."))))
  else
    match bannedPatterns.find? fun p => p.regex.test text with
    | some p =>
      .ok (refuse (.prohibited p.source)
        (some (orText fallbackContent (lit "Story removed for safety."))))
    | none =>
      match g.semanticVerdict text age traceId with
      | .error _ =>
        -- the catch-all of layer 2 fails closed
        .ok (refuse .systemError (some (orText fallbackContent
          (lit "Content unavailable due to safety system error."))))
      | .ok verdict =>
        if verdict.isSafe = false then
          .ok (refuse (.flagged (orText verdict.reason (lit "AI Flagged Content")))
            (some (orText fallbackContent (lit "Content filtered."))))
        else if ageRestricted age text then
          .ok (refuse (.tooComplex age) fallbackContent)
        else
          .ok ⟨true, none, none, some (sanitizedContent text)⟩

end DreamWeaver.Safety
