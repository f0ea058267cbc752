import DreamWeaver.Safety.SafetyGuardian

/-! # What the guardian accepts

`Accepted` spells out, in terms of the text and of what the collaborators answer, when every layer
of `checkContent` lets a text through; `checkContent_of_accepted` and `checkContent_of_not_accepted`
say that the guardian returns a safe result exactly then and never throws. The second half is about
the semantic layer alone: it is shown the first `semanticLimit` units of a text and no more. -/

namespace DreamWeaver.Safety

open Regex

variable (g : SafetyGuardian) (text : Text) (childAge : Option JsNumber)
  (fallbackContent traceId : Option Text)

/-! ## Acceptance -/

/-- No injection pattern and no banned pattern occurs in the text. -/
def PassesPatterns (text : Text) : Prop :=
  (∀ p ∈ injectionPatterns, p.test text = false) ∧ ∀ p ∈ bannedPatterns, p.regex.test text = false

/-- A reply that satisfies the schema of the verdict and says `isSafe`. -/
def IsSafeVerdict (reply : Option Json) : Prop :=
  ∃ fields, reply = some (.obj fields) ∧ Json.field? fields (lit "isSafe") = some (.bool true) ∧
    (Json.field? fields (lit "reason") = none ∨
      ∃ reason, Json.field? fields (lit "reason") = some (.str reason)) ∧
    ∀ entry ∈ fields, entry.1 = lit "isSafe" ∨ entry.1 = lit "reason"

/-- The semantic layer answers, without throwing, with a safe verdict. -/
def SemanticallySafe (g : SafetyGuardian) (text : Text) (childAge : JsNumber)
    (traceId : Option Text) : Prop :=
  ∃ systemPrompt reply, g.getSafetyValidatorSystemPrompt childAge = .ok systemPrompt ∧
    g.generateStructured (semanticRequest systemPrompt text traceId) = .ok reply ∧
    IsSafeVerdict reply

/-- Every layer lets the text through. -/
structure Accepted (g : SafetyGuardian) (text : Text) (childAge : Option JsNumber)
    (traceId : Option Text) : Prop where
  patterns : PassesPatterns text
  semantic : SemanticallySafe g text (childAge.getD (.finite 5)) traceId
  age : ageRestricted (childAge.getD (.finite 5)) text = false

/-- The schema check succeeds with a safe verdict exactly on the safe replies. -/
theorem parseVerdict_isSafe_iff (reply : Option Json) :
    (∃ verdict, parseVerdict reply = .ok verdict ∧ verdict.isSafe = true) ↔
      IsSafeVerdict reply := by
  constructor
  · rintro ⟨verdict, hparse, hsafe⟩
    unfold parseVerdict at hparse
    split at hparse
    · rename_i fields
      split at hparse
      · rename_i hkeys
        have hstrict : ∀ entry ∈ fields, entry.1 = lit "isSafe" ∨ entry.1 = lit "reason" := by
          simpa [List.all_eq_true] using hkeys
        split at hparse
        · rename_i isSafe hIsSafe hReason
          cases hparse
          simp only at hsafe
          exact ⟨fields, rfl, by rw [hIsSafe, hsafe], Or.inl hReason, hstrict⟩
        · rename_i isSafe reason hIsSafe hReason
          cases hparse
          simp only at hsafe
          exact ⟨fields, rfl, by rw [hIsSafe, hsafe], Or.inr ⟨reason, hReason⟩, hstrict⟩
        · cases hparse
      · cases hparse
    · cases hparse
  · rintro ⟨fields, rfl, hIsSafe, hReason, hstrict⟩
    have hkeys : fields.all (fun entry => entry.1 == lit "isSafe" || entry.1 == lit "reason") =
        true := by
      simpa [List.all_eq_true] using hstrict
    rcases hReason with hReason | ⟨reason, hReason⟩
    · exact ⟨⟨true, none⟩, by simp only [parseVerdict, hkeys, if_true, hIsSafe, hReason], rfl⟩
    · exact ⟨⟨true, some reason⟩, by simp only [parseVerdict, hkeys, if_true, hIsSafe, hReason],
        rfl⟩

/-- The `try` block of layer 2 ends with a safe verdict exactly when the semantic layer says so. -/
theorem semanticVerdict_isSafe_iff (age : JsNumber) :
    (∃ verdict, g.semanticVerdict text age traceId = .ok verdict ∧ verdict.isSafe = true) ↔
      SemanticallySafe g text age traceId := by
  unfold SafetyGuardian.semanticVerdict SemanticallySafe
  cases hprompt : g.getSafetyValidatorSystemPrompt age with
  | error e => simp [bind, Except.bind]
  | ok systemPrompt =>
    cases hreply : g.generateStructured (semanticRequest systemPrompt text traceId) with
    | error e => simp [bind, Except.bind, hreply]
    | ok reply => simpa [bind, Except.bind, hreply] using parseVerdict_isSafe_iff reply

/-- The table search for a banned pattern comes back empty when none occurs. -/
theorem find?_bannedPatterns_eq_none (h : ∀ p ∈ bannedPatterns, p.regex.test text = false) :
    (bannedPatterns.find? fun p => p.regex.test text) = none := by
  simpa [List.find?_eq_none] using h

/-- **An accepted text** comes back as safe, with its sanitized content. -/
theorem checkContent_of_accepted (h : Accepted g text childAge traceId) :
    g.checkContent text childAge fallbackContent traceId =
      .ok ⟨true, none, none, some (sanitizedContent text)⟩ := by
  obtain ⟨verdict, hverdict, hsafe⟩ := (semanticVerdict_isSafe_iff g text traceId _).mpr h.semantic
  have hinj : injectionPatterns.any (fun p => p.test text) = false := by
    simpa [List.any_eq_false] using h.patterns.1
  simp only [SafetyGuardian.checkContent, hinj, find?_bannedPatterns_eq_none text h.patterns.2,
    hverdict, hsafe, h.age]
  simp

/-- **A text that some layer stops** comes back as a refusal. -/
theorem checkContent_of_not_accepted (h : ¬ Accepted g text childAge traceId) :
    ∃ reason fallback, g.checkContent text childAge fallbackContent traceId =
      .ok (refuse reason fallback) := by
  unfold SafetyGuardian.checkContent
  split
  · exact ⟨_, _, rfl⟩
  rename_i hinj
  split
  · exact ⟨_, _, rfl⟩
  rename_i hban
  dsimp only
  split
  · exact ⟨_, _, rfl⟩
  rename_i verdict hverdict
  split
  · exact ⟨_, _, rfl⟩
  rename_i hunsafe
  split
  · exact ⟨_, _, rfl⟩
  rename_i hage
  -- every layer has let the text through
  refine absurd ⟨⟨?_, ?_⟩, ?_, by simpa using hage⟩ h
  · simpa [List.any_eq_false] using hinj
  · simpa [List.find?_eq_none] using hban
  · exact (semanticVerdict_isSafe_iff g text traceId _).mp ⟨verdict, hverdict, by simpa using hunsafe⟩

variable {g text childAge fallbackContent traceId} in
/-- A safe result belongs to an accepted text. -/
theorem accepted_of_isSafe {result : SafetyCheckResult}
    (h : g.checkContent text childAge fallbackContent traceId = .ok result)
    (hsafe : result.isSafe = true) : Accepted g text childAge traceId := by
  by_contra hne
  obtain ⟨reason, fallback, hrefused⟩ :=
    checkContent_of_not_accepted g text childAge fallbackContent traceId hne
  rw [hrefused] at h
  cases h
  cases hsafe

/-- **The guardian fails closed.** For every text, age and behaviour of its collaborators it
returns a result, and the result is safe if and only if no injection or banned pattern occurs, the
AI service returned a schema-valid verdict with `isSafe = true`, and the age layer raised nothing. -/
theorem checkContent_fails_closed :
    ∃ result, g.checkContent text childAge fallbackContent traceId = .ok result ∧
      (result.isSafe = true ↔ Accepted g text childAge traceId) := by
  by_cases h : Accepted g text childAge traceId
  · exact ⟨_, checkContent_of_accepted g text childAge fallbackContent traceId h, by simp [h]⟩
  · obtain ⟨reason, fallback, hresult⟩ :=
      checkContent_of_not_accepted g text childAge fallbackContent traceId h
    exact ⟨_, hresult, by simp [refuse, h]⟩

/-! ## What the semantic layer is shown -/

/-- Every unit of the text stands, at its place, in the message of the semantic layer. -/
def ShownWhole (text : Text) : Prop :=
  ∀ i < text.length, (semanticMessage text)[(lit "Content: ").length + i]? = text[i]?

/-- Behind its label, the message of the semantic layer holds the beginning of the text. -/
theorem semanticMessage_getElem? (text : Text) (i : ℕ) :
    (semanticMessage text)[(lit "Content: ").length + i]? = (text.take semanticLimit)[i]? := by
  rw [semanticMessage, List.getElem?_append_right (Nat.le_add_right _ i), Nat.add_sub_cancel_left]

/-- A text is shown as a whole exactly when it does not exceed the limit. -/
theorem shownWhole_iff {text : Text} : ShownWhole text ↔ text.length ≤ semanticLimit := by
  constructor
  · intro h
    by_contra hlong
    have hlast := h semanticLimit (Nat.lt_of_not_le hlong)
    rw [semanticMessage_getElem?, List.getElem?_take, if_neg (lt_irrefl _)] at hlast
    exact hlong (List.getElem?_eq_none_iff.mp hlast.symm)
  · intro h i _
    rw [semanticMessage_getElem?, List.take_of_length_le h]

/-- Two texts make the same message exactly when they begin with the same units. -/
theorem semanticMessage_eq_iff {text other : Text} :
    semanticMessage text = semanticMessage other ↔
      text.take semanticLimit = other.take semanticLimit := by
  rw [semanticMessage, semanticMessage, List.append_cancel_left_eq]

/-- **The verdict depends on all of the text up to the limit only.** The guardian accepts a text
only after showing all of it to the semantic layer, and shows that layer different requests for
different texts, if and only if accepted texts do not exceed `semanticLimit` and different texts
differ within it. -/
theorem accepted_shownWhole_iff (other : Text) :
    ((∀ result, g.checkContent text childAge fallbackContent traceId = .ok result →
        result.isSafe = true → ShownWhole text) ∧
      (PassesPatterns text → PassesPatterns other → text ≠ other → ∀ systemPrompt,
        semanticRequest systemPrompt text traceId ≠ semanticRequest systemPrompt other traceId)) ↔
    ((Accepted g text childAge traceId → text.length ≤ semanticLimit) ∧
      (PassesPatterns text → PassesPatterns other → text ≠ other →
        text.take semanticLimit ≠ other.take semanticLimit)) := by
  refine and_congr ?_ (imp_congr_right fun _ => imp_congr_right fun _ => imp_congr_right fun _ => ?_)
  · rw [← shownWhole_iff]
    constructor
    · intro h haccepted
      exact h _ (checkContent_of_accepted g text childAge fallbackContent traceId haccepted) rfl
    · intro h result hresult hsafe
      exact h (accepted_of_isSafe hresult hsafe)
  · rw [ne_eq (text.take semanticLimit), ← semanticMessage_eq_iff]
    constructor
    · intro h hmessage
      exact h [] (by rw [semanticRequest, semanticRequest, hmessage])
    · intro h systemPrompt hrequest
      exact h (congrArg StructuredRequest.userMessage hrequest)

/-- Collaborators for which every text is semantically safe. -/
def approving : SafetyGuardian where
  generateStructured _ := .ok (some (.obj [(lit "isSafe", .bool true)]))
  getSafetyValidatorSystemPrompt _ := .ok []

/-- A text over an alphabet in which no pattern of the guardian can be spelled passes them all. -/
theorem passesPatterns_of_within {alphabet : List CodeUnit}
    (hinj : ∀ p ∈ injectionPatterns, p.within alphabet = false)
    (hban : ∀ p ∈ bannedPatterns, p.regex.within alphabet = false) {text : Text}
    (h : ∀ x ∈ text, x ∈ alphabet) : PassesPatterns text :=
  ⟨fun p hp => test_eq_false_of_within (hinj p hp) h,
    fun p hp => test_eq_false_of_within (hban p hp) h⟩

/-- The approving collaborators judge every text semantically safe. -/
theorem semanticallySafe_approving (age : JsNumber) :
    SemanticallySafe approving text age traceId :=
  ⟨[], _, rfl, rfl, _, rfl, rfl, Or.inl rfl, by simp⟩

/-- A text one unit longer than the limit is accepted although its last unit is not shown, and its
message is also the message of the text without that unit. -/
theorem long_text_not_shownWhole :
    (∃ content, approving.checkContent (List.replicate 2001 97) none none none =
      .ok ⟨true, none, none, some content⟩) ∧
    ¬ ShownWhole (List.replicate 2001 97) ∧
    List.replicate 2001 (97 : CodeUnit) ≠ List.replicate 2000 97 ∧
    semanticRequest [] (List.replicate 2001 97) none =
      semanticRequest [] (List.replicate 2000 97) none := by
  have hpasses : PassesPatterns (List.replicate 2001 97) :=
    @passesPatterns_of_within [97] (by decide) (by decide) _
      fun x hx => by simpa using List.eq_of_mem_replicate hx
  refine ⟨⟨_, checkContent_of_accepted approving _ _ _ _
    ⟨hpasses, semanticallySafe_approving _ _ _, ?_⟩⟩, ?_, ?_, ?_⟩
  · rw [ageRestricted, Option.getD_none, JsNumber.lt, Bool.and_eq_false_iff]
    exact Or.inl (by simp)
  · rw [shownWhole_iff, List.length_replicate]
    decide
  · intro h
    have hlength := congrArg List.length h
    rw [List.length_replicate, List.length_replicate] at hlength
    omega
  · rw [semanticRequest, semanticRequest, semanticMessage_eq_iff.mpr]
    rw [List.take_replicate, List.take_replicate]
    rfl

end DreamWeaver.Safety
