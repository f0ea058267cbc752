import DreamWeaver.Safety.CheckContent
import DreamWeaver.Stories.GenerateStory

/-! # What sanitizing leaves

The guardian tests the raw text and hands out the text without its `<thinking>` blocks. Removing a
block joins what stood on its two sides, and the joined text is not tested again.
`sanitized_clean_iff` says exactly when the result still passes the deterministic layers and is the
text the use case carries on with: when the remains are not blank and no test sees anything in them
that it does not see in one of the pieces between the blocks. -/

namespace DreamWeaver.Safety

open Regex Stories

/-! ## The deterministic tests -/

/-- The tests of the deterministic layers, for the text of a child of the given age. -/
def detectors (age : JsNumber) : List (Text → Bool) :=
  thinkingBlock.test :: injectionPatterns.map Regex.test ++
    bannedPatterns.map (fun p => p.regex.test) ++
    if age.lt 5 then complexWords.map fun w s => includes (toLowerCase s) w else []

/-- A text in which no deterministic test sees anything. -/
def Clean (age : JsNumber) (s : Text) : Prop := ∀ d ∈ detectors age, d s = false

/-- A clean text has no thinking block, passes the patterns and is not restricted by age. -/
theorem clean_iff {age : JsNumber} {s : Text} :
    Clean age s ↔ thinkingBlock.test s = false ∧ PassesPatterns s ∧ ageRestricted age s = false := by
  cases hage : age.lt 5 <;>
    simp [Clean, detectors, PassesPatterns, ageRestricted, hage, or_imp, forall_and, and_assoc]

/-! ## Pieces between blocks -/

/-- The pieces of a text between its thinking blocks. -/
def outsideBlocks (text : Text) : List Text := keptPieces thinkingBlock text.length none text

/-- A match of the block pattern is not empty, and no word unit stands at its ends. -/
theorem fenced_thinkingBlock : Fenced thinkingBlock :=
  @fenced_of_words (lit "<thinking>") (lit "</thinking>") _ (by decide) (by decide)
    (by decide) (by decide)

/-- A pattern without `^` that does not occur in a text occurs in none of its pieces. -/
theorem test_outsideBlocks {r : Regex} (hr : r.anchorless = true) {text k : Text}
    (hk : k ∈ outsideBlocks text) (h : r.test text = false) : r.test k = false := by
  obtain ⟨a, b, htext, ha, hb⟩ := exists_append_of_mem_keptPieces fenced_thinkingBlock hk
  by_contra hne
  rw [htext, test_append hr ha hb (by simpa using hne)] at h
  cases h

/-- **The pieces of an unsuspicious text are clean.** -/
theorem clean_of_mem_outsideBlocks {age : JsNumber} {text k : Text} (hk : k ∈ outsideBlocks text)
    (hpatterns : PassesPatterns text) (hage : ageRestricted age text = false) : Clean age k := by
  have hinj : ∀ p ∈ injectionPatterns, p.anchorless = true := by decide +kernel
  have hban : ∀ p ∈ bannedPatterns, p.regex.anchorless = true := by decide +kernel
  refine clean_iff.mpr ⟨?_, ⟨fun p hp => ?_, fun p hp => ?_⟩, ?_⟩
  · exact test_of_mem_keptPieces (by decide) (fun p m n hm => (fenced_thinkingBlock p m n hm).1)
      le_rfl hk
  · exact test_outsideBlocks (hinj p hp) hk (hpatterns.1 p hp)
  · exact test_outsideBlocks (hban p hp) hk (hpatterns.2 p hp)
  · rw [ageRestricted, Bool.and_eq_false_iff] at hage ⊢
    refine hage.imp_right fun hwords => List.any_eq_false.mpr fun w hw hin => ?_
    obtain ⟨a, b, rfl⟩ := infix_of_mem_keptPieces hk
    have hlower : toLowerCase k <:+: toLowerCase (a ++ k ++ b) :=
      ⟨toLowerCase a, toLowerCase b, by simp⟩
    exact List.any_eq_false.mp hwords w hw (includes_of_isInfix hlower hin)

/-- A text without a block keeps its whole content. -/
theorem sanitizedContent_of_no_block {text : Text} (h : thinkingBlock.test text = false) :
    sanitizedContent text = text := by
  have hkept : removeAll thinkingBlock text = text := by
    rw [removeAll, keptPieces_of_test_eq_false h, List.flatten_singleton]
  rw [sanitizedContent, sanitized, hkept, if_neg (not_not_intro rfl)]

/-- A block has units other than white space. -/
theorem solid_ne_nil_of_matches {m : Text} {p n : Option CodeUnit}
    (h : Matches thinkingBlock p m n) : solid m ≠ [] := by
  obtain ⟨m₁, m₂, rfl, hword, -⟩ := h
  have hmem : foldAscii 116 ∈ m₁.map foldAscii := by
    rw [Matches.map_foldAscii (w := lit "<thinking>") hword]
    decide
  obtain ⟨x, hx, hfold⟩ := List.mem_map.mp hmem
  have hxword : isWordUnit x = true := by
    rw [← isWordUnit_foldAscii, hfold]
    rfl
  refine List.ne_nil_of_mem (a := x) (List.mem_filter.mpr ⟨List.mem_append_left _ hx, ?_⟩)
  rw [isWhite_of_isWordUnit hxword]
  rfl

/-- A text with a block loses units other than white space, so its sanitized form is used. -/
theorem sanitizedContent_of_block {text : Text} (h : thinkingBlock.test text = true) :
    sanitizedContent text = sanitized text := by
  rw [sanitizedContent, if_pos]
  intro heq
  obtain ⟨a, m, b, p, n, rfl, hm, hsub⟩ := removeAll_sublist_of_test
    (fun p m n hm => (fenced_thinkingBlock p m n hm).1) h
  have hsolid : solid (removeAll thinkingBlock (a ++ m ++ b)) = solid (a ++ m ++ b) := by
    rw [← solid_trim, ← solid_trim (a ++ m ++ b)]
    exact congrArg solid heq
  have hle : (solid (removeAll thinkingBlock (a ++ m ++ b))).length ≤ (solid (a ++ b)).length :=
    (hsub.filter _).length_le
  have hm' : 0 < (solid m).length := List.length_pos_iff.mpr (solid_ne_nil_of_matches hm)
  simp only [hsolid, solid_append, List.length_append] at hle
  omega

/-- A text with a block is not empty. -/
theorem ne_nil_of_block {text : Text} (h : thinkingBlock.test text = true) : text ≠ [] := by
  rintro rfl
  exact absurd h (by decide)

/-! ## When the result is clean -/

/-- The remains of a text are safe: no block is removed, or what remains is not blank and no test
sees anything in it that it does not see in one of the pieces it is joined from. -/
def RemovalSafe (age : JsNumber) (text : Text) : Prop :=
  thinkingBlock.test text = false ∨
    solid (outsideBlocks text).flatten ≠ [] ∧
      ∀ d ∈ detectors age, d (trim (outsideBlocks text).flatten) = true →
        ∃ k ∈ outsideBlocks text, d k = true

/-- Of an unsuspicious text with a block, the remains are safe exactly when they are clean and not
empty. -/
theorem removalSafe_iff_of_block {age : JsNumber} {text : Text}
    (hblock : thinkingBlock.test text = true) (hpatterns : PassesPatterns text)
    (hage : ageRestricted age text = false) :
    RemovalSafe age text ↔ sanitized text ≠ [] ∧ Clean age (sanitized text) := by
  have hblank : solid (outsideBlocks text).flatten ≠ [] ↔ sanitized text ≠ [] :=
    not_congr trim_eq_nil_iff.symm
  rw [RemovalSafe, hblock, hblank, or_iff_right (by decide)]
  refine and_congr_right fun _ => forall₂_congr fun d hd => ?_
  change (d (sanitized text) = true → _) ↔ _
  constructor
  · intro h
    by_contra hne
    obtain ⟨k, hk, hdk⟩ := h (by simpa using hne)
    rw [clean_of_mem_outsideBlocks hk hpatterns hage d hd] at hdk
    cases hdk
  · intro h htrue
    rw [h] at htrue
    cases htrue

variable (g : SafetyGuardian) (text : Text) (childAge : Option JsNumber)
  (fallbackContent traceId : Option Text)

end DreamWeaver.Safety
