import DreamWeaver.Foundations.JsValue
import DreamWeaver.Foundations.Regex

/-! # Story content and the story entity

`StoryContent` (`api/src/domain/value-objects/StoryContent.ts`) and `Story`
(`api/src/domain/entities/Story.ts`) with the checks of their factory functions: story content has
at least one paragraph, and a story's primitive fields satisfy `StorySchema`. -/

namespace DreamWeaver.Stories

open Regex

/-! ## Content -/

/-- `StoryChapter` -/
structure StoryChapter where
  title : Text
  content : Text
  audioHint : Option Text
  deriving DecidableEq, Repr

/-- `StoryContentProps` -/
structure StoryContentProps where
  paragraphs : List Text
  chapters : Option (List StoryChapter)
  sleepScore : Option ℚ
  deriving DecidableEq, Repr

/-- `StoryContent`; an instance has at least one paragraph. -/
structure StoryContent where
  paragraphs : List Text
  chapters : List StoryChapter
  sleepScore : ℚ
  nonempty : paragraphs ≠ []
  deriving DecidableEq, Repr

/-- The error `StoryContent.create` throws. -/
def noParagraphError : JsError := ⟨lit "Error", lit "Story must have at least one paragraph"⟩

/-- `StoryContent.create` -/
def StoryContent.create (props : StoryContentProps) : Except JsError StoryContent :=
  if h : props.paragraphs = [] then .error noParagraphError
  else .ok {
    paragraphs := props.paragraphs
    chapters := props.chapters.getD []
    sleepScore := props.sleepScore.getD 5
    nonempty := h }

/-- `text.split(/\n\n+/)` -/
def splitParagraphs (text : Text) : List Text :=
  keptPieces (seqs [.cls (.unit 10), some1 (.unit 10)]) text.length none text

/-- The paragraphs of a raw text: split at blank lines, trimmed, blank ones dropped. -/
def paragraphsOf (text : Text) : List Text :=
  ((splitParagraphs text).map trim).filter fun p => !p.isEmpty

/-- `StoryContent.fromRawText` -/
def StoryContent.fromRawText (text : Text) : Except JsError StoryContent :=
  StoryContent.create ⟨paragraphsOf text, none, none⟩

/-- `StoryContent.getFullText` -/
def StoryContent.getFullText (content : StoryContent) : Text := joinWith (lit "\n\n") content.paragraphs

/-- `StoryContent.getWordCount` -/
def StoryContent.getWordCount (content : StoryContent) : ℕ :=
  let joined := joinWith (lit " ") content.paragraphs
  ((keptPieces (some1 .space) joined.length none joined).filter fun w => !w.isEmpty).length

/-- Every paragraph of a raw text is a part of it. -/
theorem infix_of_mem_paragraphsOf {text p : Text} (h : p ∈ paragraphsOf text) : p <:+: text := by
  obtain ⟨piece, hpiece, rfl⟩ := List.mem_map.mp (List.mem_filter.mp h).1
  exact (trim_isInfix piece).trans (infix_of_mem_keptPieces hpiece)

/-- The blank lines between two pieces are blank. -/
theorem solid_blankLines {prev next : Option CodeUnit} {m : Text}
    (h : Matches (seqs [.cls (.unit 10), some1 (.unit 10)]) prev m next) : solid m = [] := by
  obtain ⟨_, _, rfl, ⟨x, rfl, hx⟩, _, rest, rfl, ⟨y, rfl, hy⟩, hrest⟩ := h
  rw [solid, List.filter_eq_nil_iff]
  have hwhite : ∀ z, CharClass.has (.unit 10) z = true → ¬ (!isWhite z) = true := by
    intro z hz
    obtain rfl : z = 10 := of_decide_eq_true hz
    decide
  intro z hz
  rcases List.mem_append.mp hz with hz | hz
  · exact List.mem_singleton.mp hz ▸ hwhite x hx
  · rcases List.mem_append.mp hz with hz | hz
    · exact List.mem_singleton.mp hz ▸ hwhite y hy
    · exact hwhite z (hrest z hz)

/-- **A text has no paragraphs exactly when it is blank.** -/
theorem paragraphsOf_eq_nil_iff {text : Text} : paragraphsOf text = [] ↔ solid text = [] := by
  have hpieces : solid (splitParagraphs text).flatten = solid text :=
    filter_flatten_keptPieces (fun _ _ _ h => solid_blankLines h) _ _ _
  rw [← hpieces, paragraphsOf, List.filter_eq_nil_iff, solid, List.filter_flatten, List.flatten_eq_nil_iff]
  constructor
  · intro h piece hpiece
    obtain ⟨p, hp, rfl⟩ := List.mem_map.mp hpiece
    have hblank := h (trim p) (List.mem_map_of_mem hp)
    rw [Bool.not_eq_true, Bool.not_eq_false', List.isEmpty_iff, trim_eq_nil_iff] at hblank
    exact hblank
  · intro h piece hpiece
    obtain ⟨p, hp, rfl⟩ := List.mem_map.mp hpiece
    rw [Bool.not_eq_true, Bool.not_eq_false', List.isEmpty_iff, trim_eq_nil_iff]
    exact h _ (List.mem_map_of_mem hp)

/-- Content made from a raw text has the paragraphs of that text. -/
theorem StoryContent.paragraphs_of_fromRawText {text : Text} {content : StoryContent}
    (h : StoryContent.fromRawText text = .ok content) : content.paragraphs = paragraphsOf text := by
  unfold StoryContent.fromRawText StoryContent.create at h
  split at h
  · cases h
  · cases h
    rfl

/-- Content is made from a raw text exactly when it is not blank. -/
theorem StoryContent.fromRawText_resolves_iff {text : Text} :
    (∃ content, StoryContent.fromRawText text = .ok content) ↔ solid text ≠ [] := by
  rw [ne_eq, ← paragraphsOf_eq_nil_iff, StoryContent.fromRawText, StoryContent.create]
  split
  · rename_i hnone
    exact iff_of_false (fun ⟨_, h⟩ => nomatch h) (not_not_intro hnone)
  · rename_i hsome
    exact iff_of_true ⟨_, rfl⟩ hsome

/-! ## The story entity -/

/-- `StoryStatus` -/
inductive StoryStatus where
  | generating
  | completed
  | failed
  | blocked
  deriving DecidableEq, Repr

/-- `StoryProps`; a date is counted in milliseconds where its texts do not matter. -/
structure StoryProps (Date : Type := ℕ) where
  id : Text
  title : Text
  content : StoryContent
  theme : Text
  status : StoryStatus
  ownerId : Text
  createdAt : Date
  generatedAt : Option Date
  audioUrl : Option Text
  deriving DecidableEq, Repr

/-- A hexadecimal digit. -/
def isHexUnit (c : CodeUnit) : Bool :=
  (48 ≤ c && c ≤ 57) || (65 ≤ c && c ≤ 70) || (97 ≤ c && c ≤ 102)

/-- The lengths of the groups of a UUID. -/
def uuidGroups : List ℕ := [8, 4, 4, 4, 12]

/-- Groups of hexadecimal digits of the given lengths, separated by hyphens. -/
def isHexGroups : List ℕ → Text → Bool
  | [], s => s.isEmpty
  | [n], s => s.length == n && s.all isHexUnit
  | n :: ns, s => (s.take n).length == n && (s.take n).all isHexUnit &&
      (match s.drop n with
        | c :: rest => c == 45 && isHexGroups ns rest
        | [] => false)

/-- `z.string().uuid()` -/
def isUuid (s : Text) : Bool := isHexGroups uuidGroups s

/-- `StorySchema` on the primitive fields; `isUrl` is the URL parser of the platform. -/
def storySchema {Date : Type} (isUrl : Text → Bool) (props : StoryProps Date) : Bool :=
  isUuid props.id && (1 ≤ props.title.length && props.title.length ≤ 255) && isUuid props.ownerId &&
    props.audioUrl.all isUrl

/-- The error `StorySchema.parse` throws. -/
def storySchemaError : JsError := ⟨lit "ZodError", lit "Invalid story"⟩

/-- `Story`: its properties have passed `StorySchema`. -/
structure Story (isUrl : Text → Bool) (Date : Type := ℕ) where
  props : StoryProps Date
  valid : storySchema isUrl props = true
  deriving DecidableEq, Repr

/-- `Story.create` -/
def Story.create {Date : Type} (isUrl : Text → Bool) (props : StoryProps Date) :
    Except JsError (Story isUrl Date) :=
  if h : storySchema isUrl props = true then .ok ⟨props, h⟩ else .error storySchemaError

/-- `Story.getEstimatedReadingTime`, at 150 words a minute. -/
def Story.getEstimatedReadingTime {isUrl : Text → Bool} {Date : Type} (story : Story isUrl Date) : ℕ :=
  (story.props.content.getWordCount + 149) / 150

/-- A created story has the given properties. -/
theorem Story.props_of_create {isUrl : Text → Bool} {Date : Type} {props : StoryProps Date} {story : Story isUrl Date}
    (h : Story.create isUrl props = .ok story) : story.props = props := by
  unfold Story.create at h
  split at h
  · cases h
    rfl
  · cases h

end DreamWeaver.Stories
