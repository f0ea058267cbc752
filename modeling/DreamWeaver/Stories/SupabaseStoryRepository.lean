import DreamWeaver.Foundations.IsoDate
import DreamWeaver.Stories.Paragraphs
import DreamWeaver.Stories.StoryHistory

/-! # Saved stories

`SupabaseStoryRepository` (`api/src/infrastructure/SupabaseStoryRepository.ts`) with its rows of texts: a story
is written as its full text and the texts of its dates, and read back from them. The table is a map from keys
to rows, and what the engine makes of a date in a foreign format is a parameter. -/

namespace DreamWeaver.Stories

variable {isUrl : Text → Bool} {otherDates : Text → Option Time} {text : Text}

/-! ## Content -/

/-- Paragraphs that are tidy are the paragraphs of their full text. -/
theorem paragraphsOf_joinWith {ps : List Text} (hps : ∀ p ∈ ps, Tidy p) (hne : ps ≠ []) :
    paragraphsOf (joinWith (lit "\n\n") ps) = ps := by
  have hpieces : splitParagraphs (joinWith (lit "\n\n") ps) = ps :=
    keptPieces_joinWith hps hne (length_le_joinWith (by decide) ps)
  have htrimmed : ps.map trim = ps :=
    (List.map_congr_left fun p hp => (hps p hp).trimmed).trans (List.map_id ps)
  rw [paragraphsOf, hpieces, htrimmed]
  exact List.filter_eq_self.mpr fun p hp => by simp [(hps p hp).ne_nil]

/-- **Content made from a raw text is made from its full text again.** -/
theorem fromRawText_getFullText {content : StoryContent} (h : StoryContent.fromRawText text = .ok content) :
    StoryContent.fromRawText content.getFullText = .ok content := by
  have hparagraphs := StoryContent.paragraphs_of_fromRawText h
  have htidy : ∀ p ∈ content.paragraphs, Tidy p := fun p hp => tidy_of_mem_paragraphsOf (hparagraphs ▸ hp)
  rw [StoryContent.fromRawText, StoryContent.getFullText, paragraphsOf_joinWith htidy content.nonempty,
    hparagraphs]
  exact h

/-! ## Rows -/

namespace SupabaseStoryRepository

/-- `StoryRow` -/
structure StoryRow where
  id : Text
  userId : Text
  title : Text
  content : Text
  theme : Text
  status : Text
  audioUrl : Option Text
  createdAt : Text
  generatedAt : Option Text

/-- The status that a text names. -/
def statusOf (s : Text) : Option StoryStatus :=
  [StoryStatus.generating, .completed, .failed, .blocked].find? fun status => status.text = s

/-- `row.generated_at ? new Date(row.generated_at) : undefined`; `none` is an invalid date. -/
def generatedDate (otherDates : Text → Option Time) : Option Text → Option (Option Time)
  | none => some none
  | some s => if s.isEmpty then some none else (dateParse otherDates s).map some

/-- `mapRowToStory`; `StorySchema` rejects a status that it does not have and a date that is invalid. -/
def mapRowToStory (isUrl : Text → Bool) (otherDates : Text → Option Time) (row : StoryRow) :
    Except JsError (Story isUrl Time) := do
  let content ← StoryContent.fromRawText row.content
  match statusOf row.status, dateParse otherDates row.createdAt, generatedDate otherDates row.generatedAt with
  | some status, some createdAt, some generatedAt =>
    Story.create isUrl {
      id := row.id
      title := row.title
      content := content
      theme := row.theme
      ownerId := row.userId
      status := status
      createdAt := createdAt
      generatedAt := generatedAt
      audioUrl := row.audioUrl.filter fun url => !url.isEmpty }
  | _, _, _ => throw storySchemaError

/-- `mapStoryToRow` -/
def mapStoryToRow (story : Story isUrl Time) : StoryRow where
  id := story.props.id
  userId := story.props.ownerId
  title := story.props.title
  content := story.props.content.getFullText
  theme := story.props.theme
  status := story.props.status.text
  audioUrl := story.props.audioUrl.filter fun url => !url.isEmpty
  createdAt := toISOString story.props.createdAt
  generatedAt := story.props.generatedAt.map toISOString

@[simp] theorem statusOf_text (status : StoryStatus) : statusOf status.text = some status := by
  cases status <;> decide

theorem dateParse_toISOString (t : Time) : dateParse otherDates (toISOString t) = some t := by
  rw [dateParse, parseIso_toISOString]

theorem toISOString_ne_nil (t : Time) : toISOString t ≠ [] := by
  intro hnil
  have hparse := parseIso_toISOString t
  rw [hnil] at hparse
  cases hparse

theorem generatedDate_map_toISOString (generatedAt : Option Time) :
    generatedDate otherDates (generatedAt.map toISOString) = some generatedAt := by
  cases generatedAt with
  | none => rfl
  | some t =>
    rw [Option.map_some, generatedDate, if_neg (by simp [toISOString_ne_nil]), dateParse_toISOString]
    rfl

/-- The address of a story is not empty where no empty text is an address. -/
theorem filter_audioUrl (hempty : isUrl [] = false) (story : Story isUrl Time) :
    (story.props.audioUrl.filter fun url => !url.isEmpty) = story.props.audioUrl := by
  have hvalid := story.valid
  rw [storySchema, Bool.and_eq_true] at hvalid
  cases haudio : story.props.audioUrl with
  | none => rfl
  | some url =>
    have hurl : isUrl url = true := by
      have hall := hvalid.2
      rwa [haudio, Option.all_some] at hall
    have hne : url ≠ [] := by
      rintro rfl
      cases hempty.symm.trans hurl
    exact Option.filter_some_pos (by simp [hne])

/-- **A story is read from its row.** -/
theorem mapRowToStory_mapStoryToRow (hempty : isUrl [] = false) {story : Story isUrl Time}
    (h : StoryContent.fromRawText text = .ok story.props.content) :
    mapRowToStory isUrl otherDates (mapStoryToRow story) = .ok story := by
  have haudio := filter_audioUrl hempty story
  have hcontent : StoryContent.fromRawText (mapStoryToRow story).content = .ok story.props.content :=
    fromRawText_getFullText h
  have hstatus : statusOf (mapStoryToRow story).status = some story.props.status := statusOf_text _
  have hcreated : dateParse otherDates (mapStoryToRow story).createdAt = some story.props.createdAt :=
    dateParse_toISOString _
  have hgenerated : generatedDate otherDates (mapStoryToRow story).generatedAt = some story.props.generatedAt :=
    generatedDate_map_toISOString _
  have haudio' : ((mapStoryToRow story).audioUrl.filter fun url => !url.isEmpty) = story.props.audioUrl := by
    rw [mapStoryToRow, haudio, haudio]
  rw [mapRowToStory, hcontent]
  dsimp only [bind, Except.bind]
  rw [hstatus, hcreated, hgenerated, haudio']
  exact dif_pos story.valid

/-- The content of a story that is read is made from a raw text. -/
theorem content_of_mapRowToStory {row : StoryRow} {story : Story isUrl Time}
    (h : mapRowToStory isUrl otherDates row = .ok story) :
    StoryContent.fromRawText row.content = .ok story.props.content := by
  obtain ⟨content, hcontent, h⟩ := exists_of_bind_ok h
  split at h
  · rw [Story.props_of_create h]
    exact hcontent
  · cases h

/-! ## The table -/

/-- The rows of `stories`, by their keys. -/
abbrev StoryTable : Type := Text → Option StoryRow

/-- `save` -/
def save (table : StoryTable) (story : Story isUrl Time) : StoryTable :=
  Function.update table story.props.id (some (mapStoryToRow story))

/-- `findById` -/
def findById (isUrl : Text → Bool) (otherDates : Text → Option Time) (table : StoryTable) (id : Text) :
    Except JsError (Option (Story isUrl Time)) :=
  match table id with
  | none => .ok none
  | some row => (mapRowToStory isUrl otherDates row).map some

/-- A story that is found is read from its row. -/
theorem exists_row_of_findById {table : StoryTable} {id : Text} {story : Story isUrl Time}
    (h : findById isUrl otherDates table id = .ok (some story)) :
    ∃ row, table id = some row ∧ mapRowToStory isUrl otherDates row = .ok story := by
  unfold findById at h
  split at h
  · cases h
  · rename_i row hrow
    cases hread : mapRowToStory isUrl otherDates row with
    | error e =>
      rw [hread] at h
      cases h
    | ok found =>
      rw [hread] at h
      cases h
      exact ⟨row, hrow, hread⟩

/-- Load a story and save what was loaded, so many times. -/
def reload (isUrl : Text → Bool) (otherDates : Text → Option Time) (id : Text) :
    ℕ → StoryTable → Except JsError StoryTable
  | 0, table => .ok table
  | n + 1, table => do
    match ← findById isUrl otherDates table id with
    | none => reload isUrl otherDates id n table
    | some story => reload isUrl otherDates id n (save table story)

theorem findById_save (hempty : isUrl [] = false) {story : Story isUrl Time}
    (h : StoryContent.fromRawText text = .ok story.props.content) (table : StoryTable) :
    findById isUrl otherDates (save table story) story.props.id = .ok (some story) := by
  rw [findById, save, Function.update_self]
  dsimp only
  rw [mapRowToStory_mapStoryToRow hempty h]
  rfl

/-- **Loading and saving changes nothing**, however often it is done. -/
theorem reload_save (hempty : isUrl [] = false) {story : Story isUrl Time}
    (h : StoryContent.fromRawText text = .ok story.props.content) (table : StoryTable) (n : ℕ) :
    reload isUrl otherDates story.props.id n (save table story) = .ok (save table story) := by
  induction n with
  | zero => rfl
  | succ n ih =>
    have hagain : save (save table story) story = save table story := Function.update_idem _ _ _
    rw [reload, findById_save hempty h]
    dsimp only [bind, Except.bind]
    rw [hagain, ih]

/-- **A saved story is the story that is loaded.** A text that is not blank makes a content that is made from
its full text again. A story with such a content is read from its row with all that it has, and saving and
loading it any number of times leaves it as it is. -/
theorem saved_is_loaded (hempty : isUrl [] = false) (otherDates : Text → Option Time) :
    (∀ text, solid text ≠ [] → ∃ content, StoryContent.fromRawText text = .ok content ∧
      StoryContent.fromRawText content.getFullText = .ok content) ∧
    ∀ story : Story isUrl Time, (∃ text, StoryContent.fromRawText text = .ok story.props.content) →
      mapRowToStory isUrl otherDates (mapStoryToRow story) = .ok story ∧
      ∀ table n, reload isUrl otherDates story.props.id n (save table story) = .ok (save table story) ∧
        findById isUrl otherDates (save table story) story.props.id = .ok (some story) := by
  constructor
  · intro text hsolid
    obtain ⟨content, hcontent⟩ := StoryContent.fromRawText_resolves_iff.mpr hsolid
    exact ⟨content, hcontent, fromRawText_getFullText hcontent⟩
  · rintro story ⟨text, htext⟩
    exact ⟨mapRowToStory_mapStoryToRow hempty htext,
      fun table n => ⟨reload_save hempty htext table n, findById_save hempty htext table⟩⟩

/-- The texts that begin like an address. -/
def isHttps (url : Text) : Bool := (lit "https://").isPrefixOf url

/-- A story with white space between its paragraphs. -/
def drowsyText : Text := lit "\n\n  The moon\trises.\r\n\n\n \t \n\nGood\nnight. "

/-- A story that was made from that text. -/
def drowsy : Story isHttps Time where
  props := {
    id := lit "00000000-0000-4000-8000-000000000001"
    title := lit "Drowsy"
    content := ⟨[lit "The moon\trises.", lit "Good\nnight."], [], 5, List.cons_ne_nil _ _⟩
    theme := lit "moon"
    status := .completed
    ownerId := lit "00000000-0000-4000-8000-000000000002"
    createdAt := ⟨1770000000123, by decide⟩
    generatedAt := some ⟨1770000004567, by decide⟩
    audioUrl := some (lit "https://media.test/drowsy.mp3") }
  valid := by decide

theorem fromRawText_drowsyText : StoryContent.fromRawText drowsyText = .ok drowsy.props.content := by decide

/-- The story of that text is loaded as it was saved. -/
theorem drowsy_is_loaded : (∃ content, StoryContent.fromRawText drowsyText = .ok content ∧
      StoryContent.fromRawText content.getFullText = .ok content) ∧
    mapRowToStory isHttps (fun _ => none) (mapStoryToRow drowsy) = .ok drowsy ∧
    reload isHttps (fun _ => none) drowsy.props.id 3 (save (fun _ => none) drowsy)
      = .ok (save (fun _ => none) drowsy) := by
  obtain ⟨hcontents, hstories⟩ := @saved_is_loaded isHttps rfl fun _ => none
  obtain ⟨hrow, htable⟩ := hstories drowsy ⟨drowsyText, fromRawText_drowsyText⟩
  exact ⟨hcontents drowsyText (by decide), hrow, (htable (fun _ => none) 3).1⟩

end SupabaseStoryRepository

end DreamWeaver.Stories
