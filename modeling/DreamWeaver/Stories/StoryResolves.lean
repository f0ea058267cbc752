import DreamWeaver.Stories.StoryChunks

/-! # Which texts become stories

A story has a title of 1 to 255 units, at least one paragraph and, if it has audio, an audio address that is
a URL: the factory functions throw otherwise. Title and text come from the model, the address from speech
synthesis, and nothing brings them into that shape: with every service at work a run saves a story and
answers with it for exactly the texts and addresses that have it already. -/

namespace DreamWeaver.Stories

open Regex Safety Traced

/-! ## What a story needs -/

/-- A title of a length that `StorySchema` accepts. -/
def TitleFits (title : Text) : Prop := 1 ≤ title.length ∧ title.length ≤ 255

/-- Something besides white space is left of a text when a title line is taken off. -/
def HasParagraph (text : Text) : Prop := solid (removeOnce titlePattern text) ≠ []

theorem storySchema_iff {isUrl : Text → Bool} {props : StoryProps} :
    storySchema isUrl props = true ↔ isUuid props.id = true ∧ TitleFits props.title ∧
      isUuid props.ownerId = true ∧ ∀ url, props.audioUrl = some url → isUrl url = true := by
  rw [storySchema, Bool.and_eq_true, Bool.and_eq_true, Bool.and_eq_true, Bool.and_eq_true,
    decide_eq_true_iff, decide_eq_true_iff, TitleFits, and_assoc, and_assoc, Option.all_eq_true]

/-- A story is created from exactly the properties that `StorySchema` accepts. -/
theorem Story.create_resolves_iff {isUrl : Text → Bool} {props : StoryProps} :
    (∃ story, Story.create isUrl props = .ok story) ↔ storySchema isUrl props = true := by
  rw [Story.create]
  split
  · rename_i hvalid
    exact iff_of_true ⟨_, rfl⟩ hvalid
  · rename_i hinvalid
    refine iff_of_false ?_ hinvalid
    rintro ⟨_, h⟩
    cases h

/-- The text that is cleaned gives content exactly when it has a paragraph. -/
theorem fromRawText_cleanContent_resolves_iff {text : Text} :
    (∃ content, StoryContent.fromRawText (cleanContent text) = .ok content) ↔ HasParagraph text := by
  rw [StoryContent.fromRawText_resolves_iff, cleanContent, solid_trim, HasParagraph]

namespace GenerateStoryUseCase

variable {c : Collaborators} {request : GenerateStoryRequest} {prepared : Prepared}

/-- What the AI answers a prepared request: the text of the stream with its title, or the story of the
fallback generation if the stream fails. -/
def aiStory (c : Collaborators) (prepared : Prepared) : Except JsError (Text × Text) :=
  match (storyStream c prepared).ending with
  | .ok _ => .ok (titleOf (storyStream c prepared).chunks.flatten, (storyStream c prepared).chunks.flatten)
  | .error _ => (c.generateStory (generationInput prepared prepared.storyPrompt)).map
      fun story => (story.title, story.content)

/-- Every service around the run does its part: no AI call but the stream fails, no repository fails, the
event bus takes every event, stories are saved, and the identifiers are UUIDs. Nothing is said of what the
AI answers, of speech synthesis, or of the voice profiles. -/
structure Undisturbed (c : Collaborators) : Prop where
  unlocks : ∀ n userId, ∃ companions, c.checkUnlock n userId = .ok companions
  conducts : ∀ request, ∃ session, c.conductStorySession request = .ok session
  prompts : ∀ vars, ∃ prompt, c.getStoryPrompt vars = .ok prompt
  safetyFallback : ∃ fallback, c.getSafetyFallback = .ok fallback
  generates : ∀ input, ∃ story, c.generateStory input = .ok story
  finds : ∀ findById, c.findStory = some findById → ∀ id, ∃ story, findById id = .ok story
  saves : ∃ save, c.saveStory = some save ∧ ∀ story, save story = .ok ()
  publishes : ∀ bus, c.publish = some bus → ∀ event, bus event = .ok ()
  identifier : isUuid (newStoryId c) = true

/-- What can be told with a title and a text: the title fits, the text has a paragraph, and the address of
the audio that is made of its paragraphs, if there is one, is a URL. -/
structure CanBeTold (c : Collaborators) (request : GenerateStoryRequest) (title text : Text) : Prop where
  titled : TitleFits title
  hasParagraph : HasParagraph text
  audible : ∀ synthesize voice url, c.synthesize = some synthesize → voiceModel c request = .ok voice →
    synthesize (narration (paragraphsOf (cleanContent text))) voice = .ok (some url) → c.isUrl url = true

/-! ## The steps that always resolve -/

theorem exists_prepared (hc : Undisturbed c) (hvalid : validateRequest request = .ok ()) :
    ∃ prepared, prepare c request = .ok prepared := by
  have hcontext : ∃ context, reinstantiate c request = .ok context := by
    rw [reinstantiate]
    split
    · rename_i storyId findById _ hfind
      obtain ⟨story, hstory⟩ := hc.finds findById hfind storyId
      rw [hstory]
      exact ⟨_, rfl⟩
    · exact ⟨none, rfl⟩
  obtain ⟨session, hsession⟩ := hc.conducts request
  obtain ⟨context, hcontext⟩ := hcontext
  have hrest : ∀ companions, ∃ prompt streamPrompt,
      c.getStoryPrompt (promptVariables session companions context false) = .ok prompt ∧
        c.getStoryPrompt (promptVariables session companions context true) = .ok streamPrompt := by
    intro companions
    obtain ⟨prompt, hprompt⟩ := hc.prompts (promptVariables session companions context false)
    obtain ⟨streamPrompt, hstream⟩ := hc.prompts (promptVariables session companions context true)
    exact ⟨prompt, streamPrompt, hprompt, hstream⟩
  cases huser : presentUser request with
  | none =>
    obtain ⟨prompt, streamPrompt, hprompt, hstream⟩ := hrest []
    refine ⟨⟨[], session.refinedRequest, prompt, streamPrompt⟩, ?_⟩
    simp only [prepare, hvalid, huser, hsession, hcontext, hprompt, hstream, bind, Except.bind, pure, Except.pure]
  | some userId =>
    obtain ⟨companions, hcompanions⟩ := hc.unlocks 0 userId
    obtain ⟨prompt, streamPrompt, hprompt, hstream⟩ := hrest companions
    refine ⟨⟨companions, session.refinedRequest, prompt, streamPrompt⟩, ?_⟩
    simp only [prepare, hvalid, huser, hcompanions, hsession, hcontext, hprompt, hstream, bind, Except.bind, pure,
      Except.pure]

/-- The stream, or the fallback generation, gives what the AI answers. -/
theorem result_generate (hc : Undisturbed c) : (generate c request prepared).result = aiStory c prepared := by
  have hcompletes : StreamCompletes c request prepared ↔ (storyStream c prepared).ending = .ok () :=
    and_iff_left fun bus hbus event _ => takes_iff.mpr (hc.publishes bus hbus event)
  rw [aiStory]
  cases hending : (storyStream c prepared).ending with
  | ok _ => rw [generate_of_completes (hcompletes.mpr hending)]
  | error e =>
    rw [generate_of_interrupted]
    rw [hcompletes, hending]
    exact fun h => nomatch h

theorem exists_aiStory (hc : Undisturbed c) (prepared : Prepared) : ∃ generated, aiStory c prepared = .ok generated := by
  rw [aiStory]
  cases (storyStream c prepared).ending with
  | ok _ => exact ⟨_, rfl⟩
  | error e =>
    -- a stream that fails is replaced by a generation, which resolves
    obtain ⟨story, hstory⟩ := hc.generates (generationInput prepared prepared.storyPrompt)
    rw [hstory]
    exact ⟨_, rfl⟩

theorem result_publish (hc : Undisturbed c) (event : DomainEvent) : (publish c event).result = .ok () := by
  cases hbus : c.publish with
  | none => rw [publish_of_none hbus, result_pure]
  | some bus =>
    rw [publish_of_some hbus]
    exact hc.publishes bus hbus event

theorem result_publishBeats (hc : Undisturbed c) (storyId : Text) (totalBeats : ℕ) (beats : List ℕ) :
    (publishBeats c request storyId totalBeats beats).result = .ok () := by
  induction beats with
  | nil => rfl
  | cons i beats ih =>
    rw [publishBeats]
    exact bind_resolves (result_publish hc _) ih

/-- A story that is told is announced and answered with. -/
theorem announce_resolves (hc : Undisturbed c) (n : ℕ)
    (told : Story c.isUrl × Option Text × Option (List Companion)) :
    ∃ response, (announce c request n told).result = .ok response := by
  have hcompletion : (publishCompletion c request n told.1.props).result = .ok () := by
    refine bind_resolves (result_publishBeats hc _ _ _) ?_
    split
    · exact result_publish hc _
    · rfl
  exact ⟨_, bind_resolves hcompletion rfl⟩

theorem result_persist (hc : Undisturbed c) (story : StoryProps) : (persist c request story).result = .ok () := by
  obtain ⟨save, hsave, hsaves⟩ := hc.saves
  rw [persist]
  split
  · rename_i save' _ hsave' _
    obtain rfl := Option.some.inj (hsave.symm.trans hsave')
    exact bind_resolves rfl (hsaves story)
  · rfl

/-- A story of a user is handed to the repository. -/
theorem saved_mem_persist (hc : Undisturbed c) {userId : Text} (huser : presentUser request = some userId)
    (story : StoryProps) : .saved story ∈ (persist c request story).trace := by
  obtain ⟨save, hsave, -⟩ := hc.saves
  rw [persist, hsave, huser]
  exact mem_trace_bind_left (List.mem_singleton_self _)

theorem exists_newlyUnlocked (hc : Undisturbed c) (request : GenerateStoryRequest) (companions : List Companion) :
    ∃ unlocked, newlyUnlocked c request companions = .ok unlocked := by
  rw [newlyUnlocked]
  split
  · exact ⟨none, rfl⟩
  · rename_i userId _
    obtain ⟨post, hpost⟩ := hc.unlocks 1 userId
    rw [hpost]
    exact ⟨_, rfl⟩

/-- **The audio of a story**: what a synthesis that succeeds answers; any failure leaves none. -/
theorem result_narrate_eq_some_iff {content : StoryContent} {url : Text} :
    (narrate c request content).result = .ok (some url) ↔ ∃ synthesize voice,
      c.synthesize = some synthesize ∧ voiceModel c request = .ok voice ∧
        synthesize (narration content.paragraphs) voice = .ok (some url) := by
  rw [narrate]
  cases c.synthesize with
  | none =>
    refine iff_of_false (fun h => by cases h) ?_
    rintro ⟨_, _, h, -⟩
    cases h
  | some synthesize =>
    cases hvoice : voiceModel c request with
    | error e =>
      refine iff_of_false ?_ ?_
      · dsimp only
        rw [lift_error_bind]
        intro h
        cases h
      · rintro ⟨_, _, _, h, -⟩
        cases h
    | ok voice =>
      dsimp only
      rw [lift_ok_bind, bind_of_ok (result_emit _), catchWith, result_lift]
      cases haudio : synthesize (narration content.paragraphs) voice with
      | error e =>
        refine iff_of_false (fun h => by cases h) ?_
        rintro ⟨_, _, ⟨⟩, ⟨⟩, h⟩
        cases haudio.symm.trans h
      | ok audioUrl =>
        constructor
        · intro h
          exact ⟨synthesize, voice, rfl, rfl, haudio.trans h⟩
        · rintro ⟨_, _, ⟨⟩, ⟨⟩, h⟩
          exact haudio.symm.trans h

/-! ## What is told -/

section Told

variable {title text fallback : Text} {safety : SafetyCheckResult} {userId : Text}

/-- A user with a UUID is present, and owns the story. -/
theorem owner_of_user (huser : request.userId = some userId) (huuid : isUuid userId = true) :
    presentUser request = some userId ∧ orText request.userId (lit "system") = userId := by
  cases userId with
  | nil => cases huuid
  | cons _ _ =>
    rw [presentUser, huser]
    exact ⟨rfl, rfl⟩

/-- **When a text is told**: the factory functions take what can be told, and every other step resolves. -/
theorem tell_resolves_iff (title : Text) (hc : Undisturbed c) (huser : request.userId = some userId)
    (huuid : isUuid userId = true) (hfallback : c.getSafetyFallback = .ok fallback)
    (hsafety : c.safetyGuardian.checkContent text prepared.refinedRequest.childAge (some fallback) none
      = .ok safety) :
    (∃ told, (tell c request prepared (title, text)).result = .ok told) ↔
      CanBeTold c request title (finalContent safety text) := by
  have hchecked : (checkSafety c prepared text).result = .ok (finalContent safety text) := by
    rw [checkSafety_eq c hfallback hsafety]
  constructor
  · rintro ⟨told, h⟩
    obtain ⟨final, content, hfinal, hcontent, haudio, hstory, -, -⟩ := exists_stages_of_tell h
    obtain rfl := Except.ok.inj (hchecked.symm.trans hfinal)
    obtain ⟨-, htitled, -, hurl⟩ := storySchema_iff.mp (Story.create_resolves_iff.mp ⟨told.1, hstory⟩)
    refine ⟨htitled, fromRawText_cleanContent_resolves_iff.mp ⟨content, hcontent⟩, ?_⟩
    intro synthesize voice url hsynthesize hvoice hspoken
    rw [← StoryContent.paragraphs_of_fromRawText hcontent] at hspoken
    have hsome := result_narrate_eq_some_iff.mpr ⟨synthesize, voice, hsynthesize, hvoice, hspoken⟩
    exact hurl url (Except.ok.inj (haudio.symm.trans hsome))
  · -- every stage has something to resolve with; only the factory functions had to be asked
    rintro ⟨htitled, hparagraph, haudible⟩
    obtain ⟨content, hcontent⟩ := fromRawText_cleanContent_resolves_iff.mpr hparagraph
    obtain ⟨audioUrl, haudio⟩ := narrate_resolves c request content
    have hurl : ∀ url, audioUrl = some url → c.isUrl url = true := by
      rintro url rfl
      obtain ⟨synthesize, voice, hsynthesize, hvoice, hspoken⟩ := result_narrate_eq_some_iff.mp haudio
      rw [StoryContent.paragraphs_of_fromRawText hcontent] at hspoken
      exact haudible synthesize voice url hsynthesize hvoice hspoken
    have howner : isUuid (orText request.userId (lit "system")) = true := by
      rw [(owner_of_user huser huuid).2]
      exact huuid
    have hschema : storySchema c.isUrl (storyProps c request title content audioUrl) = true :=
      storySchema_iff.mpr ⟨hc.identifier, htitled, howner, hurl⟩
    obtain ⟨story, hstory⟩ := Story.create_resolves_iff.mpr hschema
    obtain ⟨unlocked, hunlocked⟩ := exists_newlyUnlocked hc request prepared.companions
    refine ⟨(story, audioUrl, unlocked), bind_resolves hchecked ?_⟩
    refine bind_resolves ((result_lift _).trans hcontent) (bind_resolves haudio ?_)
    refine bind_resolves ((result_lift _).trans hstory) (bind_resolves (result_persist hc _) ?_)
    exact bind_resolves ((result_lift _).trans hunlocked) (result_pure _)

/-- A story that is told to a user has been saved. -/
theorem saved_mem_tell (hc : Undisturbed c) (huser : presentUser request = some userId)
    {told : Story c.isUrl × Option Text × Option (List Companion)}
    (h : (tell c request prepared (title, text)).result = .ok told) :
    .saved told.1.props ∈ (tell c request prepared (title, text)).trace := by
  obtain ⟨final, content, hfinal, hcontent, haudio, hstory, -, -⟩ := exists_stages_of_tell h
  rw [tell]
  apply mem_trace_bind_right hfinal
  apply mem_trace_bind_right ((result_lift _).trans hcontent)
  apply mem_trace_bind_right haudio
  apply mem_trace_bind_right ((result_lift _).trans hstory)
  -- the story is handed to the repository before the companions are looked up
  apply mem_trace_bind_left
  exact saved_mem_persist hc huser _

end Told

/-! ## Runs that give a story -/

/-- The run answers with a story that it has saved: with a title that fits and at least one paragraph. -/
def GivesSavedStory (run : Traced Effect GenerateStoryResponse) : Prop :=
  ∃ response, run.result = .ok response ∧ .saved response.story ∈ run.trace ∧
    TitleFits response.story.title ∧ response.story.content.paragraphs ≠ []

/-- **Which answers of the AI become stories**: with every service at work, a request of a user with a UUID
gives a saved story exactly when the title of what the AI answers fits and what the guardian makes of its text
can be told. -/
theorem givesSavedStory_iff {userId : Text} (hc : Undisturbed c) (hvalid : validateRequest request = .ok ())
    (huser : request.userId = some userId) (huuid : isUuid userId = true) :
    GivesSavedStory (execute c request) ↔ ∀ prepared fallback title text safety,
      prepare c request = .ok prepared → c.getSafetyFallback = .ok fallback →
      aiStory c prepared = .ok (title, text) →
      c.safetyGuardian.checkContent text prepared.refinedRequest.childAge (some fallback) none = .ok safety →
      CanBeTold c request title (finalContent safety text) := by
  obtain ⟨prepared, hprepared⟩ := exists_prepared hc hvalid
  obtain ⟨fallback, hfallback⟩ := hc.safetyFallback
  obtain ⟨⟨title, text⟩, hstory⟩ := exists_aiStory hc prepared
  obtain ⟨safety, hsafety, -⟩ := checkContent_fails_closed c.safetyGuardian text
    prepared.refinedRequest.childAge (some fallback) none
  have hgenerated : (generate c request prepared).result = .ok (title, text) := (result_generate hc).trans hstory
  have htold := tell_resolves_iff title hc huser huuid hfallback hsafety
  rw [execute_of_prepared hprepared]
  constructor
  · rintro ⟨response, hresponse, -⟩ prepared' fallback' title' text' safety' hprepared' hfallback' hstory' hsafety'
    obtain rfl := Except.ok.inj (hprepared.symm.trans hprepared')
    obtain rfl := Except.ok.inj (hfallback.symm.trans hfallback')
    obtain ⟨rfl, rfl⟩ := Prod.mk.inj (Except.ok.inj (hstory.symm.trans hstory'))
    obtain rfl := Except.ok.inj (hsafety.symm.trans hsafety')
    obtain ⟨generated, hgenerated', hfinish⟩ := bind_result_eq_ok hresponse
    obtain rfl := Except.ok.inj (hgenerated.symm.trans hgenerated')
    rw [finish_eq] at hfinish
    obtain ⟨told, htell, -⟩ := bind_result_eq_ok hfinish
    exact htold.mp ⟨told, htell⟩
  · intro h
    obtain ⟨told, htell⟩ := htold.mpr (h prepared fallback title text safety hprepared hfallback hstory hsafety)
    obtain ⟨response, hannounced⟩ := announce_resolves hc ((storyStream c prepared).chunks.length + 1) told
    have hresponse := result_announce hannounced
    refine ⟨response, bind_resolves hgenerated ?_, mem_trace_bind_right hgenerated ?_, ?_⟩
    · rw [finish_eq]
      exact bind_resolves htell hannounced
    · rw [finish_eq, hresponse]
      exact mem_trace_bind_left (saved_mem_tell hc (owner_of_user huser huuid).1 htell)
    · rw [hresponse]
      exact ⟨(storySchema_iff.mp told.1.valid).2.1, told.1.props.content.nonempty⟩

/-- Collaborators that save stories, with the given stream. -/
def savingStream (text : Text) : Collaborators :=
  { bloodStream with
    generateStoryStream := fun _ => ⟨[text], .ok ()⟩
    saveStory := some fun _ => .ok () }

/-- The request for a story about the moon, by a user. -/
def userRequest : GenerateStoryRequest :=
  { moonRequest with userId := some (lit "11111111-2222-4333-8444-555555555555") }

theorem undisturbed_savingStream (text : Text) : Undisturbed (savingStream text) where
  unlocks _ _ := ⟨_, rfl⟩
  conducts _ := ⟨_, rfl⟩
  prompts _ := ⟨_, rfl⟩
  safetyFallback := ⟨_, rfl⟩
  generates _ := ⟨_, rfl⟩
  finds _ h := nomatch h
  saves := ⟨_, rfl, fun _ => rfl⟩
  publishes _ h _ := by
    obtain rfl := Option.some.inj h
    rfl
  identifier :=
    have huuid : isUuid (lit "00000000-0000-0000-0000-000000000000") = true := by decide
    huuid

theorem givesSavedStory_iff_moon :
    GivesSavedStory (execute (savingStream (lit "Moon\nOnce")) userRequest) ↔
      ∀ prepared fallback title text safety, prepare (savingStream (lit "Moon\nOnce")) userRequest = .ok prepared →
        (savingStream (lit "Moon\nOnce")).getSafetyFallback = .ok fallback →
        aiStory (savingStream (lit "Moon\nOnce")) prepared = .ok (title, text) →
        (savingStream (lit "Moon\nOnce")).safetyGuardian.checkContent text prepared.refinedRequest.childAge
          (some fallback) none = .ok safety →
        CanBeTold (savingStream (lit "Moon\nOnce")) userRequest title (finalContent safety text) :=
  givesSavedStory_iff (undisturbed_savingStream _) rfl rfl (by decide)

/-- **Texts that become no story**: with every service at work, a text with an empty first line is rejected for
its empty title, and a text of a title line only for having no paragraph. -/
theorem savingStream_throws :
    Undisturbed (savingStream (lit "\nOnce")) ∧ Undisturbed (savingStream (lit "Title: Moon\n\n")) ∧
      validateRequest userRequest = .ok () ∧
      isUuid (lit "11111111-2222-4333-8444-555555555555") = true ∧
      (execute (savingStream (lit "\nOnce")) userRequest).result = .error storySchemaError ∧
      (execute (savingStream (lit "Title: Moon\n\n")) userRequest).result = .error noParagraphError ∧
      ¬ GivesSavedStory (execute (savingStream (lit "\nOnce")) userRequest) ∧
      ¬ GivesSavedStory (execute (savingStream (lit "Title: Moon\n\n")) userRequest) := by
  have hempty : (execute (savingStream (lit "\nOnce")) userRequest).result = .error storySchemaError := by
    decide +kernel
  have hbare : (execute (savingStream (lit "Title: Moon\n\n")) userRequest).result = .error noParagraphError := by
    decide +kernel
  refine ⟨undisturbed_savingStream _, undisturbed_savingStream _, rfl, by decide, hempty, hbare, ?_, ?_⟩
  · rintro ⟨response, hresponse, -⟩
    cases hempty.symm.trans hresponse
  · rintro ⟨response, hresponse, -⟩
    cases hbare.symm.trans hresponse

end GenerateStoryUseCase

end DreamWeaver.Stories
