import DreamWeaver.Stories.GenerateStory
import DreamWeaver.Safety.CheckContent

/-! # What a story generation lets out

A run of `GenerateStoryUseCase.execute` lets text out through four doors: chunk events, speech
synthesis, the repository and the response. `EffectVetted` says that what passes a door has been
cleared by the guardian before; `execute_releases_only_vetted_iff` says exactly when a run keeps to
it. Paragraphs and narrations always do, since they are cut from the text the guardian hands back;
chunks never do, since they are published before the guardian runs; titles do when they are read
off a cleared text. -/

namespace DreamWeaver.Stories

open Regex Safety Traced

/-! ## Cleared texts -/

/-- The texts an effect clears: an accepted text and its sanitized content, or the fallback. -/
def clearedBy : Effect → List Text
  | .checked text result =>
    if result.isSafe then text :: result.sanitizedContent.toList else result.fallbackContent.toList
  | _ => []

/-- The texts the guardian has cleared in the course of a trace. -/
def cleared (trace : List Effect) : List Text := trace.flatMap clearedBy

@[simp] theorem cleared_append (s t : List Effect) : cleared (s ++ t) = cleared s ++ cleared t :=
  List.flatMap_append

/-- A text that is a part of a cleared text. -/
def PartOf (clearedTexts : List Text) (t : Text) : Prop := ∃ s ∈ clearedTexts, t <:+: s

/-- A vetted title: the placeholder, or a part of a cleared text. -/
def TitleVetted (clearedTexts : List Text) (title : Text) : Prop :=
  title = untitled ∨ PartOf clearedTexts title

/-- A story with a vetted title whose paragraphs are parts of cleared texts. -/
def StoryVetted (clearedTexts : List Text) (story : StoryProps) : Prop :=
  TitleVetted clearedTexts story.title ∧ ∀ p ∈ story.content.paragraphs, PartOf clearedTexts p

/-- An effect lets out only what the effects before it have cleared. -/
def EffectVetted (before : List Effect) : Effect → Prop
  | .published event =>
    match event.payload with
    | .storyChunkGenerated _ _ _ text _ => PartOf (cleared before) text
    | _ => True
  | .checked _ _ => True
  | .synthesized text _ =>
    ∃ paragraphs, text = narration paragraphs ∧ ∀ p ∈ paragraphs, PartOf (cleared before) p
  | .saved story => StoryVetted (cleared before) story

/-- A run that lets out only vetted text, in its effects and in its response. -/
def ReleasesOnlyVetted (run : Traced Effect GenerateStoryResponse) : Prop :=
  Keeps EffectVetted [] run ∧
    ∀ response, run.result = .ok response → StoryVetted (cleared run.trace) response.story

/-- Nothing is a part of no text. -/
theorem not_partOf_nil (t : Text) : ¬ PartOf [] t := by simp [PartOf]

/-! ## The texts cut from the guardian's answer -/

/-- Removing a title line leaves a part of the text: the pattern matches at its start only. -/
theorem removeOnce_titlePattern_isInfix (text : Text) : removeOnce titlePattern text <:+: text := by
  rw [removeOnce]
  split
  · exact List.infix_refl text
  · rename_i a m rest hsearch
    obtain ⟨rfl, hm, -⟩ := search_spec hsearch
    obtain ⟨m₁, m₂, -, ⟨-, hstart⟩, -⟩ := hm
    have ha : a = [] := by simpa using hstart
    rw [ha, List.nil_append, List.nil_append]
    exact (List.suffix_append m rest).isInfix

/-- The cleaned text is a part of the text. -/
theorem cleanContent_isInfix (text : Text) : cleanContent text <:+: text :=
  (trim_isInfix _).trans (removeOnce_titlePattern_isInfix text)

/-- Every paragraph of the cleaned text is a part of the text. -/
theorem infix_of_mem_cleanContent {text p : Text} (h : p ∈ paragraphsOf (cleanContent text)) :
    p <:+: text :=
  (infix_of_mem_paragraphsOf h).trans (cleanContent_isInfix text)

/-- The text the use case carries on with is cleared by the check, or it is empty. -/
theorem finalContent_mem_cleared (safety : SafetyCheckResult) (text : Text) :
    finalContent safety text ∈ cleared [.checked text safety] ∨ finalContent safety text = [] := by
  rw [finalContent, cleared, List.flatMap_singleton, clearedBy]
  split
  · left
    cases hs : safety.sanitizedContent with
    | none => simp
    | some s => cases s <;> simp [orText]
  · cases safety.fallbackContent <;> simp

/-- The paragraphs made from the text the use case carries on with are parts of cleared text. -/
theorem partOf_of_mem_finalContent {safety : SafetyCheckResult} {text p : Text}
    (h : p ∈ paragraphsOf (cleanContent (finalContent safety text))) :
    PartOf (cleared [.checked text safety]) p := by
  rcases finalContent_mem_cleared safety text with hmem | hempty
  · exact ⟨_, hmem, infix_of_mem_cleanContent h⟩
  · have hnone : paragraphsOf (cleanContent []) = [] := by decide +kernel
    rw [hempty, hnone] at h
    cases h

namespace GenerateStoryUseCase

variable (c : Collaborators) (request : GenerateStoryRequest)

/-! ## The steps and their traces -/

/-- Effects other than a safety check. -/
def Unchecked (_ : List Effect) : Effect → Prop
  | .checked _ _ => False
  | _ => True

/-- Without a safety check nothing is cleared. -/
theorem cleared_eq_nil_of_keeps {α : Type} {x : Traced Effect α} {before : List Effect}
    (h : Keeps Unchecked before x) : cleared x.trace = [] := by
  have key : ∀ (trace before : List Effect), AllAllowed Unchecked before trace →
      cleared trace = [] := by
    intro trace
    induction trace with
    | nil => intro _ _; rfl
    | cons e trace ih =>
      rintro before ⟨he, hrest⟩
      have htail : cleared trace = [] := ih _ hrest
      cases e with
      | checked _ _ => exact he.elim
      | _ => simpa [cleared, clearedBy] using htail
  exact key _ _ h

/-- Publishing a beat or a completion respects any rule that allows such events. -/
theorem keeps_publish {P : List Effect → Effect → Prop} {event : DomainEvent}
    (h : ∀ before, P before (.published event)) (before : List Effect) :
    Keeps P before (publish c event) := by
  unfold publish
  split
  · exact keeps_pure ()
  · rw [keeps_bind, keeps_emit]
    exact ⟨h before, fun _ _ => keeps_lift _⟩

/-- The beats of a story respect any rule that allows beat events. -/
theorem keeps_publishBeats {P : List Effect → Effect → Prop} (storyId : Text) (totalBeats : ℕ)
    (h : ∀ before i, P before (.published (beatEvent c request storyId totalBeats i)))
    (beats : List ℕ) (before : List Effect) :
    Keeps P before (publishBeats c request storyId totalBeats beats) := by
  induction beats generalizing before with
  | nil => exact keeps_pure ()
  | cons i beats ih =>
    rw [publishBeats, keeps_bind]
    exact ⟨keeps_publish c (fun b => h b i) before, fun _ _ => ih _⟩

/-- The completion events respect any rule that allows beats and completions. -/
theorem keeps_publishCompletion {P : List Effect → Effect → Prop} (n : ℕ) (story : StoryProps)
    (hbeat : ∀ before i total,
      P before (.published (beatEvent c request story.id total i)))
    (hdone : ∀ before userId, P before (.published (completedEvent c request n userId story.id)))
    (before : List Effect) : Keeps P before (publishCompletion c request n story) := by
  rw [publishCompletion, keeps_bind]
  refine ⟨keeps_publishBeats c request _ _ (fun b i => hbeat b i _) _ _, fun _ _ => ?_⟩
  split
  · exact keeps_publish c (fun b => hdone b _) _
  · exact keeps_pure ()

/-- A narration respects a rule if the synthesis of its text does. -/
theorem keeps_narrate {P : List Effect → Effect → Prop} {content : StoryContent}
    {before : List Effect}
    (h : ∀ voice, P before (.synthesized (narration content.paragraphs) voice)) :
    Keeps P before (narrate c request content) := by
  unfold narrate
  split
  · exact keeps_pure none
  · rw [keeps_catchWith, keeps_bind]
    refine ⟨⟨keeps_lift _, fun voice _ => ?_⟩, fun _ _ => keeps_pure none⟩
    rw [keeps_bind, keeps_emit]
    exact ⟨by simpa using h voice, fun _ _ => keeps_lift _⟩

/-- A narration always resolves: a failed synthesis is caught. -/
theorem narrate_resolves (content : StoryContent) :
    ∃ audioUrl, (narrate c request content).result = .ok audioUrl := by
  unfold narrate
  split
  · exact ⟨none, rfl⟩
  · unfold catchWith
    split
    · exact ⟨_, rfl⟩
    · exact ⟨none, rfl⟩

/-- Saving respects a rule exactly when it allows the story to be saved, if it is saved at all. -/
theorem keeps_persist_iff {P : List Effect → Effect → Prop} {story : StoryProps}
    {before : List Effect} :
    Keeps P before (persist c request story) ↔
      (c.saveStory.isSome = true → (presentUser request).isSome = true →
        P before (.saved story)) := by
  unfold persist
  split
  · rename_i save userId hsave huser
    rw [keeps_bind, keeps_emit]
    simp [hsave, huser]
  · rename_i hnone
    simp only [keeps_pure, true_iff]
    intro hsave huser
    obtain ⟨save, hsave⟩ := Option.isSome_iff_exists.mp hsave
    obtain ⟨userId, huser⟩ := Option.isSome_iff_exists.mp huser
    exact (hnone save userId hsave huser).elim

/-! ## What is generated -/

/-- The title and the text after a run of chunks. -/
def streamed : Text → Text → List Text → Text × Text
  | title, accumulated, [] => (title, accumulated)
  | title, accumulated, chunk :: chunks =>
    streamed (nextTitle title (accumulated ++ chunk)) (accumulated ++ chunk) chunks

/-- The AI answers behind a prepared request: the completed stream, or the fallback story. -/
def generated (prepared : Prepared) : Except JsError (Text × Text) :=
  let run := c.generateStoryStream (generationInput prepared prepared.storyStreamPrompt)
  match run.ending with
  | .ok () => .ok (streamed untitled [] run.chunks)
  | .error _ => (c.generateStory (generationInput prepared prepared.storyPrompt)).map
      fun story => (story.title, story.content)

/-- No chunk reaches the event bus: there is none, or the stream is empty. -/
def ChunksStay (prepared : Prepared) : Prop :=
  c.publish.isSome = true →
    (c.generateStoryStream (generationInput prepared prepared.storyStreamPrompt)).chunks = []

/-- A stream whose chunks stay is accumulated without effects. -/
theorem streamLoop_of_chunksStay {chunks : List Text} (h : c.publish.isSome = true → chunks = [])
    (n : ℕ) (title accumulated : Text) :
    streamLoop c request n title accumulated chunks = pure (streamed title accumulated chunks) := by
  induction chunks generalizing n title accumulated with
  | nil => rfl
  | cons chunk chunks ih =>
    have hbus : c.publish = none := by
      by_contra hne
      exact absurd (h (Option.isSome_iff_ne_none.mpr hne)) (List.cons_ne_nil _ _)
    have hpublish : ∀ event, publish c event = pure () := fun event => by rw [publish, hbus]
    rw [streamLoop, hpublish, Traced.pure_bind]
    exact ih (fun hsome => by rw [hbus] at hsome; cases hsome) _ _ _

/-- When the chunks stay, generation has no effect and ends with what the AI answered. -/
theorem generate_of_chunksStay {prepared : Prepared} (h : ChunksStay c prepared) :
    generate c request prepared = lift (generated c prepared) := by
  unfold generate streamStory generated
  simp only [streamLoop_of_chunksStay c request h, Traced.pure_bind]
  cases (c.generateStoryStream (generationInput prepared prepared.storyStreamPrompt)).ending with
  | ok u => rfl
  | error e =>
    rw [lift_error_bind, fallbackStory]
    cases c.generateStory (generationInput prepared prepared.storyPrompt) <;> rfl

/-- **Generation lets out only vetted text exactly when no chunk reaches the event bus**: nothing
has been cleared yet. -/
theorem keeps_generate_iff (prepared : Prepared) :
    Keeps EffectVetted [] (generate c request prepared) ↔ ChunksStay c prepared := by
  constructor
  · intro h hbus
    obtain ⟨bus, hbus⟩ := Option.isSome_iff_exists.mp hbus
    rw [generate, keeps_catchWith, streamStory, keeps_bind] at h
    cases hchunks : (c.generateStoryStream
        (generationInput prepared prepared.storyStreamPrompt)).chunks with
    | nil => rfl
    | cons chunk chunks =>
      rw [hchunks, streamLoop, keeps_bind, publish, hbus] at h
      have hfirst := h.1.1.1
      simp only [keeps_bind, keeps_emit] at hfirst
      exact (not_partOf_nil chunk hfirst.1).elim
  · intro h
    rw [generate_of_chunksStay c request h]
    exact keeps_lift _

/-- A streamed title is the placeholder or the title line of the streamed text. -/
theorem streamed_title (chunks : List Text) :
    (streamed untitled [] chunks).1 = untitled ∨
      (streamed untitled [] chunks).1 = titleLine (streamed untitled [] chunks).2 := by
  -- the title line no longer changes once the text has a second line
  have key : ∀ (chunks : List Text) (title accumulated : Text),
      (title = untitled ∨ (firstLine accumulated).2 = true ∧ title = titleLine accumulated) →
      (streamed title accumulated chunks).1 = untitled ∨
        (streamed title accumulated chunks).1 =
          titleLine (streamed title accumulated chunks).2 := by
    intro chunks
    induction chunks with
    | nil =>
      rintro title accumulated (rfl | ⟨-, htitle⟩)
      · exact Or.inl rfl
      · exact Or.inr htitle
    | cons chunk chunks ih =>
      intro title accumulated h
      refine ih _ _ ?_
      unfold nextTitle
      split
      · rename_i hnext
        exact Or.inr ⟨hnext.2, rfl⟩
      · rcases h with htitle | ⟨hline, htitle⟩
        · exact Or.inl htitle
        · right
          rw [titleLine, firstLine_append hline]
          exact ⟨hline, htitle⟩
  exact key chunks _ _ (Or.inl rfl)

/-- A title line is a part of its text, unless the label stands inside the line. -/
theorem titleLine_isInfix {text : Text}
    (h : ¬ lit "Title: " <:+: (firstLine text).1 ∨ lit "Title: " <+: (firstLine text).1) :
    titleLine text <:+: text := by
  have hline : (firstLine text).1 <:+: text := (List.takeWhile_prefix _).isInfix
  refine (trim_isInfix _).trans (List.IsInfix.trans ?_ hline)
  rcases h with hnone | ⟨rest, hrest⟩
  · rw [removeFirst_of_not_isInfix hnone]
  · rw [← hrest, removeFirst_append (by decide)]
    exact (List.suffix_append _ rest).isInfix

/-- The title of a streamed story that the guardian accepts is vetted, unless the label stands
inside the first line. -/
theorem titleVetted_streamed {chunks : List Text} {safety : SafetyCheckResult} {text : Text}
    (htext : text = (streamed untitled [] chunks).2) (hsafe : safety.isSafe = true)
    (hlabel : ¬ lit "Title: " <:+: (firstLine text).1 ∨ lit "Title: " <+: (firstLine text).1) :
    TitleVetted (cleared [.checked text safety]) (streamed untitled [] chunks).1 := by
  rcases streamed_title chunks with htitle | htitle
  · exact Or.inl htitle
  · right
    rw [htitle, ← htext]
    refine ⟨text, ?_, titleLine_isInfix hlabel⟩
    simp [cleared, clearedBy, hsafe]

/-! ## The safety check -/

/-- A safety check that completes leaves its verdict in the trace. -/
theorem checkSafety_eq {prepared : Prepared} {text fallback : Text} {safety : SafetyCheckResult}
    (hfallback : c.getSafetyFallback = .ok fallback)
    (hsafety : c.safetyGuardian.checkContent text prepared.refinedRequest.childAge (some fallback)
      none = .ok safety) :
    checkSafety c prepared text = ⟨[.checked text safety], .ok (finalContent safety text)⟩ := by
  rw [checkSafety, hfallback, lift_ok_bind, hsafety, lift_ok_bind]
  rfl

/-- What a safety check that resolves has asked. -/
theorem checkSafety_result_eq_ok {prepared : Prepared} {text final : Text}
    (h : (checkSafety c prepared text).result = .ok final) :
    ∃ fallback safety, c.getSafetyFallback = .ok fallback ∧
      c.safetyGuardian.checkContent text prepared.refinedRequest.childAge (some fallback) none =
        .ok safety := by
  obtain ⟨fallback, hfallback, hrest⟩ := bind_result_eq_ok h
  obtain ⟨safety, hsafety, -⟩ := bind_result_eq_ok hrest
  exact ⟨fallback, safety, hfallback, hsafety⟩

/-- The safety check itself lets nothing out. -/
theorem keeps_checkSafety (prepared : Prepared) (text : Text) {before : List Effect} :
    Keeps EffectVetted before (checkSafety c prepared text) := by
  simp [checkSafety, keeps_bind, EffectVetted]

/-! ## After the safety check -/

/-- The story made from a title and a text leaves the use case: it can be created, and then it is
saved, or the remaining steps succeed and it is returned. -/
def StoryLeaves (prepared : Prepared) (title text : Text) : Prop :=
  ∃ content audioUrl story, StoryContent.fromRawText (cleanContent text) = .ok content ∧
    (narrate c request content).result = .ok audioUrl ∧
    Story.create c.isUrl (storyProps c request title content audioUrl) = .ok story ∧
    ((c.saveStory.isSome = true ∧ (presentUser request).isSome = true) ∨
      (∃ companions, newlyUnlocked c request prepared.companions = .ok companions) ∧
        (publishCompletion c request
          ((c.generateStoryStream
            (generationInput prepared prepared.storyStreamPrompt)).chunks.length + 1)
          story.props).result = .ok ())

/-- A run from a given history that lets out only vetted text. -/
def VettedFrom (before : List Effect) (run : Traced Effect GenerateStoryResponse) : Prop :=
  Keeps EffectVetted before run ∧
    ∀ response, run.result = .ok response →
      StoryVetted (cleared (before ++ run.trace)) response.story

/-- The rule for sequencing, for a run and its response. -/
theorem vettedFrom_bind {α : Type} {before : List Effect} {x : Traced Effect α}
    {f : α → Traced Effect GenerateStoryResponse} :
    VettedFrom before (x >>= f) ↔
      Keeps EffectVetted before x ∧
        ∀ a, x.result = .ok a → VettedFrom (before ++ x.trace) (f a) := by
  cases hx : x.result with
  | ok a => simp [VettedFrom, Keeps, bind_of_ok hx, allAllowed_append, and_assoc]
  | error e => simp [VettedFrom, Keeps, bind_of_error hx]

/-- Waiting for a collaborator lets nothing out. -/
theorem vettedFrom_lift_bind {α : Type} {before : List Effect} {r : Except JsError α}
    {f : α → Traced Effect GenerateStoryResponse} :
    VettedFrom before (lift r >>= f) ↔ ∀ a, r = .ok a → VettedFrom before (f a) := by
  rw [vettedFrom_bind, trace_lift, result_lift, List.append_nil]
  exact and_iff_right (keeps_lift r)

/-- A step without safety check clears nothing. -/
theorem cleared_append_of_keeps {α : Type} {x : Traced Effect α} {before : List Effect}
    (h : Keeps Unchecked before x) : cleared (before ++ x.trace) = cleared before := by
  rw [cleared_append, cleared_eq_nil_of_keeps h, List.append_nil]

/-- Saving checks nothing. -/
theorem keeps_unchecked_persist (story : StoryProps) (before : List Effect) :
    Keeps Unchecked before (persist c request story) :=
  (keeps_persist_iff c request).mpr fun _ _ => trivial

/-- Without a repository or a user, saving does nothing. -/
theorem persist_of_not_saved {story : StoryProps}
    (h : ¬ (c.saveStory.isSome = true ∧ (presentUser request).isSome = true)) :
    persist c request story = pure () := by
  unfold persist
  split
  · rename_i hsave huser
    exact absurd ⟨by rw [hsave]; rfl, by rw [huser]; rfl⟩ h
  · rfl

variable {c request} in
/-- The last steps, from the created story on. -/
theorem vettedFrom_publishCompletion_iff {before : List Effect} {story : StoryProps} {n t : ℕ}
    {audioUrl : Option Text} {companions : Option (List Companion)} :
    VettedFrom before (do
      publishCompletion c request n story
      pure ⟨story, t, audioUrl, companions⟩) ↔
    ((publishCompletion c request n story).result = .ok () →
      StoryVetted (cleared before) story) := by
  have hkeeps : ∀ {P : List Effect → Effect → Prop},
      (∀ b event, (∀ u s i t f, event.payload ≠ .storyChunkGenerated u s i t f) →
        P b (.published event)) → ∀ b, Keeps P b (publishCompletion c request n story) :=
    fun h b => keeps_publishCompletion c request n story
      (fun b i total => h b _ (by intros; simp [beatEvent]))
      (fun b userId => h b _ (by intros; simp [completedEvent])) b
  have hclear : cleared (before ++ (publishCompletion c request n story).trace) = cleared before :=
    cleared_append_of_keeps (hkeeps (fun _ _ _ => trivial) before)
  rw [vettedFrom_bind]
  constructor
  · rintro ⟨-, h⟩ hok
    have hresponse := (h () hok).2 _ rfl
    rwa [trace_pure, List.append_nil, hclear] at hresponse
  · refine fun h => ⟨hkeeps (fun b event hne => ?_) before, fun _ hok => ⟨keeps_pure _, ?_⟩⟩
    · unfold EffectVetted
      dsimp only
      split
      · rename_i hpayload
        exact absurd hpayload (hne _ _ _ _ _)
      · trivial
    · rintro _ ⟨⟩
      rw [trace_pure, List.append_nil, hclear]
      exact h hok

/-- **After the safety check only the title can be at fault**: the paragraphs are parts of cleared
text, so the run lets out only vetted text exactly when the title of a story that leaves is. -/
theorem vettedFrom_release_iff {before : List Effect} (prepared : Prepared) {title text : Text}
    (hparts : ∀ p ∈ paragraphsOf (cleanContent text), PartOf (cleared before) p) :
    VettedFrom before (release c request prepared title text) ↔
      (StoryLeaves c request prepared title text → TitleVetted (cleared before) title) := by
  have hpart : ∀ {content}, StoryContent.fromRawText (cleanContent text) = .ok content →
      ∀ p ∈ content.paragraphs, PartOf (cleared before) p := fun hcontent p hp =>
    hparts p (StoryContent.paragraphs_of_fromRawText hcontent ▸ hp)
  have hnarrate : ∀ content, cleared (before ++ (narrate c request content).trace) =
      cleared before := fun content =>
    cleared_append_of_keeps (keeps_narrate c request fun _ => trivial)
  have hpersist : ∀ content story, cleared (before ++ (narrate c request content).trace ++
      (persist c request story).trace) = cleared before := fun content story => by
    rw [cleared_append_of_keeps (keeps_unchecked_persist c request story _), hnarrate]
  unfold release
  rw [vettedFrom_lift_bind]
  constructor
  · rintro h ⟨content, audioUrl, story, hcontent, haudio, hcreate, hleaves⟩
    have hstory := Story.props_of_create hcreate
    have hcreated := (vettedFrom_bind.mp (h content hcontent)).2 audioUrl haudio
    obtain ⟨hsave, hrest⟩ := vettedFrom_bind.mp (vettedFrom_lift_bind.mp hcreated story hcreate)
    by_cases hsaved : c.saveStory.isSome = true ∧ (presentUser request).isSome = true
    · have hvetted := (keeps_persist_iff c request).mp hsave hsaved.1 hsaved.2
      rw [hstory, EffectVetted, hnarrate] at hvetted
      exact hvetted.1
    · obtain ⟨⟨companions, hcompanions⟩, hcompletion⟩ := hleaves.resolve_left hsaved
      have hpersisted : (persist c request story.props).result = .ok () := by
        rw [persist_of_not_saved c request hsaved]
        rfl
      have hvetted := vettedFrom_publishCompletion_iff.mp
        (vettedFrom_lift_bind.mp (hrest () hpersisted) companions hcompanions) hcompletion
      rw [hstory, hpersist] at hvetted
      exact hvetted.1
  · intro h content hcontent
    have hsynthesized : ∀ voice,
        EffectVetted before (.synthesized (narration content.paragraphs) voice) :=
      fun voice => ⟨content.paragraphs, rfl, hpart hcontent⟩
    refine vettedFrom_bind.mpr ⟨keeps_narrate c request hsynthesized, fun audioUrl haudio => ?_⟩
    refine vettedFrom_lift_bind.mpr fun story hcreate => ?_
    have hstory := Story.props_of_create hcreate
    refine vettedFrom_bind.mpr ⟨(keeps_persist_iff c request).mpr fun hsave huser => ?_,
      fun _ _ => vettedFrom_lift_bind.mpr fun companions hcompanions =>
        vettedFrom_publishCompletion_iff.mpr fun hcompletion => ?_⟩
    · rw [EffectVetted, hnarrate, hstory]
      exact ⟨h ⟨content, audioUrl, story, hcontent, haudio, hcreate, Or.inl ⟨hsave, huser⟩⟩,
        hpart hcontent⟩
    · rw [hpersist, hstory]
      exact ⟨h ⟨content, audioUrl, story, hcontent, haudio, hcreate,
        Or.inr ⟨⟨companions, hcompanions⟩, hcompletion⟩⟩, hpart hcontent⟩

/-- The rest of a run, from the safety check on. -/
theorem vettedFrom_checkSafety_iff (prepared : Prepared) {title text : Text} :
    VettedFrom [] (do
        let finalContent ← checkSafety c prepared text
        release c request prepared title finalContent) ↔
      ∀ fallback safety, c.getSafetyFallback = .ok fallback →
        c.safetyGuardian.checkContent text prepared.refinedRequest.childAge (some fallback) none =
          .ok safety →
        StoryLeaves c request prepared title (finalContent safety text) →
        TitleVetted (cleared [.checked text safety]) title := by
  rw [vettedFrom_bind]
  constructor
  · rintro ⟨-, h⟩ fallback safety hfallback hsafety
    rw [checkSafety_eq c hfallback hsafety] at h
    exact (vettedFrom_release_iff c request prepared fun _ => partOf_of_mem_finalContent).mp
      (h _ rfl)
  · refine fun h => ⟨keeps_checkSafety c prepared text, fun final hfinal => ?_⟩
    obtain ⟨fallback, safety, hfallback, hsafety⟩ := checkSafety_result_eq_ok c hfinal
    rw [checkSafety_eq c hfallback hsafety] at hfinal ⊢
    cases hfinal
    exact (vettedFrom_release_iff c request prepared fun _ => partOf_of_mem_finalContent).mpr
      (h fallback safety hfallback hsafety)

/-- Collaborators that stream one banned word to a listening event bus. -/
def bloodStream : Collaborators where
  isUrl _ := true
  showNat _ := lit "0"
  freshId _ := lit "00000000-0000-0000-0000-000000000000"
  now := 0
  checkUnlock _ _ := .ok []
  conductStorySession request := .ok ⟨⟨request.theme, none, none, none⟩, none⟩
  getStoryPrompt _ := .ok (lit "Tell a story.")
  generateStoryStream _ := ⟨[lit "blood"], .ok ()⟩
  generateStory _ := .ok ⟨lit "Blood", lit "blood"⟩
  safetyGuardian := approving
  getSafetyFallback := .ok (lit "Sleep well.")
  publish := some fun _ => .ok ()
  synthesize := none
  readyVoiceModel := none
  findStory := none
  saveStory := none

/-- A request for a story about the moon. -/
def moonRequest : GenerateStoryRequest where
  theme := lit "moon"
  childName := none
  childAge := none
  duration := none
  userId := none
  accessToken := none
  voiceProfileId := none
  mood := none
  previousStoryId := none
  requestId := none
  traceId := none

end GenerateStoryUseCase

end DreamWeaver.Stories
