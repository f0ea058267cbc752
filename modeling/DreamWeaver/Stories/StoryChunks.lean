import DreamWeaver.Stories.Release

/-! # The chunks of a story

The story is published chunk by chunk while it is streamed, before it is known whether the stream will
complete. Where it does, the chunks are the text that the story is made from, and how the text is cut into
chunks makes no difference to the story. Where it fails midway, what has been published stays published
while the fallback generation replaces the text. -/

namespace DreamWeaver.Stories

open Safety Traced

namespace GenerateStoryUseCase

variable (c : Collaborators) (request : GenerateStoryRequest)

/-! ## Publishing one event after another -/

/-- Hand events to the event bus one after the other. -/
def publishAll : List DomainEvent → Traced Effect Unit
  | [] => pure ()
  | event :: events => do
    publish c event
    publishAll events

/-- The events of chunks. -/
def chunkEvents : ℕ → List Text → List DomainEvent
  | _, [] => []
  | n, chunk :: chunks => chunkEvent c request n chunk :: chunkEvents (n + 1) chunks

/-- The loop publishes the chunks and accumulates them. -/
theorem streamLoop_eq (n : ℕ) (title accumulated : Text) (chunks : List Text) :
    streamLoop c request n title accumulated chunks
      = publishAll c (chunkEvents c request n chunks) >>= fun _ => pure (streamed title accumulated chunks) := by
  induction chunks generalizing n title accumulated with
  | nil => rfl
  | cons chunk chunks ih =>
    rw [streamLoop, chunkEvents, publishAll, Traced.bind_assoc, streamed]
    congr 1
    funext _
    exact ih _ _ _

/-- The bus takes an event. -/
def takes (bus : DomainEvent → Except JsError Unit) (event : DomainEvent) : Bool :=
  match bus event with
  | .ok _ => true
  | .error _ => false

/-- The event that an effect hands to a bus that takes it. -/
def takenEvent (bus : DomainEvent → Except JsError Unit) : Effect → Option DomainEvent
  | .published event => if takes bus event then some event else none
  | _ => none

/-- The events of a trace that the bus has taken. -/
def taken (bus : DomainEvent → Except JsError Unit) (trace : List Effect) : List DomainEvent :=
  trace.filterMap (takenEvent bus)

variable {c request} {bus : DomainEvent → Except JsError Unit} {event : DomainEvent}
  {events : List DomainEvent}

theorem takes_iff : takes bus event = true ↔ bus event = .ok () := by
  rw [takes]
  cases bus event with
  | ok _ => exact iff_of_true rfl rfl
  | error e => exact iff_of_false Bool.false_ne_true (fun h => nomatch h)

theorem publish_of_none (h : c.publish = none) : publish c event = pure () := by rw [publish, h]

theorem publish_of_some (h : c.publish = some bus) :
    publish c event = ⟨[.published event], bus event⟩ := by
  rw [publish, h]
  rfl

theorem publishAll_of_none (h : c.publish = none) : publishAll c events = pure () := by
  induction events with
  | nil => rfl
  | cons event events ih =>
    rw [publishAll, publish_of_none h, Traced.pure_bind]
    exact ih

/-- The first event that the bus does not take is the last one that it is handed. -/
theorem publishAll_cons_of_refused (h : c.publish = some bus) (hrefused : takes bus event = false)
    (events : List DomainEvent) : ∃ e, publishAll c (event :: events) = ⟨[.published event], .error e⟩ := by
  cases hbus : bus event with
  | ok _ =>
    rw [takes, hbus] at hrefused
    cases hrefused
  | error e =>
    refine ⟨e, ?_⟩
    rw [publishAll, publish_of_some h, hbus]
    exact Traced.bind_of_error rfl _

theorem publishAll_cons_of_takes (h : c.publish = some bus) (htakes : takes bus event = true) :
    publishAll c (event :: events)
      = ⟨.published event :: (publishAll c events).trace, (publishAll c events).result⟩ := by
  rw [publishAll, publish_of_some h, takes_iff.mp htakes]
  exact Traced.bind_of_ok rfl _

/-- Publishing resolves exactly when the bus takes every event. -/
theorem result_publishAll (h : c.publish = some bus) :
    (publishAll c events).result = .ok () ↔ ∀ event ∈ events, takes bus event = true := by
  induction events with
  | nil => exact iff_of_true rfl fun _ h => nomatch h
  | cons event events ih =>
    rw [List.forall_mem_cons]
    cases htakes : takes bus event with
    | true => rw [publishAll_cons_of_takes h htakes, ih, and_iff_right rfl]
    | false =>
      obtain ⟨e, he⟩ := publishAll_cons_of_refused h htakes events
      rw [he]
      exact iff_of_false (fun h => nomatch h) fun h => nomatch h.1

/-- **What is published**: the events before the first that the bus does not take. -/
theorem taken_publishAll (h : c.publish = some bus) :
    taken bus (publishAll c events).trace = events.takeWhile (takes bus) := by
  induction events with
  | nil => rfl
  | cons event events ih =>
    cases htakes : takes bus event with
    | true =>
      rw [publishAll_cons_of_takes h htakes, List.takeWhile_cons_of_pos htakes, ← ih]
      simp [taken, takenEvent, htakes]
    | false =>
      obtain ⟨e, he⟩ := publishAll_cons_of_refused h htakes events
      rw [he, List.takeWhile_cons_of_neg (by rw [htakes]; exact Bool.false_ne_true)]
      simp [taken, takenEvent, htakes]

/-! ## The title of a streamed story -/

/-- The title of a text: its title line, if a second line follows. -/
def titleOf (text : Text) : Text := if (firstLine text).2 = true then titleLine text else untitled

/-- **The title line is read off once**: with every chunk the title is that of the text so far. -/
theorem nextTitle_titleOf (accumulated chunk : Text) :
    nextTitle (titleOf accumulated) (accumulated ++ chunk) = titleOf (accumulated ++ chunk) := by
  by_cases hline : (firstLine accumulated).2 = true
  · have hsame := firstLine_append hline chunk
    have htitle : titleLine (accumulated ++ chunk) = titleLine accumulated := by
      rw [titleLine, titleLine, hsame]
    rw [nextTitle, titleOf, titleOf, if_pos hline, hsame, if_pos hline, htitle]
    split
    · rfl
    · rfl
  · -- until the first line is over the title is the one that the loop starts with
    have huntitled : titleOf accumulated = untitled := if_neg hline
    rw [huntitled, nextTitle, titleOf]
    by_cases hnow : (firstLine (accumulated ++ chunk)).2 = true
    · rw [if_pos ⟨rfl, hnow⟩, if_pos hnow]
    · rw [if_neg fun h => hnow h.2, if_neg hnow]

theorem streamed_titleOf (accumulated : Text) (chunks : List Text) :
    streamed (titleOf accumulated) accumulated chunks
      = (titleOf (accumulated ++ chunks.flatten), accumulated ++ chunks.flatten) := by
  induction chunks generalizing accumulated with
  | nil => rw [streamed, List.flatten_nil, List.append_nil]
  | cons chunk chunks ih => rw [streamed, nextTitle_titleOf, ih, List.flatten_cons, List.append_assoc]

/-- **What is streamed** is determined by the whole text: its title and the text itself. -/
theorem streamed_eq (chunks : List Text) :
    streamed untitled [] chunks = (titleOf chunks.flatten, chunks.flatten) :=
  streamed_titleOf [] chunks

/-! ## How the generation goes -/

/-- The run of the stream for a prepared request. -/
def storyStream (c : Collaborators) (prepared : Prepared) : StreamRun :=
  c.generateStoryStream (generationInput prepared prepared.storyStreamPrompt)

/-- The stream completes: it ends well, and the bus, if there is one, takes every chunk (the two buses of the
repository take every event: they log the failures of their handlers). -/
def StreamCompletes (c : Collaborators) (request : GenerateStoryRequest) (prepared : Prepared) : Prop :=
  (storyStream c prepared).ending = .ok () ∧ ∀ bus, c.publish = some bus →
    ∀ event ∈ chunkEvents c request 1 (storyStream c prepared).chunks, takes bus event = true

variable {prepared : Prepared}

theorem streamStory_eq (c : Collaborators) (request : GenerateStoryRequest) (prepared : Prepared) :
    streamStory c request prepared
      = publishAll c (chunkEvents c request 1 (storyStream c prepared).chunks) >>= fun _ =>
          lift ((storyStream c prepared).ending.map fun _ =>
            (titleOf (storyStream c prepared).chunks.flatten, (storyStream c prepared).chunks.flatten)) := by
  rw [streamStory, streamLoop_eq, Traced.bind_assoc, streamed_eq, storyStream]
  congr 1
  funext _
  cases (c.generateStoryStream (generationInput prepared prepared.storyStreamPrompt)).ending with
  | ok _ => rfl
  | error e => rfl

/-- **A stream that completes** gives the title and the text of its chunks, and publishes them all. -/
theorem generate_of_completes (h : StreamCompletes c request prepared) :
    generate c request prepared
      = ⟨(publishAll c (chunkEvents c request 1 (storyStream c prepared).chunks)).trace,
        .ok (titleOf (storyStream c prepared).chunks.flatten, (storyStream c prepared).chunks.flatten)⟩ := by
  have hall : (publishAll c (chunkEvents c request 1 (storyStream c prepared).chunks)).result = .ok () := by
    cases hbus : c.publish with
    | none =>
      rw [publishAll_of_none hbus]
      rfl
    | some bus => exact (result_publishAll hbus).mpr (h.2 bus hbus)
  have hstream : streamStory c request prepared
      = ⟨(publishAll c (chunkEvents c request 1 (storyStream c prepared).chunks)).trace,
        .ok (titleOf (storyStream c prepared).chunks.flatten, (storyStream c prepared).chunks.flatten)⟩ := by
    rw [streamStory_eq, Traced.bind_of_ok hall, h.1, trace_lift, List.append_nil]
    rfl
  rw [generate, hstream]
  rfl

/-- **A stream that does not complete** is replaced by the fallback generation. -/
theorem generate_of_interrupted (h : ¬ StreamCompletes c request prepared) :
    generate c request prepared
      = ⟨(publishAll c (chunkEvents c request 1 (storyStream c prepared).chunks)).trace,
        (c.generateStory (generationInput prepared prepared.storyPrompt)).map
          fun story => (story.title, story.content)⟩ := by
  have hfallback : fallbackStory c prepared
      = lift ((c.generateStory (generationInput prepared prepared.storyPrompt)).map
          fun story => (story.title, story.content)) := by
    rw [fallbackStory]
    cases c.generateStory (generationInput prepared prepared.storyPrompt) with
    | ok story => rfl
    | error e => rfl
  have hstream : ∃ e, streamStory c request prepared
      = ⟨(publishAll c (chunkEvents c request 1 (storyStream c prepared).chunks)).trace, .error e⟩ := by
    rw [streamStory_eq]
    -- either the bus refuses a chunk, or all are published and the stream fails after them
    cases hall : (publishAll c (chunkEvents c request 1 (storyStream c prepared).chunks)).result with
    | error e => exact ⟨e, Traced.bind_of_error hall _⟩
    | ok _ =>
      cases hending : (storyStream c prepared).ending with
      | ok _ =>
        refine absurd ⟨hending, fun bus hbus => ?_⟩ h
        exact (result_publishAll hbus).mp hall
      | error e =>
        refine ⟨e, ?_⟩
        rw [Traced.bind_of_ok hall, trace_lift, List.append_nil]
        rfl
  obtain ⟨e, he⟩ := hstream
  rw [generate, he, catchWith, hfallback]
  dsimp only
  rw [trace_lift, List.append_nil, result_lift]

/-! ## What is published of a story -/

/-- The text of a chunk of a story. -/
def chunkText (storyId : Text) (event : DomainEvent) : Option Text :=
  match event.payload with
  | .storyChunkGenerated _ _ id text _ => if id = storyId then some text else none
  | _ => none

/-- The chunks of a story that have been published in the course of a trace. -/
def publishedChunks (c : Collaborators) (storyId : Text) (trace : List Effect) : List Text :=
  c.publish.elim [] fun bus => (taken bus trace).filterMap (chunkText storyId)

/-- The chunks of the stream that are published: those before the first that the bus does not take. -/
def chunksTaken (c : Collaborators) (request : GenerateStoryRequest) (prepared : Prepared) : List Text :=
  c.publish.elim [] fun bus =>
    ((chunkEvents c request 1 (storyStream c prepared).chunks).takeWhile (takes bus)).filterMap
      (chunkText (newStoryId c))

/-- The effect is not the publication of a chunk. -/
def NoChunk : Effect → Prop
  | .published event => ∀ storyId, chunkText storyId event = none
  | _ => True

theorem chunkText_chunkEvent (n : ℕ) (chunk : Text) :
    chunkText (newStoryId c) (chunkEvent c request n chunk) = some chunk := if_pos rfl

theorem filterMap_chunkEvents (n : ℕ) (chunks : List Text) :
    (chunkEvents c request n chunks).filterMap (chunkText (newStoryId c)) = chunks := by
  induction chunks generalizing n with
  | nil => rfl
  | cons chunk chunks ih =>
    rw [chunkEvents, List.filterMap_cons_some (chunkText_chunkEvent n chunk), ih]

theorem publishedChunks_append {storyId : Text} {s t : List Effect} :
    publishedChunks c storyId (s ++ t) = publishedChunks c storyId s ++ publishedChunks c storyId t := by
  rw [publishedChunks, publishedChunks, publishedChunks]
  cases c.publish with
  | none => rfl
  | some bus => simp [taken]

/-- What publishes no chunks leaves the published chunks as they are. -/
theorem publishedChunks_of_noChunk {storyId : Text} {trace : List Effect} (h : ∀ e ∈ trace, NoChunk e) :
    publishedChunks c storyId trace = [] := by
  rw [publishedChunks]
  cases c.publish with
  | none => rfl
  | some bus =>
    rw [Option.elim_some, List.filterMap_eq_nil_iff]
    intro event hevent
    obtain ⟨effect, hmem, htaken⟩ := List.mem_filterMap.mp hevent
    have heffect := h effect hmem
    cases effect with
    | published published =>
      rw [takenEvent, Option.ite_none_right_eq_some] at htaken
      obtain rfl := Option.some.inj htaken.2
      exact heffect storyId
    | _ => cases htaken

/-- What the generation publishes. -/
theorem publishedChunks_generate :
    publishedChunks c (newStoryId c) (generate c request prepared).trace = chunksTaken c request prepared := by
  have htrace : (generate c request prepared).trace
      = (publishAll c (chunkEvents c request 1 (storyStream c prepared).chunks)).trace := by
    by_cases hcompletes : StreamCompletes c request prepared
    · rw [generate_of_completes hcompletes]
    · rw [generate_of_interrupted hcompletes]
  rw [htrace, publishedChunks, chunksTaken]
  cases hbus : c.publish with
  | none => rfl
  | some bus => rw [Option.elim_some, Option.elim_some, taken_publishAll hbus]

/-- A stream that completes is published as a whole, if there is a bus. -/
theorem chunksTaken_of_completes (h : StreamCompletes c request prepared) :
    chunksTaken c request prepared = if c.publish.isSome then (storyStream c prepared).chunks else [] := by
  rw [chunksTaken]
  cases hbus : c.publish with
  | none => rfl
  | some bus =>
    rw [Option.elim_some, List.takeWhile_eq_self_iff.mpr (h.2 bus hbus), filterMap_chunkEvents]
    rfl

/-! ## The rest of a run -/

/-- What follows the generation. -/
def finish (c : Collaborators) (request : GenerateStoryRequest) (prepared : Prepared)
    (generated : Text × Text) : Traced Effect GenerateStoryResponse := do
  let finalContent ← checkSafety c prepared generated.2
  release c request prepared generated.1 finalContent

theorem execute_of_prepared (h : prepare c request = .ok prepared) :
    execute c request = generate c request prepared >>= finish c request prepared := by
  rw [execute, h, lift_ok_bind]
  rfl

theorem execute_of_not_prepared {e : JsError} (h : prepare c request = .error e) :
    execute c request = ⟨[], .error e⟩ := by
  rw [execute, h, lift_error_bind]
  rfl

/-- What holds of beats, completions, syntheses and stories that are saved holds of the effects of a
release. -/
theorem forall_release {p : Effect → Prop} {title text : Text}
    (hbeat : ∀ storyId total i, p (.published (beatEvent c request storyId total i)))
    (hdone : ∀ n userId storyId, p (.published (completedEvent c request n userId storyId)))
    (hsynthesized : ∀ text voice, p (.synthesized text voice)) (hsaved : ∀ story, p (.saved story)) :
    ∀ e ∈ (release c request prepared title text).trace, p e := by
  apply forall_of_keeps
  rw [release, keeps_bind]
  refine ⟨keeps_lift _, fun content _ => keeps_bind.mpr ⟨keeps_narrate c request fun _ => hsynthesized .., ?_⟩⟩
  refine fun audioUrl _ => keeps_bind.mpr ⟨keeps_lift _, fun story _ => keeps_bind.mpr ⟨?_, ?_⟩⟩
  · exact (keeps_persist_iff c request).mpr fun _ _ => hsaved _
  · refine fun _ _ => keeps_bind.mpr ⟨keeps_lift _, fun companions _ => keeps_bind.mpr ⟨?_, ?_⟩⟩
    · exact keeps_publishCompletion c request _ _ (fun _ _ _ => hbeat ..) (fun _ _ => hdone ..) _
    · exact fun _ _ => keeps_pure _

/-- Nothing that follows the generation publishes a chunk. -/
theorem noChunk_finish (generated : Text × Text) :
    ∀ e ∈ (finish c request prepared generated).trace, NoChunk e := by
  apply forall_of_keeps
  rw [finish, keeps_bind]
  constructor
  · simp [checkSafety, keeps_bind, NoChunk]
  · intro final _
    rw [keeps_forall]
    refine forall_release ?_ ?_ ?_ ?_
    · exact fun _ _ _ _ => rfl
    · exact fun _ _ _ _ => rfl
    · exact fun _ _ => trivial
    · exact fun _ => trivial

theorem published_ne_checked {text : Text} {safety : SafetyCheckResult} :
    Effect.published event ≠ .checked text safety := Effect.noConfusion

/-- Publishing checks nothing. -/
theorem not_checked_generate {text : Text} {safety : SafetyCheckResult} :
    .checked text safety ∉ (generate c request prepared).trace := by
  have hpublish : ∀ (events : List DomainEvent) (before : List Effect),
      Keeps (fun _ e => e ≠ .checked text safety) before (publishAll c events) := by
    intro events
    induction events with
    | nil => exact fun _ => keeps_pure ()
    | cons event events ih =>
      exact fun before =>
        keeps_bind.mpr ⟨keeps_publish c (fun _ => published_ne_checked) before, fun _ _ => ih _⟩
  intro hmem
  have htrace : .checked text safety ∈
      (publishAll c (chunkEvents c request 1 (storyStream c prepared).chunks)).trace := by
    by_cases hcompletes : StreamCompletes c request prepared
    · rwa [generate_of_completes hcompletes] at hmem
    · rwa [generate_of_interrupted hcompletes] at hmem
  exact keeps_forall.mp (hpublish _ []) _ htrace rfl

/-- The one check of what follows the generation is that of the generated text. -/
theorem checked_mem_finish {generated : Text × Text} {text : Text} {safety : SafetyCheckResult} :
    .checked text safety ∈ (finish c request prepared generated).trace ↔
      text = generated.2 ∧ ∃ fallback, c.getSafetyFallback = .ok fallback ∧
        c.safetyGuardian.checkContent generated.2 prepared.refinedRequest.childAge (some fallback) none
          = .ok safety := by
  have hrelease : ∀ {title final : Text},
      .checked text safety ∉ (release c request prepared title final).trace := by
    intro title final hmem
    refine forall_release ?_ ?_ ?_ ?_ _ hmem (p := fun e => e ≠ .checked text safety) rfl
    · exact fun _ _ _ => published_ne_checked
    · exact fun _ _ _ => published_ne_checked
    · exact fun _ _ => Effect.noConfusion
    · exact fun _ => Effect.noConfusion
  rw [finish]
  cases hfallback : c.getSafetyFallback with
  | error e =>
    -- without the text of the fallback nothing is handed to the guardian
    rw [checkSafety, hfallback, lift_error_bind, lift_error_bind]
    refine iff_of_false (fun hmem => by cases hmem) ?_
    rintro ⟨-, fallback, ⟨⟩, -⟩
  | ok fallback =>
    obtain ⟨found, hfound, -⟩ := checkContent_fails_closed c.safetyGuardian generated.2
      prepared.refinedRequest.childAge (some fallback) none
    rw [checkSafety_eq c hfallback hfound, Traced.bind_of_ok rfl, List.mem_append, List.mem_singleton,
      or_iff_left hrelease]
    constructor
    · rintro ⟨⟩
      exact ⟨rfl, fallback, rfl, hfound⟩
    · rintro ⟨rfl, _, ⟨⟩, hsafety⟩
      rw [Except.ok.inj (hfound.symm.trans hsafety)]

/-- **What the guardian is handed** in a run: the generated text. -/
theorem checked_mem_execute {text : Text} {safety : SafetyCheckResult} :
    .checked text safety ∈ (execute c request).trace ↔ ∃ prepared title fallback,
      prepare c request = .ok prepared ∧ (generate c request prepared).result = .ok (title, text) ∧
        c.getSafetyFallback = .ok fallback ∧
        c.safetyGuardian.checkContent text prepared.refinedRequest.childAge (some fallback) none
          = .ok safety := by
  cases hprepared : prepare c request with
  | error e =>
    rw [execute_of_not_prepared hprepared]
    refine iff_of_false (fun hmem => by cases hmem) ?_
    rintro ⟨_, _, _, ⟨⟩, _⟩
  | ok prepared =>
    rw [execute_of_prepared hprepared]
    cases hgenerated : (generate c request prepared).result with
    | error e =>
      rw [Traced.bind_of_error hgenerated]
      refine iff_of_false not_checked_generate ?_
      rintro ⟨_, _, _, ⟨⟩, h, _⟩
      cases hgenerated.symm.trans h
    | ok generated =>
      rw [Traced.bind_of_ok hgenerated, List.mem_append, or_iff_right not_checked_generate,
        checked_mem_finish]
      constructor
      · rintro ⟨rfl, fallback, hfallback, hsafety⟩
        exact ⟨prepared, generated.1, fallback, rfl, hgenerated, hfallback, hsafety⟩
      · rintro ⟨_, title, fallback, ⟨⟩, h, hfallback, hsafety⟩
        obtain rfl := Except.ok.inj (hgenerated.symm.trans h)
        exact ⟨rfl, fallback, hfallback, hsafety⟩

/-- The chunks that a run publishes. -/
theorem publishedChunks_execute (h : prepare c request = .ok prepared) :
    publishedChunks c (newStoryId c) (execute c request).trace = chunksTaken c request prepared := by
  rw [execute_of_prepared h]
  cases hgenerated : (generate c request prepared).result with
  | error e => rw [Traced.bind_of_error hgenerated, publishedChunks_generate]
  | ok generated =>
    rw [Traced.bind_of_ok hgenerated, publishedChunks_append, publishedChunks_generate,
      publishedChunks_of_noChunk (noChunk_finish generated), List.append_nil]

/-! ## The published chunks and the story -/

/-- The published chunks are the story: together they are nothing, or the text that the guardian is handed
and the story is made from. -/
def ChunksAreStory (c : Collaborators) (run : Traced Effect GenerateStoryResponse) : Prop :=
  ∀ text safety, .checked text safety ∈ run.trace →
    (publishedChunks c (newStoryId c) run.trace).flatten = [] ∨
      (publishedChunks c (newStoryId c) run.trace).flatten = text

/-- **When the published chunks are the story**: when the stream completes, or nothing of it was published
before it failed, or the fallback generation gives the very text that was published by then. -/
theorem chunksAreStory_iff : ChunksAreStory c (execute c request) ↔
    ∀ prepared fallback, prepare c request = .ok prepared → c.getSafetyFallback = .ok fallback →
      StreamCompletes c request prepared ∨ (chunksTaken c request prepared).flatten = [] ∨
        ∀ story, c.generateStory (generationInput prepared prepared.storyPrompt) = .ok story →
          (chunksTaken c request prepared).flatten = story.content := by
  constructor
  · intro h prepared fallback hprepared hfallback
    by_cases hcompletes : StreamCompletes c request prepared
    · exact .inl hcompletes
    refine .inr (or_iff_not_imp_left.mpr fun hsome story hstory => ?_)
    obtain ⟨safety, hsafety, -⟩ := checkContent_fails_closed c.safetyGuardian story.content
      prepared.refinedRequest.childAge (some fallback) none
    have hgenerated : (generate c request prepared).result = .ok (story.title, story.content) := by
      rw [generate_of_interrupted hcompletes, hstory]
      rfl
    have hstories := h story.content safety
      (checked_mem_execute.mpr ⟨prepared, story.title, fallback, hprepared, hgenerated, hfallback, hsafety⟩)
    rw [publishedChunks_execute hprepared] at hstories
    exact hstories.resolve_left hsome
  · intro h text safety hchecked
    obtain ⟨prepared, title, fallback, hprepared, hgenerated, hfallback, -⟩ := checked_mem_execute.mp hchecked
    rw [publishedChunks_execute hprepared]
    by_cases hcompletes : StreamCompletes c request prepared
    · rw [generate_of_completes hcompletes] at hgenerated
      obtain ⟨-, rfl⟩ := Prod.mk.inj (Except.ok.inj hgenerated)
      rw [chunksTaken_of_completes hcompletes]
      cases c.publish with
      | none => exact .inl rfl
      | some bus => exact .inr rfl
    · refine ((h prepared fallback hprepared hfallback).resolve_left hcompletes).imp_right fun hcontent => ?_
      rw [generate_of_interrupted hcompletes] at hgenerated
      cases hstory : c.generateStory (generationInput prepared prepared.storyPrompt) with
      | error e =>
        rw [hstory] at hgenerated
        cases hgenerated
      | ok story =>
        rw [hstory] at hgenerated
        obtain ⟨-, rfl⟩ := Prod.mk.inj (Except.ok.inj hgenerated)
        exact hcontent story hstory

/-- Collaborators whose stream fails after one chunk. -/
def brokenStream : Collaborators :=
  { bloodStream with
    generateStoryStream := fun _ => ⟨[lit "Once"], .error ⟨lit "Error", lit "stream failed"⟩⟩
    generateStory := fun _ => .ok ⟨lit "Moon", lit "The moon sleeps."⟩ }

/-- What is known of the request for a story about the moon. -/
def moonPrepared : Prepared :=
  ⟨[], ⟨lit "moon", none, none, none⟩, lit "Tell a story.", lit "Tell a story."⟩

/-- **Chunks of another story**: the chunk is published, and the story is made from another text. -/
theorem brokenStream_chunks :
    publishedChunks brokenStream (newStoryId brokenStream) (execute brokenStream moonRequest).trace = [lit "Once"] ∧
      ¬ ChunksAreStory brokenStream (execute brokenStream moonRequest) := by
  have hprepared : prepare brokenStream moonRequest = .ok moonPrepared := rfl
  have hchunks : publishedChunks brokenStream (newStoryId brokenStream)
      (execute brokenStream moonRequest).trace = [lit "Once"] := by
    rw [publishedChunks_execute hprepared]
    decide
  refine ⟨hchunks, fun h => ?_⟩
  obtain ⟨safety, hsafety, -⟩ := checkContent_fails_closed brokenStream.safetyGuardian
    (lit "The moon sleeps.") none (some (lit "Sleep well.")) none
  have hstory := h (lit "The moon sleeps.") safety (checked_mem_execute.mpr
    ⟨moonPrepared, lit "Moon", lit "Sleep well.", hprepared, rfl, rfl, hsafety⟩)
  rw [hchunks] at hstory
  revert hstory
  decide

/-! ## Two ways to cut a text into chunks -/

/-- The effects of a trace other than publications. -/
def unpublished (trace : List Effect) : List Effect :=
  trace.filter fun effect => match effect with
    | .published _ => false
    | _ => true

/-- The story of a text, before its beats are published: with its audio and the companions that it unlocks. -/
def tell (c : Collaborators) (request : GenerateStoryRequest) (prepared : Prepared)
    (generated : Text × Text) :
    Traced Effect (Story c.isUrl × Option Text × Option (List Companion)) := do
  let finalContent ← checkSafety c prepared generated.2
  let content ← Traced.lift (StoryContent.fromRawText (cleanContent finalContent))
  let audioUrl ← narrate c request content
  let story ← Traced.lift (Story.create c.isUrl (storyProps c request generated.1 content audioUrl))
  persist c request story.props
  let newlyUnlockedCompanions ← Traced.lift (newlyUnlocked c request prepared.companions)
  return (story, audioUrl, newlyUnlockedCompanions)

/-- The publication of the beats of a story, and the response. -/
def announce (c : Collaborators) (request : GenerateStoryRequest) (n : ℕ)
    (told : Story c.isUrl × Option Text × Option (List Companion)) : Traced Effect GenerateStoryResponse := do
  publishCompletion c request n told.1.props
  return ⟨told.1.props, told.1.getEstimatedReadingTime, told.2.1, told.2.2⟩

theorem finish_eq (generated : Text × Text) : finish c request prepared generated
    = tell c request prepared generated >>= announce c request ((storyStream c prepared).chunks.length + 1) := by
  simp only [finish, release, tell, announce, Traced.bind_assoc, Traced.pure_bind, storyStream]

/-- A response is that of the story that was told. -/
theorem result_announce {n : ℕ} {told : Story c.isUrl × Option Text × Option (List Companion)}
    {response : GenerateStoryResponse} (h : (announce c request n told).result = .ok response) :
    response = ⟨told.1.props, told.1.getEstimatedReadingTime, told.2.1, told.2.2⟩ := by
  obtain ⟨_, -, hresponse⟩ := bind_result_eq_ok h
  exact (Except.ok.inj hresponse).symm

/-- An effect is a publication. -/
def IsPublished (effect : Effect) : Prop := ∃ event, effect = .published event

theorem unpublished_append (s t : List Effect) : unpublished (s ++ t) = unpublished s ++ unpublished t :=
  List.filter_append ..

theorem unpublished_of_isPublished {trace : List Effect} (h : ∀ e ∈ trace, IsPublished e) :
    unpublished trace = [] := by
  rw [unpublished, List.filter_eq_nil_iff]
  intro e hmem
  obtain ⟨event, rfl⟩ := h e hmem
  exact Bool.false_ne_true

/-- The publication of beats is publication only. -/
theorem isPublished_announce {n : ℕ} {told : Story c.isUrl × Option Text × Option (List Companion)} :
    ∀ e ∈ (announce c request n told).trace, IsPublished e := by
  apply forall_of_keeps
  rw [announce, keeps_bind]
  have hstep : ∀ event, IsPublished (.published event) := fun event => ⟨event, rfl⟩
  constructor
  · apply keeps_publishCompletion
    · exact fun _ _ _ => hstep _
    · exact fun _ _ => hstep _
  · intro _ _
    exact keeps_of_trace_eq_nil (trace_pure _)

theorem isPublished_publishAll {events : List DomainEvent} :
    ∀ e ∈ (publishAll c events).trace, IsPublished e := by
  apply forall_of_keeps
  generalize [] = before
  induction events generalizing before with
  | nil => exact keeps_pure ()
  | cons event events ih =>
    rw [publishAll, keeps_bind]
    exact ⟨keeps_publish c (fun _ => ⟨event, rfl⟩) before, fun _ _ => ih _⟩

theorem unpublished_finish (generated : Text × Text) :
    unpublished (finish c request prepared generated).trace = unpublished (tell c request prepared generated).trace := by
  rw [finish_eq]
  cases htold : (tell c request prepared generated).result with
  | error e => rw [Traced.bind_of_error htold]
  | ok told =>
    rw [Traced.bind_of_ok htold, unpublished_append, unpublished_of_isPublished isPublished_announce,
      List.append_nil]

/-- The effects of a run whose stream completes, other than publications: those of the story of its text. -/
theorem unpublished_execute (hprepared : prepare c request = .ok prepared)
    (h : StreamCompletes c request prepared) : unpublished (execute c request).trace
      = unpublished (tell c request prepared
          (titleOf (storyStream c prepared).chunks.flatten, (storyStream c prepared).chunks.flatten)).trace := by
  rw [execute_of_prepared hprepared, generate_of_completes h, Traced.bind_of_ok rfl, unpublished_append,
    unpublished_of_isPublished isPublished_publishAll, List.nil_append, unpublished_finish]

/-- The response of a run whose stream completes: the story of its text. -/
theorem response_of_execute {response : GenerateStoryResponse} (hprepared : prepare c request = .ok prepared)
    (h : StreamCompletes c request prepared) (hresponse : (execute c request).result = .ok response) :
    ∃ told, (tell c request prepared (titleOf (storyStream c prepared).chunks.flatten,
        (storyStream c prepared).chunks.flatten)).result = .ok told ∧
      response = ⟨told.1.props, told.1.getEstimatedReadingTime, told.2.1, told.2.2⟩ := by
  rw [execute_of_prepared hprepared, generate_of_completes h, Traced.bind_of_ok rfl, finish_eq] at hresponse
  obtain ⟨told, htold, hannounced⟩ := bind_result_eq_ok hresponse
  exact ⟨told, htold, result_announce hannounced⟩

/-- **The stages of a story that is told**: each of them resolved. -/
theorem exists_stages_of_tell {generated : Text × Text} {told : Story c.isUrl × Option Text × Option (List Companion)}
    (h : (tell c request prepared generated).result = .ok told) : ∃ final content,
      (checkSafety c prepared generated.2).result = .ok final ∧
      StoryContent.fromRawText (cleanContent final) = .ok content ∧
      (narrate c request content).result = .ok told.2.1 ∧
      Story.create c.isUrl (storyProps c request generated.1 content told.2.1) = .ok told.1 ∧
      (persist c request told.1.props).result = .ok () ∧
      newlyUnlocked c request prepared.companions = .ok told.2.2 := by
  obtain ⟨final, hfinal, h⟩ := bind_result_eq_ok h
  obtain ⟨content, hcontent, h⟩ := bind_result_eq_ok h
  obtain ⟨audioUrl, haudio, h⟩ := bind_result_eq_ok h
  obtain ⟨story, hstory, h⟩ := bind_result_eq_ok h
  obtain ⟨_, hpersisted, h⟩ := bind_result_eq_ok h
  obtain ⟨unlocked, hunlocked, h⟩ := bind_result_eq_ok h
  obtain rfl := Except.ok.inj h
  rw [result_lift] at hcontent hstory hunlocked
  exact ⟨final, content, hfinal, hcontent, haudio, hstory, hpersisted, hunlocked⟩

/-- What is told of a text: a story with the title, whose paragraphs are those of what the guardian makes of
the text. -/
theorem result_tell {title text : Text} {told : Story c.isUrl × Option Text × Option (List Companion)}
    (h : (tell c request prepared (title, text)).result = .ok told) : ∃ fallback safety,
      c.getSafetyFallback = .ok fallback ∧
      c.safetyGuardian.checkContent text prepared.refinedRequest.childAge (some fallback) none = .ok safety ∧
      told.1.props.title = title ∧
      told.1.props.content.paragraphs = paragraphsOf (cleanContent (finalContent safety text)) := by
  obtain ⟨final, content, hfinal, hcontent, -, hstory, -, -⟩ := exists_stages_of_tell h
  obtain ⟨fallback, safety, hfallback, hsafety⟩ := checkSafety_result_eq_ok c hfinal
  rw [checkSafety_eq c hfallback hsafety] at hfinal
  obtain rfl := Except.ok.inj hfinal
  have hprops := Story.props_of_create hstory
  refine ⟨fallback, safety, hfallback, hsafety, ?_, ?_⟩
  · rw [hprops]
    rfl
  · rw [hprops]
    exact StoryContent.paragraphs_of_fromRawText hcontent

/-- The same collaborators with another stream. -/
def withStream (c : Collaborators) (stream : GenerateStoryInput → StreamRun) : Collaborators :=
  { c with generateStoryStream := stream }

/-- **The way a text is cut into chunks makes no difference**: if two streams that complete carry the same
text, both runs hand it to the guardian, do the same but for what they publish, and answer with the same
story, whose title and content are those of the text; and every chunk is published, in order. -/
theorem chunking_invariant {stream : GenerateStoryInput → StreamRun}
    (hprepared : prepare c request = .ok prepared) (hfirst : StreamCompletes c request prepared)
    (hsecond : StreamCompletes (withStream c stream) request prepared)
    (htext : (storyStream c prepared).chunks.flatten = (storyStream (withStream c stream) prepared).chunks.flatten) :
    let text := (storyStream c prepared).chunks.flatten
    (∀ handed safety, (.checked handed safety ∈ (execute c request).trace ∨
        .checked handed safety ∈ (execute (withStream c stream) request).trace) → handed = text) ∧
      unpublished (execute c request).trace = unpublished (execute (withStream c stream) request).trace ∧
      (∀ response response', (execute c request).result = .ok response →
        (execute (withStream c stream) request).result = .ok response' → response = response') ∧
      (∀ response, (execute c request).result = .ok response → response.story.title = titleOf text ∧
        ∃ fallback safety, c.getSafetyFallback = .ok fallback ∧
          c.safetyGuardian.checkContent text prepared.refinedRequest.childAge (some fallback) none
            = .ok safety ∧
          response.story.content.paragraphs = paragraphsOf (cleanContent (finalContent safety text))) ∧
      publishedChunks c (newStoryId c) (execute c request).trace
        = if c.publish.isSome then (storyStream c prepared).chunks else [] := by
  have hprepared' : prepare (withStream c stream) request = .ok prepared := hprepared
  have hhanded : ∀ {d : Collaborators} {handed : Text} {safety : SafetyCheckResult},
      prepare d request = .ok prepared → StreamCompletes d request prepared →
      .checked handed safety ∈ (execute d request).trace → handed = (storyStream d prepared).chunks.flatten := by
    intro d handed safety hprepared hcompletes hchecked
    obtain ⟨_, title, _, hsame, hgenerated, -, -⟩ := checked_mem_execute.mp hchecked
    obtain rfl := Except.ok.inj (hprepared.symm.trans hsame)
    rw [generate_of_completes hcompletes] at hgenerated
    exact (Prod.mk.inj (Except.ok.inj hgenerated)).2.symm
  refine ⟨?_, ?_, ?_, ?_, ?_⟩
  · rintro handed safety (hchecked | hchecked)
    · exact hhanded hprepared hfirst hchecked
    · rw [htext]
      exact hhanded hprepared' hsecond hchecked
  · rw [unpublished_execute hprepared hfirst, unpublished_execute hprepared' hsecond, ← htext]
    rfl
  · intro response response' hresponse hresponse'
    obtain ⟨told, htold, rfl⟩ := response_of_execute hprepared hfirst hresponse
    obtain ⟨told', htold', rfl⟩ := response_of_execute hprepared' hsecond hresponse'
    rw [← htext] at htold'
    obtain rfl := Except.ok.inj (htold.symm.trans htold')
    rfl
  · intro response hresponse
    obtain ⟨told, htold, rfl⟩ := response_of_execute hprepared hfirst hresponse
    obtain ⟨fallback, safety, hfallback, hsafety, htitle, hparagraphs⟩ := result_tell htold
    exact ⟨htitle, fallback, safety, hfallback, hsafety, hparagraphs⟩
  · rw [publishedChunks_execute hprepared, chunksTaken_of_completes hfirst]

/-- A stream that carries the moon's story in one chunk. -/
def wholeStream : Collaborators :=
  withStream bloodStream fun _ => ⟨[lit "Moon\nOnce"], .ok ()⟩

/-- The same story, cut inside its title line and before and after the newline. -/
def cutStream : GenerateStoryInput → StreamRun :=
  fun _ => ⟨[lit "Mo", lit "on", [], lit "\n", lit "Once"], .ok ()⟩

theorem chunking_invariant_moon :
    let text := (storyStream wholeStream moonPrepared).chunks.flatten
    (∀ handed safety, (.checked handed safety ∈ (execute wholeStream moonRequest).trace ∨
        .checked handed safety ∈ (execute (withStream wholeStream cutStream) moonRequest).trace) →
          handed = text) ∧
      unpublished (execute wholeStream moonRequest).trace
        = unpublished (execute (withStream wholeStream cutStream) moonRequest).trace ∧
      (∀ response response', (execute wholeStream moonRequest).result = .ok response →
        (execute (withStream wholeStream cutStream) moonRequest).result = .ok response' →
          response = response') ∧
      (∀ response, (execute wholeStream moonRequest).result = .ok response →
        response.story.title = titleOf text ∧
        ∃ fallback safety, wholeStream.getSafetyFallback = .ok fallback ∧
          wholeStream.safetyGuardian.checkContent text moonPrepared.refinedRequest.childAge (some fallback) none
            = .ok safety ∧
          response.story.content.paragraphs = paragraphsOf (cleanContent (finalContent safety text))) ∧
      publishedChunks wholeStream (newStoryId wholeStream) (execute wholeStream moonRequest).trace
        = if wholeStream.publish.isSome then (storyStream wholeStream moonPrepared).chunks else [] :=
  have htakes : ∀ bus, wholeStream.publish = some bus → ∀ event, takes bus event = true := by
    rintro bus hbus event
    obtain rfl := Option.some.inj hbus
    rfl
  chunking_invariant rfl ⟨rfl, fun bus hbus event _ => htakes bus hbus event⟩
    ⟨rfl, fun bus hbus event _ => htakes bus hbus event⟩ (by decide)

end GenerateStoryUseCase

end DreamWeaver.Stories
