import DreamWeaver.Gateway.World
import DreamWeaver.Cache.InMemoryCache

/-! # The cache of stories

`generateStory` keeps each story under a 32-bit hash of its prompt. What lies under the key of a
prompt is the text of a story that the provider generated for some prompt with the same key, and
this text parses back to that story; so a story belongs to its prompt as long as no two prompts in
use have one key. -/

namespace DreamWeaver.Gateway

open Cache Proc GeminiAIGateway

/-! ## The text of a story -/

/-- The keys of the metadata are different. -/
theorem metadataKeys_nodup (m : StoryMetadata) : (m.members.map Prod.fst).Nodup := by
  have hkeys : [lit "theme", lit "readingLevel", lit "tone"].Nodup := by decide
  exact hkeys

/-- The keys of a story are different. -/
theorem storyKeys_nodup (story : StoryOutput) : (story.members.map Prod.fst).Nodup := by
  have hkeys : [lit "title", lit "content", lit "metadata"].Nodup := by decide
  exact hkeys

/-- The members of the metadata read as strings. -/
theorem readsAs_metadata (m : StoryMetadata) (fuel : ℕ) :
    ∀ x ∈ m.members, ReadsAs (readValue (fuel + 1)) x.2.1 x.2.2 := by
  intro x hx
  simp only [StoryMetadata.members, List.mem_cons, List.not_mem_nil, or_false] at hx
  rcases hx with rfl | rfl | rfl <;> exact readsAs_quote fuel _

/-- The members of a story read as two strings and an object. -/
theorem readsAs_story (story : StoryOutput) (fuel : ℕ) :
    ∀ x ∈ story.members, ReadsAs (readValue (fuel + 2)) x.2.1 x.2.2 := by
  intro x hx
  simp only [StoryOutput.members, List.mem_cons, List.not_mem_nil, or_false] at hx
  rcases hx with rfl | rfl | rfl
  · exact readsAs_quote (fuel + 1) _
  · exact readsAs_quote (fuel + 1) _
  · exact readsAs_objectText (by simp [StoryMetadata.members]) (metadataKeys_nodup _)
      fun x hx => (readsAs_metadata story.metadata fuel x hx).before

/-- The text of a story has an opening brace and what is behind it. -/
theorem two_le_length_toText (story : StoryOutput) : 2 ≤ story.toText.length := by
  have hmembers := length_le_membersText (story.members.map fun m => (m.1, m.2.1))
  rw [List.length_map] at hmembers
  have hlength : story.toText.length =
      (membersText (story.members.map fun m => (m.1, m.2.1))).length + 1 := rfl
  have hthree : story.members.length = 3 := rfl
  omega

/-- **The text of a story parses back to the story.** -/
theorem parseJson_toText (story : StoryOutput) : parseJson story.toText = .ok story.toJson := by
  obtain ⟨fuel, hfuel⟩ : ∃ fuel, story.toText.length = fuel + 2 :=
    ⟨_, (Nat.sub_add_cancel (two_le_length_toText story)).symm⟩
  apply parseJson_of_readsBefore
  rw [hfuel]
  exact (readsAs_objectText (by simp [StoryOutput.members]) (storyKeys_nodup story)
    fun x hx => (readsAs_story story fuel x hx).before).before

/-! ## Keys -/

/-- The keys of stories. -/
def storyKeys : Set Text := Set.range hashPrompt

theorem hashPrompt_mem (prompt : Text) : hashPrompt prompt ∈ storyKeys := ⟨prompt, rfl⟩

/-- The breaker's keys and those of the totals are no keys of stories. -/
theorem accountKeys_notMem {key : Text} (h : key ∈ accountKeys) : key ∉ storyKeys := by
  rintro ⟨prompt, rfl⟩
  have hfirst : (hashPrompt prompt).head? = some 115 := rfl
  rcases h with h | h | h | h <;> · rw [h] at hfirst; exact absurd hfirst (by decide)

/-! ## What the cache holds -/

section Invariant

variable {σ : Type} {port : CachePort σ}

/-- The provider generated the story for the prompt. -/
def Generated (g : GeminiAIGateway) (prompt : Text) (asked : List Asked) (story : StoryOutput) :
    Prop :=
  ∃ response rawData data input, Asked.content (g.storyRequest prompt) (.ok response) ∈ asked ∧
    parseJson response.text = .ok rawData ∧ storyResponseData rawData = some data ∧
    story = g.storyResult input data

/-- Under the key of a prompt lies a story generated for a prompt of `S` with this key. -/
def Shelved (g : GeminiAIGateway) (S : Set Text) (a : AbstractCache) (asked : List Asked) : Prop :=
  ∀ prompt entry, a (hashPrompt prompt) = some entry → ∃ owner ∈ S, ∃ story,
    hashPrompt owner = hashPrompt prompt ∧ Generated g owner asked story ∧
      entry.cell = .value story.toText

/-- **The invariant of the story cache**, up to a time until which the adapter is known to accept
the time to live of stories. -/
def StoriesOwned (ref : CacheRefinement port) (g : GeminiAIGateway) (S : Set Text) (latest : ℕ)
    (w : World σ) : Prop :=
  w.now ≤ latest → ∃ a, ref.rel storyKeys w.now a w.cache ∧ Shelved g S a w.asked

variable {ref : CacheRefinement port} {g : GeminiAIGateway} {S : Set Text} {latest : ℕ}
  {w w' : World σ} {prompt : Text} {story : StoryOutput}

/-- What was generated stays generated. -/
theorem Generated.mono {asked asked' : List Asked} (h : Generated g prompt asked story)
    (hsuffix : asked <:+ asked') : Generated g prompt asked' story := by
  obtain ⟨response, rawData, data, input, hmem, hraw, hdata, hstory⟩ := h
  exact ⟨response, rawData, data, input, hsuffix.subset hmem, hraw, hdata, hstory⟩

theorem Shelved.mono {a : AbstractCache} {asked asked' : List Asked} (h : Shelved g S a asked)
    (hsuffix : asked <:+ asked') : Shelved g S a asked' := by
  intro prompt entry hentry
  obtain ⟨owner, howner, story, hkey, hgenerated, hcell⟩ := h prompt entry hentry
  exact ⟨owner, howner, story, hkey, hgenerated.mono hsuffix, hcell⟩

/-- A story key holds no counter. -/
theorem Shelved.ne_counter {a : AbstractCache} {asked : List Asked} (h : Shelved g S a asked)
    (t : ℕ) (n : ℕ+) : a.live t (hashPrompt prompt) ≠ some (.counter n) := by
  intro hlive
  obtain ⟨entry, hentry, -, hcell⟩ := live_eq_some_iff.mp hlive
  obtain ⟨_, _, story, -, -, hvalue⟩ := h prompt entry hentry
  rw [hvalue] at hcell
  exact absurd hcell (by simp)

/-- Plain effects do not touch the stories. -/
theorem storiesOwned_plain (effect : GatewayEffect) (hplain : Plain effect) (w : World σ)
    (reply : Except JsError effect.Reply) (w' : World σ) (h : StoriesOwned ref g S latest w)
    (hstep : gatewayEnv port w effect reply w') : StoriesOwned ref g S latest w' := by
  intro hlatest
  have hnow := (gatewayEnv_mono hstep).1
  obtain ⟨a, hrel, hshelved⟩ := h (hnow.trans hlatest)
  refine ⟨a, ?_, hshelved.mono (gatewayEnv_mono hstep).2⟩
  cases effect with
  | cache op =>
    obtain ⟨now, hle, -, rfl⟩ := hstep
    exact ref.rel_frame (ref.rel_later hrel hle) (accountKeys_notMem hplain)
  | now =>
    obtain ⟨now, hle, -, rfl⟩ := hstep
    exact ref.rel_later hrel hle
  | generateContent request =>
    obtain ⟨now, hle, rfl⟩ := hstep
    exact ref.rel_later hrel hle
  | generateContentStream request =>
    obtain ⟨now, hle, rfl⟩ := hstep
    exact ref.rel_later hrel hle
  | streamResponse request =>
    obtain ⟨now, hle, rfl⟩ := hstep
    exact ref.rel_later hrel hle

/-- **Looking a story up** finds nothing or a story of a prompt with the same key. -/
theorem StoriesOwned.run_get {r : Except JsError (Option Text)}
    (h : StoriesOwned ref g S latest w) (hlatest : w'.now ≤ latest)
    (hrun : Run (gatewayEnv port) w (cacheGet (hashPrompt prompt)) r w') :
    StoriesOwned ref g S latest w' ∧ (r = .ok none ∨ ∃ owner ∈ S, ∃ story,
      hashPrompt owner = hashPrompt prompt ∧ Generated g owner w'.asked story ∧
        r = .ok (some story.toText)) := by
  obtain ⟨now, hnow, hreply, rfl⟩ := run_cacheGet_iff.mp hrun
  obtain ⟨a, hrel, hshelved⟩ := h (hnow.trans hlatest)
  have hrel' := ref.rel_later hrel hnow
  have hkey : (CacheOp.get (hashPrompt prompt)).key ∈ storyKeys := hashPrompt_mem prompt
  have hallowed : Allowed ref.deadline a now (.get (hashPrompt prompt)) := hshelved.ne_counter now
  refine ⟨fun _ => ⟨a, ref.rel_perform hrel' hkey hallowed, hshelved⟩, ?_⟩
  rw [ref.reply_eq hrel' hkey hallowed] at hreply
  cases hlive : a.live now (hashPrompt prompt) with
  | none =>
    left
    rw [hreply, AbstractCache.perform, hlive]
    rfl
  | some cell =>
    right
    obtain ⟨entry, hentry, -, hcell⟩ := live_eq_some_iff.mp hlive
    obtain ⟨owner, howner, story, hsame, hgenerated, hvalue⟩ := hshelved prompt entry hentry
    refine ⟨owner, howner, story, hsame, hgenerated, ?_⟩
    rw [hreply, AbstractCache.perform, hlive, ← hcell, hvalue]
    rfl

/-- **Shelving a story** that was generated for the prompt of its key. -/
theorem StoriesOwned.run_set {r : Except JsError Unit} (h : StoriesOwned ref g S latest w)
    (haccepts : ∀ t ≤ latest, AcceptsTtl ref.deadline t (some cacheTtlSec)) (hprompt : prompt ∈ S)
    (hgenerated : Generated g prompt w.asked story)
    (hrun : Run (gatewayEnv port) w (cacheStoryResponse (hashPrompt prompt) story) r w') :
    StoriesOwned ref g S latest w' := by
  intro hlatest
  obtain ⟨now, hnow, -, rfl⟩ := run_cacheSet_iff.mp hrun
  obtain ⟨a, hrel, hshelved⟩ := h (hnow.trans hlatest)
  have hkey : (CacheOp.set (hashPrompt prompt) story.toText (some cacheTtlSec)).key ∈ storyKeys :=
    hashPrompt_mem prompt
  have hallowed : Allowed ref.deadline a now
      (.set (hashPrompt prompt) story.toText (some cacheTtlSec)) :=
    ⟨hshelved.ne_counter now, haccepts now hlatest⟩
  refine ⟨a.write (hashPrompt prompt) (.value story.toText)
    (expiryOf ref.deadline now (some cacheTtlSec)),
    ref.rel_perform (ref.rel_later hrel hnow) hkey hallowed, ?_⟩
  intro other entry hentry
  by_cases hsame : hashPrompt other = hashPrompt prompt
  · rw [hsame, AbstractCache.write, Function.update_self] at hentry
    obtain rfl := Option.some.inj hentry
    exact ⟨prompt, hprompt, story, hsame.symm, hgenerated, rfl⟩
  · rw [AbstractCache.write, Function.update_of_ne hsame] at hentry
    exact hshelved other entry hentry

/-! ## Runs of `generateStory` -/

variable (ref g S latest) in
/-- How a call for a prompt ends: the cache is in order, and a result is a story generated for a
prompt of `S` with the same key. -/
def Served (prompt : Text) (r : Except JsError Json) (w : World σ) : Prop :=
  StoriesOwned ref g S latest w ∧ ∀ v, r = .ok v → ∃ owner ∈ S, ∃ story,
    hashPrompt owner = hashPrompt prompt ∧ v = story.toJson ∧ Generated g owner w.asked story

theorem Served.of_error {e : JsError} (h : StoriesOwned ref g S latest w) :
    Served ref g S latest prompt (.error e) w :=
  ⟨h, fun v hv => absurd hv (by simp)⟩

-- the adapter accepts the time to live of stories, and the prompt is one of those in use
variable (haccepts : ∀ t ≤ latest, AcceptsTtl ref.deadline t (some cacheTtlSec))
  (hprompt : prompt ∈ S)

include haccepts hprompt

/-- Validating a response shelves and returns what was generated for the prompt. -/
theorem run_validateStory {input : StoryInput} {response : ModelResponse} {r : Except JsError Json}
    (h : StoriesOwned ref g S latest w)
    (hasked : Asked.content (g.storyRequest prompt) (.ok response) ∈ w.asked)
    (hrun : Run (gatewayEnv port) w (g.validateStory input (hashPrompt prompt) response) r w') :
    Served ref g S latest prompt r w' := by
  have hbody : ∀ r₁ w₁, Run (gatewayEnv port) w (do
      let rawData ← Proc.done (parseJson response.text)
      let data ← Proc.done (g.parseSchema storyResponseData rawData)
      cacheStoryResponse (hashPrompt prompt) (g.storyResult input data)
      pure (g.storyResult input data).toJson) r₁ w₁ → Served ref g S latest prompt r₁ w₁ := by
    intro r₁ w₁ hrun₁
    rcases run_bind_iff.mp hrun₁ with ⟨rawData, w₂, hparse, hrest⟩ | ⟨e, hparse, rfl⟩
    swap
    · obtain ⟨-, rfl⟩ := run_done_iff.mp hparse
      exact .of_error h
    obtain ⟨hraw, rfl⟩ := run_done_iff.mp hparse
    rcases run_bind_iff.mp hrest with ⟨data, w₃, hschema, hrest'⟩ | ⟨e, hschema, rfl⟩
    swap
    · obtain ⟨-, rfl⟩ := run_done_iff.mp hschema
      exact .of_error h
    obtain ⟨hok, rfl⟩ := run_done_iff.mp hschema
    have hdata : storyResponseData rawData = some data := by
      unfold parseSchema at hok
      split at hok
      · rename_i found hfound
        rw [hfound, Except.ok.inj hok]
      · exact absurd hok (by simp)
    have hgenerated : Generated g prompt w₃.asked (g.storyResult input data) :=
      ⟨response, rawData, data, input, hasked, hraw.symm, hdata, rfl⟩
    rcases run_bind_iff.mp hrest' with ⟨_, w₄, hset, hpure⟩ | ⟨e, hset, rfl⟩
    · obtain ⟨rfl, rfl⟩ := run_pure_iff.mp hpure
      refine ⟨h.run_set haccepts hprompt hgenerated hset, fun v hv => ?_⟩
      obtain rfl := Except.ok.inj hv
      exact ⟨prompt, hprompt, _, rfl, rfl, hgenerated.mono (run_asked_suffix hset)⟩
    · exact .of_error (h.run_set haccepts hprompt hgenerated hset)
  rcases run_catchWith_iff.mp hrun with ⟨v, hok, rfl⟩ | ⟨e, w₁, herror, hthrow⟩
  · exact hbody _ _ hok
  · obtain ⟨rfl, rfl⟩ := run_done_iff.mp hthrow
    exact .of_error (hbody _ _ herror).1

/-- Asking the provider for a story. -/
theorem run_generateFresh {input : StoryInput} {r : Except JsError Json}
    (h : StoriesOwned ref g S latest w)
    (hrun : Run (gatewayEnv port) w (g.generateFresh input prompt) r w') :
    Served ref g S latest prompt r w' := by
  rcases run_bind_iff.mp hrun with ⟨_, w₁, hcheck, hattempt⟩ | ⟨e, hcheck, rfl⟩
  swap
  · exact .of_error (keeps_checkCircuitBreaker storiesOwned_plain _ _ _ h hcheck)
  have h₁ := keeps_checkCircuitBreaker storiesOwned_plain _ _ _ h hcheck
  have hbody : ∀ r₂ w₂, Run (gatewayEnv port) w₁ (do
      let response ← askModel (g.storyRequest prompt)
      g.recordUsage response.usageMetadata
      g.validateStory input (hashPrompt prompt) response) r₂ w₂ →
        Served ref g S latest prompt r₂ w₂ := by
    intro r₂ w₂ hrun₂
    rcases run_bind_iff.mp hrun₂ with ⟨response, w₃, hask, hrest⟩ | ⟨e, hask, rfl⟩
    swap
    · exact .of_error (keeps_askModel storiesOwned_plain _ _ _ _ h₁ hask)
    have h₃ := keeps_askModel storiesOwned_plain _ _ _ _ h₁ hask
    obtain ⟨now, -, rfl⟩ := run_askModel_iff.mp hask
    rcases run_bind_iff.mp hrest with ⟨_, w₄, hrecord, hvalidate⟩ | ⟨e, hrecord, rfl⟩
    · -- the record still has the answer when it is validated
      have hasked := (run_asked_suffix hrecord).subset (List.mem_cons_self ..)
      exact run_validateStory haccepts hprompt
        (keeps_recordUsage storiesOwned_plain _ _ _ _ h₃ hrecord) hasked hvalidate
    · exact .of_error (keeps_recordUsage storiesOwned_plain _ _ _ _ h₃ hrecord)
  rcases run_catchWith_iff.mp hattempt with ⟨v, hok, rfl⟩ | ⟨error, w₂, herror, hhandler⟩
  · exact hbody _ _ hok
  · have h₂ := (hbody _ _ herror).1
    rcases run_bind_iff.mp hhandler with ⟨_, w₃, hrecord, hthrow⟩ | ⟨e, hrecord, rfl⟩
    · obtain ⟨rfl, rfl⟩ := run_done_iff.mp hthrow
      exact .of_error (keeps_recordFailure storiesOwned_plain _ _ _ h₂ hrecord)
    · exact .of_error (keeps_recordFailure storiesOwned_plain _ _ _ h₂ hrecord)

/-- **One call of `generateStory`** returns a story of the prompt's key. -/
theorem run_generateStory {input : StoryInput} {r : Except JsError Json}
    (hinput : truthyText input.customPrompt = some prompt) (h : StoriesOwned ref g S latest w)
    (hlatest : w'.now ≤ latest) (hrun : Run (gatewayEnv port) w (g.generateStory input) r w') :
    Served ref g S latest prompt r w' := by
  unfold generateStory at hrun
  split at hrun
  swap
  · obtain ⟨rfl, rfl⟩ := run_done_iff.mp hrun
    exact .of_error h
  simp only [hinput] at hrun
  rcases run_bind_iff.mp hrun with ⟨cachedJson, w₁, hget, hrest⟩ | ⟨e, hget, rfl⟩
  swap
  · exact .of_error (h.run_get hlatest hget).1
  obtain ⟨h₁, hfound⟩ := h.run_get ((run_now_le hrest).trans hlatest) hget
  split at hrest
  · rename_i text htext
    obtain ⟨rfl, rfl⟩ := run_done_iff.mp hrest
    refine ⟨h₁, fun v hv => ?_⟩
    obtain ⟨rfl, -⟩ := Option.filter_eq_some_iff.mp htext
    rcases hfound with hnone | ⟨owner, howner, story, hsame, hgenerated, htext'⟩
    · exact absurd hnone (by simp)
    obtain rfl : text = story.toText := Option.some.inj (Except.ok.inj htext')
    rw [parseJson_toText] at hv
    exact ⟨owner, howner, story, hsame, (Except.ok.inj hv).symm, hgenerated⟩
  · exact run_generateFresh haccepts hprompt h₁ hrest

end Invariant

/-! ## Whole runs -/

section Run

variable {σ : Type} {port : CachePort σ}

/-- The prompt of a call for a story. -/
def GatewayCall.storyPrompt : GatewayCall → Option Text
  | .generateStory input => truthyText input.customPrompt
  | _ => none

/-- One call; if it is for a story, its prompt is in `S`. -/
def CallFrom (S : Set Text) (g : GeminiAIGateway) (port : CachePort σ) (w w' : World σ) : Prop :=
  ∃ (call : GatewayCall) (r : Except JsError call.Result),
    (∀ prompt, call.storyPrompt = some prompt → prompt ∈ S) ∧
      Run (gatewayEnv port) w (call.run g) r w'

/-- A sequence of calls; the prompts for stories are in `S`. -/
def CallsFrom (S : Set Text) (g : GeminiAIGateway) (port : CachePort σ) :
    World σ → World σ → Prop :=
  Relation.ReflTransGen (CallFrom S g port)

variable {ref : CacheRefinement port} {g : GeminiAIGateway} {S : Set Text} {latest : ℕ}
  {w w' : World σ}

/-- The cache is in order at first. -/
theorem storiesOwned_initial (t : ℕ) : StoriesOwned ref g S latest (World.initial port t) :=
  fun _ => ⟨fun _ => none, ref.rel_initial _ _, fun _ _ hentry => absurd hentry (by simp)⟩

/-- **Every call keeps the cache in order.** -/
theorem StoriesOwned.callFrom (h : StoriesOwned ref g S latest w)
    (haccepts : ∀ t ≤ latest, AcceptsTtl ref.deadline t (some cacheTtlSec))
    (hcall : CallFrom S g port w w') : StoriesOwned ref g S latest w' := by
  obtain ⟨call, r, hprompts, hrun⟩ := hcall
  cases call with
  | generateStory input =>
    intro hlatest
    cases hinput : truthyText input.customPrompt with
    | some prompt =>
      exact (run_generateStory haccepts (hprompts prompt hinput) hinput h hlatest hrun).1 hlatest
    | none =>
      have hthrow : ∃ e, g.generateStory input = Proc.throw e := by
        unfold generateStory
        split
        · simp only [hinput]
          exact ⟨_, rfl⟩
        · exact ⟨_, rfl⟩
      obtain ⟨e, hthrow⟩ := hthrow
      rw [GatewayCall.run, hthrow] at hrun
      obtain ⟨-, rfl⟩ := run_done_iff.mp hrun
      exact h hlatest
  | generateStoryStream input => exact keeps_generateStoryStream storiesOwned_plain input _ _ _ h hrun
  | generateAgentThought input =>
    exact keeps_generateAgentThought storiesOwned_plain input _ _ _ h hrun
  | generateStructured input => exact keeps_generateStructured storiesOwned_plain input _ _ _ h hrun

/-- After every run of calls the cache is in order. -/
theorem storiesOwned_reached {t : ℕ}
    (haccepts : ∀ t ≤ latest, AcceptsTtl ref.deadline t (some cacheTtlSec))
    (h : CallsFrom S g port (World.initial port t) w) : StoriesOwned ref g S latest w := by
  induction h with
  | refl => exact storiesOwned_initial t
  | tail _ hlast ih => exact ih.callFrom haccepts hlast

/-- **What `generateStory` returns belongs to the key of its prompt**: after any run, the provider
generated it for a prompt with that key. -/
theorem story_belongs_to_key (ref : CacheRefinement port) {t : ℕ} {input : StoryInput}
    {prompt : Text} {v : Json}
    (haccepts : ∀ t ≤ w'.now, AcceptsTtl ref.deadline t (some cacheTtlSec))
    (hcalls : CallsFrom S g port (World.initial port t) w)
    (hinput : truthyText input.customPrompt = some prompt) (hprompt : prompt ∈ S)
    (hrun : Run (gatewayEnv port) w (g.generateStory input) (.ok v) w') :
    ∃ owner ∈ S, ∃ story, hashPrompt owner = hashPrompt prompt ∧ v = story.toJson ∧
      Generated g owner w'.asked story :=
  (run_generateStory haccepts hprompt hinput (storiesOwned_reached haccepts hcalls) le_rfl
    hrun).2 v rfl

/-- **A story belongs to its prompt**: after any run, what `generateStory` returns was generated by
the provider for the prompt of the call, as long as the keys of the prompts in use are different. -/
theorem story_belongs_to_prompt (ref : CacheRefinement port) (g : GeminiAIGateway) {S : Set Text}
    (hS : S.InjOn hashPrompt) {t : ℕ} {w w' : World σ} {input : StoryInput} {prompt : Text}
    {v : Json} (haccepts : ∀ t ≤ w'.now, AcceptsTtl ref.deadline t (some cacheTtlSec))
    (hcalls : CallsFrom S g port (World.initial port t) w)
    (hinput : truthyText input.customPrompt = some prompt) (hprompt : prompt ∈ S)
    (hrun : Run (gatewayEnv port) w (g.generateStory input) (.ok v) w') :
    ∃ story, v = story.toJson ∧ Generated g prompt w'.asked story := by
  obtain ⟨owner, howner, story, hsame, hv, hgenerated⟩ :=
    story_belongs_to_key ref haccepts hcalls hinput hprompt hrun
  obtain rfl : owner = prompt := hS howner hprompt hsame
  exact ⟨story, hv, hgenerated⟩

end Run

/-! ## Two prompts on the in-memory adapter -/

/-- A story as the provider sends it. -/
def sentStory : Except JsError ModelResponse :=
  .ok ⟨lit "\x7b\"title\": \"Moon\", \"content\": \"Good night\"\x7d", none⟩

/-- The input of a call for a prompt. -/
def inputFor (prompt : Text) : StoryInput := ⟨lit "moon", none, none, some prompt⟩

/-- A call for a prompt, with the clock standing still. -/
def storyCall (w : World InMemoryCache) (prompt : Text) :
    Except JsError Json × World InMemoryCache :=
  exec (steadyWorld InMemoryCache.port fun _ => sentStory) w
    (defaultGateway.generateStory (inputFor prompt))

theorem run_storyCall (w : World InMemoryCache) (prompt : Text) :
    Run (gatewayEnv InMemoryCache.port) w (defaultGateway.generateStory (inputFor prompt))
      (storyCall w prompt).1 (storyCall w prompt).2 :=
  run_exec (gatewayEnv_steadyWorld _) _ _

/-- The in-memory adapter accepts the time to live of stories at the time 0. -/
theorem inMemory_accepts_stories {t : ℕ} (ht : t ≤ 0) :
    AcceptsTtl InMemoryCache.refinement.deadline t (some cacheTtlSec) := by
  obtain rfl := Nat.le_zero.mp ht
  have hsome : (InMemoryCache.deadline 0 cacheTtlSec).isSome = true := by decide +kernel
  intro ttl httl
  obtain ⟨heq, -⟩ := Option.filter_eq_some_iff.mp httl
  obtain rfl := Option.some.inj heq
  exact hsome

/-- A call that is answered returns something. -/
theorem exists_ok_of_isOk {α : Type} {r : Except JsError α} (h : r.isOk = true) :
    ∃ v, r = .ok v := by
  cases r with
  | error e => exact absurd h (by simp [Except.isOk, Except.toBool])
  | ok v => exact ⟨v, rfl⟩

/-- A call for a prompt on a fresh cache returns the prompt's own story. -/
theorem story_belongs_to_moon : ∃ v story,
    (storyCall (World.initial InMemoryCache.port 0) (lit "Moon")).1 = .ok v ∧ v = story.toJson ∧
      Generated defaultGateway (lit "Moon")
        (storyCall (World.initial InMemoryCache.port 0) (lit "Moon")).2.asked story := by
  have hrun := run_storyCall (World.initial InMemoryCache.port 0) (lit "Moon")
  obtain ⟨v, hv⟩ := exists_ok_of_isOk (r := (storyCall (World.initial InMemoryCache.port 0)
    (lit "Moon")).1) (by decide +kernel)
  rw [hv] at hrun
  have hnow : (storyCall (World.initial InMemoryCache.port 0) (lit "Moon")).2.now ≤ 0 := by
    decide +kernel
  obtain ⟨story, hstory, hgenerated⟩ := story_belongs_to_prompt InMemoryCache.refinement
    defaultGateway (Set.injOn_singleton hashPrompt (lit "Moon"))
    (fun t ht => inMemory_accepts_stories (ht.trans hnow)) .refl (by decide) rfl hrun
  exact ⟨v, story, hv, hstory, hgenerated⟩

/-- **The keys of `Aa` and `BB` are one**: after a call for `Aa` the call for `BB` returns the story
that the provider generated for `Aa`. -/
theorem collision_returns_other_story : ∃ (w w' : World InMemoryCache) (v : Json),
    CallsFrom Set.univ defaultGateway InMemoryCache.port (World.initial InMemoryCache.port 0) w ∧
    Run (gatewayEnv InMemoryCache.port) w (defaultGateway.generateStory (inputFor (lit "BB")))
      (.ok v) w' ∧
    (∃ story, v = story.toJson ∧ Generated defaultGateway (lit "Aa") w'.asked story) ∧
    ¬ ∃ story, v = story.toJson ∧ Generated defaultGateway (lit "BB") w'.asked story := by
  let w := (storyCall (World.initial InMemoryCache.port 0) (lit "Aa")).2
  have hfirst := run_storyCall (World.initial InMemoryCache.port 0) (lit "Aa")
  have hsecond := run_storyCall w (lit "BB")
  have hcalls : CallsFrom Set.univ defaultGateway InMemoryCache.port
      (World.initial InMemoryCache.port 0) w :=
    .single ⟨.generateStory (inputFor (lit "Aa")), _, fun _ _ => Set.mem_univ _, hfirst⟩
  obtain ⟨v, hv⟩ := exists_ok_of_isOk (r := (storyCall w (lit "BB")).1) (by decide +kernel)
  rw [hv] at hsecond
  have hnow : (storyCall w (lit "BB")).2.now ≤ 0 := by decide +kernel
  -- the provider was only asked for the first prompt
  have hmessage : ∀ x ∈ (storyCall w (lit "BB")).2.asked, x.request.message = lit "Aa" := by
    decide +kernel
  have howner : ∀ owner story, Generated defaultGateway owner (storyCall w (lit "BB")).2.asked story →
      owner = lit "Aa" := by
    rintro owner story ⟨response, rawData, data, input, hmem, -⟩
    exact hmessage _ hmem
  refine ⟨w, _, v, hcalls, hsecond, ?_, ?_⟩
  · have hinput : truthyText (inputFor (lit "BB")).customPrompt = some (lit "BB") := by decide
    obtain ⟨owner, -, story, -, hstory, hgenerated⟩ := story_belongs_to_key InMemoryCache.refinement
      (fun t ht => inMemory_accepts_stories (ht.trans hnow)) hcalls hinput (Set.mem_univ _) hsecond
    obtain rfl := howner owner story hgenerated
    exact ⟨story, hstory, hgenerated⟩
  · rintro ⟨story, -, hgenerated⟩
    exact absurd (howner _ story hgenerated) (by decide)

end DreamWeaver.Gateway
