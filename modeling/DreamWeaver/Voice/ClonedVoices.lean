import DreamWeaver.Voice.TextToSpeech

/-! # Cloned voices

A voice is cloned by `UploadVoiceUseCase` (`api/src/application/use-cases/UploadVoiceUseCase.ts`), which makes
the URL of the sample the id of the voice, or by `cloneVoice` of `GoogleCloudVoiceAdapter`, whose ids are
resource paths or a mock. The composite adapter passes only ids that look like URLs to the adapter for custom
voices, and that adapter uses only ids that do not: no cloned voice is ever asked for there. -/

namespace DreamWeaver.Voice

/-! ## Profiles -/

/-- `VoiceProfileStatus` -/
inductive VoiceProfileStatus where
  | pending
  | processing
  | ready
  | failed
  deriving DecidableEq, Repr

/-- `VoiceProfile`, dates in milliseconds. -/
structure VoiceProfile where
  id : Text
  userId : Text
  name : Text
  sampleUrl : Option Text
  voiceModelId : Option Text
  status : VoiceProfileStatus
  createdAt : ℕ
  updatedAt : Option ℕ
  deriving DecidableEq, Repr

namespace VoiceProfile

/-- `createPending`, with the drawn id. -/
def createPending (id userId name : Text) (now : ℕ) : VoiceProfile where
  id := id
  userId := userId
  name := name
  sampleUrl := none
  voiceModelId := none
  status := .pending
  createdAt := now
  updatedAt := none

/-- `setSampleUrl` -/
def setSampleUrl (profile : VoiceProfile) (url : Text) (now : ℕ) : VoiceProfile :=
  { profile with sampleUrl := some url, status := .processing, updatedAt := some now }

/-- `markReady`, which throws if there is no sample. -/
def markReady (profile : VoiceProfile) (voiceModelId : Text) (now : ℕ) : Except JsError VoiceProfile :=
  if (profile.sampleUrl.getD []).isEmpty then
    .error ⟨lit "Error", lit "Cannot mark ready without sample URL"⟩
  else .ok { profile with voiceModelId := some voiceModelId, status := .ready, updatedAt := some now }

/-- `markFailed` -/
def markFailed (profile : VoiceProfile) (now : ℕ) : VoiceProfile :=
  { profile with status := .failed, updatedAt := some now }

end VoiceProfile

/-! ## Uploads -/

/-- `UploadVoiceInput`, without the audio data. -/
structure UploadVoiceInput where
  userId : Text
  name : Text
  mimeType : Text

/-- What the use case asks the file storage and the repository. -/
inductive UploadEffect where
  | upload (path mimeType : Text)
  | save (profile : VoiceProfile)

/-- The file storage, which answers with the public URL of the file, and the repository. -/
structure VoiceStores where
  upload : Text → Text → Except JsError Text
  save : VoiceProfile → Except JsError Unit

namespace UploadVoiceUseCase

/-- `getExtension` -/
def getExtension (mimeType : Text) : Text :=
  if mimeType = lit "audio/wav" then lit "wav"
  else if mimeType = lit "audio/mpeg" then lit "mp3"
  else if mimeType = lit "audio/webm" then lit "webm"
  else if mimeType = lit "audio/x-m4a" then lit "m4a"
  else lit "bin"

/-- `this.fileStorage.upload(…)` -/
def upload (stores : VoiceStores) (path mimeType : Text) : Traced UploadEffect Text := do
  Traced.emit (.upload path mimeType)
  Traced.lift (stores.upload path mimeType)

/-- `this.voiceRepository.save(profile)` -/
def save (stores : VoiceStores) (profile : VoiceProfile) : Traced UploadEffect Unit := do
  Traced.emit (.save profile)
  Traced.lift (stores.save profile)

/-- The `catch` of `execute`, on the profile as it is by then. -/
def fail {α : Type} (stores : VoiceStores) (now : ℕ) (profile : VoiceProfile) (error : JsError) :
    Traced UploadEffect α := do
  Traced.catchWith (save stores (profile.markFailed now)) fun _ => pure ()
  Traced.lift (.error error)

/-- `execute`, with the drawn id and the time. -/
def execute (stores : VoiceStores) (id : Text) (now : ℕ) (input : UploadVoiceInput) :
    Traced UploadEffect VoiceProfile := do
  let profile := VoiceProfile.createPending id input.userId input.name now
  let path := lit "users/" ++ input.userId ++ lit "/" ++ id ++ lit "." ++ getExtension input.mimeType
  let publicUrl ← Traced.catchWith (upload stores path input.mimeType) (fail stores now profile)
  let profile := profile.setSampleUrl publicUrl now
  let profile ← Traced.catchWith (Traced.lift (profile.markReady publicUrl now)) (fail stores now profile)
  Traced.catchWith (save stores profile) (fail stores now profile)
  return profile

end UploadVoiceUseCase

/-! ## Cloning -/

/-- What `cloneVoice` asks of others. -/
inductive CloneEffect where
  | getAccessToken
  | fetchSample (sampleAudioUrl : Text)
  | createVoice (createUrl : Text) (token : Option Text)

/-- What the service answers to the creation of a voice: `name` in the body, or a status that is not a
success. Reading the body as JSON may fail. -/
inductive CreateAnswer where
  | created (name : Except JsError (Option Text))
  | refused (error : Except JsError Unit)

/-- The authentication, the host of the sample and the service. -/
structure CloneServices where
  token : Except JsError (Option Text)
  sample : Except JsError Unit
  create : Text → Option Text → Except JsError CreateAnswer

/-- `VoiceCloneOutput`; the status is always `ready`. -/
structure VoiceCloneOutput where
  voiceModelId : Option Text
  deriving DecidableEq

namespace GoogleCloudVoiceAdapter

/-- The collection that custom voices are created in. -/
def customVoices (projectId region : Text) : Text :=
  lit "projects/" ++ projectId ++ lit "/locations/" ++ region ++ lit "/customVoices"

/-- The creation of a custom voice, from its sample. -/
def createCustomVoice (services : CloneServices) (parent : Text) (sampleAudioUrl : Text) (now : ℕ) :
    Traced CloneEffect VoiceCloneOutput := do
  Traced.emit .getAccessToken
  let token ← Traced.lift services.token
  Traced.emit (.fetchSample sampleAudioUrl)
  Traced.lift services.sample
  let createUrl := lit "https://texttospeech.googleapis.com/v1beta1/" ++ parent
  Traced.emit (.createVoice createUrl token)
  let answer ← Traced.lift (services.create createUrl token)
  match answer with
  | .refused error =>
    Traced.lift error
    return ⟨some (parent ++ lit "/dormant-fallback-" ++ showNat now)⟩
  | .created name =>
    let newVoiceId ← Traced.lift name
    return ⟨newVoiceId⟩

/-- `cloneVoice`, at a time -/
def cloneVoice (adapter : GoogleCloudVoiceAdapter) (services : CloneServices) (sampleAudioUrl : Text)
    (now : ℕ) : Traced CloneEffect VoiceCloneOutput :=
  let projectId := adapter.projectId.getD []
  if projectId.isEmpty then return ⟨some (lit "mock-ref-" ++ showNat now)⟩
  else
    let parent := customVoices projectId adapter.region
    Traced.catchWith (createCustomVoice services parent sampleAudioUrl now) fun _ =>
      return ⟨some (parent ++ lit "/error-fallback")⟩

end GoogleCloudVoiceAdapter

/-! ## What is heard -/

/-- The voice is the voice heard: it is asked for, at the endpoint for custom voices, and no other is. -/
def Heard (voiceModelId : Option Text) (requests : List SynthesisRequest) : Prop :=
  requests ≠ [] ∧ ∀ request ∈ requests, request.endpoint = .custom ∧ some request.voiceName = voiceModelId

variable {tts : CompositeTTSAdapter} {service : SpeechService} {input : SynthesizeInput}
  {request : SynthesisRequest}

/-- A request that is sent once meets what all requests are to meet. -/
theorem keeps_send {p : SynthesisRequest → Prop} {before : List SynthesisRequest} :
    Traced.Keeps (fun _ => p) before (send service request) ↔ p request := by
  rw [send, Traced.keeps_bind, Traced.keeps_emit]
  exact and_iff_left fun _ _ => Traced.keeps_lift _

/-- The requests of the adapter for standard voices. -/
theorem requests_of_google : ∀ request ∈ (tts.googleAdapter.synthesize service input).trace,
    request.endpoint = .standard ∧ request.voiceName = GoogleTTSAdapter.mapVoiceIdToGoogle
      (orText input.voiceModelId (lit "en-US-Neural2-F")) := by
  apply Traced.forall_of_keeps
  rw [GoogleTTSAdapter.synthesize]
  split
  · exact Traced.keeps_lift _
  · refine Traced.keeps_bind.mpr ⟨keeps_send.mpr ⟨rfl, rfl⟩, fun answer _ => ?_⟩
    cases answer with
    | failed status statusText body message => exact Traced.keeps_lift _
    | audio audioContent =>
      exact Traced.keeps_bind.mpr ⟨Traced.keeps_lift _, fun _ _ => Traced.keeps_pure _⟩

/-- A request for a voice, and what is made of its failure. -/
theorem keeps_speak {p : SynthesisRequest → Prop} {before : List SynthesisRequest} {apiKey text voice : Text}
    {onFailure : ℕ → Text → Traced SynthesisRequest SynthesizeOutput}
    (hrequest : p ⟨.custom, apiKey, text, voice, none⟩)
    (hfailure : ∀ before status message, Traced.Keeps (fun _ => p) before (onFailure status message)) :
    Traced.Keeps (fun _ => p) before (GoogleCloudVoiceAdapter.speak service apiKey text voice onFailure) := by
  refine Traced.keeps_bind.mpr ⟨keeps_send.mpr hrequest, fun answer _ => ?_⟩
  cases answer with
  | failed status statusText body error =>
    exact Traced.keeps_bind.mpr ⟨Traced.keeps_lift _, fun message _ => hfailure _ status message⟩
  | audio audioContent =>
    exact Traced.keeps_bind.mpr ⟨Traced.keeps_lift _, fun _ _ => Traced.keeps_pure _⟩

/-- The requests of the adapter for custom voices: a custom voice may be replaced by the default one. -/
theorem requests_of_cloning : ∀ request ∈ (tts.cloningAdapter.synthesize service input).trace,
    request.endpoint = .custom ∧
      (request.voiceName = GoogleCloudVoiceAdapter.voiceName input.voiceModelId ∨
        GoogleCloudVoiceAdapter.isProjectVoice input.voiceModelId = true) := by
  apply Traced.forall_of_keeps
  rw [GoogleCloudVoiceAdapter.synthesize]
  split
  · exact Traced.keeps_lift _
  · refine keeps_speak ⟨rfl, .inl rfl⟩ fun before status message => ?_
    split
    · -- the one retry is for a voice of the project, and asks for the default voice
      rename_i hretry
      exact keeps_speak ⟨rfl, .inr hretry.1⟩ fun _ _ _ => Traced.keeps_lift _
    · exact Traced.keeps_lift _

/-- An id that is taken for a clone is no id of a custom voice in a project. -/
theorem isProjectVoice_of_isCloneId {voiceModelId : Option Text} (h : isCloneId voiceModelId = true) :
    GoogleCloudVoiceAdapter.isProjectVoice voiceModelId = false := by
  rw [isCloneId, List.isPrefixOf_iff_prefix] at h
  rw [GoogleCloudVoiceAdapter.isProjectVoice, Bool.and_eq_false_iff, ← Bool.not_eq_true (List.isPrefixOf _ _),
    List.isPrefixOf_iff_prefix]
  refine .inr fun hproject => ?_
  -- of two prefixes of one text the shorter is a prefix of the longer
  exact absurd (List.prefix_of_prefix_length_le h hproject (by decide)) (by decide)

/-- **What the adapter for custom voices is asked for** through the composite: its default voice. -/
theorem voiceName_of_isCloneId {voiceModelId : Option Text} (h : isCloneId voiceModelId = true) :
    GoogleCloudVoiceAdapter.voiceName voiceModelId = GoogleCloudVoiceAdapter.defaultVoice := by
  rw [GoogleCloudVoiceAdapter.voiceName, isProjectVoice_of_isCloneId h]
  rw [isCloneId] at h
  simp [h]

/-- **No cloned voice is heard** through the composite: an id goes to the adapter for standard voices, or it is
replaced by the default voice. -/
theorem not_heard (tts : CompositeTTSAdapter) (service : SpeechService) (input : SynthesizeInput) :
    ¬ Heard input.voiceModelId (tts.synthesize service input).trace := by
  rintro ⟨hne, hall⟩
  obtain ⟨request, hmem⟩ := List.exists_mem_of_ne_nil _ hne
  obtain ⟨hendpoint, hname⟩ := hall request hmem
  rw [CompositeTTSAdapter.synthesize] at hmem
  by_cases hclone : isCloneId input.voiceModelId = true
  · -- an id that is routed as a clone is none that the adapter knows, so that it asks for its default voice
    rw [if_pos hclone] at hmem
    have hdefault : request.voiceName = GoogleCloudVoiceAdapter.defaultVoice := by
      rcases (requests_of_cloning request hmem).2 with hname | hproject
      · rw [hname, voiceName_of_isCloneId hclone]
      · rw [isProjectVoice_of_isCloneId hclone] at hproject
        cases hproject
    rw [← hname, hdefault] at hclone
    exact absurd hclone (by decide)
  · -- any other id goes to the standard endpoint, that of a created voice included
    rw [if_neg hclone] at hmem
    rw [(requests_of_google request hmem).1] at hendpoint
    cases hendpoint

/-! ## Every cloned voice -/

variable {stores : VoiceStores} {id : Text} {now : ℕ} {upload : UploadVoiceInput} {profile : VoiceProfile}

theorem result_fail {α : Type} {error : JsError} :
    (UploadVoiceUseCase.fail stores now profile error : Traced UploadEffect α).result = .error error := by
  have hcaught : (Traced.catchWith (UploadVoiceUseCase.save stores (profile.markFailed now))
      fun _ => pure ()).result = .ok () := by
    rw [Traced.catchWith]
    split
    · rfl
    · rfl
  rw [UploadVoiceUseCase.fail, Traced.bind_of_ok hcaught]
  rfl

/-- What is caught and thrown again was not thrown. -/
theorem result_of_caught {α : Type} {x : Traced UploadEffect α} {a : α}
    (h : (Traced.catchWith x (UploadVoiceUseCase.fail stores now profile)).result = .ok a) :
    x.result = .ok a := by
  rw [Traced.catchWith] at h
  split at h
  · rename_i hx
    rw [hx]
    exact h
  · rw [result_fail] at h
    cases h

/-- **The voice of an upload** is the URL of its sample, and it is ready. -/
theorem execute_ok (h : (UploadVoiceUseCase.execute stores id now upload).result = .ok profile) :
    profile.status = .ready ∧ ∃ path publicUrl, stores.upload path upload.mimeType = .ok publicUrl ∧
      profile.sampleUrl = some publicUrl ∧ profile.voiceModelId = some publicUrl ∧ publicUrl ≠ [] := by
  obtain ⟨publicUrl, hupload, h⟩ := Traced.bind_result_eq_ok h
  obtain ⟨ready, hready, h⟩ := Traced.bind_result_eq_ok h
  obtain ⟨_, -, h⟩ := Traced.bind_result_eq_ok h
  obtain rfl : ready = profile := Except.ok.inj h
  have hurl := result_of_caught hupload
  rw [UploadVoiceUseCase.upload, Traced.bind_of_ok (Traced.result_emit _), Traced.result_lift] at hurl
  have hmarked := result_of_caught hready
  rw [Traced.result_lift, VoiceProfile.markReady] at hmarked
  split at hmarked
  · cases hmarked
  · rename_i hsample
    obtain rfl := Except.ok.inj hmarked
    refine ⟨rfl, _, publicUrl, hurl, rfl, rfl, ?_⟩
    rintro rfl
    exact hsample rfl

/-- **A cloned voice is never the voice heard**: not the one of a profile that an upload has made, nor one
whose id the cloning has returned. -/
theorem cloned_voice_never_heard (tts : CompositeTTSAdapter) (service : SpeechService) (stores : VoiceStores)
    (services : CloneServices) (id text sampleAudioUrl : Text) (now : ℕ) (upload : UploadVoiceInput)
    (speakingRate pitch : Option JsNumber) :
    (∀ profile, (UploadVoiceUseCase.execute stores id now upload).result = .ok profile →
      ¬ Heard profile.voiceModelId
        (tts.synthesize service ⟨text, profile.voiceModelId, speakingRate, pitch⟩).trace) ∧
    ∀ cloned, (tts.cloningAdapter.cloneVoice services sampleAudioUrl now).result = .ok cloned →
      ¬ Heard cloned.voiceModelId
        (tts.synthesize service ⟨text, cloned.voiceModelId, speakingRate, pitch⟩).trace :=
  ⟨fun profile _ => not_heard tts service ⟨text, profile.voiceModelId, speakingRate, pitch⟩,
    fun cloned _ => not_heard tts service ⟨text, cloned.voiceModelId, speakingRate, pitch⟩⟩

/-- Adapters with a key and a project. -/
def someTts : CompositeTTSAdapter := ⟨⟨some (lit "key")⟩, ⟨some (lit "key"), some (lit "dream"), lit "us-east4"⟩⟩

/-- A service that speaks. -/
def someService : SpeechService := fun _ => .ok (.audio (.ok (lit "SUQz")))

/-- Stores that work. -/
def someStores : VoiceStores where
  upload path _ := .ok (lit "https://x.supabase.co/storage/v1/object/public/voice-samples/" ++ path)
  save _ := .ok ()

/-- A service that creates a voice. -/
def someCloning : CloneServices where
  token := .ok (some (lit "token"))
  sample := .ok ()
  create _ _ := .ok (.created (.ok (some (lit "projects/dream/locations/us-east4/customVoices/7"))))

theorem cloned_voice_never_heard_mum : ∃ profile,
    (UploadVoiceUseCase.execute someStores (lit "v1") 0
      ⟨lit "u1", lit "Mum", lit "audio/wav"⟩).result = .ok profile ∧
    ¬ Heard profile.voiceModelId
      (someTts.synthesize someService ⟨lit "Hi", profile.voiceModelId, none, none⟩).trace :=
  ⟨_, rfl, (cloned_voice_never_heard someTts someService someStores someCloning (lit "v1") (lit "Hi") [] 0
    ⟨lit "u1", lit "Mum", lit "audio/wav"⟩ none none).1 _ rfl⟩

/-- **Voices that are not heard**: an upload is made a profile that is ready, and a text in its voice is
spoken by the default voice; a voice that was created is asked for at the endpoint for standard voices. -/
theorem mum_unheard :
    (∃ profile, (UploadVoiceUseCase.execute someStores (lit "v1") 0
        ⟨lit "u1", lit "Mum", lit "audio/wav"⟩).result = .ok profile ∧ profile.status = .ready ∧
      (someTts.synthesize someService ⟨lit "Hi", profile.voiceModelId, none, none⟩).trace.map
        (fun request => (request.endpoint, request.voiceName)) = [(.custom, lit "en-US-Journey-D")] ∧
      ¬ Heard profile.voiceModelId
        (someTts.synthesize someService ⟨lit "Hi", profile.voiceModelId, none, none⟩).trace) ∧
    ∃ cloned, (someTts.cloningAdapter.cloneVoice someCloning (lit "https://x/s.wav") 0).result = .ok cloned ∧
      (someTts.synthesize someService ⟨lit "Hi", cloned.voiceModelId, none, none⟩).trace.map
        (fun request => (request.endpoint, request.voiceName))
        = [(.standard, lit "projects/dream/locations/us-east4/customVoices/7")] ∧
      ¬ Heard cloned.voiceModelId
        (someTts.synthesize someService ⟨lit "Hi", cloned.voiceModelId, none, none⟩).trace :=
  ⟨⟨_, rfl, rfl, rfl, not_heard someTts someService ⟨lit "Hi", _, none, none⟩⟩,
    ⟨_, rfl, rfl, not_heard someTts someService ⟨lit "Hi", _, none, none⟩⟩⟩

end DreamWeaver.Voice
