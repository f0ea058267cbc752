import DreamWeaver.Foundations.KeyedTable
import DreamWeaver.Foundations.Transitions
import DreamWeaver.Voice.ClonedVoices

/-! # The table of voices

What uploads and selections (`api/src/application/use-cases/SelectVoiceUseCase.ts`) save in the table `voice_profiles`
of `SupabaseVoiceRepository` (`api/src/infrastructure/SupabaseVoiceRepository.ts`), and what the route shows of it
(`api/src/routes/voice.ts`). The effects of any number of calls come in every order, and a save that is answered with an
error may have been carried out. The ids of users are uuids as the authentication writes them. -/

namespace DreamWeaver.Voice

open Transitions

/-! ## Profiles and their rows -/

/-- `setStandardVoice` -/
def VoiceProfile.setStandardVoice (profile : VoiceProfile) (voiceModelId : Text) (now : ℕ) : VoiceProfile :=
  { profile with voiceModelId := some voiceModelId, status := .ready, updatedAt := some now }

/-- `isReady` -/
def VoiceProfile.isReady (profile : VoiceProfile) : Bool :=
  decide (profile.status = .ready) && !(profile.voiceModelId.getD []).isEmpty

/-- `VoiceProfileRow`, dates in milliseconds. -/
structure VoiceProfileRow where
  id : Text
  userId : Text
  name : Text
  sampleUrl : Option Text
  voiceModelId : Option Text
  status : VoiceProfileStatus
  createdAt : ℕ
  updatedAt : Option ℕ
  deriving DecidableEq, Repr

/-- `text || null` -/
def orNull (text : Option Text) : Option Text := text.filter fun s => !s.isEmpty

theorem orNull_eq_self {text : Option Text} (h : text ≠ some []) : orNull text = text := by
  cases text with
  | none => rfl
  | some s =>
    refine Option.filter_eq_some_iff.mpr ⟨rfl, ?_⟩
    cases s with
    | nil => exact absurd rfl h
    | cons c s => rfl

/-- `mapEntityToRow` -/
def mapEntityToRow (profile : VoiceProfile) : VoiceProfileRow where
  id := profile.id
  userId := profile.userId
  name := profile.name
  sampleUrl := orNull profile.sampleUrl
  voiceModelId := orNull profile.voiceModelId
  status := profile.status
  createdAt := profile.createdAt
  updatedAt := profile.updatedAt

/-- `mapRowToEntity` -/
def mapRowToEntity (row : VoiceProfileRow) : VoiceProfile where
  id := row.id
  userId := row.userId
  name := row.name
  sampleUrl := orNull row.sampleUrl
  voiceModelId := orNull row.voiceModelId
  status := row.status
  createdAt := row.createdAt
  updatedAt := row.updatedAt

/-- The table `voice_profiles`. -/
abbrev VoiceTable := KeyedTable VoiceProfileRow.id

namespace VoiceTable

/-- The upsert of `save` at a time: where the row is there, a trigger sets `updated_at`. -/
def save (table : VoiceTable) (profile : VoiceProfile) (time : ℕ) : VoiceTable :=
  if profile.id ∈ table.rows.map VoiceProfileRow.id then
    table.upsert { mapEntityToRow profile with updatedAt := some time }
  else table.upsert (mapEntityToRow profile)

/-- `findById` -/
def findById (table : VoiceTable) (id : Text) : Option VoiceProfile :=
  (table.single fun row => row.id = id).map mapRowToEntity

end VoiceTable

/-- The responses of `GET /:id`. -/
inductive VoiceResponse where
  | notFound
  | forbidden
  | found (profile : VoiceProfile)
  deriving DecidableEq

/-- `GET /:id` for a user, where the query is answered. -/
def VoiceTable.getVoice (table : VoiceTable) (userId id : Text) : VoiceResponse :=
  match VoiceTable.findById table id with
  | none => .notFound
  | some profile => if profile.userId = userId then .found profile else .forbidden

/-! ## Calls -/

/-- `SelectVoiceInput` -/
structure SelectVoiceInput where
  userId : Text
  name : Text
  voiceModelId : Text

/-- `execute`, with the drawn id and the time. -/
def SelectVoiceUseCase.execute (stores : VoiceStores) (id : Text) (now : ℕ) (input : SelectVoiceInput) :
    Traced UploadEffect VoiceProfile := do
  let profile := VoiceProfile.createPending id input.userId input.name now
  let profile := profile.setStandardVoice input.voiceModelId now
  UploadVoiceUseCase.save stores profile
  return profile

/-- What a user asks of the two use cases. -/
inductive VoiceRequest where
  | upload (input : UploadVoiceInput)
  | select (input : SelectVoiceInput)

/-- The user who asks. -/
def VoiceRequest.userId : VoiceRequest → Text
  | .upload input => input.userId
  | .select input => input.userId

/-- `POST /select` refuses an empty id of a voice. -/
def VoiceRequest.IsChecked : VoiceRequest → Prop
  | .upload _ => True
  | .select input => input.voiceModelId ≠ []

/-- A call, with the id that it draws, its time and what the stores answer it. -/
structure VoiceCall where
  request : VoiceRequest
  id : Text
  now : ℕ
  stores : VoiceStores

/-- The use case that a call runs. -/
def VoiceCall.run (call : VoiceCall) : Traced UploadEffect VoiceProfile :=
  match call.request with
  | .upload input => UploadVoiceUseCase.execute call.stores call.id call.now input
  | .select input => SelectVoiceUseCase.execute call.stores call.id call.now input

/-- The table after an effect of a call: a save that is answered with an error may be carried out or not. -/
def VoiceCall.effectOn (call : VoiceCall) (carriedOut : Bool) (time : ℕ) (table : VoiceTable) : UploadEffect → VoiceTable
  | .upload _ _ => table
  | .save profile =>
    if (call.stores.save profile).isOk || carriedOut then VoiceTable.save table profile time else table

/-! ## The service -/

/-- The table, and how many effects every call has had. -/
structure VoiceService (ι : Type) where
  table : VoiceTable
  had : ι → ℕ

/-- The next effect of a call, at a time of the database. -/
structure VoiceAction (ι : Type) where
  call : ι
  carriedOut : Bool
  time : ℕ

namespace VoiceService

variable {ι : Type}

/-- A step: the next effect of a call. -/
def step [DecidableEq ι] (calls : ι → VoiceCall) (s : VoiceService ι) (a : VoiceAction ι) : Option (VoiceService ι) :=
  ((calls a.call).run.trace[s.had a.call]?).map fun effect =>
    { table := (calls a.call).effectOn a.carriedOut a.time s.table effect
      had := Function.update s.had a.call (s.had a.call + 1) }

/-- Before any call. -/
def initial (table : VoiceTable) : VoiceService ι := ⟨table, fun _ => 0⟩

/-- A call that has had all its effects. -/
def Finished (calls : ι → VoiceCall) (s : VoiceService ι) (i : ι) : Prop :=
  s.had i = (calls i).run.trace.length

end VoiceService

/-! ## What a call does -/

/-- A voice that can be spoken in, and that is read from its row as it was. -/
structure VoiceProfile.IsVoice (profile : VoiceProfile) : Prop where
  status : profile.status = .ready
  voice : ∃ voiceModelId, profile.voiceModelId = some voiceModelId ∧ voiceModelId ≠ []
  sample : profile.sampleUrl ≠ some []

/-- **What a call does**, whatever it is answered. -/
structure VoiceCall.Proper (call : VoiceCall) : Prop where
  /-- It saves its user's profile, as a voice or as failed. -/
  saves : ∀ profile, .save profile ∈ call.run.trace → profile.id = call.id ∧
    profile.userId = call.request.userId ∧ (profile.status = .failed ∨ profile.IsVoice)
  /-- It resolves with the voice that it saved last. -/
  resolves : ∀ profile, call.run.result = .ok profile → call.run.trace.getLast? = some (.save profile) ∧
    call.stores.save profile = .ok () ∧ profile.IsVoice
  /-- Before it rejects, it saves its profile as failed, or cannot save it. -/
  rejects : ∀ e, call.run.result = .error e → ∃ profile, call.run.trace.getLast? = some (.save profile) ∧
    (call.stores.save profile = .ok () → profile.status = .failed)

section

variable {stores : VoiceStores} {id : Text} {now : ℕ} {profile : VoiceProfile} {path mimeType url : Text} {e : JsError}

/-- A save that is caught. -/
theorem catch_save (handler : JsError → Traced UploadEffect Unit) :
    Traced.catchWith (UploadVoiceUseCase.save stores profile) handler =
      ⟨.save profile :: (Traced.catchWith (Traced.lift (stores.save profile)) handler).trace,
        (Traced.catchWith (Traced.lift (stores.save profile)) handler).result⟩ := by
  rw [UploadVoiceUseCase.save, Traced.bind_of_ok (Traced.result_emit _)]
  simp only [Traced.catchWith, Traced.result_lift]
  cases stores.save profile <;> rfl

theorem fail_eq {α : Type} : (UploadVoiceUseCase.fail stores now profile e : Traced UploadEffect α) =
    ⟨[.save (profile.markFailed now)], .error e⟩ := by
  rw [UploadVoiceUseCase.fail, catch_save]
  cases stores.save (profile.markFailed now) <;> rfl

theorem catch_save_of_ok (h : stores.save profile = .ok ()) :
    Traced.catchWith (UploadVoiceUseCase.save stores profile) (UploadVoiceUseCase.fail stores now profile) =
      ⟨[.save profile], .ok ()⟩ := by
  rw [catch_save, h]
  rfl

theorem catch_save_of_error (h : stores.save profile = .error e) :
    Traced.catchWith (UploadVoiceUseCase.save stores profile) (UploadVoiceUseCase.fail stores now profile) =
      ⟨[.save profile, .save (profile.markFailed now)], .error e⟩ := by
  rw [catch_save, h, Traced.catchWith]
  simp only [Traced.result_lift, Traced.trace_lift, fail_eq, List.nil_append]

theorem catch_upload_of_ok (h : stores.upload path mimeType = .ok url) :
    Traced.catchWith (UploadVoiceUseCase.upload stores path mimeType) (UploadVoiceUseCase.fail stores now profile) =
      ⟨[.upload path mimeType], .ok url⟩ := by
  rw [UploadVoiceUseCase.upload, Traced.bind_of_ok (Traced.result_emit _), h]
  rfl

theorem catch_upload_of_error (h : stores.upload path mimeType = .error e) :
    Traced.catchWith (UploadVoiceUseCase.upload stores path mimeType) (UploadVoiceUseCase.fail stores now profile) =
      ⟨[.upload path mimeType, .save (profile.markFailed now)], .error e⟩ := by
  rw [UploadVoiceUseCase.upload, Traced.bind_of_ok (Traced.result_emit _), h, Traced.catchWith]
  simp only [Traced.result_lift, Traced.trace_lift, Traced.trace_emit, fail_eq, List.append_nil, List.cons_append,
    List.nil_append]

theorem catch_lift_of_error {α : Type} :
    Traced.catchWith (Traced.lift (.error e)) (UploadVoiceUseCase.fail stores now profile) =
      (⟨[.save (profile.markFailed now)], .error e⟩ : Traced UploadEffect α) := by
  rw [Traced.catchWith]
  simp only [Traced.result_lift, Traced.trace_lift, fail_eq, List.nil_append]

/-- The profile of an upload whose sample is stored. -/
def storedProfile (id : Text) (now : ℕ) (input : UploadVoiceInput) (url : Text) : VoiceProfile :=
  (VoiceProfile.createPending id input.userId input.name now).setSampleUrl url now

/-- That profile as a voice. -/
def uploadedVoice (id : Text) (now : ℕ) (input : UploadVoiceInput) (url : Text) : VoiceProfile :=
  { storedProfile id now input url with voiceModelId := some url, status := .ready }

/-- **The runs of an upload**: its sample cannot be stored, or has no URL, or the voice cannot be saved, or it is. -/
theorem execute_cases (stores : VoiceStores) (id : Text) (now : ℕ) (input : UploadVoiceInput) : ∃ path,
    (∃ profile e, (profile = VoiceProfile.createPending id input.userId input.name now ∨
        profile = storedProfile id now input []) ∧ UploadVoiceUseCase.execute stores id now input =
      ⟨[.upload path input.mimeType, .save (profile.markFailed now)], .error e⟩) ∨
    ∃ url, url ≠ [] ∧
      ((stores.save (uploadedVoice id now input url) = .ok () ∧ UploadVoiceUseCase.execute stores id now input =
        ⟨[.upload path input.mimeType, .save (uploadedVoice id now input url)], .ok (uploadedVoice id now input url)⟩) ∨
      ∃ e, UploadVoiceUseCase.execute stores id now input = ⟨[.upload path input.mimeType,
        .save (uploadedVoice id now input url), .save ((uploadedVoice id now input url).markFailed now)], .error e⟩) := by
  obtain ⟨path, hpath⟩ : ∃ path, path = lit "users/" ++ input.userId ++ lit "/" ++ id ++ lit "." ++
      UploadVoiceUseCase.getExtension input.mimeType := ⟨_, rfl⟩
  refine ⟨path, ?_⟩
  simp only [UploadVoiceUseCase.execute, ← hpath]
  cases hupload : stores.upload path input.mimeType with
  | error e =>
    refine Or.inl ⟨_, e, Or.inl rfl, ?_⟩
    rw [catch_upload_of_error hupload]
    rfl
  | ok url =>
    rw [catch_upload_of_ok hupload, Traced.bind_of_ok rfl]
    cases url with
    | nil =>
      have hcaught : Traced.catchWith (Traced.lift ((storedProfile id now input []).markReady [] now))
          (UploadVoiceUseCase.fail stores now (storedProfile id now input [])) =
            ⟨[.save ((storedProfile id now input []).markFailed now)], .error _⟩ := catch_lift_of_error
      refine Or.inl ⟨storedProfile id now input [], ⟨lit "Error", lit "Cannot mark ready without sample URL"⟩, Or.inr rfl, ?_⟩
      unfold storedProfile at hcaught ⊢
      rw [hcaught, Traced.bind_of_error rfl]
      rfl
    | cons c url =>
      refine Or.inr ⟨c :: url, List.cons_ne_nil _ _, ?_⟩
      have hready : Traced.catchWith (Traced.lift ((storedProfile id now input (c :: url)).markReady (c :: url) now))
          (UploadVoiceUseCase.fail stores now (storedProfile id now input (c :: url))) =
            ⟨[], .ok (uploadedVoice id now input (c :: url))⟩ := rfl
      unfold storedProfile at hready
      rw [hready, Traced.bind_of_ok rfl]
      cases hsave : stores.save (uploadedVoice id now input (c :: url)) with
      | ok _ =>
        refine Or.inl ⟨rfl, ?_⟩
        rw [catch_save_of_ok hsave]
        rfl
      | error e =>
        refine Or.inr ⟨e, ?_⟩
        rw [catch_save_of_error hsave]
        rfl
end

theorem isVoice_uploadedVoice {id : Text} {now : ℕ} {input : UploadVoiceInput} {url : Text} (h : url ≠ []) :
    (uploadedVoice id now input url).IsVoice :=
  ⟨rfl, ⟨url, rfl, h⟩, fun hsample => h (Option.some.inj hsample)⟩

/-- A call that rejects is proper, if it saves its profile as failed last. -/
theorem VoiceCall.Proper.of_rejected {call : VoiceCall} {profile : VoiceProfile} {e : JsError}
    (hsaves : ∀ saved, .save saved ∈ call.run.trace → saved.id = call.id ∧ saved.userId = call.request.userId ∧
      (saved.status = .failed ∨ saved.IsVoice)) (hresult : call.run.result = .error e)
    (hlast : call.run.trace.getLast? = some (.save profile))
    (hfailed : call.stores.save profile = .ok () → profile.status = .failed) : call.Proper where
  saves := hsaves
  resolves resolved hok := by
    rw [hresult] at hok
    cases hok
  rejects _ _ := ⟨profile, hlast, hfailed⟩

/-- A call that resolves is proper, if it saves the voice last. -/
theorem VoiceCall.Proper.of_resolved {call : VoiceCall} {profile : VoiceProfile}
    (hsaves : ∀ saved, .save saved ∈ call.run.trace → saved.id = call.id ∧ saved.userId = call.request.userId ∧
      (saved.status = .failed ∨ saved.IsVoice)) (hresult : call.run.result = .ok profile)
    (hlast : call.run.trace.getLast? = some (.save profile)) (hsave : call.stores.save profile = .ok ())
    (hvoice : profile.IsVoice) : call.Proper where
  saves := hsaves
  resolves resolved hok := by
    rw [hresult] at hok
    obtain rfl := Except.ok.inj hok
    exact ⟨hlast, hsave, hvoice⟩
  rejects e herror := by
    rw [hresult] at herror
    cases herror

theorem proper_upload (call : VoiceCall) {input : UploadVoiceInput} (hrequest : call.request = .upload input) :
    call.Proper := by
  have hrun : call.run = UploadVoiceUseCase.execute call.stores call.id call.now input := by
    rw [VoiceCall.run, hrequest]
  have huser : call.request.userId = input.userId := by rw [hrequest]; rfl
  obtain ⟨path, ⟨profile, e, hprofile, hcase⟩ | ⟨url, hurl, ⟨hsave, hcase⟩ | ⟨e, hcase⟩⟩⟩ :=
    execute_cases call.stores call.id call.now input
  all_goals rw [← hrun] at hcase
  · have hown : profile.id = call.id ∧ profile.userId = input.userId := by
      rcases hprofile with rfl | rfl <;> exact ⟨rfl, rfl⟩
    refine .of_rejected (fun saved hmem => ?_) (by rw [hcase]) (by rw [hcase]; rfl) fun _ => rfl
    rw [hcase] at hmem
    obtain rfl : saved = profile.markFailed call.now := by simpa using hmem
    exact ⟨hown.1, hown.2.trans huser.symm, Or.inl rfl⟩
  · refine .of_resolved (fun saved hmem => ?_) (by rw [hcase]) (by rw [hcase]; rfl) hsave (isVoice_uploadedVoice hurl)
    rw [hcase] at hmem
    obtain rfl : saved = uploadedVoice call.id call.now input url := by simpa using hmem
    exact ⟨rfl, huser.symm, Or.inr (isVoice_uploadedVoice hurl)⟩
  · refine .of_rejected (fun saved hmem => ?_) (by rw [hcase]) (by rw [hcase]; rfl) fun _ => rfl
    rw [hcase] at hmem
    -- the voice may be in the table, until it is saved as failed
    obtain rfl | rfl : saved = uploadedVoice call.id call.now input url ∨
        saved = (uploadedVoice call.id call.now input url).markFailed call.now := by simpa using hmem
    · exact ⟨rfl, huser.symm, Or.inr (isVoice_uploadedVoice hurl)⟩
    · exact ⟨rfl, huser.symm, Or.inl rfl⟩

/-- The profile of a selection. -/
def selectedVoice (id : Text) (now : ℕ) (input : SelectVoiceInput) : VoiceProfile :=
  (VoiceProfile.createPending id input.userId input.name now).setStandardVoice input.voiceModelId now

/-- **The run of a selection**: it saves the voice, and gives what comes of it. -/
theorem execute_select (stores : VoiceStores) (id : Text) (now : ℕ) (input : SelectVoiceInput) :
    SelectVoiceUseCase.execute stores id now input = ⟨[.save (selectedVoice id now input)],
      (stores.save (selectedVoice id now input)).map fun _ => selectedVoice id now input⟩ := by
  change UploadVoiceUseCase.save stores (selectedVoice id now input) >>= _ = _
  rw [UploadVoiceUseCase.save, Traced.bind_of_ok (Traced.result_emit _)]
  cases stores.save (selectedVoice id now input) <;> rfl

theorem proper_select (call : VoiceCall) {input : SelectVoiceInput} (hrequest : call.request = .select input)
    (hchecked : input.voiceModelId ≠ []) : call.Proper := by
  have hvoice : (selectedVoice call.id call.now input).IsVoice :=
    ⟨rfl, ⟨_, rfl, hchecked⟩, fun hsample => by cases hsample⟩
  have huser : call.request.userId = input.userId := by rw [hrequest]; rfl
  have hrun : call.run = SelectVoiceUseCase.execute call.stores call.id call.now input := by
    rw [VoiceCall.run, hrequest]
  rw [execute_select] at hrun
  have hsaves (saved : VoiceProfile) (hmem : .save saved ∈ call.run.trace) : saved.id = call.id ∧
      saved.userId = call.request.userId ∧ (saved.status = .failed ∨ saved.IsVoice) := by
    rw [hrun] at hmem
    obtain rfl : saved = selectedVoice call.id call.now input := by simpa using hmem
    exact ⟨rfl, huser.symm, Or.inr hvoice⟩
  cases hsave : call.stores.save (selectedVoice call.id call.now input) with
  | ok _ => exact .of_resolved hsaves (by rw [hrun, hsave]; rfl) (by rw [hrun]; rfl) hsave hvoice
  | error e =>
    refine .of_rejected hsaves (by rw [hrun, hsave]; rfl) (by rw [hrun]; rfl) fun hok => ?_
    rw [hsave] at hok
    cases hok

/-- **Every call** that the routes make is proper. -/
theorem proper_of_isChecked (call : VoiceCall) (hchecked : call.request.IsChecked) : call.Proper := by
  cases hrequest : call.request with
  | upload input => exact proper_upload call hrequest
  | select input =>
    rw [hrequest] at hchecked
    exact proper_select call hrequest hchecked

/-! ## Saving -/

/-- A row is what a profile is saved as, at some time. -/
def VoiceProfileRow.Saves (row : VoiceProfileRow) (profile : VoiceProfile) : Prop :=
  ∃ updatedAt, row = { mapEntityToRow profile with updatedAt := updatedAt }

namespace VoiceTable

variable {table : VoiceTable} {profile : VoiceProfile} {time : ℕ} {row : VoiceProfileRow}

/-- **The upsert**: the row of the profile, and the rows with other ids. -/
theorem save_eq (table : VoiceTable) (profile : VoiceProfile) (time : ℕ) :
    ∃ row : VoiceProfileRow, row.Saves profile ∧ VoiceTable.save table profile time = table.upsert row := by
  unfold VoiceTable.save
  split
  · exact ⟨_, ⟨_, rfl⟩, rfl⟩
  · exact ⟨_, ⟨profile.updatedAt, rfl⟩, rfl⟩

theorem of_mem_save (h : row ∈ (VoiceTable.save table profile time).rows) : row.Saves profile ∨ row ∈ table.rows := by
  obtain ⟨saved, hsaves, hsave⟩ := save_eq table profile time
  rw [hsave, KeyedTable.mem_upsert] at h
  rcases h with rfl | ⟨hmem, -⟩
  · exact Or.inl hsaves
  · exact Or.inr hmem

theorem exists_saves (table : VoiceTable) (profile : VoiceProfile) (time : ℕ) :
    ∃ row ∈ (VoiceTable.save table profile time).rows, row.Saves profile := by
  obtain ⟨saved, hsaves, hsave⟩ := save_eq table profile time
  rw [hsave]
  exact ⟨saved, KeyedTable.mem_upsert.mpr (Or.inl rfl), hsaves⟩

/-- **The frame**: a row with another id stays. -/
theorem mem_save (h : row ∈ table.rows) (hid : row.id ≠ profile.id) :
    row ∈ (VoiceTable.save table profile time).rows := by
  obtain ⟨saved, ⟨updatedAt, rfl⟩, hsave⟩ := save_eq table profile time
  rw [hsave]
  exact KeyedTable.mem_upsert.mpr (Or.inr ⟨h, hid⟩)

/-- What the route shows of a profile that is saved. -/
theorem getVoice_of_saves (hmem : row ∈ table.rows) (hsaves : row.Saves profile) (userId : Text) :
    VoiceTable.getVoice table userId profile.id =
      if profile.userId = userId then .found (mapRowToEntity row) else .forbidden := by
  obtain ⟨updatedAt, rfl⟩ := hsaves
  have hfound : VoiceTable.findById table profile.id =
      some (mapRowToEntity { mapEntityToRow profile with updatedAt := updatedAt }) := by
    rw [findById]
    exact congrArg (Option.map mapRowToEntity) (KeyedTable.single_key hmem)
  rw [getVoice, hfound]
  rfl

end VoiceTable

/-- A voice is read from its row as it was saved. -/
theorem VoiceProfile.IsVoice.mapRowToEntity_eq {profile : VoiceProfile} (h : profile.IsVoice) (updatedAt : Option ℕ) :
    mapRowToEntity { mapEntityToRow profile with updatedAt := updatedAt } = { profile with updatedAt := updatedAt } := by
  obtain ⟨voiceModelId, hvoice, hne⟩ := h.voice
  have hmodel : profile.voiceModelId ≠ some [] := by
    rw [hvoice]
    exact fun heq => hne (Option.some.inj heq)
  simp only [mapRowToEntity, mapEntityToRow, orNull_eq_self h.sample, orNull_eq_self hmodel]

/-- The row of a voice is that of a profile that is ready. -/
theorem VoiceProfile.IsVoice.isReady_of_saves {profile : VoiceProfile} (h : profile.IsVoice) {row : VoiceProfileRow}
    (hsaves : row.Saves profile) : (mapRowToEntity row).isReady = true := by
  obtain ⟨updatedAt, rfl⟩ := hsaves
  obtain ⟨voiceModelId, hvoice, hne⟩ := h.voice
  rw [h.mapRowToEntity_eq]
  simp [isReady, h.status, hvoice, hne]

namespace VoiceService

variable {ι : Type} [DecidableEq ι] {calls : ι → VoiceCall} {start : VoiceTable} {s s' : VoiceService ι}
  {a : VoiceAction ι} {actions : List (VoiceAction ι)}

/-- **The invariant**: the rows are old or saved by the calls, and the profile that a call was last told to be saved
is there. -/
structure Sound (calls : ι → VoiceCall) (start : VoiceTable) (s : VoiceService ι) : Prop where
  rows : ∀ row ∈ s.table.rows, row ∈ start.rows ∨ ∃ i profile, .save profile ∈ (calls i).run.trace ∧ row.Saves profile
  last : ∀ i profile, ((calls i).run.trace.take (s.had i)).getLast? = some (.save profile) →
    (calls i).stores.save profile = .ok () → ∃ row ∈ s.table.rows, row.Saves profile

omit [DecidableEq ι] in
theorem sound_initial : (initial start : VoiceService ι).Sound calls start where
  rows _ hrow := Or.inl hrow
  last i profile hlast _ := by cases hlast

/-- **One step** keeps the invariant: a save of one call leaves the rows of the others. -/
theorem Sound.step (h : s.Sound calls start) (hproper : ∀ i, (calls i).Proper)
    (hids : Function.Injective fun i => (calls i).id) (hstep : step calls s a = some s') : s'.Sound calls start := by
  obtain ⟨effect, heffect, rfl⟩ := Option.map_eq_some_iff.mp hstep
  have hmem : effect ∈ (calls a.call).run.trace := List.mem_of_getElem? heffect
  constructor
  · intro row hrow
    cases effect with
    | upload path mimeType => exact h.rows row hrow
    | save profile =>
      simp only [VoiceCall.effectOn] at hrow
      split at hrow
      · rcases VoiceTable.of_mem_save hrow with hsaves | hold
        · exact Or.inr ⟨a.call, profile, hmem, hsaves⟩
        · exact h.rows row hold
      · exact h.rows row hrow
  · intro i profile hlast hanswer
    by_cases hi : i = a.call
    · -- the effect is the last that this call has had
      subst hi
      simp only [Function.update_self, List.take_add_one, heffect, Option.toList_some, List.getLast?_concat,
        Option.some.injEq] at hlast
      subst hlast
      simp only [VoiceCall.effectOn, hanswer]
      exact VoiceTable.exists_saves _ _ _
    · simp only [Function.update_of_ne hi] at hlast
      obtain ⟨row, hrow, hsaves⟩ := h.last i profile hlast hanswer
      refine ⟨row, ?_, hsaves⟩
      have hid : row.id = (calls i).id := by
        obtain ⟨updatedAt, rfl⟩ := hsaves
        exact ((hproper i).saves profile (List.mem_of_mem_take (List.mem_of_getLast? hlast))).1
      cases effect with
      | upload path mimeType => exact hrow
      | save other =>
        simp only [VoiceCall.effectOn]
        split
        · -- its id was drawn by another call
          refine VoiceTable.mem_save hrow fun heq => hi (hids ?_)
          exact hid.symm.trans (heq.trans ((hproper a.call).saves other hmem).1)
        · exact hrow

/-- **The table of voices**: what the calls and their users find in it. -/
structure VoicesKept (calls : ι → VoiceCall) (start : VoiceTable) (s : VoiceService ι) : Prop where
  /-- A row that was not there is that of a call: its user's, and a voice or failed. -/
  owned : ∀ row ∈ s.table.rows, row ∈ start.rows ∨ ∃ i, row.id = (calls i).id ∧
    row.userId = (calls i).request.userId ∧ (row.status = .failed ∨ (mapRowToEntity row).isReady = true)
  /-- The profile that a call has resolved with is shown to its user, as it was, and to no other. -/
  resolved : ∀ i profile, Finished calls s i → (calls i).run.result = .ok profile → profile.isReady = true ∧
    ∃ updatedAt, ∀ userId, VoiceTable.getVoice s.table userId (calls i).id =
      if (calls i).request.userId = userId then .found { profile with updatedAt := updatedAt } else .forbidden
  /-- Where a call has rejected and its last save was answered, its profile is shown as failed. -/
  rejected : ∀ i e, Finished calls s i → (calls i).run.result = .error e →
    (∀ profile, (calls i).run.trace.getLast? = some (.save profile) → (calls i).stores.save profile = .ok ()) →
    ∃ profile, profile.status = .failed ∧ ∀ userId, VoiceTable.getVoice s.table userId (calls i).id =
      if (calls i).request.userId = userId then .found profile else .forbidden

/-- **Every run keeps the voices** of the calls apart, if they draw different ids. -/
theorem voices_kept (hids : Function.Injective fun i => (calls i).id) (hchecked : ∀ i, (calls i).request.IsChecked)
    (hrun : runFrom (step calls) (initial start) actions = some s) : VoicesKept calls start s := by
  have hproper : ∀ i, (calls i).Proper := fun i => proper_of_isChecked (calls i) (hchecked i)
  have hsound : s.Sound calls start :=
    run_invariant (fun _ _ _ h _ hstep => h.step hproper hids hstep) sound_initial along_true hrun
  -- what is shown of the profile that a finished call has saved last
  have hshown {i : ι} {profile : VoiceProfile} (hfinished : Finished calls s i)
      (hlast : (calls i).run.trace.getLast? = some (.save profile)) (hanswer : (calls i).stores.save profile = .ok ()) :
      ∃ updatedAt, ∀ userId, VoiceTable.getVoice s.table userId (calls i).id =
        if (calls i).request.userId = userId then
          .found (mapRowToEntity { mapEntityToRow profile with updatedAt := updatedAt })
        else .forbidden := by
    have htaken : (calls i).run.trace.take (s.had i) = (calls i).run.trace := List.take_of_length_le hfinished.ge
    obtain ⟨row, hrow, hsaves⟩ := hsound.last i profile (by rwa [htaken]) hanswer
    obtain ⟨hid, huser, -⟩ := (hproper i).saves profile (List.mem_of_getLast? hlast)
    have hget := VoiceTable.getVoice_of_saves hrow hsaves
    obtain ⟨updatedAt, rfl⟩ := hsaves
    rw [hid, huser] at hget
    exact ⟨updatedAt, hget⟩
  refine ⟨fun row hrow => ?_, fun i profile hfinished hresult => ?_, fun i e hfinished hresult hanswer => ?_⟩
  · refine (hsound.rows row hrow).imp_right ?_
    rintro ⟨i, profile, hmem, hsaves⟩
    obtain ⟨hid, huser, hkind⟩ := (hproper i).saves profile hmem
    refine ⟨i, ?_, ?_, hkind.imp ?_ fun hvoice => hvoice.isReady_of_saves hsaves⟩
    all_goals obtain ⟨updatedAt, rfl⟩ := hsaves
    · exact hid
    · exact huser
    · exact id
  · obtain ⟨hlast, hanswer, hvoice⟩ := (hproper i).resolves profile hresult
    obtain ⟨updatedAt, hget⟩ := hshown hfinished hlast hanswer
    rw [hvoice.mapRowToEntity_eq] at hget
    obtain ⟨voiceModelId, hmodel, hne⟩ := hvoice.voice
    exact ⟨by simp [VoiceProfile.isReady, hvoice.status, hmodel, hne], updatedAt, hget⟩
  · obtain ⟨profile, hlast, hfailed⟩ := (hproper i).rejects e hresult
    obtain ⟨updatedAt, hget⟩ := hshown hfinished hlast (hanswer profile hlast)
    refine ⟨_, ?_, hget⟩
    exact hfailed (hanswer profile hlast)

/-- Ana uploads a voice, Ben selects one. -/
def twoCalls : Bool → VoiceCall
  | true => ⟨.upload ⟨lit "ana", lit "Mum", lit "audio/wav"⟩, lit "voice_1_a", 1, someStores⟩
  | false => ⟨.select ⟨lit "ben", lit "Storyteller Luna", lit "en-US-Journey-F"⟩, lit "voice_1_b", 1, someStores⟩

/-- Ben's voice is saved while Ana's sample is stored. -/
def twoTurns : List (VoiceAction Bool) := [⟨true, true, 2⟩, ⟨false, true, 3⟩, ⟨true, true, 4⟩]

theorem voices_kept_twoCalls : ∃ s, runFrom (step twoCalls) (initial KeyedTable.empty) twoTurns = some s ∧
    (∀ i, Finished twoCalls s i) ∧ VoicesKept twoCalls KeyedTable.empty s := by
  obtain ⟨s, hrun⟩ : ∃ s, runFrom (step twoCalls) (initial KeyedTable.empty) twoTurns = some s := ⟨_, rfl⟩
  refine ⟨s, hrun, ?_, voices_kept ?_ ?_ hrun⟩
  · obtain rfl := Option.some.inj hrun
    intro i
    cases i <;> rfl
  · intro i j hids
    cases i <;> cases j <;> first | rfl | exact absurd hids (by decide)
  · intro i
    cases i with
    | true => trivial
    | false => exact List.cons_ne_nil _ _

end VoiceService

end DreamWeaver.Voice
