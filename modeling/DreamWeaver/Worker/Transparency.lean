import DreamWeaver.Worker.Envelope
import DreamWeaver.Worker.LiveWebSocket

/-! # What the worker forwards

A text of the client is forwarded as it came, unless it is taken for a setup that has to be cleaned, and
bytes that hold no document are forwarded in an envelope from which they can be read. A setup that is
written anew is the same document, with its modalities in upper case: what is not a setup is rewritten only
where the names of a setup and of a field to be removed occur in it. -/

namespace DreamWeaver.Worker

variable {toUpperCase : Text → Text} {setup doc : Json} {text data : Text}

/-- The setup of an envelope: the top-level `setup` of a document. -/
def setupOf (text : Text) : Option Json := (parseJson text).toOption.bind fun doc => doc.get (lit "setup")

/-- A setup with its modalities in upper case, if they are strings. -/
def normalizedSetup (toUpperCase : Text → Text) (setup : Json) : Json :=
  (normalizeModalities toUpperCase setup).getD setup

/-- A text that is cleaned as a setup is. -/
def isSanitized (text : Text) : Bool :=
  includes text (lit "\"setup\"") && (includes text (lit "\"sessionId\"") || includes text (lit "\"traceId\""))

/-- The digits in the envelope of audio. -/
def audioPayload (doc : Json) : Option Text :=
  ((((doc.get (lit "realtime_input")).bind fun input => input.get (lit "media_chunks")).bind Json.first).bind
    fun chunk => chunk.get (lit "data")).bind Json.text?

/-- **What becomes of a text**: it is kept if it is no setup and not cleaned as one, and the setup of an
envelope is kept, or written with its modalities in upper case. -/
structure TextKept (toUpperCase : Text → Text) (text data : Text) : Prop where
  other : setupOf text = none → isSanitized text = false → data = text
  setup : ∀ setup, setupOf text = some setup → data = text ∨
    ∃ setup', setupOf data = some setup' ∧ setup'.written = (normalizedSetup toUpperCase setup).written

/-- Bytes can be read from a text: it is a message of audio whose digits denote them. -/
def Enveloped (bytes : List UInt8) (data : Text) : Prop :=
  ∃ doc digits, parseJson data = .ok doc ∧ audioPayload doc = some digits ∧ decodeBase64 digits = bytes

/-- **What becomes of a message**: bytes that hold a document are treated as its text, and other bytes can
be read from their envelope. -/
def Transparent (toUpperCase : Text → Text) : Payload → Text → Prop
  | .text text, data => TextKept toUpperCase text data
  | .binary bytes, data =>
    if bytes.length ≤ maxTextBytes ∧ isDocument (textDecode bytes) = true then
      TextKept toUpperCase (textDecode bytes) data
    else Enveloped bytes data

/-! ## Setups that are written -/

theorem upperMode_written (mode : Json) : upperMode toUpperCase mode.written = upperMode toUpperCase mode := by
  cases mode with
  | num x => cases x <;> rfl
  | null | bool | str => rfl
  | arr | obj => rw [Json.written]; rfl

theorem text?_written (v : Json) : v.written.text? = v.text? := by
  cases v with
  | num x => cases x <;> rfl
  | null | bool | str => rfl
  | arr | obj => rw [Json.written]; rfl

/-- The modalities of a written setup are written. -/
theorem responseModalities_written (h : setup.Proper) :
    responseModalities setup.written = (responseModalities setup).map fun mods => mods.map Json.written := by
  unfold responseModalities
  rw [h.get_written]
  cases hgen : setup.get (lit "generation_config") with
  | none => rfl
  | some gen =>
    rw [Option.map_some, Option.bind_some, Option.bind_some, (h.get hgen).get_written]
    cases gen.get (lit "response_modalities") with
    | none => rfl
    | some mods =>
      cases mods with
      | num x => cases x <;> rfl
      | null | bool | str => rfl
      | arr items => rw [Option.map_some, Json.written_arr]; rfl
      | obj fields => rw [Option.map_some, Json.written_obj]; rfl

theorem mapM_upperMode_written (mods : List Json) :
    (mods.map Json.written).mapM (upperMode toUpperCase) = mods.mapM (upperMode toUpperCase) := by
  rw [List.mapM_map]
  exact congrArg (fun f => mods.mapM f) (funext upperMode_written)

theorem any_text_written (mods : List Json) :
    ((mods.map Json.written).any fun m => m.text?.isSome) = mods.any fun m => m.text?.isSome := by
  rw [List.any_map]
  exact congrArg (fun f => mods.any f) (funext fun m => by rw [Function.comp_apply, text?_written])

/-- Modalities are set in a written setup as in the setup. -/
theorem withModalities_written (h : setup.Proper) (mods : List Json) :
    (withModalities setup.written mods).written = (withModalities setup mods).written := by
  unfold withModalities
  rw [h.get_written]
  cases hgen : setup.get (lit "generation_config") with
  | none => exact h.written_written
  | some gen =>
    rw [Option.map_some]
    dsimp only
    rw [Json.written_withField, Json.written_withField, Json.written_withField, Json.written_withField,
      h.written_written, (h.get hgen).written_written]

/-- **A written setup is normalized like the setup.** -/
theorem normalizeModalities_written (h : setup.Proper) :
    (normalizeModalities toUpperCase setup.written).map Json.written =
      (normalizeModalities toUpperCase setup).map Json.written := by
  unfold normalizeModalities
  rw [responseModalities_written h]
  cases responseModalities setup with
  | none => rfl
  | some mods =>
    rw [Option.map_some, Option.bind_some, Option.bind_some, any_text_written, mapM_upperMode_written]
    split
    · rw [Option.map_map, Option.map_map]
      exact congrArg (fun f => Option.map f _) (funext fun upper => withModalities_written h upper)
    · rfl

theorem normalizedSetup_written (h : setup.Proper) :
    (normalizedSetup toUpperCase setup.written).written = (normalizedSetup toUpperCase setup).written := by
  have hmodalities : (normalizeModalities toUpperCase setup.written).map Json.written = _ :=
    normalizeModalities_written h
  unfold normalizedSetup
  cases hw : normalizeModalities toUpperCase setup.written with
  | none =>
    rw [hw, Option.map_none] at hmodalities
    rw [Option.map_eq_none_iff.mp hmodalities.symm]
    exact h.written_written
  | some setup' =>
    rw [hw, Option.map_some] at hmodalities
    obtain ⟨setup'', hs, heq⟩ := Option.map_eq_some_iff.mp hmodalities.symm
    rw [hs]
    exact heq.symm

/-- Modalities in upper case are strings. -/
theorem proper_of_mem_mapM {mods upper : List Json} (h : mods.mapM (upperMode toUpperCase) = some upper) :
    ∀ mode ∈ upper, mode.Proper := by
  induction mods generalizing upper with
  | nil =>
    obtain rfl := Option.some.inj h
    exact fun _ hmode => nomatch hmode
  | cons mode mods ih =>
    rw [List.mapM_cons] at h
    obtain ⟨first, hfirst, h⟩ := Option.bind_eq_some_iff.mp h
    obtain ⟨rest, hrest, h⟩ := Option.bind_eq_some_iff.mp h
    obtain rfl := Option.some.inj h
    intro mode' hmode
    rcases List.mem_cons.mp hmode with rfl | hmem
    · cases mode with
      | str text =>
        obtain rfl := Option.some.inj hfirst
        exact .str _
      | null | bool | num | arr | obj => cases hfirst
    · exact ih hrest mode' hmem

theorem proper_of_normalizeModalities (h : setup.Proper) {setup' : Json}
    (hsome : normalizeModalities toUpperCase setup = some setup') : setup'.Proper := by
  obtain ⟨mods, -, hsome⟩ := Option.bind_eq_some_iff.mp hsome
  split at hsome
  · obtain ⟨upper, hupper, rfl⟩ := Option.map_eq_some_iff.mp hsome
    have hmods : (Json.arr upper).Proper := .arr (proper_of_mem_mapM hupper)
    unfold withModalities
    split
    · rename_i gen hgen
      exact h.withField ((h.get hgen).withField hmods _) _
    · exact h
  · cases hsome

/-- **A setup on its own reads back.** -/
theorem parseJson_setupOnly (h : setup.Proper) :
    parseJson (setupOnly (some setup)) = .ok (.obj [(lit "setup", setup.written)]) :=
  (parseJson_stringify (h.single (lit "setup"))).trans (congrArg Except.ok (Json.written_obj _))

theorem setupOf_setupOnly (h : setup.Proper) : setupOf (setupOnly (some setup)) = some setup.written := by
  rw [setupOf, parseJson_setupOnly h]
  rfl

/-! ## Texts -/

theorem proper_of_setupOf (h : setupOf text = some setup) : setup.Proper := by
  obtain ⟨doc, hdoc, hget⟩ := Option.bind_eq_some_iff.mp h
  cases hparse : parseJson text with
  | error e =>
    rw [hparse] at hdoc
    cases hdoc
  | ok doc' =>
    rw [hparse] at hdoc
    obtain rfl := Option.some.inj hdoc
    exact (proper_of_parseJson hparse).get hget

/-- Cleaning keeps the text of an envelope, or writes its setup. -/
theorem sanitizeSetup_cases (h : setupOf text = some setup) :
    sanitizeSetup text = text ∨ sanitizeSetup text = setupOnly (some setup) := by
  obtain ⟨doc, hdoc, hget⟩ := Option.bind_eq_some_iff.mp h
  unfold sanitizeSetup
  split
  · cases hparse : parseJson text with
    | error e => exact Or.inl rfl
    | ok doc' =>
      rw [hparse] at hdoc
      obtain rfl := Option.some.inj hdoc
      split
      · exact Or.inl rfl
      · exact Or.inl rfl
      · rename_i heq
        obtain rfl := Except.ok.inj heq
        right
        rw [hget]
  · exact Or.inl rfl

/-- Normalizing keeps the text of an envelope, or writes its setup with other modalities. -/
theorem normalizeSetup_eq (h : setupOf text = some setup) :
    normalizeSetup toUpperCase text =
      (normalizeModalities toUpperCase setup).elim text fun setup => setupOnly (some setup) := by
  obtain ⟨doc, hdoc, hget⟩ := Option.bind_eq_some_iff.mp h
  unfold normalizeSetup
  cases hparse : parseJson text with
  | error e =>
    rw [hparse] at hdoc
    cases hdoc
  | ok doc' =>
    rw [hparse] at hdoc
    obtain rfl := Option.some.inj hdoc
    dsimp only
    rw [hget, Option.bind_some]

/-- A text without a setup is not normalized. -/
theorem normalizeSetup_of_none (h : setupOf text = none) : normalizeSetup toUpperCase text = text := by
  unfold normalizeSetup
  cases hparse : parseJson text with
  | error e => rfl
  | ok doc =>
    have hget : doc.get (lit "setup") = none := by
      rw [setupOf, hparse] at h
      exact h
    dsimp only
    rw [hget]
    rfl

/-- An envelope that is normalized has the setup with its modalities in upper case. -/
theorem setupOf_normalizeSetup (h : setupOf text = some setup) :
    ∃ setup', setupOf (normalizeSetup toUpperCase text) = some setup' ∧
      setup'.written = (normalizedSetup toUpperCase setup).written := by
  have hproper := proper_of_setupOf h
  rw [normalizeSetup_eq h, normalizedSetup]
  cases hnormal : normalizeModalities toUpperCase setup with
  | none => exact ⟨setup, h, rfl⟩
  | some setup' =>
    have hproper' := proper_of_normalizeModalities hproper hnormal
    exact ⟨setup'.written, setupOf_setupOnly hproper', hproper'.written_written⟩

/-- **A text is kept, and a setup is kept up to its modalities.** -/
theorem textKept_rewriteSetup (toUpperCase : Text → Text) (text : Text) :
    TextKept toUpperCase text (rewriteSetup toUpperCase text) where
  other hnone hsanitized := by
    unfold rewriteSetup
    by_cases hsetup : includes text (lit "\"setup\"") = true
    · rw [isSanitized, hsetup, Bool.true_and] at hsanitized
      rw [if_pos hsetup, sanitizeSetup, hsanitized, if_neg Bool.false_ne_true, normalizeSetup_of_none hnone]
    · rw [if_neg hsetup]
  setup setup hsome := by
    unfold rewriteSetup
    by_cases hsetup : includes text (lit "\"setup\"") = true
    · rw [if_pos hsetup]
      right
      rcases sanitizeSetup_cases hsome with hsame | honly
      · rw [hsame]
        exact setupOf_normalizeSetup hsome
      · -- the setup is written, read and perhaps written again
        have hproper := proper_of_setupOf hsome
        rw [honly]
        obtain ⟨setup', hsetup', hwritten⟩ := setupOf_normalizeSetup (setupOf_setupOnly hproper)
        exact ⟨setup', hsetup', hwritten.trans (normalizedSetup_written hproper)⟩
    · rw [if_neg hsetup]
      exact Or.inl rfl

/-! ## Messages -/

/-- The envelope of audio reads back. -/
theorem parseJson_audioMessage (bytes : List UInt8) :
    parseJson (stringify (audioMessage bytes)) = .ok (audioMessage bytes) := by
  have hwritten : (audioMessage bytes).written = audioMessage bytes := rfl
  have hkeys : [lit "mime_type", lit "data"].Nodup := by decide
  have hchunk : (Json.obj [(lit "mime_type", .str (lit "audio/pcm;rate=16000")),
      (lit "data", .str (encodeBase64 bytes))]).Proper := by
    refine .obj hkeys fun e he => ?_
    rcases List.mem_cons.mp he with rfl | he
    · exact .str _
    · rw [List.mem_singleton.mp he]
      exact .str _
  have hchunks : ∀ v ∈ [Json.obj [(lit "mime_type", .str (lit "audio/pcm;rate=16000")),
      (lit "data", .str (encodeBase64 bytes))]], v.Proper := by
    intro v hv
    rw [List.mem_singleton.mp hv]
    exact hchunk
  have hproper : (audioMessage bytes).Proper := ((Json.Proper.arr hchunks).single _).single _
  rw [parseJson_stringify hproper, hwritten]

/-- **Whatever a message holds, it is forwarded so that it can be read.** -/
theorem transparent_prepare (toUpperCase : Text → Text) (message : Payload) :
    Transparent toUpperCase message (prepare toUpperCase message).data := by
  cases message with
  | text text => exact textKept_rewriteSetup toUpperCase text
  | binary bytes =>
    rw [Transparent]
    rcases convertBinary_cases bytes with ⟨hdocument, hconvert⟩ | ⟨hno, hconvert⟩
    · rw [if_pos hdocument, prepare, hconvert]
      exact textKept_rewriteSetup toUpperCase _
    · rw [if_neg hno, prepare_of_binary hconvert]
      exact ⟨audioMessage bytes, encodeBase64 bytes, parseJson_audioMessage bytes, rfl,
        decodeBase64_encodeBase64 bytes⟩

/-- **A message that is let through is forwarded as what it is.** -/
theorem transparent {platform : Platform} {w : LiveWebSocket} {message : Payload} {now : ℤ}
    (h : w.admits platform message now = some data) (sends : Bool) :
    w.onClientMessage platform message now sends =
        (w.atChecks platform message now).forward platform data sends ∧
      Transparent platform.toUpperCase message data := by
  constructor
  · rcases LiveWebSocket.onClientMessage_cases platform w message now sends with
      ⟨-, hnone, -⟩ | ⟨-, hnone, -⟩ | ⟨-, data', hsome, heq⟩
    · rw [h] at hnone
      cases hnone
    · rw [h] at hnone
      cases hnone
    · obtain rfl := Option.some.inj (h.symm.trans hsome)
      exact heq
  · have hdata : data = (prepare platform.toUpperCase message).data := by
      unfold LiveWebSocket.admits at h
      dsimp only at h
      split at h
      · cases h
      · split at h
        · cases h
        · exact (Option.some.inj h).symm
    rw [hdata]
    exact transparent_prepare _ message

/-- A setup of an old client. -/
def oldSetup : Text :=
  lit "\x7b\"setup\":\x7b\"generation_config\":\x7b\"response_modalities\":[\"audio\"]\x7d\x7d,\"sessionId\":\"1\"\x7d"

theorem transparent_oldSetup : ∃ data,
    (LiveWebSocket.accepted 0).onClientMessage plainPlatform (.text oldSetup) 0 true =
        ((LiveWebSocket.accepted 0).atChecks plainPlatform (.text oldSetup) 0).forward plainPlatform data true ∧
      Transparent plainPlatform.toUpperCase (.text oldSetup) data := by
  have hsome : ((LiveWebSocket.accepted 0).admits plainPlatform (.text oldSetup) 0).isSome = true := by
    rw [oldSetup, lit_ofList]
    decide +kernel
  obtain ⟨data, h⟩ := Option.isSome_iff_exists.mp hsome
  exact ⟨data, transparent h true⟩

/-- The bytes of an array are no object, and are forwarded as its text. -/
theorem brackets_not_enveloped :
    (∀ fields, parseJson (textDecode [91, 93]) ≠ .ok (.obj fields)) ∧
      (LiveWebSocket.accepted 0).admits plainPlatform (.binary [91, 93]) 0 = some (lit "[]") ∧
      ¬ Enveloped [91, 93] (lit "[]") := by
  have hparse : parseJson (lit "[]") = .ok (.arr []) := rfl
  have hdecode : textDecode [91, 93] = lit "[]" := by decide
  refine ⟨fun fields heq => ?_, by decide +kernel, ?_⟩
  · rw [hdecode, hparse] at heq
    cases Except.ok.inj heq
  · rintro ⟨doc, digits, hdoc, hdigits, -⟩
    obtain rfl := Except.ok.inj (hparse.symm.trans hdoc)
    cases hdigits

end DreamWeaver.Worker
