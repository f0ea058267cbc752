import DreamWeaver.Live.GeminiLiveSession

/-! # What a message of Gemini contains

The texts and the audio of the parts of a turn, an interruption and a tool call, as they stand in the message,
and what the session makes of them. A message whose parts can be read is dispatched as it stands: no piece of it
throws. -/

namespace DreamWeaver.Live

variable {other : Option Json → Option (List UInt8)} {part msg inlineData : Json}

/-! ## What a message contains -/

/-- The text of a part. -/
def partText (part : Json) : List Signal :=
  (((part.get (lit "text")).bind Json.text?).map Signal.text).toList

/-- The inline data of a part. -/
def inlineData? (part : Json) : Option Json := part.either (lit "inlineData") (lit "inline_data")

/-- Inline data whose MIME type says that it is audio. -/
def isAudioData (inlineData : Json) : Bool :=
  ((inlineData.either (lit "mimeType") (lit "mime_type")).bind Json.text?).any fun mimeType =>
    (lit "audio").isPrefixOf mimeType

/-- The bytes of inline data. -/
def inlineBytes (inlineData : Json) : Option (List UInt8) :=
  ((inlineData.get (lit "data")).bind Json.text?).map decodeBase64

/-- The audio of a part. -/
def partAudio (part : Json) : List Signal :=
  (((inlineData? part).filter isAudioData).bind inlineBytes |>.map Signal.audio).toList

/-- The content of the server in a message. -/
def serverContent? (msg : Json) : Option Json := msg.either (lit "serverContent") (lit "server_content")

/-- The parts of a turn of the model. -/
def modelParts (serverContent : Json) : List Json := (turnParts serverContent).getD []

/-- What the model says in a message. -/
def spokenIn (msg : Json) : List Signal :=
  (serverContent? msg).elim [] fun content =>
    (modelParts content).flatMap fun part => partText part ++ partAudio part

/-- The interruption that a message signals. -/
def interruptionIn (msg : Json) : List Signal :=
  if (serverContent? msg).any fun content => isTruthy (content.get (lit "interrupted")) then
    [.interruption]
  else []

/-- The tool call of a message. -/
def toolCallIn (msg : Json) : List Signal :=
  (((msg.either (lit "toolCall") (lit "tool_call")).filter Json.truthy).map Signal.toolCall).toList

/-- The text that a part says, if it has a character. -/
def saidText (part : Json) : List Signal :=
  match part.get (lit "text") with
  | some (.str text) => if text = [] then [] else [.text text]
  | _ => []

/-- What the parts of a turn say. -/
def saidIn (msg : Json) : List Signal :=
  (serverContent? msg).elim [] fun content =>
    (modelParts content).flatMap fun part => saidText part ++ partAudio part

/-! ## Messages that can be read -/

/-- A text that is a string, or nothing that counts as true. -/
def readableText (part : Json) : Bool :=
  match part.get (lit "text") with
  | some (.str _) => true
  | some v => !v.truthy
  | none => true

/-- Inline data whose MIME type is a string or nothing that counts as true, and whose bytes, if it is audio, are a
string. -/
def readableData (inlineData : Json) : Bool :=
  (mimeType inlineData).isSome && (!isAudioData inlineData || (inlineBytes inlineData).isSome)

/-- A part that can be read. -/
def readablePart : Json → Bool
  | .null => false
  | part => readableText part && ((inlineData? part).filter Json.truthy).all readableData

/-- The content of a message can be read. -/
def readableContent (msg : Json) : Bool :=
  (serverContent? msg).all fun content => (turnParts content).isSome && (modelParts content).all readablePart

/-- A value that does not count as true has no fields. -/
theorem get_of_not_truthy {v : Json} (h : v.truthy = false) (key : Text) : v.get key = none := by
  cases v with
  | obj fields => cases h
  | null | bool _ | num _ | str _ | arr _ => rfl

/-- What `startsWith` is asked of is the MIME type, if there is one. -/
theorem isAudioData_eq {inlineData : Json} {mime : Text} (h : mimeType inlineData = some mime) :
    isAudioData inlineData = (lit "audio").isPrefixOf mime := by
  unfold mimeType at h
  unfold isAudioData
  by_cases htruthy : isTruthy (inlineData.either (lit "mimeType") (lit "mime_type")) = true
  · simp only [htruthy, if_true] at h
    rw [h, Option.any_some]
  · simp only [htruthy, Bool.false_eq_true, if_false, Option.some.injEq] at h
    subst h
    cases hfound : inlineData.either (lit "mimeType") (lit "mime_type") with
    | none => rfl
    | some v =>
      rw [hfound] at htruthy
      cases v with
      | str text =>
        obtain rfl : text = [] := by simpa [isTruthy, Json.truthy] using htruthy
        rfl
      | null | bool _ | num _ | arr _ | obj _ => rfl

theorem textDispatch_of_readable (h : readableText part = true) :
    textDispatch part = ⟨saidText part, false⟩ := by
  unfold readableText at h
  unfold textDispatch saidText
  cases htext : part.get (lit "text") with
  | none => rfl
  | some v =>
    rw [htext] at h
    cases v with
    | str text =>
      dsimp only
      split <;> rfl
    | null | bool _ | num _ | arr _ | obj _ =>
      rw [Bool.not_eq_true'] at h
      dsimp only
      rw [h]

theorem inlineDispatch_of_readable (h : readableData inlineData = true) :
    inlineDispatch other inlineData =
      ⟨((if isAudioData inlineData then inlineBytes inlineData else none).map Signal.audio).toList,
        false⟩ := by
  rw [readableData, Bool.and_eq_true, Bool.or_eq_true, Bool.not_eq_true'] at h
  obtain ⟨hmime, hdata⟩ := h
  obtain ⟨mime, hmime⟩ := Option.isSome_iff_exists.mp hmime
  unfold inlineDispatch
  rw [hmime]
  dsimp only
  rw [← isAudioData_eq hmime]
  by_cases haudio : isAudioData inlineData = true
  · rw [if_pos haudio, if_pos haudio]
    have hsome := hdata.resolve_left (by rw [haudio]; decide)
    unfold inlineBytes at hsome ⊢
    cases hfield : inlineData.get (lit "data") with
    | none =>
      rw [hfield] at hsome
      cases hsome
    | some v =>
      rw [hfield] at hsome
      cases v with
      | str text => rfl
      | null | bool _ | num _ | arr _ | obj _ => cases hsome
  · rw [if_neg haudio, if_neg haudio]
    rfl

/-- A value that does not count as true is no audio. -/
theorem isAudioData_of_not_truthy {v : Json} (h : v.truthy = false) : isAudioData v = false := by
  have hnone : v.either (lit "mimeType") (lit "mime_type") = none := by
    rw [Json.either, get_of_not_truthy h, get_of_not_truthy h]
    rfl
  rw [isAudioData, hnone]
  rfl

/-- What can be read of a part that can be read. -/
theorem readablePart_iff : readablePart part = true ↔
    part ≠ .null ∧ readableText part = true ∧ ((inlineData? part).filter Json.truthy).all readableData = true := by
  cases part with
  | null => exact iff_of_false Bool.false_ne_true fun h => h.1 rfl
  | bool _ | num _ | str _ | arr _ | obj _ =>
    rw [readablePart, Bool.and_eq_true]
    · exact (and_iff_right fun h => by cases h).symm
    · intro h
      cases h

/-- **A part that can be read** gives its text and its audio. -/
theorem partDispatch_of_readable (h : readablePart part = true) :
    partDispatch other part = ⟨saidText part ++ partAudio part, false⟩ := by
  obtain ⟨hnull, htext, hdata⟩ := readablePart_iff.mp h
  have hinline : ((inlineData? part).filter Json.truthy).elim {} (inlineDispatch other) =
      ⟨partAudio part, false⟩ := by
    unfold partAudio
    cases hfound : inlineData? part with
    | none => rfl
    | some v =>
      by_cases htruthy : v.truthy = true
      · rw [hfound, Option.filter_some, if_pos htruthy, Option.all_some] at hdata
        rw [Option.filter_some, Option.filter_some, if_pos htruthy]
        rw [Option.elim_some, inlineDispatch_of_readable hdata]
        by_cases haudio : isAudioData v = true
        · rw [if_pos haudio, if_pos haudio, Option.bind_some]
        · rw [if_neg haudio, if_neg haudio, Option.bind_none]
      · have hfalsy : v.truthy = false := Bool.eq_false_iff.mpr htruthy
        rw [Option.filter_some, Option.filter_some, if_neg htruthy,
          if_neg (by rw [isAudioData_of_not_truthy hfalsy]; decide)]
        rfl
  unfold partDispatch
  cases part with
  | null => exact absurd rfl hnull
  | bool _ | num _ | str _ | arr _ | obj _ =>
    dsimp only
    unfold inlineData? at hinline
    rw [hinline, textDispatch_of_readable htext]
    rfl

theorem partsDispatch_of_readable {parts : List Json} (h : parts.all readablePart = true) :
    partsDispatch other parts = ⟨parts.flatMap fun part => saidText part ++ partAudio part, false⟩ := by
  induction parts with
  | nil => rfl
  | cons part parts ih =>
    rw [List.all_cons, Bool.and_eq_true] at h
    rw [partsDispatch, partDispatch_of_readable h.1, ih h.2, List.flatMap_cons]
    rfl

/-- **A message that can be read** is dispatched as it stands: its parts, the interruption, the tool call. -/
theorem messageDispatch_of_readable (h : readableContent msg = true) :
    messageDispatch other msg = ⟨saidIn msg ++ interruptionIn msg ++ toolCallIn msg, false⟩ := by
  have hcontent : ((serverContent? msg).filter Json.truthy).elim {} (contentDispatch other) =
      ⟨saidIn msg ++ interruptionIn msg, false⟩ := by
    unfold saidIn interruptionIn
    unfold readableContent at h
    cases hfound : serverContent? msg with
    | none => rfl
    | some v =>
      rw [hfound, Option.all_some, Bool.and_eq_true] at h
      obtain ⟨parts, hparts⟩ := Option.isSome_iff_exists.mp h.1
      have hmodel : modelParts v = parts := by rw [modelParts, hparts, Option.getD_some]
      rw [Option.elim_some, Option.any_some, hmodel]
      by_cases htruthy : v.truthy = true
      · rw [Option.filter_some, if_pos htruthy, Option.elim_some, contentDispatch, hparts]
        dsimp only
        rw [partsDispatch_of_readable (hmodel ▸ h.2)]
        split <;> rfl
      · have hnone := get_of_not_truthy (Bool.eq_false_iff.mpr htruthy)
        have hempty : parts = [] := by
          unfold turnParts at hparts
          rw [Json.either, hnone, hnone] at hparts
          exact (Option.some.inj hparts).symm
        rw [Option.filter_some, if_neg htruthy, hnone, hempty]
        rfl
  have hcall : ((msg.either (lit "toolCall") (lit "tool_call")).filter Json.truthy).elim {}
      (fun toolCall => (⟨[.toolCall toolCall], false⟩ : Dispatch)) = ⟨toolCallIn msg, false⟩ := by
    unfold toolCallIn
    cases (msg.either (lit "toolCall") (lit "tool_call")).filter Json.truthy with
    | none => rfl
    | some v => rfl
  unfold serverContent? at hcontent
  unfold messageDispatch
  dsimp only
  rw [hcontent, hcall]
  rfl

end DreamWeaver.Live
