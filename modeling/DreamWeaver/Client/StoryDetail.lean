import DreamWeaver.Client.ApiStoryRepository
import DreamWeaver.Foundations.JsonWriter
import DreamWeaver.Stories.StoryDetail

/-! # A story of the client

`ApiStoryRepository.findById` (`src/infrastructure/persistence/ApiStoryRepository.ts`) on the answers of
`GET /stories/:id`, which it receives as texts. -/

namespace DreamWeaver.Client

open Stories (JsonResponse FindStory getStory detailData StoryChapter)
open Stories.SupabaseStoryRepository (StoryTable drowsy isHttps save)

/-! ## The request -/

/-- `response.json()`: the body travels as a text. -/
def receivedJson (response : JsonResponse) : Except JsError Json := parseJson (stringify response.body)

namespace ApiStoryRepository

/-- `findById` -/
def findById (otherDates : Json → Option Time) (access : ApiAccess) (id : Text) :
    Except JsError (Option Story) := do
  if (access.accessToken.getD []).isEmpty then throw ⟨lit "Error", lit "Not authenticated"⟩
  let response ← access.fetch (baseUrl ++ lit "/" ++ id)
  if !response.ok then
    if response.status = 404 then return none
    throw ⟨lit "Error", lit "Failed to fetch story " ++ id⟩
  let json ← receivedJson response
  let fields ← fieldsOf json
  match Json.field? fields (lit "data") with
  | none => return none
  | some data =>
    if !isTruthy (Json.field? fields (lit "success")) || !data.truthy then return none
    return some (← mapDtoToEntity otherDates data)

end ApiStoryRepository

/-- The part of a path behind `/stories/`. -/
def idParam (path : Text) : Text := path.drop (baseUrl ++ lit "/").length

/-- A client of one user with a session, connected to the route. -/
def detailAccess {isUrl : Text → Bool} (find : FindStory isUrl) (token userId : Text) : ApiAccess :=
  ⟨some token, fun path => .ok (getStory find userId (idParam path))⟩

/-! ## What arrives -/

section Detail

variable {isUrl : Text → Bool} {otherDates : Json → Option Time} {story : Stories.Story isUrl Time}

/-- An object without array indices among its keys is written in its own order. -/
theorem written_plain {fields : List (Text × Json)} (h : (fields.any fun e => isArrayIndex e.1) = false) :
    (Json.obj fields).written = .obj (fields.map fun e => (e.1, e.2.written)) := by
  have hothers : ∀ e ∈ fields, isArrayIndex e.1 = false := by simpa using h
  have horder : ownOrder ([] ++ fields) = [] ++ fields :=
    ownOrder_append List.Pairwise.nil (fun e he => nomatch he) hothers
  rw [List.nil_append] at horder
  rw [Json.written_obj, horder]

theorem stringsOf_map_str (texts : List Text) : stringsOf (texts.map Json.str) = texts := by
  induction texts with
  | nil => rfl
  | cons s texts ih =>
    change s :: stringsOf (texts.map Json.str) = s :: texts
    rw [ih]

theorem written_map_str (texts : List Text) : (texts.map Json.str).map Json.written = texts.map Json.str := by
  rw [List.map_map]
  exact List.map_congr_left fun _ _ => rfl

/-- A content as it is loaded: one that was made from a raw text. -/
structure Loaded (content : Stories.StoryContent) : Prop where
  chapters : content.chapters = []
  sleepScore : content.sleepScore = 5
  paragraphs : ∀ p ∈ content.paragraphs, p ≠ []

theorem loaded_of_fromRawText {text : Text} {content : Stories.StoryContent}
    (h : Stories.StoryContent.fromRawText text = .ok content) : Loaded content := by
  have hparagraphs := Stories.StoryContent.paragraphs_of_fromRawText h
  unfold Stories.StoryContent.fromRawText Stories.StoryContent.create at h
  split at h
  · cases h
  · obtain rfl := Except.ok.inj h
    exact ⟨rfl, rfl, fun p hp => (Stories.tidy_of_mem_paragraphsOf hp).ne_nil⟩

/-- A loaded content as it is read. -/
theorem written_toJSON {content : Stories.StoryContent} (h : Loaded content) :
    content.toJSON.written = .obj [
      (lit "paragraphs", .arr (content.paragraphs.map Json.str)),
      (lit "chapters", .arr []),
      (lit "sleepScore", .num (.finite 5))] := by
  have hscore : JsNumber.ofExact 5 = .finite 5 := by decide +kernel
  rw [Stories.StoryContent.toJSON, written_plain rfl, h.chapters, h.sleepScore, hscore, List.map_cons, List.map_cons, List.map_cons, List.map_nil]
  dsimp only
  rw [Json.written_arr, written_map_str]
  rfl

/-- **No paragraph is dropped** from a loaded content. -/
theorem finalContent_toJSON {content : Stories.StoryContent} (h : Loaded content) :
    finalContent (some content.toJSON.written)
      = .ok ⟨content.paragraphs, content.chapters, .finite content.sleepScore⟩ := by
  have hkept : (stringsOf (content.paragraphs.map Json.str)).filter (fun p => !p.isEmpty) = content.paragraphs := by
    rw [stringsOf_map_str]
    exact List.filter_eq_self.mpr fun p hp => by simp [h.paragraphs p hp]
  rw [written_toJSON h, h.chapters, h.sleepScore]
  change StoryContent.create ((stringsOf (content.paragraphs.map Json.str)).filter fun p => !p.isEmpty) none
    (some (.finite 5)) = _
  rw [hkept, StoryContent.create, if_neg content.nonempty]
  rfl

/-- A story of the client is a story of the server with all that is shown of it. -/
structure SameDetail (story : Stories.Story isUrl Time) (decoded : Story) : Prop where
  id : decoded.id = some (.str story.props.id)
  title : decoded.title = some (.str story.props.title)
  theme : decoded.theme = some (.str story.props.theme)
  status : decoded.status = some (.str story.props.status.text)
  audioUrl : decoded.audioUrl = story.props.audioUrl.map Json.str
  createdAt : decoded.createdAt = some story.props.createdAt
  generatedAt : decoded.generatedAt = story.props.generatedAt.map some
  paragraphs : decoded.content.paragraphs = story.props.content.paragraphs
  chapters : decoded.content.chapters = story.props.content.chapters
  sleepScore : decoded.content.sleepScore = .finite story.props.content.sleepScore

theorem newDate_toISOString (t : Time) : newDate otherDates (some (.str (toISOString t))) = some t := by
  rw [newDate, parseIso_toISOString, Option.some_or]

/-- The data of the response as it is read. -/
theorem written_detailData (story : Stories.Story isUrl Time) : (detailData story).written = .obj ([
    (lit "id", .str story.props.id),
    (lit "title", .str story.props.title),
    (lit "theme", .str story.props.theme),
    (lit "content", story.props.content.toJSON.written),
    (lit "status", .str story.props.status.text),
    (lit "estimatedReadingTime", (Json.num (.ofExact story.getEstimatedReadingTime)).written),
    (lit "createdAt", .str (toISOString story.props.createdAt)),
    (lit "generatedAt", (story.props.generatedAt.map fun t => Json.str (toISOString t)).getD .null)] ++
    (story.props.audioUrl.map fun url => (lit "audioUrl", Json.str url)).toList) := by
  rw [detailData, written_plain (by cases story.props.audioUrl <;> rfl)]
  cases story.props.audioUrl <;> cases story.props.generatedAt <;> rfl

/-- The date of generation as it is sent. -/
def generatedJson (generatedAt : Option Time) : Json := (generatedAt.map fun t => Json.str (toISOString t)).getD .null

/-- A date of generation is read as it was sent, and `null` as none. -/
theorem newDate_generatedJson (generatedAt : Option Time) :
    (if isTruthy (some (generatedJson generatedAt)) then some (newDate otherDates (some (generatedJson generatedAt)))
      else none) = generatedAt.map some := by
  cases generatedAt with
  | none => rfl
  | some t =>
    have htruthy : isTruthy (some (generatedJson (some t))) = true := by
      change (!(toISOString t).isEmpty) = true
      simp [Stories.SupabaseStoryRepository.toISOString_ne_nil]
    rw [if_pos htruthy]
    exact congrArg some (newDate_toISOString t)

/-- **The story is decoded as it was sent.** -/
theorem mapDtoToEntity_detailData (h : Loaded story.props.content) :
    ∃ decoded, mapDtoToEntity otherDates (detailData story).written = .ok decoded ∧ SameDetail story decoded := by
  have hdecode : mapDtoToEntity otherDates (detailData story).written
      = finalContent (some story.props.content.toJSON.written) >>= fun content => .ok {
        id := some (.str story.props.id)
        title := some (.str story.props.title)
        content := content
        theme := some (.str story.props.theme)
        status := some (.str story.props.status.text)
        ownerId := some (.str (lit "unknown"))
        audioUrl := story.props.audioUrl.map Json.str
        createdAt := newDate otherDates (some (.str (toISOString story.props.createdAt)))
        generatedAt := if isTruthy (some (generatedJson story.props.generatedAt)) then
          some (newDate otherDates (some (generatedJson story.props.generatedAt))) else none } := by
    rw [written_detailData]
    cases story.props.audioUrl <;> rfl
  rw [hdecode, finalContent_toJSON h, newDate_toISOString, newDate_generatedJson]
  exact ⟨_, rfl, ⟨rfl, rfl, rfl, rfl, rfl, rfl, rfl, rfl, rfl, rfl⟩⟩

/-! ## The texts between -/

theorem proper_num (q : ℚ) : (Json.num (.ofExact q)).Proper := .num fun _ h => JsNumber.ofExact_ofExact h

theorem proper_toJSON {content : Stories.StoryContent} (h : Loaded content) : content.toJSON.Proper := by
  refine .obj (show [lit "paragraphs", lit "chapters", lit "sleepScore"].Nodup by decide) ?_
  have hparagraphs : (Json.arr (content.paragraphs.map Json.str)).Proper := by
    refine .arr fun v hv => ?_
    obtain ⟨p, -, rfl⟩ := List.mem_map.mp hv
    exact .str p
  have hchapters : (Json.arr (content.chapters.map StoryChapter.toJSON)).Proper := by
    rw [h.chapters]
    exact .arr fun v hv => nomatch hv
  intro e he
  simp only [List.mem_cons, List.not_mem_nil, or_false] at he
  rcases he with rfl | rfl | rfl
  exacts [hparagraphs, hchapters, proper_num _]

/-- The data of the response is a value of the language. -/
theorem proper_detailData (h : Loaded story.props.content) : (detailData story).Proper := by
  have hkeys : [lit "id", lit "title", lit "theme", lit "content", lit "status", lit "estimatedReadingTime",
      lit "createdAt", lit "generatedAt", lit "audioUrl"].Nodup := by decide
  refine .obj ?_ fun e he => ?_
  · cases story.props.audioUrl with
    | none => exact hkeys.sublist (List.sublist_append_left _ [lit "audioUrl"])
    | some url => exact hkeys
  · simp only [List.mem_append, List.mem_cons, List.not_mem_nil, or_false, Option.mem_toList, Option.map_eq_some_iff]
      at he
    have hgenerated : (generatedJson story.props.generatedAt).Proper := by
      cases story.props.generatedAt with
      | none => exact .null
      | some t => exact .str _
    rcases he with (rfl | rfl | rfl | rfl | rfl | rfl | rfl | rfl) | ⟨url, -, rfl⟩
    exacts [.str _, .str _, .str _, proper_toJSON h, .str _, proper_num _, .str _, hgenerated, .str _]

/-- The body that arrives. -/
theorem receivedJson_detail (h : Loaded story.props.content) :
    receivedJson ⟨200, .obj [(lit "success", .bool true), (lit "data", detailData story)]⟩
      = .ok (.obj [(lit "success", .bool true), (lit "data", (detailData story).written)]) := by
  have hproper : (Json.obj [(lit "success", .bool true), (lit "data", detailData story)]).Proper := by
    refine .obj (show [lit "success", lit "data"].Nodup by decide) fun e he => ?_
    simp only [List.mem_cons, List.not_mem_nil, or_false] at he
    rcases he with rfl | rfl
    exacts [.bool true, proper_detailData h]
  rw [receivedJson, parseJson_stringify hproper, written_plain rfl]
  rfl

theorem idParam_path (id : Text) : idParam (baseUrl ++ lit "/" ++ id) = id := List.drop_left

/-- **A loaded story arrives at the client**, whatever its texts and its optional fields are. -/
theorem detail_arrives {table : StoryTable} {serverDates : Text → Option Time} {id token : Text}
    (htoken : token ≠ [])
    (hloaded : Stories.SupabaseStoryRepository.findById isUrl serverDates table id = .ok (some story)) :
    ∃ decoded, ApiStoryRepository.findById otherDates
        (detailAccess (Stories.SupabaseStoryRepository.findById isUrl serverDates table) token story.props.ownerId) id
          = .ok (some decoded) ∧
      SameDetail story decoded := by
  obtain ⟨row, -, hrow⟩ := Stories.SupabaseStoryRepository.exists_row_of_findById hloaded
  have hcontent : Loaded story.props.content :=
    loaded_of_fromRawText (Stories.SupabaseStoryRepository.content_of_mapRowToStory hrow)
  obtain ⟨decoded, hdecoded, hsame⟩ : ∃ decoded, mapDtoToEntity otherDates (detailData story).written = .ok decoded ∧ _ :=
    mapDtoToEntity_detailData hcontent
  refine ⟨decoded, ?_, hsame⟩
  rw [ApiStoryRepository.findById, detailAccess, Option.getD_some, if_neg (by simpa using htoken)]
  dsimp only [bind, Except.bind]
  have hok : ∀ body, JsonResponse.ok ⟨200, body⟩ = true := fun _ => rfl
  rw [idParam_path, Stories.getStory_of_owner hloaded, hok, Bool.not_true, if_neg Bool.false_ne_true,
    receivedJson_detail hcontent]
  have htruthy : (detailData story).written.truthy = true := by
    rw [written_detailData]
    rfl
  change (if (!true || !(detailData story).written.truthy) = true then _ else _) = _
  rw [htruthy, if_neg (by decide)]
  dsimp only
  rw [hdecoded]
  rfl

/-- A saved story arrives at its owner. -/
theorem drowsy_arrives : ∃ decoded, ApiStoryRepository.findById (fun _ => none)
      (detailAccess (Stories.SupabaseStoryRepository.findById isHttps (fun _ => none) (save (fun _ => none) drowsy))
        (lit "token") drowsy.props.ownerId) drowsy.props.id = .ok (some decoded) ∧ SameDetail drowsy decoded :=
  detail_arrives (by decide) (Stories.SupabaseStoryRepository.findById_save rfl
    Stories.SupabaseStoryRepository.fromRawText_drowsyText _)

end Detail

end DreamWeaver.Client
