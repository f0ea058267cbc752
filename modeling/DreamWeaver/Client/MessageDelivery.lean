import DreamWeaver.Client.GeminiLiveHook

/-! # Which messages are delivered

A message may have any number of function calls and of parts with audio, under names in camel case or in snake case.
Each call is executed and answered once, and each audio is queued once, exactly when there is at most one of either
and it stands where the hook looks. -/

namespace DreamWeaver.Client

open Traced

/-! ## What a message asks for -/

/-- The elements of an array. -/
def itemsOf : Option Json → List Json
  | some (.arr items) => items
  | _ => []

/-- The function calls of a message in JSON, under their names in either case. -/
def callsIn (data : Json) : List Json :=
  itemsOf ((data.either (lit "toolCall") (lit "tool_call")).bind
    (·.either (lit "functionCalls") (lit "function_calls")))

/-- Inline data that is audio. -/
def isPcm (inlineData : Json) : Bool :=
  ((inlineData.either (lit "mimeType") (lit "mime_type")).bind Json.text?).any (lit "audio/pcm").isPrefixOf &&
    isTruthy (inlineData.get (lit "data"))

/-- The audio of the parts of a message in JSON, under their names in either case. -/
def audioIn (data : Json) : List Json :=
  (itemsOf (((data.either (lit "serverContent") (lit "server_content")).bind
    (·.either (lit "modelTurn") (lit "model_turn"))).bind (·.get (lit "parts")))).filterMap fun part =>
      (part.either (lit "inlineData") (lit "inline_data")).filter isPcm

/-- The requests of a run, in their order. -/
def requestsOf (trace : List HookAction) : List ToolRequest :=
  trace.filterMap fun action =>
    match action with
    | .apiFetch request => some request
    | _ => none

/-- The responses of a run, in their order. -/
def responsesOf (trace : List HookAction) : List FunctionResponse :=
  trace.filterMap fun action =>
    match action with
    | .send response => some response
    | _ => none

/-- The samples that a run has queued, in their order. -/
def chunksOf (trace : List HookAction) : List (List ℚ) :=
  trace.filterMap fun action =>
    match action with
    | .postMessage (.chunk samples) => some samples
    | _ => none

/-- The backend answers with a document other than `null`, and the answer can be sent. -/
def Replies.answered : Replies → Bool
  | ⟨_, .ok _, .ok .null, .ok _⟩ => false
  | ⟨_, .ok _, .ok _, .ok _⟩ => true
  | _ => false

namespace Hook

section Law

variable (asText : Json → Text) (replies : Replies) (hook : Hook)

/-- The function calls of a message. -/
def callsOf : ServerMessage → List Json
  | .text text => (parseJson text).toOption.elim [] callsIn
  | _ => []

/-- The samples of the audio of a message, `none` for what has none. -/
def audioOf : ServerMessage → List (Option (List ℚ))
  | .arrayBuffer bytes => [samplesOf bytes]
  | .blob => [replies.arrayBuffer.toOption.bind samplesOf]
  | .text text => (parseJson text).toOption.elim [] fun data =>
    (audioIn data).map fun inlineData => (inlineBytes asText inlineData).bind samplesOf

/-- The token of the session, unless it is empty. -/
def token : Option Text := hook.accessToken.filter fun token => !token.isEmpty

/-- The request for a function call, if it has a name and there is a token. -/
def request? (call : Json) : Option ToolRequest := do
  let accessToken ← hook.token
  let name ← (call.get (lit "name")).bind Json.text?
  some (hook.requestFor accessToken name call)

/-- **A message is delivered**: each function call is executed and answered once, and each audio is queued once, in
order. -/
structure Delivers (message : ServerMessage) (trace : List HookAction) : Prop where
  executed : ((requestsOf trace).map some).Perm ((callsOf message).map hook.request?)
  answered : ((responsesOf trace).map FunctionResponse.id).Perm ((callsOf message).map (·.get (lit "id")))
  played : (chunksOf trace).map some = audioOf asText replies message

/-- The call that the hook relays: the first one of `toolCall.functionCalls`, if it has a name, there is a token, and
the type of the first part is no value of another kind. -/
def relayed (data : Json) : Option Json :=
  if (isPlayed (firstInline data)).isSome then
    (((data.get (lit "toolCall")).bind (·.get (lit "functionCalls"))).bind Json.first).filter fun call =>
      (hook.request? call).isSome
  else none

/-- The streamer takes chunks. -/
def isReady : Bool := hook.audioStreamer.isInitialized && hook.audioStreamer.workletNode

/-- The inline data whose samples are queued: that of the first part, if it is audio, its samples can be read, and the
streamer is ready. -/
def queued (data : Json) : Option Json :=
  (firstInline data).filter fun inlineData => isPlayed (some inlineData) == some true && hook.isReady &&
    ((inlineBytes asText inlineData).bind samplesOf).isSome

/-- **A message that the hook can deliver**: its only call and its only audio, if there are any, are those that the
hook looks at. -/
def Handles : ServerMessage → Prop
  | .arrayBuffer bytes => hook.isReady = true ∧ bytes.length % 2 = 0
  | .blob => hook.isReady = true ∧ ∃ bytes, replies.arrayBuffer = .ok bytes ∧ bytes.length % 2 = 0
  | .text text => ∀ data, parseJson text = .ok data →
    callsIn data = (hook.relayed data).toList ∧ (callsIn data ≠ [] → replies.answered = true) ∧
      audioIn data = (hook.queued asText data).toList

end Law

variable {asText : Json → Text} {replies : Replies} {hook : Hook} {data : Json}

/-! ## What is looked at -/

/-- A value with a property is an object, and counts as true. -/
theorem truthy_of_get {v w : Json} {key : Text} (h : v.get key = some w) : v.truthy = true := by
  cases v with
  | obj fields => rfl
  | null | bool _ | num _ | str _ | arr _ => cases h

/-- So does a value with a first element. -/
theorem truthy_of_first {v w : Json} (h : v.first = some w) : v.truthy = true := by
  cases v with
  | arr items => rfl
  | obj fields => rfl
  | str text =>
    cases text with
    | nil => cases h
    | cons c text => rfl
  | null | bool _ | num _ => cases h

/-- A property that counts as true is taken over its other name. -/
theorem either_of_truthy {v w : Json} {camel snake : Text} (h : v.get camel = some w) (hw : w.truthy = true) :
    v.either camel snake = some w := by
  rw [Json.either, firstTruthy, h, isTruthy, Option.any_some, hw, if_pos rfl]

/-- A value with a first element is an array that begins with it, or none. -/
theorem itemsOf_of_first {v w : Json} (h : v.first = some w) :
    (∃ rest, itemsOf (some v) = w :: rest) ∨ itemsOf (some v) = [] := by
  cases v with
  | arr items => exact .inl (List.head?_eq_some_iff.mp h)
  | null | bool _ | num _ | str _ | obj _ => exact .inr rfl

/-- **The call that is relayed** is the first one of the message, if it is one of its calls. -/
theorem relayed_eq_head {call : Json} (h : hook.relayed data = some call) :
    (∃ rest, callsIn data = call :: rest) ∨ callsIn data = [] := by
  unfold relayed at h
  split at h
  · obtain ⟨hfound, -⟩ := Option.filter_eq_some_iff.mp h
    obtain ⟨calls, hcalls, hfirst⟩ := Option.bind_eq_some_iff.mp hfound
    obtain ⟨toolCall, htool, hcalls⟩ := Option.bind_eq_some_iff.mp hcalls
    rw [callsIn, either_of_truthy htool (truthy_of_get hcalls), Option.bind_some,
      either_of_truthy hcalls (truthy_of_first hfirst)]
    exact itemsOf_of_first hfirst
  · cases h

/-- What is played is audio. -/
theorem isPcm_of_isPlayed {inlineData : Json} (h : isPlayed (some inlineData) = some true) :
    isPcm inlineData = true ∧ inlineData.truthy = true := by
  obtain ⟨pcm, hpcm, hboth⟩ := Option.map_eq_some_iff.mp h
  obtain ⟨rfl, hdata⟩ := Bool.and_eq_true_iff.mp hboth
  rw [Option.bind_some] at hpcm hdata
  unfold startsWithPcm at hpcm
  split at hpcm
  · cases hpcm
  · cases hpcm
  · rename_i mimeType hmime
    have htext : (Json.str mimeType).truthy = true := by
      cases mimeType with
      | nil => cases hpcm
      | cons c text => rfl
    refine ⟨?_, truthy_of_get hmime⟩
    rw [isPcm, either_of_truthy hmime htext, hdata, Bool.and_true]
    exact Option.some.inj hpcm
  · cases hpcm

/-- **The audio that is queued** is that of the first part, and the first one of the message, if the message has
any. -/
theorem queued_eq_head {inlineData : Json} (h : hook.queued asText data = some inlineData) :
    (∃ rest, audioIn data = inlineData :: rest) ∨ audioIn data = [] := by
  obtain ⟨hfound, hplayed⟩ := Option.filter_eq_some_iff.mp h
  obtain ⟨part, hpart, hinline⟩ := Option.bind_eq_some_iff.mp hfound
  obtain ⟨parts, hparts, hfirst⟩ := Option.bind_eq_some_iff.mp hpart
  obtain ⟨turn, hturn, hparts⟩ := Option.bind_eq_some_iff.mp hparts
  obtain ⟨content, hcontent, hturn⟩ := Option.bind_eq_some_iff.mp hturn
  have hplays : isPlayed (some inlineData) = some true := by
    simp only [Bool.and_eq_true, beq_iff_eq] at hplayed
    exact hplayed.1.1
  obtain ⟨hpcm, htruthy⟩ := isPcm_of_isPlayed hplays
  rw [audioIn, either_of_truthy hcontent (truthy_of_get hturn), Option.bind_some,
    either_of_truthy hturn (truthy_of_get hparts), Option.bind_some, hparts]
  rcases itemsOf_of_first hfirst with ⟨rest, hitems⟩ | hitems
  · rw [hitems, List.filterMap_cons, either_of_truthy hinline htruthy, Option.filter_some, if_pos hpcm]
    exact .inl ⟨_, rfl⟩
  · rw [hitems]
    exact .inr rfl

/-! ## What is done -/

/-- The streamer posts the samples of a chunk, if it is ready and they can be read. -/
theorem play_spec (bytes : List UInt8) :
    chunksOf (hook.play bytes).trace =
        (if hook.isReady then (samplesOf bytes).toList else []) ∧
      requestsOf (hook.play bytes).trace = [] ∧ responsesOf (hook.play bytes).trace = [] := by
  obtain ⟨_, _, _, ⟨initialized, node⟩⟩ := hook
  unfold play AudioStreamer.enqueue isReady
  cases initialized with
  | false => exact ⟨rfl, rfl, rfl⟩
  | true =>
    cases node with
    | false => exact ⟨rfl, rfl, rfl⟩
    | true => cases samplesOf bytes <;> exact ⟨rfl, rfl, rfl⟩

/-- The trace of what is caught stays. -/
theorem trace_catchWith_pure (x : HookRun Unit) : (catchWith x fun _ => pure ()).trace = x.trace ∧
    (catchWith x fun _ => pure ()).result = .ok () := by
  obtain ⟨trace, result⟩ := x
  cases result with
  | ok u => exact ⟨rfl, rfl⟩
  | error e => exact ⟨List.append_nil trace, rfl⟩

/-- **The audio of a message in JSON** is queued if it is that of the first part. -/
theorem playInline_spec (found : Option Json) :
    (chunksOf (hook.playInline asText found).trace).map some =
        ((found.filter fun inlineData => isPlayed (some inlineData) == some true && hook.isReady &&
            ((inlineBytes asText inlineData).bind samplesOf).isSome).toList.map
          fun inlineData => (inlineBytes asText inlineData).bind samplesOf) ∧
      requestsOf (hook.playInline asText found).trace = [] ∧
      responsesOf (hook.playInline asText found).trace = [] ∧
      (hook.playInline asText found).result = if (isPlayed found).isSome then .ok () else .error typeError := by
  cases found with
  | none => exact ⟨rfl, rfl, rfl, rfl⟩
  | some inlineData =>
    unfold playInline
    rw [Option.filter_some]
    cases hplayed : isPlayed (some inlineData) with
    | none => exact ⟨rfl, rfl, rfl, rfl⟩
    | some plays =>
      cases plays with
      | false => exact ⟨rfl, rfl, rfl, rfl⟩
      | true =>
        rw [Option.bind_some]
        cases hbytes : inlineBytes asText inlineData with
        | none =>
          rw [Option.bind_none, Option.isSome_none, Bool.and_false]
          exact ⟨rfl, rfl, rfl, rfl⟩
        | some bytes =>
          obtain ⟨hchunks, hrequests, hresponses⟩ := @play_spec hook bytes
          obtain ⟨htrace, hresult⟩ := trace_catchWith_pure (hook.play bytes)
          dsimp only
          rw [htrace, hresult, hchunks, Option.bind_some]
          refine ⟨?_, hrequests, hresponses, rfl⟩
          cases hook.isReady with
          | false => rfl
          | true =>
            cases hsamples : samplesOf bytes with
            | none => rfl
            | some samples =>
              show [some samples] = [(inlineBytes asText inlineData).bind samplesOf]
              rw [hbytes, Option.bind_some, hsamples]

/-- The signals are no requests, responses or chunks. -/
theorem showContent_spec (content : Option Json) :
    chunksOf (hook.showContent content).trace = [] ∧ requestsOf (hook.showContent content).trace = [] ∧
      responsesOf (hook.showContent content).trace = [] ∧ (hook.showContent content).result = .ok () := by
  obtain ⟨_, _, _, ⟨initialized, node⟩⟩ := hook
  unfold showContent AudioStreamer.stop
  cases isTruthy (content.bind (·.get (lit "interrupted"))) <;>
    cases isTruthy (content.bind (·.get (lit "turnComplete"))) <;>
    cases isTruthy ((content.bind (·.get (lit "sleepDetection"))).bind (·.get (lit "isAsleep"))) <;>
    cases node <;> exact ⟨rfl, rfl, rfl, rfl⟩

/-- What is done for a call with a name, where there is a token. -/
theorem relayCall_of_request {call : Json} {request : ToolRequest} (h : hook.request? call = some request) :
    chunksOf (hook.relayCall replies call).trace = [] ∧ requestsOf (hook.relayCall replies call).trace = [request] ∧
      (responsesOf (hook.relayCall replies call).trace).map FunctionResponse.id =
        if replies.answered then [call.get (lit "id")] else [] := by
  obtain ⟨accessToken, htoken, hnamed⟩ := Option.bind_eq_some_iff.mp h
  obtain ⟨name, hname, hrequest⟩ := Option.bind_eq_some_iff.mp hnamed
  obtain rfl := Option.some.inj hrequest
  unfold relayCall
  rw [show hook.accessToken.filter (fun token => !token.isEmpty) = some accessToken from htoken]
  obtain ⟨_, fetch, json, send⟩ := replies
  cases call with
  | obj fields =>
    dsimp only
    rw [hname]
    cases fetch with
    | error e => exact ⟨rfl, rfl, rfl⟩
    | ok u =>
      cases json with
      | error e => exact ⟨rfl, rfl, rfl⟩
      | ok answer =>
        cases answer with
        | null => cases send <;> exact ⟨rfl, rfl, rfl⟩
        | bool _ | num _ | str _ | arr _ | obj _ => cases send <;> exact ⟨rfl, rfl, rfl⟩
  | null | bool _ | num _ | str _ | arr _ => cases hname

/-- Otherwise nothing is done. -/
theorem relayCall_of_none {call : Json} (h : hook.request? call = none) :
    (hook.relayCall replies call).trace = [] := by
  unfold relayCall
  cases htoken : hook.accessToken.filter fun token => !token.isEmpty with
  | none => rfl
  | some accessToken =>
    rw [request?, token, htoken] at h
    cases call with
    | obj fields =>
      dsimp only
      cases hname : (Json.get (.obj fields) (lit "name")).bind Json.text? with
      | none => rfl
      | some name =>
        rw [hname] at h
        cases h
    | null | bool _ | num _ | str _ | arr _ => rfl

/-- **The tool call** that is looked at is executed if it has a name and there is a token, and answered if the backend
answers. -/
theorem handleToolCall_spec (call : Option Json) :
    chunksOf (hook.handleToolCall replies call).trace = [] ∧
      (requestsOf (hook.handleToolCall replies call).trace).map some =
        ((call.filter fun call => (hook.request? call).isSome).toList.map hook.request?) ∧
      (responsesOf (hook.handleToolCall replies call).trace).map FunctionResponse.id =
        if replies.answered then
          (call.filter fun call => (hook.request? call).isSome).toList.map (·.get (lit "id"))
        else [] := by
  unfold handleToolCall
  rw [(trace_catchWith_pure _).1]
  cases call with
  | none =>
    rw [Option.getD_none, relayCall_of_none (by cases htoken : hook.token <;> simp [request?, htoken, Json.get])]
    cases replies.answered <;> exact ⟨rfl, rfl, rfl⟩
  | some call =>
    rw [Option.getD_some, Option.filter_some]
    cases hrequest : hook.request? call with
    | none =>
      rw [relayCall_of_none hrequest]
      cases replies.answered <;> exact ⟨rfl, rfl, rfl⟩
    | some request =>
      obtain ⟨hchunks, hrequests, hresponses⟩ := @relayCall_of_request replies hook call request hrequest
      rw [hchunks, hrequests, hresponses]
      refine ⟨rfl, ?_, rfl⟩
      show [some request] = [hook.request? call]
      rw [hrequest]

theorem handleCalls_spec (data : Json) :
    chunksOf (hook.handleCalls replies data).trace = [] ∧
      (requestsOf (hook.handleCalls replies data).trace).map some =
        (((((data.get (lit "toolCall")).bind (·.get (lit "functionCalls"))).bind Json.first).filter fun call =>
          (hook.request? call).isSome).toList.map hook.request?) ∧
      (responsesOf (hook.handleCalls replies data).trace).map FunctionResponse.id =
        if replies.answered then
          ((((data.get (lit "toolCall")).bind (·.get (lit "functionCalls"))).bind Json.first).filter fun call =>
            (hook.request? call).isSome).toList.map (·.get (lit "id"))
        else [] := by
  have hnothing : ∀ x : HookRun Unit, x.trace = [] → chunksOf x.trace = [] ∧
      (requestsOf x.trace).map some = ((none : Option Json).toList.map hook.request?) ∧
      (responsesOf x.trace).map FunctionResponse.id =
        if replies.answered then (none : Option Json).toList.map (·.get (lit "id")) else [] := by
    intro x hx
    rw [hx]
    cases replies.answered <;> exact ⟨rfl, rfl, rfl⟩
  unfold handleCalls
  cases htool : data.get (lit "toolCall") with
  | none => exact hnothing _ rfl
  | some toolCall =>
    rw [Option.bind_some]
    cases hcalls : toolCall.get (lit "functionCalls") with
    | none =>
      refine hnothing _ ?_
      split <;> rfl
    | some calls =>
      rw [isTruthy, Option.any_some, truthy_of_get hcalls, if_pos rfl]
      cases calls with
      | null => exact hnothing _ rfl
      | bool _ | num _ | str _ | arr _ | obj _ => exact handleToolCall_spec _

/-- **A message in JSON**: the call that is relayed and the audio that is queued are all that is done. -/
theorem handleData_spec (data : Json) :
    (chunksOf (hook.handleData asText replies data).trace).map some =
        (hook.queued asText data).toList.map (fun inlineData => (inlineBytes asText inlineData).bind samplesOf) ∧
      (requestsOf (hook.handleData asText replies data).trace).map some =
        (hook.relayed data).toList.map hook.request? ∧
      (responsesOf (hook.handleData asText replies data).trace).map FunctionResponse.id =
        if replies.answered then (hook.relayed data).toList.map (·.get (lit "id")) else [] := by
  have hrun : ∀ run : HookRun Unit, run = (do
        hook.playInline asText (firstInline data)
        hook.showContent (data.get (lit "serverContent"))
        hook.handleCalls replies data) →
      (chunksOf run.trace).map some =
          (hook.queued asText data).toList.map (fun inlineData => (inlineBytes asText inlineData).bind samplesOf) ∧
        (requestsOf run.trace).map some = (hook.relayed data).toList.map hook.request? ∧
        (responsesOf run.trace).map FunctionResponse.id =
          if replies.answered then (hook.relayed data).toList.map (·.get (lit "id")) else [] := by
    rintro run rfl
    obtain ⟨hchunks, hrequests, hresponses, hresult⟩ := @playInline_spec asText hook (firstInline data)
    obtain ⟨hshown, hasked, hsent, hdone⟩ := @showContent_spec hook (data.get (lit "serverContent"))
    obtain ⟨hquiet, hexecuted, hanswered⟩ := @handleCalls_spec replies hook data
    unfold relayed
    cases hplayed : (isPlayed (firstInline data)).isSome with
    | false =>
      rw [hplayed] at hresult
      rw [bind_of_error hresult]
      refine ⟨hchunks, ?_, ?_⟩
      · rw [hrequests]
        rfl
      · rw [hresponses]
        cases replies.answered <;> rfl
    | true =>
      rw [hplayed] at hresult
      rw [bind_of_ok hresult, bind_of_ok hdone]
      unfold chunksOf requestsOf responsesOf at *
      simp only [List.filterMap_append]
      rw [hshown, hquiet, hrequests, hasked, hresponses, hsent]
      simp only [List.nil_append, List.append_nil, if_true]
      exact ⟨hchunks, hexecuted, hanswered⟩
  cases data with
  | null =>
    refine ⟨rfl, rfl, ?_⟩
    cases replies.answered <;> rfl
  | bool _ | num _ | str _ | arr _ | obj _ => exact hrun _ rfl

/-! ## When a message is delivered -/

/-- A list that begins with the value, if it is not empty, is the value alone if it is as long. -/
theorem eq_toList_iff {α : Type} {found : Option α} {all : List α}
    (h : ∀ a, found = some a → (∃ rest, all = a :: rest) ∨ all = []) :
    all = found.toList ↔ found.toList.length = all.length := by
  refine ⟨fun heq => by rw [heq], fun hlength => ?_⟩
  cases found with
  | none => exact List.length_eq_zero_iff.mp hlength.symm
  | some a =>
    rcases h a rfl with ⟨rest, rfl⟩ | rfl
    · obtain rfl : rest = [] := List.length_eq_zero_iff.mp (Nat.succ.inj hlength).symm
      rfl
    · cases hlength

/-- A chunk is queued exactly when the streamer is ready and its samples can be read. -/
theorem play_iff (bytes : List UInt8) : (chunksOf (hook.play bytes).trace).map some = [samplesOf bytes] ↔
    hook.isReady = true ∧ bytes.length % 2 = 0 := by
  rw [(play_spec bytes).1]
  cases hook.isReady with
  | false => simp
  | true =>
    unfold samplesOf
    by_cases hodd : bytes.length % 2 = 1
    · simp [hodd]
    · have heven : bytes.length % 2 = 0 := by omega
      simp [heven]

/-- The delivery of a chunk, which has no function calls. -/
theorem delivers_play_iff {message : ServerMessage} {bytes : List UInt8} (hcalls : callsOf message = [])
    (haudio : audioOf asText replies message = [samplesOf bytes]) :
    hook.Delivers asText replies message (hook.play bytes).trace ↔
      hook.isReady = true ∧ bytes.length % 2 = 0 := by
  obtain ⟨-, hrequests, hresponses⟩ := @play_spec hook bytes
  rw [← play_iff]
  constructor
  · intro h
    exact h.played.trans haudio
  · intro h
    refine ⟨?_, ?_, h.trans haudio.symm⟩
    · rw [hrequests, hcalls]
      exact .nil
    · rw [hresponses, hcalls]
      exact .nil

/-- **When a message is delivered**: exactly when its only call and its only audio, if there are any, are those that
the hook looks at, and the backend answers. -/
theorem delivers_iff (asText : Json → Text) (replies : Replies) (hook : Hook) (message : ServerMessage) :
    hook.Delivers asText replies message (hook.handleServerMessage asText replies message).trace ↔
      hook.Handles asText replies message := by
  cases message with
  | arrayBuffer bytes => exact delivers_play_iff rfl rfl
  | blob =>
    cases hbuffer : replies.arrayBuffer with
    | error e =>
      refine iff_of_false (fun h => ?_) ?_
      · have hplayed := h.played
        rw [handleServerMessage, hbuffer, lift_error_bind, audioOf, hbuffer] at hplayed
        cases hplayed
      · rintro ⟨-, bytes, hbytes, -⟩
        rw [hbuffer] at hbytes
        cases hbytes
    | ok bytes =>
      have hhandles : hook.Handles asText replies .blob ↔ hook.isReady = true ∧ bytes.length % 2 = 0 := by
        simp [Handles, hbuffer]
      rw [hhandles, handleServerMessage, hbuffer, lift_ok_bind]
      exact delivers_play_iff rfl (by rw [audioOf, hbuffer]; rfl)
  | text text =>
    cases hparse : parseJson text with
    | error e =>
      rw [handleServerMessage, hparse]
      refine iff_of_true ⟨?_, ?_, ?_⟩ fun data hdata => ?_
      · rw [callsOf, hparse]
        exact .nil
      · rw [callsOf, hparse]
        exact .nil
      · rw [audioOf, hparse]
        rfl
      · rw [hparse] at hdata
        cases hdata
    | ok data =>
      obtain ⟨hchunks, hrequests, hresponses⟩ := @handleData_spec asText replies hook data
      have hcalls : callsOf (.text text) = callsIn data := by
        rw [callsOf, hparse]
        rfl
      have haudio : audioOf asText replies (.text text) =
          (audioIn data).map fun inlineData => (inlineBytes asText inlineData).bind samplesOf := by
        rw [audioOf, hparse]
        rfl
      have hhandles : hook.Handles asText replies (.text text) ↔ callsIn data = (hook.relayed data).toList ∧
          (callsIn data ≠ [] → replies.answered = true) ∧ audioIn data = (hook.queued asText data).toList := by
        simp only [Handles, hparse, Except.ok.injEq, forall_eq']
      rw [hhandles, handleServerMessage, hparse]
      dsimp only
      constructor
      · rintro ⟨hexecuted, hanswered, hplayed⟩
        rw [hcalls, hrequests] at hexecuted
        rw [hcalls, hresponses] at hanswered
        rw [haudio, hchunks] at hplayed
        refine ⟨(eq_toList_iff fun _ => relayed_eq_head).mpr ?_, fun hsome => ?_,
          (eq_toList_iff fun _ => queued_eq_head).mpr ?_⟩
        · simpa using hexecuted.length_eq
        · by_contra hnone
          rw [if_neg hnone] at hanswered
          exact hsome (List.map_eq_nil_iff.mp hanswered.nil_eq.symm)
        · simpa using congrArg List.length hplayed
      · rintro ⟨honly, hreplies, hsound⟩
        refine ⟨?_, ?_, ?_⟩
        · rw [hcalls, hrequests, honly]
        · rw [hcalls, hresponses, honly]
          cases hrelayed : hook.relayed data with
          | none => cases replies.answered <;> exact .nil
          | some call =>
            have hanswered : replies.answered = true := by
              refine hreplies ?_
              rw [honly, hrelayed]
              exact List.cons_ne_nil _ _
            rw [hanswered, if_pos rfl]
        · rw [haudio, hchunks, hsound]

/-! ## A message with two calls -/

/-- A hook with a token, and with a streamer that is ready. -/
def signedIn : Hook := ⟨some (lit "token"), lit "session", none, ⟨true, true⟩⟩

/-- A backend that answers. -/
def answering : Replies := ⟨.ok [], .ok (), .ok (.obj [(lit "result", .bool true)]), .ok ()⟩

/-- The message. -/
def twoCalls : ServerMessage := .text
  (lit "\x7b\"toolCall\":\x7b\"functionCalls\":[\x7b\"id\":\"1\",\"name\":\"a\"\x7d," ++
    lit "\x7b\"id\":\"2\",\"name\":\"b\"\x7d]\x7d\x7d")

/-- The second call of a message is not executed. -/
theorem second_call_unanswered : ¬ signedIn.Delivers (fun _ => []) answering twoCalls
    (signedIn.handleServerMessage (fun _ => []) answering twoCalls).trace := by
  intro h
  have hlength := h.executed.length_eq
  rw [List.length_map, List.length_map] at hlength
  have hrequests : (requestsOf (signedIn.handleServerMessage (fun _ => []) answering twoCalls).trace).length = 1 := by
    rw [twoCalls]
    repeat rw [lit_ofList]
    decide +kernel
  have hcalls : (callsOf twoCalls).length = 2 := by
    rw [twoCalls]
    repeat rw [lit_ofList]
    decide +kernel
  omega

end Hook

end DreamWeaver.Client
