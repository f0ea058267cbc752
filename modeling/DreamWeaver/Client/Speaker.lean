import DreamWeaver.Client.MessageDelivery
import DreamWeaver.Worker.LiveWebSocket

/-! # From Gemini to the speaker

What Gemini says comes through the worker and the socket of the client to `useGeminiLive`
(`src/presentation/hooks/useGeminiLive.ts`), which posts it through the `AudioStreamer` to the playback worklet, between
the flushes of interruptions. A run interleaves the worker, the main thread and the audio thread in every way; the
messages that the client never handles are those that were lost with its socket. -/

namespace DreamWeaver.Client

open Transitions Worker Traced

/-! ## The session -/

/-- A message of the worker, as `ws.binaryType` has it. -/
def serverMessage : Payload → ServerMessage
  | .text data => .text data
  | .binary bytes => .arrayBuffer bytes

/-- What a run posts to the port of the worklet. -/
def postsOf (trace : List HookAction) : List (PcmMessage ℚ) :=
  trace.filterMap fun action =>
    match action with
    | .postMessage message => some message
    | _ => none

/-- The worker, how many of its messages the client has handled, the hook, what was posted to the port of the worklet,
how much of it the worklet has handled, and the worklet. -/
structure Downlink where
  worker : LiveWebSocket
  received : ℕ
  hook : Hook
  posted : List (PcmMessage ℚ)
  handled : ℕ
  processor : PCMProcessor ℚ

/-- What happens in a session. -/
inductive DownlinkAction where
  | event (a : WorkerAction)
  /-- `audioStreamer.initialize()` has made the worklet node. -/
  | initialized
  /-- `ws.onmessage`; what it posts, it posts before it awaits. -/
  | message (replies : Replies)
  /-- The worklet is given what was posted next. -/
  | portMessage
  /-- The audio thread asks for a block. -/
  | process (output : List (List ℚ)) (others : List (List (List ℚ)))

namespace Downlink

/-- A session that begins at a time. -/
def start (hook : Hook) (now : ℤ) : Downlink := ⟨.accepted now, 0, hook, [], 0, {}⟩

section

variable (platform : Platform) (asText : Json → Text) (sqrt : ℚ → ℚ) (s : Downlink)

/-- What the handling of a message posts. -/
def postsFor (replies : Replies) (message : Payload) : List (PcmMessage ℚ) :=
  postsOf (s.hook.handleServerMessage asText replies (serverMessage message)).trace

/-- The session after an action, if it can happen. -/
def step : DownlinkAction → Option Downlink
  | .event a => (s.worker.step platform a).map fun worker => { s with worker := worker }
  | .initialized => some { s with hook := { s.hook with audioStreamer := ⟨true, true⟩ } }
  | .message replies => s.worker.toClient[s.received]?.map fun message =>
      { s with received := s.received + 1, posted := s.posted ++ s.postsFor asText replies message }
  | .portMessage => s.posted[s.handled]?.bind fun message =>
      (s.processor.step sqrt (.message message)).map fun processor =>
        { s with handled := s.handled + 1, processor := processor }
  | .process output others => (s.processor.step sqrt (.process output others)).map fun processor =>
      { s with processor := processor }

/-- The block that an action writes to the speaker. -/
def written : DownlinkAction → List (List ℚ)
  | .process output others => (s.processor.written sqrt (.process output others)).toList
  | _ => []

end

end Downlink

/-! ## What is heard -/

/-- What Gemini sends. -/
def sentByGemini : DownlinkAction → List Payload
  | .event (.geminiMessage message _) => [message]
  | _ => []

/-- The samples of a text: those of the first part, if it is audio that can be read. -/
def audibleText (asText : Json → Text) (text : Text) : List ℚ :=
  ((((parseJson text).toOption.bind Hook.firstInline).filter fun inlineData =>
    Hook.isPlayed (some inlineData) == some true).bind fun inlineData =>
      (Hook.inlineBytes asText inlineData).bind samplesOf).getD []

/-- The samples of a message of the worker. -/
def audible (asText : Json → Text) : Payload → List ℚ
  | .text text => audibleText asText text
  | .binary bytes => (samplesOf bytes).getD []

/-- A message interrupts: the flag is set, and the hook does not fail at the part before it. -/
def interrupts : Payload → Bool
  | .text text => (parseJson text).toOption.any fun data =>
      isTruthy ((data.get (lit "serverContent")).bind (·.get (lit "interrupted"))) &&
        (Hook.isPlayed (Hook.firstInline data)).isSome
  | .binary _ => false

/-- The samples in what was posted. -/
def samplesIn (posts : List (PcmMessage ℚ)) : List ℚ := posts.flatMap fun post => PCMProcessor.enqueued (.message post)

/-- A block has these samples, and silence behind them. -/
def Filled (block piece : List ℚ) : Prop := ∃ silence, block = piece ++ List.replicate silence 0

/-! ## What the hook posts -/

section Posts

variable {asText : Json → Text} {replies : Replies} {hook : Hook} {data : Json}

theorem postsOf_append (trace trace' : List HookAction) : postsOf (trace ++ trace') = postsOf trace ++ postsOf trace' :=
  List.filterMap_append

/-- What is posted by a chunk: its samples, if the streamer is ready and they can be read. -/
theorem postsOf_play (bytes : List UInt8) : postsOf (hook.play bytes).trace =
    (if hook.isReady then (samplesOf bytes).toList.map PcmMessage.chunk else []) := by
  obtain ⟨_, _, _, ⟨initialized, node⟩⟩ := hook
  unfold Hook.play AudioStreamer.enqueue Hook.isReady
  cases initialized with
  | false => rfl
  | true =>
    cases node with
    | false => rfl
    | true => cases samplesOf bytes <;> rfl

/-- The samples of the first part, or none of them. -/
theorem postsOf_playInline (found : Option Json) :
    (samplesIn (postsOf (hook.playInline asText found).trace)).Sublist
      ((((found.filter fun inlineData => Hook.isPlayed (some inlineData) == some true).bind fun inlineData =>
        (Hook.inlineBytes asText inlineData).bind samplesOf)).getD []) := by
  cases found with
  | none => exact List.nil_sublist _
  | some inlineData =>
    unfold Hook.playInline
    cases hplayed : Hook.isPlayed (some inlineData) with
    | none => exact List.nil_sublist _
    | some plays =>
      cases plays with
      | false => exact List.nil_sublist _
      | true =>
        rw [Option.bind_some]
        cases hbytes : Hook.inlineBytes asText inlineData with
        | none => exact List.nil_sublist _
        | some bytes =>
          dsimp only
          rw [(Hook.trace_catchWith_pure _).1, postsOf_play, Option.filter_some, hplayed, BEq.rfl, if_pos rfl,
            Option.bind_some, hbytes, Option.bind_some]
          cases hook.isReady with
          | false => exact List.nil_sublist _
          | true => cases samplesOf bytes <;> simp [samplesIn, PCMProcessor.enqueued]

/-- The signals post a flush, if the message interrupts and there is a node. -/
theorem postsOf_showContent (content : Option Json) : postsOf (hook.showContent content).trace =
    (if isTruthy (content.bind (·.get (lit "interrupted"))) && hook.audioStreamer.workletNode then [.flush] else []) := by
  obtain ⟨_, _, _, ⟨initialized, node⟩⟩ := hook
  unfold Hook.showContent AudioStreamer.stop
  cases isTruthy (content.bind (·.get (lit "interrupted"))) <;>
    cases isTruthy (content.bind (·.get (lit "turnComplete"))) <;>
    cases isTruthy ((content.bind (·.get (lit "sleepDetection"))).bind (·.get (lit "isAsleep"))) <;>
    cases node <;> rfl

/-- The relay of a tool call posts nothing. -/
theorem postsOf_relayCall (call : Json) : postsOf (hook.relayCall replies call).trace = [] := by
  cases hrequest : hook.request? call with
  | none => rw [Hook.relayCall_of_none hrequest]; rfl
  | some request =>
    obtain ⟨accessToken, htoken, hnamed⟩ := Option.bind_eq_some_iff.mp hrequest
    obtain ⟨name, hname, -⟩ := Option.bind_eq_some_iff.mp hnamed
    unfold Hook.relayCall
    rw [show hook.accessToken.filter (fun token => !token.isEmpty) = some accessToken from htoken]
    obtain ⟨_, fetch, json, send⟩ := replies
    cases call with
    | obj fields =>
      dsimp only
      rw [hname]
      cases fetch with
      | error e => rfl
      | ok u =>
        cases json with
        | error e => rfl
        | ok answer => cases answer <;> cases send <;> rfl
    | null | bool _ | num _ | str _ | arr _ => cases hname

theorem postsOf_handleCalls (data : Json) : postsOf (hook.handleCalls replies data).trace = [] := by
  unfold Hook.handleCalls
  split
  · split
    · rfl
    · rfl
    · rw [Hook.handleToolCall, (Hook.trace_catchWith_pure _).1, postsOf_relayCall]
  · rfl

theorem samplesIn_append (posts posts' : List (PcmMessage ℚ)) :
    samplesIn (posts ++ posts') = samplesIn posts ++ samplesIn posts' := List.flatMap_append

/-- The samples of a document, and the flush behind them. -/
theorem postsOf_handleData (data : Json) :
    (samplesIn (postsOf (hook.handleData asText replies data).trace)).Sublist
        ((((Hook.firstInline data).filter fun inlineData => Hook.isPlayed (some inlineData) == some true).bind
          fun inlineData => (Hook.inlineBytes asText inlineData).bind samplesOf).getD []) ∧
      (isTruthy ((data.get (lit "serverContent")).bind (·.get (lit "interrupted"))) = true →
        (Hook.isPlayed (Hook.firstInline data)).isSome = true → hook.audioStreamer.workletNode = true →
        ∃ posts, postsOf (hook.handleData asText replies data).trace = posts ++ [.flush]) := by
  have hrun : ∀ run : HookRun Unit, run = (do
        hook.playInline asText (Hook.firstInline data)
        hook.showContent (data.get (lit "serverContent"))
        hook.handleCalls replies data) →
      (samplesIn (postsOf run.trace)).Sublist
          ((((Hook.firstInline data).filter fun inlineData => Hook.isPlayed (some inlineData) == some true).bind
            fun inlineData => (Hook.inlineBytes asText inlineData).bind samplesOf).getD []) ∧
        (isTruthy ((data.get (lit "serverContent")).bind (·.get (lit "interrupted"))) = true →
          (Hook.isPlayed (Hook.firstInline data)).isSome = true → hook.audioStreamer.workletNode = true →
          ∃ posts, postsOf run.trace = posts ++ [.flush]) := by
    rintro run rfl
    have hfirst := @postsOf_playInline asText hook (Hook.firstInline data)
    obtain ⟨-, -, -, hresult⟩ := @Hook.playInline_spec asText hook (Hook.firstInline data)
    have hshown := @postsOf_showContent hook (data.get (lit "serverContent"))
    obtain ⟨-, -, -, hdone⟩ := @Hook.showContent_spec hook (data.get (lit "serverContent"))
    cases hplayed : (Hook.isPlayed (Hook.firstInline data)).isSome with
    | false =>
      rw [hplayed] at hresult
      rw [bind_of_error hresult]
      refine ⟨hfirst, fun _ h => by cases h⟩
    | true =>
      rw [hplayed] at hresult
      rw [bind_of_ok hresult, bind_of_ok hdone, postsOf_append, postsOf_append, hshown, postsOf_handleCalls,
        List.append_nil]
      constructor
      · -- a flush has no samples
        rw [samplesIn_append]
        split
        · exact (List.append_nil _).symm ▸ hfirst
        · exact (List.append_nil _).symm ▸ hfirst
      · intro hflag _ hnode
        rw [hflag, hnode]
        exact ⟨_, rfl⟩
  cases data with
  | null =>
    refine ⟨List.nil_sublist _, fun h => ?_⟩
    cases h
  | bool _ | num _ | str _ | arr _ | obj _ => exact hrun _ rfl

/-- **What a message posts**: samples of its audio, and behind them a flush, if it interrupts. -/
theorem postsOf_handleServerMessage (message : Payload) :
    (samplesIn (postsOf (hook.handleServerMessage asText replies (serverMessage message)).trace)).Sublist
        (audible asText message) ∧
      (interrupts message = true → hook.audioStreamer.workletNode = true →
        ∃ posts, postsOf (hook.handleServerMessage asText replies (serverMessage message)).trace =
          posts ++ [.flush]) := by
  cases message with
  | binary bytes =>
    refine ⟨?_, fun h => by cases h⟩
    rw [serverMessage, Hook.handleServerMessage, postsOf_play, audible]
    cases hook.isReady with
    | false => exact List.nil_sublist _
    | true => cases samplesOf bytes <;> simp [samplesIn, PCMProcessor.enqueued]
  | text text =>
    rw [serverMessage, Hook.handleServerMessage, audible, audibleText, interrupts]
    cases hparse : parseJson text with
    | error e => exact ⟨List.nil_sublist _, fun h => by cases h⟩
    | ok data =>
      obtain ⟨hsamples, hflush⟩ := @postsOf_handleData asText replies hook data
      refine ⟨hsamples, fun h hnode => ?_⟩
      obtain ⟨hflag, hplayed⟩ := Bool.and_eq_true_iff.mp h
      exact hflush hflag hplayed hnode

end Posts

/-! ## What the worklet plays -/

/-- **An event of the worklet**: the samples that it writes come from the front of its buffer, and a flush empties it. -/
theorem worklet_step (sqrt : ℚ → ℚ) (p : PCMProcessor ℚ) (event : PcmEvent ℚ) : ∃ p' pieces,
    p.step sqrt event = some p' ∧ List.Forall₂ Filled (p.written sqrt event).toList pieces ∧
      (pieces.flatten ++ p'.buffer).Sublist (p.buffer ++ PCMProcessor.enqueued event) ∧
      (event = .message .flush → p'.buffer = []) := by
  rcases event with (_ | newData) | ⟨_ | ⟨channel, channels⟩, others⟩
  · exact ⟨⟨[]⟩, [], rfl, .nil, List.nil_sublist _, fun _ => rfl⟩
  · exact ⟨_, [], PCMProcessor.handleMessage_chunk newData, .nil, List.Sublist.refl _, fun h => by cases h⟩
  · exact ⟨p, [], rfl, .nil, List.sublist_append_left _ _, fun h => by cases h⟩
  · obtain ⟨volume, hprocess⟩ := @PCMProcessor.process_cons ℚ _ _ _ _ _ sqrt p channel channels others
    refine ⟨⟨p.buffer.drop channel.length⟩, [p.buffer.take channel.length], ?_, ?_, ?_, fun h => by cases h⟩
    · rw [PCMProcessor.step, hprocess]
      rfl
    · rw [PCMProcessor.written, hprocess]
      exact .cons ⟨_, rfl⟩ .nil
    · rw [List.flatten_singleton, List.take_append_drop]
      exact List.sublist_append_left _ _

/-- A window on a list that grows by what is behind it. -/
theorem drop_take_succ {α : Type} {l : List α} {n h : ℕ} {a : α} (hn : n ≤ h) (ha : l[h]? = some a) :
    (l.take (h + 1)).drop n = (l.take h).drop n ++ [a] := by
  obtain ⟨hlt, -⟩ := List.getElem?_eq_some_iff.mp ha
  rw [List.take_add_one, ha, Option.toList_some, List.drop_append_of_le_length]
  rw [List.length_take]
  omega

namespace Downlink

variable {platform : Platform} {asText : Json → Text} {sqrt : ℚ → ℚ} {s s' : Downlink} {a : DownlinkAction}
  {actions : List DownlinkAction} {n k : ℕ}

/-- What was posted from a place on, and was handled. -/
def taken (n : ℕ) (s : Downlink) : List (PcmMessage ℚ) := (s.posted.take s.handled).drop n

/-- The blocks have samples of what was taken; what is left of it is in the buffer. -/
def Played (n : ℕ) (blocks : List (List ℚ)) (s : Downlink) : Prop :=
  n ≤ s.handled ∧ ∃ pieces, List.Forall₂ Filled blocks pieces ∧
    (pieces.flatten ++ s.processor.buffer).Sublist (samplesIn (s.taken n))

/-- The counters are within bounds, and what was posted from a place on has samples of the messages from a place on. -/
structure Sound (asText : Json → Text) (n k : ℕ) (s : Downlink) : Prop where
  handled_le : s.handled ≤ s.posted.length
  received_le : s.received ≤ s.worker.toClient.length
  n_le : n ≤ s.posted.length
  k_le : k ≤ s.received
  posted : (samplesIn (s.posted.drop n)).Sublist (((s.worker.toClient.take s.received).drop k).flatMap (audible asText))

theorem sound_start (hook : Hook) (now : ℤ) : (start hook now).Sound asText 0 0 :=
  ⟨le_rfl, le_rfl, le_rfl, le_rfl, List.Sublist.refl _⟩

/-- From where a session stands, nothing was posted or received yet. -/
theorem Sound.here (h : s.Sound asText n k) : s.Sound asText s.posted.length s.received := by
  refine ⟨h.handled_le, h.received_le, le_rfl, le_rfl, ?_⟩
  rw [List.drop_length]
  exact List.nil_sublist _

/-! ## The worker -/

/-- A message of the client sends nothing to it. -/
theorem toClient_onClientMessage (w : LiveWebSocket) (message : Payload) (now : ℤ) (sends : Bool) :
    (w.onClientMessage platform message now sends).toClient = w.toClient ∧
      (w.isClosing = true → (w.onClientMessage platform message now sends).isClosing = true) := by
  have hchecks := LiveWebSocket.atChecks_rest platform w message now
  rcases LiveWebSocket.onClientMessage_cases platform w message now sends with
    ⟨hclosing, -, heq⟩ | ⟨hopen, -, code, reason, -, heq⟩ | ⟨hopen, data, -, heq⟩
  · rw [heq]
    exact ⟨rfl, id⟩
  · refine ⟨?_, fun hclosing => by rw [hopen] at hclosing; cases hclosing⟩
    rw [heq, hchecks]
    rfl
  · refine ⟨?_, fun hclosing => by rw [hopen] at hclosing; cases hclosing⟩
    rw [heq, hchecks, LiveWebSocket.forward]
    split
    · split
      · rfl
      · rw [LiveWebSocket.safeClose_rest]
    · rfl

/-- What came from Gemini was sent to the client until the worker began to close. -/
def Relays (sent : List Payload) (w : LiveWebSocket) : Prop :=
  w.toClient <+: sent.map convertBinary ∧ (w.isClosing = false → w.toClient = sent.map convertBinary)

theorem Relays.still {sent : List Payload} {w w' : LiveWebSocket} (h : Relays sent w) (heq : w'.toClient = w.toClient)
    (hclosing : w.isClosing = true → w'.isClosing = true) : Relays sent w' := by
  rw [Relays, heq]
  refine ⟨h.1, fun hopen => h.2 ?_⟩
  cases hw : w.isClosing with
  | false => rfl
  | true =>
    rw [hclosing hw] at hopen
    cases hopen

/-- **An event of the worker** relays what Gemini sends, or ends the relay. -/
theorem Relays.step {sent : List Payload} {w w' : LiveWebSocket} {b : WorkerAction} (h : Relays sent w)
    (hstep : w.step platform b = some w') :
    Relays (sent ++ sentByGemini (.event b)) w' ∧ w.toClient <+: w'.toClient := by
  have hclosed (side : Side) (code : ℕ) (reason : Text) (more : List Payload) :
      Relays (sent ++ more) (w.safeClose platform side code reason) ∧
        w.toClient <+: (w.safeClose platform side code reason).toClient := by
    rw [LiveWebSocket.safeClose_rest, Relays, List.map_append]
    exact ⟨⟨h.1.trans (List.prefix_append _ _), fun hopen => by cases hopen⟩, List.prefix_rfl⟩
  cases b with
  | geminiMessage message delivered =>
    obtain rfl := Option.some.inj hstep
    rw [LiveWebSocket.onGeminiMessage, sentByGemini]
    split
    · next hclosing =>
      -- a worker that closes drops the message, and what it has relayed stays a beginning
      refine ⟨⟨?_, fun hopen => by rw [hclosing] at hopen; cases hopen⟩, List.prefix_rfl⟩
      rw [List.map_append]
      exact h.1.trans (List.prefix_append _ _)
    · next hopen =>
      split
      · have hall := h.2 (Bool.not_eq_true _ ▸ hopen)
        rw [Relays, List.map_append, hall]
        exact ⟨⟨List.prefix_rfl, fun _ => rfl⟩, List.prefix_append _ _⟩
      · -- a send that throws closes both sockets
        exact hclosed _ _ _ _
  | geminiOpened sendable =>
    obtain ⟨-, hs⟩ := Option.ite_none_left_eq_some.mp hstep
    cases hs
    show Relays (sent ++ []) _ ∧ _
    rw [List.append_nil]
    exact ⟨h, List.prefix_rfl⟩
  | clientMessage message now sends =>
    obtain rfl := Option.some.inj hstep
    obtain ⟨hsame, hclosing⟩ := @toClient_onClientMessage platform w message now sends
    show Relays (sent ++ []) _ ∧ _
    rw [List.append_nil]
    exact ⟨h.still hsame hclosing, hsame ▸ List.prefix_rfl⟩
  | closed side code reason =>
    obtain rfl := Option.some.inj hstep
    exact hclosed _ _ _ _
  | failed side =>
    obtain rfl := Option.some.inj hstep
    exact hclosed _ _ _ _

/-! ## Steps -/

/-- What a step does to the worker and to the counters. -/
theorem Sound.step (h : s.Sound asText n k) {sent : List Payload} (hrelays : Relays sent s.worker)
    (hstep : s.step platform asText sqrt a = some s') :
    s'.Sound asText n k ∧ Relays (sent ++ sentByGemini a) s'.worker ∧ s.posted <+: s'.posted ∧
      s.handled ≤ s'.handled := by
  have hnothing : Relays (sent ++ []) s.worker := (List.append_nil sent).symm ▸ hrelays
  cases a with
  | event b =>
    obtain ⟨worker, hworker, rfl⟩ := Option.map_eq_some_iff.mp hstep
    obtain ⟨hrelays', hbegins⟩ := hrelays.step hworker
    refine ⟨⟨h.handled_le, h.received_le.trans hbegins.length_le, h.n_le, h.k_le, ?_⟩, hrelays', List.prefix_rfl, le_rfl⟩
    -- the worker appends behind what the hook has received
    obtain ⟨more, hmore⟩ := hbegins
    rw [← hmore, List.take_append_of_le_length h.received_le]
    exact h.posted
  | initialized =>
    cases hstep
    exact ⟨⟨h.handled_le, h.received_le, h.n_le, h.k_le, h.posted⟩, hnothing, List.prefix_rfl, le_rfl⟩
  | message replies =>
    obtain ⟨message, hmessage, rfl⟩ := Option.map_eq_some_iff.mp hstep
    obtain ⟨hlt, -⟩ := List.getElem?_eq_some_iff.mp hmessage
    have hlength : s.posted.length ≤ (s.posted ++ s.postsFor asText replies message).length :=
      (List.prefix_append _ _).length_le
    refine ⟨⟨h.handled_le.trans hlength, hlt, h.n_le.trans hlength, h.k_le.trans (Nat.le_succ _), ?_⟩, hnothing,
      List.prefix_append _ _, le_rfl⟩
    -- the message and its posts come behind those from the places on
    rw [List.drop_append_of_le_length h.n_le, samplesIn_append, drop_take_succ h.k_le hmessage, List.flatMap_append,
      List.flatMap_singleton]
    exact h.posted.append (postsOf_handleServerMessage message).1
  | portMessage =>
    obtain ⟨post, hpost, hrest⟩ := Option.bind_eq_some_iff.mp hstep
    obtain ⟨processor, -, rfl⟩ := Option.map_eq_some_iff.mp hrest
    obtain ⟨hlt, -⟩ := List.getElem?_eq_some_iff.mp hpost
    exact ⟨⟨hlt, h.received_le, h.n_le, h.k_le, h.posted⟩, hnothing, List.prefix_rfl, Nat.le_succ _⟩
  | process output others =>
    obtain ⟨processor, -, rfl⟩ := Option.map_eq_some_iff.mp hstep
    exact ⟨⟨h.handled_le, h.received_le, h.n_le, h.k_le, h.posted⟩, hnothing, List.prefix_rfl, le_rfl⟩

/-- **A step** plays from what was taken. -/
theorem Played.step {blocks : List (List ℚ)} (h : s.Played n blocks) (hle : s.handled ≤ s.posted.length)
    (hstep : s.step platform asText sqrt a = some s') : s'.Played n (blocks ++ s.written sqrt a) := by
  obtain ⟨hn, pieces, hfilled, hplayed⟩ := h
  have hnothing : s.Played n (blocks ++ []) := by
    rw [List.append_nil]
    exact ⟨hn, pieces, hfilled, hplayed⟩
  cases a with
  | event b =>
    obtain ⟨worker, -, rfl⟩ := Option.map_eq_some_iff.mp hstep
    exact hnothing
  | initialized =>
    cases hstep
    exact hnothing
  | message replies =>
    obtain ⟨message, -, rfl⟩ := Option.map_eq_some_iff.mp hstep
    refine ⟨hn, pieces, (List.append_nil blocks).symm ▸ hfilled, ?_⟩
    rw [taken, List.take_append_of_le_length hle]
    exact hplayed
  | portMessage =>
    obtain ⟨post, hpost, hrest⟩ := Option.bind_eq_some_iff.mp hstep
    obtain ⟨processor, hprocessor, rfl⟩ := Option.map_eq_some_iff.mp hrest
    obtain ⟨p', pieces', hp', hnone, hbuffer, -⟩ := worklet_step sqrt s.processor (.message post)
    obtain rfl := Option.some.inj (hprocessor.symm.trans hp')
    -- no block is written
    obtain rfl := List.forall₂_nil_left_iff.mp hnone
    refine ⟨hn.trans (Nat.le_succ _), pieces, (List.append_nil blocks).symm ▸ hfilled, ?_⟩
    have hone : samplesIn [post] = PCMProcessor.enqueued (.message post) := List.flatMap_singleton _ _
    rw [taken, drop_take_succ hn hpost, samplesIn_append, hone]
    refine (hbuffer.append_left pieces.flatten).trans ?_
    rw [← List.append_assoc]
    exact hplayed.append_right _
  | process output others =>
    obtain ⟨processor, hprocessor, rfl⟩ := Option.map_eq_some_iff.mp hstep
    obtain ⟨p', pieces', hp', hfilled', hbuffer, -⟩ := worklet_step sqrt s.processor (.process output others)
    obtain rfl := Option.some.inj (hprocessor.symm.trans hp')
    refine ⟨hn, pieces ++ pieces', List.rel_append hfilled hfilled', ?_⟩
    have hrest : (pieces'.flatten ++ processor.buffer).Sublist s.processor.buffer :=
      (List.append_nil s.processor.buffer) ▸ hbuffer
    rw [List.flatten_append, List.append_assoc]
    exact (hrest.append_left _).trans hplayed

/-- What was played before is not asked for. -/
theorem Played.forget {blocks : List (List ℚ)} (h : s.Played n blocks) : s.Played n [] := by
  obtain ⟨hn, pieces, -, hplayed⟩ := h
  exact ⟨hn, [], .nil, (List.sublist_append_right _ _).trans hplayed⟩

/-! ## Runs -/

/-- The counters and the relay in a run. -/
theorem sound_run {s₀ : Downlink} {sent : List Payload} (h : s₀.Sound asText n k) (hrelays : Relays sent s₀.worker)
    (hrun : runFrom (step platform asText sqrt) s₀ actions = some s) :
    s.Sound asText n k ∧ Relays (sent ++ actions.flatMap sentByGemini) s.worker ∧ s₀.posted <+: s.posted ∧
      s₀.handled ≤ s.handled := by
  rw [← outputs_eq_flatMap hrun]
  exact run_outputs
    (I := fun sent s => s.Sound asText n k ∧ Relays sent s.worker ∧ s₀.posted <+: s.posted ∧ s₀.handled ≤ s.handled)
    (fun sent s a s' h _ hstep => by
      obtain ⟨hsound, hrelays, hposted, hhandled⟩ := h.1.step h.2.1 hstep
      exact ⟨hsound, hrelays, h.2.2.1.trans hposted, h.2.2.2.trans hhandled⟩)
    ⟨h, hrelays, List.prefix_rfl, le_rfl⟩ along_true hrun

/-- **What a run plays** is of what was taken, if what waits at its start is. -/
theorem played_run {s₀ : Downlink} {sent : List Payload} (h : s₀.Sound asText n k) (hrelays : Relays sent s₀.worker)
    (hplayed : s₀.Played n []) (hrun : runFrom (step platform asText sqrt) s₀ actions = some s) :
    s.Played n (outputs (step platform asText sqrt) (written sqrt) s₀ actions) := by
  have hend : s.Played n ([] ++ outputs (step platform asText sqrt) (written sqrt) s₀ actions) ∧
      s.Sound asText n k ∧ ∃ sent, Relays sent s.worker :=
    run_outputs (I := fun blocks s => s.Played n blocks ∧ s.Sound asText n k ∧ ∃ sent, Relays sent s.worker)
      (fun blocks s a s' h _ hstep => by
        obtain ⟨hplayed, hsound, sent, hrelays⟩ := h
        obtain ⟨hsound', hrelays', -⟩ := hsound.step hrelays hstep
        exact ⟨hplayed.step hsound.handled_le hstep, hsound', _, hrelays'⟩) ⟨hplayed, h, sent, hrelays⟩ along_true hrun
  exact hend.1

/-- Samples of what was taken are samples of what was sent. -/
theorem taken_sublist {sent : List Payload} (h : s.Sound asText n k) (hrelays : Relays sent s.worker) :
    (samplesIn (s.taken n)).Sublist (((sent.map convertBinary).drop k).flatMap (audible asText)) := by
  have hbegins : s.worker.toClient.take s.received <+: sent.map convertBinary :=
    (List.take_prefix _ _).trans hrelays.1
  have htaken : (s.taken n).Sublist (s.posted.drop n) := (List.take_sublist _ _).drop n
  exact ((htaken.flatMap _).trans h.posted).trans ((hbegins.sublist.drop k).flatMap _)

/-! ## Interruptions -/

/-- There is a flush before a place, and behind it nothing is played of what was posted before. -/
def Cleared (n : ℕ) (s : Downlink) : Prop :=
  0 < n ∧ s.posted[n - 1]? = some .flush ∧ (n ≤ s.handled → s.Played n [])

theorem Cleared.step (h : s.Cleared n) (hle : s.handled ≤ s.posted.length) (hposted : s.posted <+: s'.posted)
    (hstep : s.step platform asText sqrt a = some s') : s'.Cleared n := by
  obtain ⟨hn, hflush, hplayed⟩ := h
  obtain ⟨hlt, hget⟩ := List.getElem?_eq_some_iff.mp hflush
  refine ⟨hn, ?_, fun hn' => ?_⟩
  · rw [List.getElem?_eq_getElem (hlt.trans_le hposted.length_le), ← hposted.getElem hlt, hget]
  · by_cases hbefore : n ≤ s.handled
    · exact ((hplayed hbefore).step hle hstep).forget
    · -- only a message at the port leads beyond the place
      cases a with
      | portMessage =>
        obtain ⟨post, hpost, hrest⟩ := Option.bind_eq_some_iff.mp hstep
        obtain ⟨processor, hprocessor, rfl⟩ := Option.map_eq_some_iff.mp hrest
        -- this is the flush
        have hlast : s.handled = n - 1 := by
          have hn'' : n ≤ s.handled + 1 := hn'
          omega
        rw [hlast, hflush] at hpost
        obtain rfl := Option.some.inj hpost
        obtain ⟨p', -, hp', -, -, hempty⟩ := worklet_step sqrt s.processor (.message .flush)
        obtain rfl := Option.some.inj (hprocessor.symm.trans hp')
        refine ⟨hn', [], .nil, ?_⟩
        rw [hempty rfl]
        exact List.nil_sublist _
      | event b =>
        obtain ⟨worker, -, rfl⟩ := Option.map_eq_some_iff.mp hstep
        exact absurd hn' hbefore
      | initialized =>
        cases hstep
        exact absurd hn' hbefore
      | message replies =>
        obtain ⟨message, -, rfl⟩ := Option.map_eq_some_iff.mp hstep
        exact absurd hn' hbefore
      | process output others =>
        obtain ⟨processor, -, rfl⟩ := Option.map_eq_some_iff.mp hstep
        exact absurd hn' hbefore

theorem cleared_run {s₀ : Downlink} {sent : List Payload} (h : s₀.Sound asText n k) (hrelays : Relays sent s₀.worker)
    (hcleared : s₀.Cleared n) (hrun : runFrom (step platform asText sqrt) s₀ actions = some s) : s.Cleared n := by
  have hend : s.Cleared n ∧ s.Sound asText n k ∧ ∃ sent, Relays sent s.worker :=
    run_invariant (I := fun s => s.Cleared n ∧ s.Sound asText n k ∧ ∃ sent, Relays sent s.worker)
      (fun s a s' h _ hstep => by
        obtain ⟨hcleared, hsound, sent, hrelays⟩ := h
        obtain ⟨hsound', hrelays', hposted, -⟩ := hsound.step hrelays hstep
        exact ⟨hcleared.step hsound.handled_le hposted hstep, hsound', _, hrelays'⟩)
      ⟨hcleared, h, sent, hrelays⟩ along_true hrun
  exact hend.1

/-! ## The results -/

theorem relays_start (now : ℤ) : Relays [] (.accepted now) := ⟨List.prefix_rfl, fun _ => rfl⟩

/-- The steps of a session on a plain platform. -/
abbrev talk : Downlink → DownlinkAction → Option Downlink := step plainPlatform (fun _ => []) id

/-- A word of two samples, and an interruption. -/
def firstWord : List DownlinkAction :=
  [.event (.geminiMessage (.binary [1, 0, 2, 0]) true), .message Hook.answering,
    .event (.geminiMessage (.text (lit "\x7b\"serverContent\":\x7b\"interrupted\":true\x7d\x7d")) true)]

/-- The worklet is given the word and the flush. -/
def flushing : List DownlinkAction := [.portMessage, .portMessage]

/-- Another word comes, and a block is written. -/
def secondWord : List DownlinkAction :=
  [.event (.geminiMessage (.binary [3, 0]) true), .message Hook.answering, .portMessage, .process [[9, 9]] []]

/-- **An interruption silences what came before it**: when the worklet has handled what the hook had posted by the end
of a message that interrupts, the speaker plays nothing of that message of Gemini, nor of those before it. -/
theorem barge_in {hook : Hook} {now : ℤ} {before between after : List DownlinkAction} {s₀ s₁ s₂ : Downlink}
    {replies : Replies} {message : Payload}
    (hbefore : runFrom (step platform asText sqrt) (start hook now) before = some s₀)
    (hmessage : s₀.worker.toClient[s₀.received]? = some message) (hinterrupts : interrupts message = true)
    (hnode : s₀.hook.audioStreamer.workletNode = true)
    (hinterrupt : s₀.step platform asText sqrt (.message replies) = some s₁)
    (hbetween : runFrom (step platform asText sqrt) s₁ between = some s₂) (hhandled : s₁.posted.length ≤ s₂.handled)
    (hafter : runFrom (step platform asText sqrt) s₂ after = some s) :
    let sent := ((before ++ between ++ after).flatMap sentByGemini).map convertBinary
    sent[s₀.received]? = some message ∧ ∃ pieces,
      List.Forall₂ Filled (outputs (step platform asText sqrt) (written sqrt) s₂ after) pieces ∧
      pieces.flatten.Sublist ((sent.drop (s₀.received + 1)).flatMap (audible asText)) := by
  intro sent
  obtain ⟨hsound₀, hrelays₀, -⟩ := sound_run (sound_start hook now) (relays_start now) hbefore
  obtain ⟨hsound, hrelays₁, -⟩ := hsound₀.step hrelays₀ hinterrupt
  have hsound₁ := hsound.here
  -- the flush is the last that the message posted
  have hs₁ : s₁ = { s₀ with
      received := s₀.received + 1, posted := s₀.posted ++ s₀.postsFor asText replies message } := by
    rw [step, hmessage] at hinterrupt
    exact (Option.some.inj hinterrupt).symm
  obtain ⟨posts, hposts⟩ := (@postsOf_handleServerMessage asText replies s₀.hook message).2 hinterrupts hnode
  have hposted : s₁.posted = (s₀.posted ++ posts) ++ [.flush] := by
    rw [hs₁, List.append_assoc, ← hposts]
    rfl
  have hcleared : s₁.Cleared s₁.posted.length := by
    refine ⟨by rw [hposted, List.length_append]; simp, ?_, fun hn => ?_⟩
    · rw [hposted, List.length_append, List.length_singleton, Nat.add_sub_cancel, List.getElem?_concat_length]
    · have hfew : s₁.handled ≤ s₀.posted.length := by
        rw [hs₁]
        exact hsound₀.handled_le
      rw [hposted, List.length_append, List.length_append, List.length_singleton] at hn
      omega
  obtain ⟨hsound₂, hrelays₂, -⟩ := sound_run hsound₁ hrelays₁ hbetween
  have hplayed := (cleared_run hsound₁ hrelays₁ hcleared hbetween).2.2 hhandled
  obtain ⟨hsound₃, hrelays₃, -⟩ := sound_run hsound₂ hrelays₂ hafter
  obtain ⟨-, pieces, hfilled, htaken⟩ := played_run hsound₂ hrelays₂ hplayed hafter
  have hreceived : s₁.received = s₀.received + 1 := by rw [hs₁]
  have hheard := ((List.sublist_append_left _ _).trans htaken).trans (taken_sublist hsound₃ hrelays₃)
  rw [hreceived] at hheard
  have hsent : sent = (([] ++ before.flatMap sentByGemini ++ sentByGemini (.message replies) ++
      between.flatMap sentByGemini) ++ after.flatMap sentByGemini).map convertBinary := by
    simp [sent, sentByGemini]
  refine ⟨?_, pieces, hfilled, hsent ▸ hheard⟩
  -- the client was sent what came from Gemini, in its order
  obtain ⟨more, hmore⟩ := hrelays₀.1
  obtain ⟨hlt, -⟩ := List.getElem?_eq_some_iff.mp hmessage
  rw [hsent, List.append_assoc, List.append_assoc, List.map_append, ← hmore, List.append_assoc,
    List.getElem?_append_left hlt, hmessage]

theorem barge_in_words : ∃ s₂ pieces,
    runFrom talk (start Hook.signedIn 0) (firstWord ++ [.message Hook.answering] ++ flushing) = some s₂ ∧
    List.Forall₂ Filled (outputs talk (written id) s₂ secondWord) pieces ∧
      pieces.flatten.Sublist (((((firstWord ++ flushing ++ secondWord).flatMap sentByGemini).map convertBinary).drop
        2).flatMap (audible fun _ => [])) := by
  have hfirst : (runFrom talk (start Hook.signedIn 0) firstWord).any (fun s => s.received == 1 &&
      s.hook.audioStreamer.workletNode && (s.worker.toClient[s.received]?).any interrupts) = true := by
    rw [firstWord, lit_ofList]
    decide +kernel
  have hposted : (runFrom talk (start Hook.signedIn 0) (firstWord ++ [.message Hook.answering])).map
      (fun s => s.posted.length) = some 2 := by
    rw [firstWord, lit_ofList]
    decide +kernel
  have hhandled : (runFrom talk (start Hook.signedIn 0) (firstWord ++ [.message Hook.answering] ++ flushing)).map
      Downlink.handled = some 2 := by
    rw [firstWord, lit_ofList]
    decide +kernel
  have hall : (runFrom talk (start Hook.signedIn 0) (firstWord ++ [.message Hook.answering] ++ flushing ++
      secondWord)).isSome = true := by
    rw [firstWord, lit_ofList]
    decide +kernel
  obtain ⟨s, hrun⟩ := Option.isSome_iff_exists.mp hall
  obtain ⟨s₂, htwo, hafter⟩ := runFrom_append hrun
  obtain ⟨s₁, hone, hbetween⟩ := runFrom_append htwo
  obtain ⟨s₀, hbefore, hinterrupt⟩ := runFrom_append hone
  rw [htwo, Option.map_some, Option.some.injEq] at hhandled
  rw [hone, Option.map_some, Option.some.injEq] at hposted
  rw [hbefore, Option.any_some, Bool.and_eq_true, Bool.and_eq_true, beq_iff_eq] at hfirst
  obtain ⟨⟨hreceived, hnode⟩, hany⟩ := hfirst
  obtain ⟨message, hmessage, hinterrupts⟩ := (Option.any_eq_true _ _).mp hany
  rw [runFrom_cons, Option.bind_eq_some_iff] at hinterrupt
  obtain ⟨s₁', hinterrupt, hsame⟩ := hinterrupt
  obtain rfl := Option.some.inj hsame
  obtain ⟨-, pieces, h⟩ := barge_in hbefore hmessage hinterrupts hnode hinterrupt hbetween
    (hposted.trans hhandled.symm).le hafter
  rw [hreceived] at h
  exact ⟨s₂, pieces, htwo, h⟩

end Downlink

end DreamWeaver.Client
