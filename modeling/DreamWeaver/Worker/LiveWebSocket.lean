import DreamWeaver.Foundations.Queues
import DreamWeaver.Foundations.Transitions
import DreamWeaver.Worker.Messages

/-! # The relay of the worker

`handleLiveWebSocket` joins the socket of a client to a socket of Gemini. Its listeners share the flags
`geminiOpen` and `isClosing`, a queue for what comes before Gemini's socket is open, and the counter of a
rate window. A run is a list of the events that the listeners are called with, from the moment at which
the connection to Gemini is under way. -/

namespace DreamWeaver.Worker

open Transitions

/-- `TEXT_WINDOW_MS` -/
def textWindowMs : ℤ := 60 * 1000

/-- `MAX_TEXT_MESSAGES_PER_WINDOW` -/
def maxTextMessagesPerWindow : ℕ := 120

/-- The bound of `audioBufferQueue`. -/
def maxQueued : ℕ := 50

/-- The two peers of the worker, and its socket to each: `server` leads to the client. -/
inductive Side where
  | client
  | gemini
  deriving DecidableEq

/-- The peer on the other side. -/
def Side.other : Side → Side
  | .client => .gemini
  | .gemini => .client

/-- The reason that is given where a close event has none. -/
def Side.closedReason : Side → Text
  | .client => lit "Client closed"
  | .gemini => lit "Gemini closed"

/-- The reason that is given for an error event. -/
def Side.errorReason : Side → Text
  | .client => lit "Client error"
  | .gemini => lit "Gemini error"

/-- A call of `close` on the socket to a peer; it is not issued where it throws. -/
structure CloseCall where
  side : Side
  code : ℕ
  reason : Text
  issued : Bool
  deriving DecidableEq

/-- The variables of `handleLiveWebSocket`, and what was done to its sockets: the texts that were sent to
Gemini, the messages that were sent to the client, and the calls of `close`. The counters of messages are
only logged and left out. -/
structure LiveWebSocket where
  geminiOpen : Bool
  isClosing : Bool
  audioBufferQueue : List Text
  textWindowStart : ℤ
  textCount : ℕ
  toGemini : List Text
  toClient : List Payload
  closeCalls : List CloseCall
  deriving DecidableEq

/-- What the language and the sockets do: `closes` says which codes and reasons a socket's `close` takes
without throwing, `toUpperCase` is the method of strings. -/
structure Platform where
  closes : Side → ℕ → Text → Bool
  toUpperCase : Text → Text

/-- A platform on which `close` refuses the codes that are never sent, and texts are of ASCII. -/
def plainPlatform : Platform where
  closes _ code _ := 1000 ≤ code && code < 5000 && !([1004, 1005, 1006, 1015].contains code)
  toUpperCase s := s.map fun c => if 97 ≤ c && c ≤ 122 then c - 32 else c

namespace LiveWebSocket

/-- The worker when it has accepted a client at a time. -/
def accepted (now : ℤ) : LiveWebSocket where
  geminiOpen := false
  isClosing := false
  audioBufferQueue := []
  textWindowStart := now
  textCount := 0
  toGemini := []
  toClient := []
  closeCalls := []

section

variable (platform : Platform) (w : LiveWebSocket)

/-! ## Closing -/

/-- `close` on the socket to a peer, within `try`. -/
def close (side : Side) (code : ℕ) (reason : Text) : LiveWebSocket :=
  { w with closeCalls := w.closeCalls ++ [⟨side, code, reason, platform.closes side code reason⟩] }

/-- `code || 1000` -/
def closeCode (code : ℕ) : ℕ := if code = 0 then 1000 else code

/-- `safeClose(source, code, reason)` closes the other side first. -/
def safeClose (source : Side) (code : ℕ) (reason : Text) : LiveWebSocket :=
  if w.isClosing then w
  else
    let closing := { w with isClosing := true }
    let reason := orText (some reason) source.closedReason
    (closing.close platform source.other (closeCode code) reason).close platform source (closeCode code) reason

/-! ## Messages of the client -/

/-- A text that is not audio counts in its window; a window that is over is replaced. -/
def countText (now : ℤ) : LiveWebSocket :=
  if textWindowMs < now - w.textWindowStart then { w with textWindowStart := now, textCount := 1 }
  else { w with textCount := w.textCount + 1 }

/-- A text that passed the checks is sent, or waits. `sends` says whether `send` returns. -/
def forward (data : Text) (sends : Bool) : LiveWebSocket :=
  if w.geminiOpen then
    if sends then { w with toGemini := w.toGemini ++ [data] }
    else w.safeClose platform .gemini 1011 (lit "Send failed")
  else { w with audioBufferQueue := pushBounded maxQueued w.audioBufferQueue data }

/-- The listener for messages of the client. -/
def onClientMessage (message : Payload) (now : ℤ) (sends : Bool) : LiveWebSocket :=
  if w.isClosing then w
  else
    let prepared := prepare platform.toUpperCase message
    if maxTextBytes < prepared.data.length then w.close platform .client 1009 (lit "Message too big")
    else if prepared.isRealtimeAudio then w.forward platform prepared.data sends
    else
      let counted := w.countText now
      if maxTextMessagesPerWindow < counted.textCount then
        counted.close platform .client 1008 (lit "Rate limit")
      else counted.forward platform prepared.data sends

/-! ## Events of Gemini -/

/-- The listener for the opening flushes the queue; `send` returns for the first `sendable` items, and an
item for which it throws is lost. -/
def onGeminiOpen (sendable : ℕ) : LiveWebSocket :=
  { w with
    geminiOpen := true
    toGemini := w.toGemini ++ w.audioBufferQueue.take sendable
    audioBufferQueue := w.audioBufferQueue.drop (sendable + 1) }

/-- The listener for messages of Gemini; `delivered` says whether `server.send` returns. -/
def onGeminiMessage (message : Payload) (delivered : Bool) : LiveWebSocket :=
  if w.isClosing then w
  else if delivered then { w with toClient := w.toClient ++ [convertBinary message] }
  else w.safeClose platform .gemini 1011 (lit "Relay failed")

end

end LiveWebSocket

/-! ## Runs -/

/-- An event that a listener is called with, and what the calls of `send` do meanwhile. -/
inductive WorkerAction where
  | geminiOpened (sendable : ℕ)
  | geminiMessage (message : Payload) (delivered : Bool)
  | clientMessage (message : Payload) (now : ℤ) (sends : Bool)
  | closed (side : Side) (code : ℕ) (reason : Text)
  | failed (side : Side)
  deriving DecidableEq

/-- The peer that closed its socket, or whose socket failed. -/
def WorkerAction.ended? : WorkerAction → Option Side
  | .closed side _ _ => some side
  | .failed side => some side
  | _ => none

/-- The message of the client. -/
def WorkerAction.message? : WorkerAction → Option Payload
  | .clientMessage message _ _ => some message
  | _ => none

/-- The worker after an event; a socket opens once. -/
def LiveWebSocket.step (platform : Platform) (w : LiveWebSocket) : WorkerAction → Option LiveWebSocket
  | .geminiOpened sendable => if w.geminiOpen then none else some (w.onGeminiOpen sendable)
  | .geminiMessage message delivered => some (w.onGeminiMessage platform message delivered)
  | .clientMessage message now sends => some (w.onClientMessage platform message now sends)
  | .closed side code reason => some (w.safeClose platform side code reason)
  | .failed side => some (w.safeClose platform side 1011 side.errorReason)

/-! ## What an event does -/

namespace LiveWebSocket

/-- The text that the checks let through of a message of the client. -/
def admits (platform : Platform) (w : LiveWebSocket) (message : Payload) (now : ℤ) : Option Text :=
  let prepared := prepare platform.toUpperCase message
  if w.isClosing || maxTextBytes < prepared.data.length then none
  else if !prepared.isRealtimeAudio && maxTextMessagesPerWindow < (w.countText now).textCount then none
  else some prepared.data

/-- The worker when the rate window has been looked at for a message: a text that is not audio and not too
long counts in it. -/
def atChecks (platform : Platform) (w : LiveWebSocket) (message : Payload) (now : ℤ) : LiveWebSocket :=
  let prepared := prepare platform.toUpperCase message
  if maxTextBytes < prepared.data.length || prepared.isRealtimeAudio then w else w.countText now

/-- Counting changes the rate window only. -/
theorem countText_rest (w : LiveWebSocket) (now : ℤ) :
    w.countText now = { w with
      textWindowStart := (w.countText now).textWindowStart
      textCount := (w.countText now).textCount } := by
  unfold countText
  split <;> rfl

theorem atChecks_rest (platform : Platform) (w : LiveWebSocket) (message : Payload) (now : ℤ) :
    w.atChecks platform message now = { w with
      textWindowStart := (w.atChecks platform message now).textWindowStart
      textCount := (w.atChecks platform message now).textCount } := by
  unfold atChecks
  dsimp only
  split
  · rfl
  · exact countText_rest w now

/-- **A message of the client** is ignored, or refused with a close, or forwarded. -/
theorem onClientMessage_cases (platform : Platform) (w : LiveWebSocket) (message : Payload) (now : ℤ)
    (sends : Bool) :
    w.isClosing = true ∧ w.admits platform message now = none ∧
        w.onClientMessage platform message now sends = w ∨
      w.isClosing = false ∧ w.admits platform message now = none ∧
        (∃ code reason, (code = 1008 ∨ code = 1009) ∧ w.onClientMessage platform message now sends =
          (w.atChecks platform message now).close platform .client code reason) ∨
      w.isClosing = false ∧ ∃ data, w.admits platform message now = some data ∧
        w.onClientMessage platform message now sends =
          (w.atChecks platform message now).forward platform data sends := by
  unfold onClientMessage admits atChecks
  dsimp only
  by_cases hclosing : w.isClosing = true
  · left
    rw [if_pos hclosing, hclosing, Bool.true_or, if_pos rfl]
    exact ⟨rfl, rfl, rfl⟩
  right
  rw [if_neg hclosing]
  rw [Bool.not_eq_true] at hclosing
  rw [hclosing, Bool.false_or]
  by_cases hlong : maxTextBytes < (prepare platform.toUpperCase message).data.length
  · left
    simp only [hlong, decide_true, Bool.true_or, if_true, true_and]
    exact ⟨1009, _, Or.inr rfl, rfl⟩
  simp only [hlong, decide_false, Bool.false_or, if_false, true_and, Bool.false_eq_true]
  by_cases haudio : (prepare platform.toUpperCase message).isRealtimeAudio = true
  · right
    simp only [haudio, if_true, Bool.not_true, Bool.false_and, Bool.false_eq_true, if_false]
    exact ⟨_, rfl, rfl⟩
  simp only [haudio, if_false, Bool.not_false, Bool.true_and, Bool.false_eq_true]
  by_cases hover : maxTextMessagesPerWindow < (w.countText now).textCount
  · left
    simp only [hover, decide_true, if_true, true_and]
    exact ⟨1008, _, Or.inl rfl, rfl⟩
  · right
    simp only [hover, decide_false, Bool.false_eq_true, if_false]
    exact ⟨_, rfl, rfl⟩

/-! ## What is on its way to Gemini -/

/-- The texts that are let through by an event. -/
def admitted (platform : Platform) (w : LiveWebSocket) : WorkerAction → List Text
  | .clientMessage message now _ => (w.admits platform message now).toList
  | _ => []

/-- Nothing was sent to Gemini or taken into the queue, and a worker that was closing still is. -/
structure Still (w w' : LiveWebSocket) : Prop where
  geminiOpen : w'.geminiOpen = w.geminiOpen
  audioBufferQueue : w'.audioBufferQueue = w.audioBufferQueue
  toGemini : w'.toGemini = w.toGemini
  isClosing : w.isClosing = true → w'.isClosing = true

theorem Still.refl (w : LiveWebSocket) : w.Still w := ⟨rfl, rfl, rfl, id⟩

/-- `safeClose` only adds calls. -/
theorem closeCalls_safeClose (platform : Platform) (w : LiveWebSocket) (side : Side) (code : ℕ) (reason : Text) :
    w.closeCalls <+: (w.safeClose platform side code reason).closeCalls := by
  unfold safeClose
  split
  · exact List.prefix_rfl
  · exact (List.prefix_append _ _).trans (List.prefix_append _ _)

/-- `safeClose` begins to close the worker, and changes nothing else. -/
theorem safeClose_rest (platform : Platform) (w : LiveWebSocket) (side : Side) (code : ℕ) (reason : Text) :
    w.safeClose platform side code reason = { w with
      isClosing := true
      closeCalls := (w.safeClose platform side code reason).closeCalls } := by
  by_cases hclosing : w.isClosing = true
  · rw [safeClose, if_pos hclosing, ← hclosing]
  · rw [safeClose, if_neg hclosing]
    rfl

theorem safeClose_still (platform : Platform) (w : LiveWebSocket) (side : Side) (code : ℕ) (reason : Text) :
    w.Still (w.safeClose platform side code reason) ∧
      (w.safeClose platform side code reason).isClosing = true := by
  rw [safeClose_rest]
  exact ⟨⟨rfl, rfl, rfl, fun _ => rfl⟩, rfl⟩

theorem atChecks_still (platform : Platform) (w : LiveWebSocket) (message : Payload) (now : ℤ) :
    w.Still (w.atChecks platform message now) := by
  rw [atChecks_rest]
  exact ⟨rfl, rfl, rfl, id⟩

/-- **A text that is let through** is sent, or `send` throws and the worker closes, or it waits. -/
theorem forward_cases (platform : Platform) (w : LiveWebSocket) (data : Text) (sends : Bool) :
    w.geminiOpen = true ∧ w.forward platform data sends = { w with toGemini := w.toGemini ++ [data] } ∨
      w.geminiOpen = true ∧ w.Still (w.forward platform data sends) ∧
        (w.forward platform data sends).isClosing = true ∨
      w.geminiOpen = false ∧ w.forward platform data sends =
        { w with audioBufferQueue := pushBounded maxQueued w.audioBufferQueue data } := by
  unfold forward
  by_cases hopen : w.geminiOpen = true
  · rw [if_pos hopen]
    by_cases hsends : sends = true
    · rw [if_pos hsends]
      exact Or.inl ⟨hopen, rfl⟩
    · rw [if_neg hsends]
      exact Or.inr (Or.inl ⟨hopen, safeClose_still _ _ _ _ _⟩)
  · rw [if_neg hopen]
    exact Or.inr (Or.inr ⟨Bool.not_eq_true _ ▸ hopen, rfl⟩)

/-- **What an event does to the traffic to Gemini.** -/
theorem step_traffic {platform : Platform} {w w' : LiveWebSocket} {a : WorkerAction}
    (hstep : w.step platform a = some w') :
    w.admitted platform a = [] ∧ w.Still w' ∨
      (∃ sendable, a = .geminiOpened sendable ∧ w.geminiOpen = false ∧ w' = w.onGeminiOpen sendable) ∨
      ∃ message now sends data, a = .clientMessage message now sends ∧ w.isClosing = false ∧
        w.admits platform message now = some data ∧
        w' = (w.atChecks platform message now).forward platform data sends := by
  cases a with
  | geminiOpened sendable =>
    by_cases hopen : w.geminiOpen = true
    · rw [step, if_pos hopen] at hstep
      cases hstep
    · rw [step, if_neg hopen] at hstep
      exact Or.inr (Or.inl ⟨sendable, rfl, Bool.not_eq_true _ ▸ hopen, (Option.some.inj hstep).symm⟩)
  | geminiMessage message delivered =>
    obtain rfl := Option.some.inj hstep
    refine Or.inl ⟨rfl, ?_⟩
    unfold onGeminiMessage
    split
    · exact Still.refl w
    · split
      · exact ⟨rfl, rfl, rfl, id⟩
      · exact (safeClose_still _ _ _ _ _).1
  | clientMessage message now sends =>
    obtain rfl := Option.some.inj hstep
    have hstill := atChecks_still platform w message now
    rcases onClientMessage_cases platform w message now sends with
      ⟨-, hnone, heq⟩ | ⟨-, hnone, code, reason, -, heq⟩ | ⟨hopen, data, hsome, heq⟩
    · refine Or.inl ⟨by rw [admitted, hnone]; rfl, ?_⟩
      rw [heq]
      exact Still.refl w
    · refine Or.inl ⟨by rw [admitted, hnone]; rfl, ?_⟩
      rw [heq]
      exact ⟨hstill.geminiOpen, hstill.audioBufferQueue, hstill.toGemini, hstill.isClosing⟩
    · exact Or.inr (Or.inr ⟨message, now, sends, data, rfl, hopen, hsome, heq⟩)
  | closed side code reason =>
    obtain rfl := Option.some.inj hstep
    exact Or.inl ⟨rfl, (safeClose_still _ _ _ _ _).1⟩
  | failed side =>
    obtain rfl := Option.some.inj hstep
    exact Or.inl ⟨rfl, (safeClose_still _ _ _ _ _).1⟩

/-! ## What is counted -/

/-- No text was counted, and no close was taken back. -/
structure Uncounted (w w' : LiveWebSocket) : Prop where
  textWindowStart : w'.textWindowStart = w.textWindowStart
  textCount : w'.textCount = w.textCount
  closeCalls : w.closeCalls <+: w'.closeCalls

theorem safeClose_uncounted (platform : Platform) (w : LiveWebSocket) (side : Side) (code : ℕ) (reason : Text) :
    w.Uncounted (w.safeClose platform side code reason) := by
  have hprefix := closeCalls_safeClose platform w side code reason
  rw [safeClose_rest]
  exact ⟨rfl, rfl, hprefix⟩

theorem forward_uncounted (platform : Platform) (w : LiveWebSocket) (data : Text) (sends : Bool) :
    w.Uncounted (w.forward platform data sends) := by
  unfold forward
  split
  · split
    · exact ⟨rfl, rfl, List.prefix_rfl⟩
    · exact safeClose_uncounted _ _ _ _ _
  · exact ⟨rfl, rfl, List.prefix_rfl⟩

/-- Only messages of the client are counted. -/
theorem step_uncounted {platform : Platform} {w w' : LiveWebSocket} {a : WorkerAction}
    (hnone : a.message? = none) (hstep : w.step platform a = some w') : w.Uncounted w' := by
  cases a with
  | geminiOpened sendable =>
    by_cases hopen : w.geminiOpen = true
    · rw [step, if_pos hopen] at hstep
      cases hstep
    · rw [step, if_neg hopen] at hstep
      obtain rfl := Option.some.inj hstep
      exact ⟨rfl, rfl, List.prefix_rfl⟩
  | geminiMessage message delivered =>
    obtain rfl := Option.some.inj hstep
    unfold onGeminiMessage
    split
    · exact ⟨rfl, rfl, List.prefix_rfl⟩
    · split
      · exact ⟨rfl, rfl, List.prefix_rfl⟩
      · exact safeClose_uncounted _ _ _ _ _
  | clientMessage => cases hnone
  | closed side code reason =>
    obtain rfl := Option.some.inj hstep
    exact safeClose_uncounted _ _ _ _ _
  | failed side =>
    obtain rfl := Option.some.inj hstep
    exact safeClose_uncounted _ _ _ _ _

end LiveWebSocket

end DreamWeaver.Worker
