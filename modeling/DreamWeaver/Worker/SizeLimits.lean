import DreamWeaver.Worker.Envelope
import DreamWeaver.Worker.LiveWebSocket

/-! # The size limits

The worker compares one limit with the number of units of the text that it is about to forward. For bytes
this is the text of their envelope, which is longer by a third, and for a text it counts neither the bytes
of the text nor, in a setup, the text that came. So the size of what came is within its limit exactly when
the worker does not refuse it for audio of at most 49089 bytes or beyond the limit, for bytes that hold a
document unless a setup in it grows beyond the limit, and for a text whose bytes and whose rewritten units
are on one side of the limit. -/

namespace DreamWeaver.Worker

variable {platform : Platform} {w : LiveWebSocket}

/-- The most bytes whose envelope is within the limit. -/
def maxEnvelopedBytes : ℕ := 49089

/-- The size that the limits speak of: the bytes of a message, and the bytes of a text in UTF-8. -/
def Payload.WithinLimit : Payload → Prop
  | .binary bytes => bytes.length ≤ maxAudioBytes
  | .text data => (encodeUtf8 data).length ≤ maxTextBytes

/-- **The condition on a message.** -/
def SizeAgrees (toUpperCase : Text → Text) : Payload → Prop
  | .binary bytes =>
    match convertBinary (.binary bytes) with
    | .binary bytes => bytes.length ≤ maxEnvelopedBytes ∨ maxAudioBytes < bytes.length
    | .text data => (rewriteSetup toUpperCase data).length ≤ maxTextBytes
  | .text data =>
    (encodeUtf8 data).length ≤ maxTextBytes ∧ (rewriteSetup toUpperCase data).length ≤ maxTextBytes ∨
      maxTextBytes < (encodeUtf8 data).length ∧ maxTextBytes < (rewriteSetup toUpperCase data).length

/-- The client is closed because a message is too big. -/
def LiveWebSocket.RefusesSize (platform : Platform) (w : LiveWebSocket) (message : Payload) (now : ℤ)
    (sends : Bool) : Prop :=
  ∃ issued, (w.onClientMessage platform message now sends).closeCalls =
    w.closeCalls ++ [⟨.client, 1009, lit "Message too big", issued⟩]

/-- The number of calls of `close` when a text is forwarded: none, or both sockets. -/
theorem length_closeCalls_forward (w : LiveWebSocket) (data : Text) (sends : Bool) :
    (w.forward platform data sends).closeCalls.length ≠ w.closeCalls.length + 1 := by
  unfold LiveWebSocket.forward LiveWebSocket.safeClose LiveWebSocket.close
  split
  · split
    · simp
    · split <;> simp
  · simp

/-- **The worker refuses what is longer than the limit as it is about to be forwarded.** -/
theorem refusesSize_iff (hopen : w.isClosing = false) (message : Payload) (now : ℤ) (sends : Bool) :
    w.RefusesSize platform message now sends ↔
      maxTextBytes < (prepare platform.toUpperCase message).data.length := by
  have hno : ¬ w.isClosing = true := by simp [hopen]
  unfold LiveWebSocket.RefusesSize LiveWebSocket.onClientMessage
  dsimp only
  rw [if_neg hno]
  by_cases hlong : maxTextBytes < (prepare platform.toUpperCase message).data.length
  · rw [if_pos hlong]
    exact iff_of_true ⟨_, rfl⟩ hlong
  · rw [if_neg hlong]
    refine iff_of_false ?_ hlong
    rintro ⟨issued, hcalls⟩
    have hcount : (w.countText now).closeCalls = w.closeCalls := by rw [LiveWebSocket.countText_rest]
    have hone := congrArg List.length hcalls
    rw [List.length_append, List.length_singleton] at hone
    revert hcalls hone
    split
    · exact fun _ hone => length_closeCalls_forward _ _ _ hone
    · split
      · -- a text over the rate limit is refused with another code
        intro hcalls _
        rw [LiveWebSocket.close, hcount] at hcalls
        have hcode := congrArg CloseCall.code (List.singleton_inj.mp (List.append_cancel_left hcalls))
        cases hcode
      · intro _ hone
        rw [← hcount] at hone
        exact length_closeCalls_forward _ _ _ hone

/-- **The size limits are kept exactly for the messages that meet the condition.** -/
theorem size_limit_iff (hopen : w.isClosing = false) (message : Payload) (now : ℤ) (sends : Bool) :
    (¬ w.RefusesSize platform message now sends ↔ message.WithinLimit) ↔
      SizeAgrees platform.toUpperCase message := by
  rw [refusesSize_iff hopen, not_lt]
  cases message with
  | text data =>
    have hprepare : (prepare platform.toUpperCase (.text data)).data = rewriteSetup platform.toUpperCase data := rfl
    rw [hprepare, Payload.WithinLimit, SizeAgrees]
    omega
  | binary bytes =>
    rw [Payload.WithinLimit]
    rcases convertBinary_cases bytes with ⟨⟨hsize, -⟩, hconvert⟩ | ⟨-, hconvert⟩
    · rw [prepare, SizeAgrees, hconvert]
      unfold maxAudioBytes
      unfold maxTextBytes at *
      dsimp only
      omega
    · rw [prepare_of_binary hconvert, length_envelope, SizeAgrees, hconvert]
      unfold maxAudioBytes maxTextBytes maxEnvelopedBytes
      dsimp only
      omega

/-- A text that is forwarded as it came: its units are within the limit, or its bytes are. -/
theorem sizeAgrees_text {toUpperCase : Text → Text} {data : Text}
    (hsetup : includes data (lit "\"setup\"") = false) :
    SizeAgrees toUpperCase (.text data) ↔
      (encodeUtf8 data).length ≤ maxTextBytes ∨ maxTextBytes < data.length := by
  have hle := length_le_length_encodeUtf8 data
  rw [SizeAgrees, rewriteSetup, hsetup, if_neg Bool.false_ne_true]
  omega

/-- A short chunk of audio is accepted. -/
theorem size_limit_iff_chunk :
    (¬ (LiveWebSocket.accepted 0).RefusesSize plainPlatform (.binary [1, 0]) 0 true ↔
      (Payload.binary [1, 0]).WithinLimit) ↔ SizeAgrees plainPlatform.toUpperCase (.binary [1, 0]) :=
  size_limit_iff rfl (.binary [1, 0]) 0 true

/-- Silence, in bytes. -/
def silence (n : ℕ) : List UInt8 := List.replicate n 0

/-- Silence holds no document. -/
theorem convertBinary_silence (n : ℕ) : convertBinary (.binary (silence n)) = .binary (silence n) := by
  rcases convertBinary_cases (silence n) with ⟨⟨-, hdocument⟩, -⟩ | ⟨-, heq⟩
  · exfalso
    cases n with
    | zero => exact absurd hdocument (by decide)
    | succ n =>
      have hdecode : textDecode (silence (n + 1)) = 0 :: decodeChars (silence n).length (silence n) := rfl
      rw [isDocument, hdecode, head?_trim_cons (by decide)] at hdocument
      cases hdocument
  · exact heq

/-- A chunk of audio is within its limit, and is refused. -/
theorem silence_refused :
    (Payload.binary (silence 49090)).WithinLimit ∧
      (LiveWebSocket.accepted 0).RefusesSize plainPlatform (.binary (silence 49090)) 0 true := by
  have hlength : (silence 49090).length = 49090 := List.length_replicate
  constructor
  · rw [Payload.WithinLimit, hlength]
    decide
  · rw [refusesSize_iff rfl, prepare_of_binary (convertBinary_silence _), length_envelope, hlength]
    decide

end DreamWeaver.Worker
