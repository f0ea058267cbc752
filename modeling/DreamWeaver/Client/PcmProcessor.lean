import DreamWeaver.Foundations.Queues
import DreamWeaver.Foundations.Transitions
import DreamWeaver.Foundations.TypedArray

/-! # The playback worklet

`PCMProcessor` (`public/pcm-processor.js`) keeps the samples that the main thread posts in one array, which it
replaces by a longer one with every chunk, and fills the first channel of its first output from it. The thread of
the audio calls `process` for a block after the other, between the messages. -/

namespace DreamWeaver.Client

open Transitions

/-- What the main thread posts: `{ type: 'flush' }`, or samples. -/
inductive PcmMessage (R : Type) where
  | flush
  | chunk (newData : List R)

/-- `PCMProcessor` -/
structure PCMProcessor (R : Type) where
  buffer : List R := []

/-- What a call of `process` leaves behind: the processor, the outputs, and the volume that it has posted. -/
structure Processed (R : Type) where
  processor : PCMProcessor R
  outputs : List (List (List R))
  volume : Option R

/-- What happens to the processor. A node has one output at least. -/
inductive PcmEvent (R : Type) where
  | message (data : PcmMessage R)
  | process (output : List (List R)) (others : List (List (List R)))

namespace PCMProcessor

section Messages

variable {R : Type} [Zero R]

/-- `handleMessage`, `none` where a write reaches beyond the end of the array. -/
def handleMessage (s : PCMProcessor R) : PcmMessage R → Option (PCMProcessor R)
  | .flush => some ⟨[]⟩
  | .chunk newData => do
    let newBuffer := List.replicate (s.buffer.length + newData.length) 0
    let newBuffer ← setAt newBuffer 0 s.buffer
    let newBuffer ← setAt newBuffer s.buffer.length newData
    some ⟨newBuffer⟩

/-- A chunk is appended. -/
theorem handleMessage_chunk {s : PCMProcessor R} (newData : List R) :
    s.handleMessage (.chunk newData) = some ⟨s.buffer ++ newData⟩ := by
  have hfirst : setAt (List.replicate (s.buffer.length + newData.length) (0 : R)) 0 s.buffer =
      some (s.buffer ++ List.replicate newData.length 0) := by
    rw [setAt_zero (by simp), List.drop_replicate, Nat.add_sub_cancel_left]
  have hsecond : setAt (s.buffer ++ List.replicate newData.length 0) s.buffer.length newData =
      some (s.buffer ++ newData) := by
    rw [setAt_append s.buffer (by simp), List.drop_replicate, Nat.sub_self, List.replicate_zero, List.append_nil]
  unfold handleMessage
  dsimp only
  rw [hfirst, Option.bind_eq_bind, Option.bind_some, hsecond]
  rfl

/-- The samples that an event brings. -/
def enqueued : PcmEvent R → List R
  | .message (.chunk newData) => newData
  | _ => []

/-- **What an event does to the queue of samples**, with the block that it writes: a chunk comes in; a flush discards
what there is; and a block has samples of the queue, and zeros behind them. Without a channel nothing is written. -/
def Explains : PcmEvent R × Option (List R) → QueueMove R → Prop
  | (.message (.chunk newData), block), move => move = .enqueue newData ∧ block = none
  | (.message .flush, block), move => (∃ samples, move = .discard samples) ∧ block = none
  | (.process [] _, block), move => move = .play [] 0 ∧ block = none
  | (.process (channel :: _) _, block), move => ∃ samples silence, move = .play samples silence ∧
      block = some (samples ++ List.replicate silence 0) ∧ samples.length + silence = channel.length

end Messages

variable {R : Type} [Zero R] [Add R] [Mul R] [Div R] [NatCast R] (sqrt : R → R)

/-- `process`, which always asks to be kept alive. -/
def process (s : PCMProcessor R) (output : List (List R)) (others : List (List (List R))) : Option (Processed R) :=
  match output with
  | [] => some ⟨s, [] :: others, none⟩
  | channel :: channels =>
    if channel.length ≤ s.buffer.length then do
      let block ← setAt channel 0 (s.buffer.take channel.length)
      let sum := block.foldl (fun sum x => sum + x * x) 0
      let rms := sqrt (sum / (channel.length : R))
      some ⟨⟨s.buffer.drop channel.length⟩, (block :: channels) :: others, some rms⟩
    else
      let silent := List.replicate channel.length 0
      if 0 < s.buffer.length then do
        let block ← setAt silent 0 s.buffer
        some ⟨⟨[]⟩, (block :: channels) :: others, none⟩
      else some ⟨s, (silent :: channels) :: others, none⟩

/-- The processor after an event. -/
def step (s : PCMProcessor R) : PcmEvent R → Option (PCMProcessor R)
  | .message data => s.handleMessage data
  | .process output others => (s.process sqrt output others).map Processed.processor

/-- The block that an event writes: the first channel of the first output. -/
def written (s : PCMProcessor R) : PcmEvent R → Option (List R)
  | .message _ => none
  | .process output others => do
    let result ← s.process sqrt output others
    let output ← result.outputs.head?
    output.head?

/-- Events with the blocks that they write. -/
def timeline (s : PCMProcessor R) (events : List (PcmEvent R)) : List (PcmEvent R × Option (List R)) :=
  outputs (step sqrt) (fun s event => [(event, s.written sqrt event)]) s events

/-! ## The queue -/

variable {s : PCMProcessor R}

/-- A block is filled from the front of the queue, and with silence where the queue ends. -/
theorem process_cons (channel : List R) (channels : List (List R)) (others : List (List (List R))) :
    ∃ volume, s.process sqrt (channel :: channels) others = some ⟨⟨s.buffer.drop channel.length⟩,
      ((s.buffer.take channel.length ++ List.replicate (channel.length - s.buffer.length) 0) :: channels) :: others,
      volume⟩ := by
  unfold process
  dsimp only
  by_cases hfull : channel.length ≤ s.buffer.length
  · have hlength : (s.buffer.take channel.length).length = channel.length := by
      rw [List.length_take]
      omega
    rw [if_pos hfull, setAt_zero (by omega), hlength, List.drop_length, Nat.sub_eq_zero_of_le hfull]
    exact ⟨_, rfl⟩
  · have hdrop : s.buffer.drop channel.length = [] := List.drop_eq_nil_of_le (by omega)
    have htake : s.buffer.take channel.length = s.buffer := List.take_of_length_le (by omega)
    refine ⟨none, ?_⟩
    rw [if_neg hfull, hdrop, htake]
    split
    · rw [setAt_zero (by rw [List.length_replicate]; omega), List.drop_replicate]
      rfl
    · -- an empty queue gives silence alone
      have hempty : s.buffer = [] := List.length_eq_zero_iff.mp (by omega)
      obtain ⟨buffer⟩ := s
      obtain rfl : buffer = [] := hempty
      rfl

/-- **Every event is a move of the queue.** -/
theorem exists_move (s : PCMProcessor R) (event : PcmEvent R) : ∃ s' move, s.step sqrt event = some s' ∧
    QueueMove.Leads s.buffer move s'.buffer ∧ Explains (event, s.written sqrt event) move ∧
    move.incoming = enqueued event := by
  rcases event with (_ | newData) | ⟨_ | ⟨channel, channels⟩, others⟩
  · exact ⟨⟨[]⟩, .discard s.buffer, rfl, ⟨rfl, rfl⟩, ⟨⟨_, rfl⟩, rfl⟩, rfl⟩
  · exact ⟨_, .enqueue newData, handleMessage_chunk newData, rfl, ⟨rfl, rfl⟩, rfl⟩
  · exact ⟨s, .play [] 0, rfl, ⟨rfl, fun h => absurd h (Nat.lt_irrefl 0)⟩, ⟨rfl, rfl⟩, rfl⟩
  · obtain ⟨volume, hprocess⟩ := @process_cons R _ _ _ _ _ sqrt s channel channels others
    refine ⟨⟨s.buffer.drop channel.length⟩, .play (s.buffer.take channel.length) (channel.length - s.buffer.length),
      ?_, ⟨(List.take_append_drop _ _).symm, fun hsilence => List.drop_eq_nil_of_le (by omega)⟩,
      ⟨_, _, rfl, ?_, ?_⟩, rfl⟩
    · rw [step, hprocess]
      rfl
    · rw [written, hprocess]
      rfl
    · rw [List.length_take]
      omega

/-- **The worklet plays its queue**: in every run, the samples that came in have left the queue in their order or
are still in it; they left it in the blocks that were written, or with a flush; and a block has silence only behind
its samples, and only where the queue has run dry. -/
theorem plays_queue (events : List (PcmEvent R)) : ∃ s' moves,
    runFrom (step sqrt) {} events = some s' ∧
    List.Forall₂ Explains (timeline sqrt {} events) moves ∧
    QueueMove.Moves [] moves s'.buffer ∧
    events.flatMap enqueued = moves.flatMap QueueMove.outgoing ++ s'.buffer := by
  suffices h : ∀ s : PCMProcessor R, ∃ s' moves, runFrom (step sqrt) s events = some s' ∧
      List.Forall₂ Explains (timeline sqrt s events) moves ∧ QueueMove.Moves s.buffer moves s'.buffer ∧
      events.flatMap enqueued = moves.flatMap QueueMove.incoming by
    obtain ⟨s', moves, hrun, hexplains, hmoves, hincoming⟩ := h {}
    exact ⟨s', moves, hrun, hexplains, hmoves, hincoming.trans hmoves.conserves⟩
  intro s
  induction events generalizing s with
  | nil => exact ⟨s, [], rfl, .nil, .nil _, rfl⟩
  | cons event events ih =>
    obtain ⟨s₁, move, hstep, hleads, hexplains, hincoming⟩ := exists_move sqrt s event
    obtain ⟨s', moves, hrun, hrest, hmoves, hall⟩ := ih s₁
    refine ⟨s', move :: moves, ?_, ?_, .cons hleads hmoves, ?_⟩
    · rw [runFrom_of_step hstep, hrun]
    · rw [timeline, outputs, hstep]
      exact .cons hexplains hrest
    · rw [List.flatMap_cons, List.flatMap_cons, hincoming, hall]

end PCMProcessor

end DreamWeaver.Client
