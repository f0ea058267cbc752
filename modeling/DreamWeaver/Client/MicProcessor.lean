import DreamWeaver.Client.Wav
import DreamWeaver.Foundations.Queues

/-! # The microphone worklet

`MicProcessor` (`public/mic-processor.js`) turns the samples of the first channel of its first input into integers of
16 bits, and posts them to the main thread in arrays of 1024. It writes into one array at a time, and goes on with a
new one when an array is full. The samples are of single precision, so that their products with the scale factors are
exact. -/

namespace DreamWeaver.Client

/-- A message to the main thread: the array that was posted, and its content then. -/
structure PostedBuffer where
  buffer : ℕ
  data : List Int16

/-- `MicProcessor`, with the arrays that it has allocated and the messages that it has posted. An array is known by its
number. -/
structure MicProcessor where
  arrays : List (List Int16)
  buffer : ℕ
  offset : ℕ
  posted : List PostedBuffer

namespace MicProcessor

/-- `new Int16Array(1024)` -/
def newBuffer : List Int16 := List.replicate 1024 0

/-- The processor as it is constructed. -/
def start : MicProcessor := ⟨[newBuffer], 0, 0, []⟩

/-- `this.buffer` -/
def current (s : MicProcessor) : List Int16 := s.arrays.getD s.buffer []

/-- `this.buffer[this.offset++] = val`; what is written beyond the end of the array is lost. -/
def put (s : MicProcessor) (val : Int16) : MicProcessor :=
  { s with arrays := s.arrays.set s.buffer (s.current.set s.offset val), offset := s.offset + 1 }

/-- `Math.max(-1, Math.min(1, x))` -/
def level (x : JsNumber) : JsNumber := .noLess (-1) (.atMost 1 x)

/-- The element that is stored of a sample. -/
def element (x : JsNumber) : Int16 := Int16.ofInt (toInteger (scaledSample (level x)))

/-- The loop for one sample: a full array is posted and replaced. -/
def write (s : MicProcessor) (x : JsNumber) : MicProcessor :=
  let s := s.put (element x)
  if s.current.length ≤ s.offset then
    { arrays := s.arrays ++ [newBuffer]
      buffer := s.arrays.length
      offset := 0
      posted := s.posted ++ [⟨s.buffer, s.current⟩] }
  else s

/-- The samples of a block: the first channel of the first input, if there is one. -/
def channelOf (inputs : List (List (List JsNumber))) : Option (List JsNumber) := inputs.head?.bind List.head?

/-- `process`, which always asks to be kept alive. -/
def process (s : MicProcessor) (inputs : List (List (List JsNumber))) : MicProcessor :=
  match channelOf inputs with
  | none => s
  | some channelData => channelData.foldl write s

/-- The processor after blocks. -/
def run (blocks : List (List (List (List JsNumber)))) : MicProcessor := blocks.foldl process start

/-- The samples that blocks bring. -/
def received (blocks : List (List (List (List JsNumber)))) : List JsNumber :=
  blocks.flatMap fun inputs => (channelOf inputs).getD []

/-! ## The law -/

/-- **What has become of the samples** that were received. -/
structure MicLaw (samples : List JsNumber) (s : MicProcessor) : Prop where
  /-- What was posted are the first samples, as many as fill arrays. -/
  posted : (s.posted.flatMap PostedBuffer.data).map Int16.toInt =
    (samples.take (1024 * (samples.length / 1024))).map quantized
  /-- Every array that was posted was full. -/
  full : ∀ message ∈ s.posted, message.data.length = 1024
  /-- The others are kept for the next block. -/
  kept : s.offset = samples.length % 1024 ∧
    (s.current.take s.offset).map Int16.toInt = (samples.drop (1024 * (samples.length / 1024))).map quantized
  /-- No sample wraps around. -/
  inRange : ∀ x ∈ samples, -32768 ≤ quantized x ∧ quantized x ≤ 32767
  /-- An array has what was in it when it was posted. -/
  unmodified : ∀ message ∈ s.posted, s.arrays[message.buffer]? = some message.data

/-! ## The invariant -/

/-- The samples are in the arrays that were posted and in the current one, which is the last. -/
structure Holds (samples : List JsNumber) (s : MicProcessor) : Prop where
  blocks : InBlocks 1024 (samples.map element) (s.posted.map PostedBuffer.data) (s.current.take s.offset)
  room : s.current.length = 1024
  last : s.arrays.length = s.buffer + 1
  unmodified : ∀ message ∈ s.posted, message.buffer < s.buffer ∧ s.arrays[message.buffer]? = some message.data

variable {s : MicProcessor} {samples : List JsNumber}

theorem level_eq (x : JsNumber) : toInteger (scaledSample (level x)) = quantized x := by
  cases x with
  | finite x => rfl
  | nan => simp [level, scaledSample, toInteger, quantized, levelOf, JsNumber.atMost, JsNumber.noLess, JsNumber.trunc]
  | posInfinity => simp [level, scaledSample, toInteger, quantized, levelOf, JsNumber.atMost, JsNumber.noLess]
  | negInfinity => rfl

/-- The element of a sample is the sample, clamped, scaled and truncated. -/
theorem toInt_element (x : JsNumber) : (element x).toInt = quantized x := by
  obtain ⟨hlow, hhigh⟩ := quantized_bounds x
  rw [element, level_eq, Int16.toInt_ofInt_of_le]
  · exact hlow
  · exact Int.lt_of_le_of_lt hhigh (by decide)

@[simp] theorem posted_put (val : Int16) : (s.put val).posted = s.posted := rfl

@[simp] theorem offset_put (val : Int16) : (s.put val).offset = s.offset + 1 := rfl

@[simp] theorem buffer_put (val : Int16) : (s.put val).buffer = s.buffer := rfl

@[simp] theorem length_arrays_put (val : Int16) : (s.put val).arrays.length = s.arrays.length := List.length_set

theorem getElem?_buffer (h : s.buffer < s.arrays.length) : s.arrays[s.buffer]? = some s.current := by
  simp [current, h]

@[simp] theorem current_put (h : s.buffer < s.arrays.length) (val : Int16) :
    (s.put val).current = s.current.set s.offset val := by
  simp [put, current, h]

theorem length_newBuffer : newBuffer.length = 1024 := List.length_replicate

theorem holds_start : Holds [] start where
  blocks := InBlocks.nil (by decide)
  room := length_newBuffer
  last := rfl
  unmodified := by simp [start]

/-- **A sample** is written behind those that are kept. -/
theorem Holds.write (h : Holds samples s) (x : JsNumber) : Holds (samples ++ [x]) (s.write x) := by
  have hlast : s.buffer < s.arrays.length := by
    rw [h.last]
    exact Nat.lt_succ_self _
  have hshort := h.blocks.short
  rw [List.length_take, h.room] at hshort
  have hoffset : s.offset < s.current.length := by
    rw [h.room]
    omega
  have hput : (s.put (element x)).current.take (s.offset + 1) = s.current.take s.offset ++ [element x] := by
    rw [current_put hlast, List.take_add_one, List.take_set_of_le (Nat.le_refl _)]
    simp [hoffset]
  have hroom : (s.put (element x)).current.length = 1024 := by
    rw [current_put hlast, List.length_set, h.room]
  have harrays : ∀ message ∈ s.posted, message.buffer < s.buffer ∧
      (s.put (element x)).arrays[message.buffer]? = some message.data := by
    intro message hmem
    obtain ⟨hbefore, hcontent⟩ := h.unmodified message hmem
    refine ⟨hbefore, ?_⟩
    rw [put, List.getElem?_set_ne (by omega), hcontent]
  have hsize : (s.put (element x)).arrays.length = s.buffer + 1 := by rw [length_arrays_put, h.last]
  rw [MicProcessor.write, hroom, offset_put]
  split
  · -- the array is full: it is posted, and the next one is empty
    rename_i hfull
    have hend : s.offset + 1 = 1024 := by omega
    have hcurrent : (s.put (element x)).current = s.current.take s.offset ++ [element x] := by
      rw [← hput, List.take_of_length_le]
      omega
    refine ⟨?_, ?_, ?_, ?_⟩
    · have hblocks := h.blocks.fill (element x) (by rw [List.length_take, h.room]; omega)
      simpa [hcurrent] using hblocks
    · simp [current, length_newBuffer]
    · simp
    · intro message hmem
      dsimp only at hmem ⊢
      rw [hsize]
      rcases List.mem_append.mp hmem with hmem | hmem
      · obtain ⟨hbefore, hcontent⟩ := harrays message hmem
        refine ⟨by omega, ?_⟩
        rw [List.getElem?_append_left (by omega), hcontent]
      · rw [List.mem_singleton.mp hmem]
        refine ⟨Nat.lt_succ_self _, ?_⟩
        have hbuffer : (s.put (element x)).buffer < (s.put (element x)).arrays.length := by
          rw [hsize, buffer_put]
          exact Nat.lt_succ_self _
        rw [List.getElem?_append_left hbuffer, getElem?_buffer hbuffer]
  · rename_i hmore
    refine ⟨?_, hroom, hsize, harrays⟩
    have hblocks := h.blocks.keep (element x) (by rw [List.length_take, h.room]; omega)
    rw [List.map_append, List.map_singleton, posted_put, offset_put, hput]
    exact hblocks

theorem Holds.foldl_write (h : Holds samples s) (channelData : List JsNumber) :
    Holds (samples ++ channelData) (channelData.foldl MicProcessor.write s) := by
  induction channelData generalizing samples s with
  | nil => rwa [List.append_nil]
  | cons x xs ih =>
    rw [List.append_cons]
    exact ih (h.write x)

/-- A block is written, whatever its length. -/
theorem Holds.process (h : Holds samples s) (inputs : List (List (List JsNumber))) :
    Holds (samples ++ (channelOf inputs).getD []) (s.process inputs) := by
  unfold MicProcessor.process
  cases channelOf inputs with
  | none =>
    rw [Option.getD_none, List.append_nil]
    exact h
  | some channelData => exact h.foldl_write channelData

/-- **The invariant** holds in every run. -/
theorem holds_run (blocks : List (List (List (List JsNumber)))) : Holds (received blocks) (run blocks) := by
  induction blocks using List.reverseRecOn with
  | nil => exact holds_start
  | append_singleton blocks inputs ih =>
    rw [received, List.flatMap_append, List.flatMap_singleton, run, List.foldl_append]
    exact ih.process inputs

/-! ## What was posted stays posted -/

theorem posted_write (s : MicProcessor) (x : JsNumber) : s.posted <+: (s.write x).posted := by
  unfold write
  dsimp only
  split
  · exact List.prefix_append s.posted _
  · exact List.prefix_rfl

theorem posted_process (s : MicProcessor) (inputs : List (List (List JsNumber))) :
    s.posted <+: (s.process inputs).posted := by
  unfold process
  cases channelOf inputs with
  | none => exact List.prefix_rfl
  | some channelData =>
    show s.posted <+: (channelData.foldl write s).posted
    induction channelData generalizing s with
    | nil => exact List.prefix_rfl
    | cons x xs ih => exact (posted_write s x).trans (ih (s.write x))

/-- Later blocks leave the messages as they are. -/
theorem posted_run (blocks later : List (List (List (List JsNumber)))) :
    (run blocks).posted <+: (run (blocks ++ later)).posted := by
  induction later using List.reverseRecOn with
  | nil =>
    rw [List.append_nil]
  | append_singleton later inputs ih =>
    have hlast : run (blocks ++ (later ++ [inputs])) = (run (blocks ++ later)).process inputs := by
      rw [run, ← List.append_assoc, List.foldl_append]
      rfl
    rw [hlast]
    exact ih.trans (posted_process _ inputs)

/-- **The microphone law**: in every run, the samples that were received are in the arrays that were posted, in their
order and as many as fill them, or kept for the next block; and an array that was posted is never written again. -/
theorem microphone_law (blocks later : List (List (List (List JsNumber)))) :
    MicLaw (received blocks) (run blocks) ∧
      ∀ message ∈ (run blocks).posted, (run (blocks ++ later)).arrays[message.buffer]? = some message.data := by
  have h := holds_run blocks
  have hint : (fun x => (element x).toInt) = quantized := funext toInt_element
  refine ⟨⟨?_, ?_, ⟨?_, ?_⟩, fun x _ => quantized_bounds x, fun message hmem => (h.unmodified message hmem).2⟩, ?_⟩
  · have hflat := h.blocks.flatten_eq
    rw [← List.flatMap_def, List.length_map, ← List.map_take] at hflat
    rw [hflat, List.map_map]
    exact congrArg (List.map · _) hint
  · intro message hmem
    exact h.blocks.full _ (List.mem_map_of_mem hmem)
  · have hrest := h.blocks.length_rest
    have hshort := h.blocks.short
    rw [List.length_take, h.room] at hrest hshort
    rw [List.length_map] at hrest
    omega
  · have hrest := h.blocks.rest_eq
    rw [List.length_map, ← List.map_drop] at hrest
    rw [hrest, List.map_map]
    exact congrArg (List.map · _) hint
  · intro message hmem
    exact ((holds_run (blocks ++ later)).unmodified message ((posted_run blocks later).subset hmem)).2

end MicProcessor

end DreamWeaver.Client
