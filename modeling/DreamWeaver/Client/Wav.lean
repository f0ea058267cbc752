import DreamWeaver.Foundations.JsArithmetic
import DreamWeaver.Foundations.TypedArray

/-! # Sound files

`encodeWavFromAudioBuffer` (`src/infrastructure/audio/wav.ts`) writes the first channel of a recording as a WAV file
with samples of 16 bits: a header of 44 bytes, and the samples behind it. The samples of a channel are of single
precision, so that their products with the scale factors are exact. -/

namespace DreamWeaver.Client

open Cursor

/-- The parts of an `AudioBuffer` that are read: its sample rate, and `getChannelData(0)`. -/
structure AudioBuffer where
  sampleRate : ℚ
  channelData : List JsNumber

/-- `Blob` -/
structure Blob where
  bytes : List UInt8
  type : Text
  deriving DecidableEq

/-! ## The setters of the view -/

/-- The integer that a setter makes of a number. -/
def toInteger : JsNumber → ℤ
  | .finite x => JsNumber.trunc x
  | _ => 0

/-- `view.setUint8(offset, value)`, and the offset behind it -/
def setUint8 (value : ℤ) : Cursor → Option Cursor := put (leBytes 1 value)

/-- `view.setUint16(offset, value, true); offset += 2` -/
def setUint16 (value : ℤ) : Cursor → Option Cursor := put (leBytes 2 value)

/-- `view.setUint32(offset, value, true); offset += 4` -/
def setUint32 (value : ℤ) : Cursor → Option Cursor := put (leBytes 4 value)

/-- `view.setInt16(offset, value, true); offset += 2` -/
def setInt16 (value : ℤ) : Cursor → Option Cursor := put (leBytes 2 value)

/-- `writeString` -/
def writeString (s : Text) (view : Cursor) : Option Cursor :=
  s.foldlM (fun view unit => setUint8 unit.toNat view) view

/-! ## Samples -/

/-- `Math.max(-1, Math.min(1, x || 0))` -/
def clampedSample (x : JsNumber) : JsNumber := .noLess (-1) (.atMost 1 (.orZero (some x)))

/-- `x < 0 ? x * 0x8000 : x * 0x7fff` -/
def scaledSample : JsNumber → JsNumber
  | .finite x => .finite (if x < 0 then x * 0x8000 else x * 0x7fff)
  | x => x

/-- The loop over the samples. -/
def writeSamples (channelData : List JsNumber) (view : Cursor) : Option Cursor :=
  channelData.foldlM (fun view x => setInt16 (toInteger (scaledSample (clampedSample x))) view) view

/-! ## The file -/

/-- The header. -/
def writeHeader (numChannels blockAlign byteRate dataSize totalSize : ℤ) (sampleRate : ℚ) (view : Cursor) :
    Option Cursor := do
  let view ← writeString (lit "RIFF") view
  let view ← setUint32 (totalSize - 8) view
  let view ← writeString (lit "WAVE") view
  let view ← writeString (lit "fmt ") view
  let view ← setUint32 16 view
  let view ← setUint16 1 view
  let view ← setUint16 numChannels view
  let view ← setUint32 (toInteger (.finite sampleRate)) view
  let view ← setUint32 byteRate view
  let view ← setUint16 blockAlign view
  let view ← setUint16 16 view
  let view ← writeString (lit "data") view
  setUint32 dataSize view

/-- `encodeWavFromAudioBuffer`, `none` where a write reaches beyond the end of the buffer. -/
def encodeWavFromAudioBuffer (buffer : AudioBuffer) : Option Blob := do
  let numChannels : ℤ := 1
  let bytesPerSample := 2
  let blockAlign := numChannels * bytesPerSample
  let byteRate := toInteger (.finite (buffer.sampleRate * blockAlign))
  let dataSize := buffer.channelData.length * bytesPerSample
  let headerSize := 44
  let totalSize := headerSize + dataSize
  let view ← writeHeader numChannels blockAlign byteRate dataSize totalSize buffer.sampleRate
    ⟨List.replicate totalSize.toNat 0, 0⟩
  let view ← writeSamples buffer.channelData view
  some ⟨view.view, lit "audio/wav"⟩

/-! ## What a sound file is -/

/-- The integer of four bytes at an offset. -/
def uint32At (bytes : List UInt8) (offset : ℕ) : ℕ := leValue ((bytes.drop offset).take 4)

/-- The integer of two bytes at an offset. -/
def uint16At (bytes : List UInt8) (offset : ℕ) : ℕ := leValue ((bytes.drop offset).take 2)

/-- The characters at an offset. -/
def fourAt (bytes : List UInt8) (offset : ℕ) : List ℕ := ((bytes.drop offset).take 4).map UInt8.toNat

/-- The codes of a text. -/
def codesOf (s : Text) : List ℕ := s.map UInt16.toNat

/-- A sound file with one channel of 16 bits, of a rate and with samples. -/
structure IsWav (sampleRate : ℕ) (samples : List ℤ) (bytes : List UInt8) : Prop where
  length : bytes.length = 44 + 2 * samples.length
  riff : fourAt bytes 0 = codesOf (lit "RIFF")
  riffSize : uint32At bytes 4 + 8 = bytes.length
  wave : fourAt bytes 8 = codesOf (lit "WAVE")
  format : fourAt bytes 12 = codesOf (lit "fmt ")
  formatSize : uint32At bytes 16 = 16
  pcm : uint16At bytes 20 = 1
  channels : uint16At bytes 22 = 1
  rate : uint32At bytes 24 = sampleRate
  byteRate : uint32At bytes 28 = 2 * sampleRate
  blockAlign : uint16At bytes 32 = 2
  bitsPerSample : uint16At bytes 34 = 16
  data : fourAt bytes 36 = codesOf (lit "data")
  dataSize : uint32At bytes 40 = 2 * samples.length
  samples : int16s (bytes.drop 44) = samples

/-- A sample between -1 and 1; what is no number is silence. -/
def levelOf : JsNumber → ℚ
  | .finite x => max (-1) (min 1 x)
  | .nan => 0
  | .posInfinity => 1
  | .negInfinity => -1

/-- A sample as an integer of 16 bits, the nearer to zero. -/
def quantized (x : JsNumber) : ℤ :=
  JsNumber.trunc (if levelOf x < 0 then levelOf x * 32768 else levelOf x * 32767)

/-! ## What is written -/

variable {x : JsNumber}

theorem levelOf_bounds (x : JsNumber) : -1 ≤ levelOf x ∧ levelOf x ≤ 1 := by
  cases x with
  | finite x => exact ⟨le_max_left _ _, max_le (by norm_num) (min_le_left _ _)⟩
  | nan => norm_num [levelOf]
  | posInfinity => norm_num [levelOf]
  | negInfinity => norm_num [levelOf]

theorem clampedSample_eq (x : JsNumber) : clampedSample x = .finite (levelOf x) := by
  cases x with
  | finite x => rfl
  | nan => simp [clampedSample, JsNumber.orZero, JsNumber.atMost, JsNumber.noLess, levelOf]
  | posInfinity => simp [clampedSample, JsNumber.orZero, JsNumber.atMost, JsNumber.noLess, levelOf]
  | negInfinity => rfl

/-- What is written of a sample. -/
theorem toInteger_sample (x : JsNumber) : toInteger (scaledSample (clampedSample x)) = quantized x := by
  rw [clampedSample_eq]
  rfl

/-- **No sample wraps around.** -/
theorem quantized_bounds (x : JsNumber) : -32768 ≤ quantized x ∧ quantized x ≤ 32767 := by
  obtain ⟨hlow, hhigh⟩ := levelOf_bounds x
  unfold quantized JsNumber.trunc
  by_cases hneg : levelOf x < 0
  · rw [if_pos hneg]
    have hscaled : -32768 ≤ levelOf x * 32768 := by linarith
    have hbelow : levelOf x * 32768 < 0 := by linarith
    rw [if_neg (not_le.mpr hbelow)]
    constructor
    · exact_mod_cast (Int.cast_le (R := ℚ)).mp ((by exact_mod_cast hscaled : _ ≤ _).trans (Int.le_ceil _))
    · exact (Int.ceil_le.mpr (by exact_mod_cast hbelow.le)).trans (by norm_num)
  · rw [if_neg hneg]
    have hpos : 0 ≤ levelOf x * 32767 := by linarith
    rw [if_pos hpos]
    constructor
    · exact le_trans (by norm_num) (Int.floor_nonneg.mpr hpos)
    · exact Int.floor_le_iff.mpr (by push_cast; linarith)

/-! ## The file that is written -/

theorem writes_writeString (s : Text) : Writes (writeString s) (s.flatMap fun unit => leBytes 1 unit.toNat) := by
  refine writes_foldlM (fun unit => ?_) s
  exact writes_put _

/-- The bytes of the header. -/
def headerBytes (numChannels blockAlign byteRate dataSize totalSize : ℤ) (sampleRate : ℚ) : List UInt8 :=
  let text := fun s : Text => s.flatMap fun unit => leBytes 1 unit.toNat
  text (lit "RIFF") ++ (leBytes 4 (totalSize - 8) ++ (text (lit "WAVE") ++ (text (lit "fmt ") ++ (leBytes 4 16 ++
    (leBytes 2 1 ++ (leBytes 2 numChannels ++ (leBytes 4 (toInteger (.finite sampleRate)) ++ (leBytes 4 byteRate ++
      (leBytes 2 blockAlign ++ (leBytes 2 16 ++ (text (lit "data") ++ leBytes 4 dataSize)))))))))))

theorem writes_writeHeader (numChannels blockAlign byteRate dataSize totalSize : ℤ) (sampleRate : ℚ) :
    Writes (writeHeader numChannels blockAlign byteRate dataSize totalSize sampleRate)
      (headerBytes numChannels blockAlign byteRate dataSize totalSize sampleRate) :=
  (writes_writeString _).bind <| (writes_put _).bind <| (writes_writeString _).bind <| (writes_writeString _).bind <|
    (writes_put _).bind <| (writes_put _).bind <| (writes_put _).bind <| (writes_put _).bind <|
      (writes_put _).bind <| (writes_put _).bind <| (writes_put _).bind <| (writes_writeString _).bind <|
        writes_put _

theorem writes_writeSamples (channelData : List JsNumber) :
    Writes (writeSamples channelData) ((channelData.map quantized).flatMap (leBytes 2)) := by
  have hloop : Writes (writeSamples channelData) (channelData.flatMap fun x => leBytes 2 (quantized x)) := by
    refine writes_foldlM (fun x => ?_) channelData
    rw [toInteger_sample]
    exact writes_put _
  rwa [List.flatMap_map]

/-- The bytes of the samples. -/
theorem length_flatMap_leBytes (vs : List ℤ) : (vs.flatMap (leBytes 2)).length = 2 * vs.length := by
  induction vs with
  | nil => rfl
  | cons v vs ih =>
    rw [List.flatMap_cons, List.length_append, ih, length_leBytes, List.length_cons]
    omega

/-- A field of the header that holds its value. -/
theorem leValue_of_lt {n m : ℕ} (h : m < 256 ^ n) : leValue (leBytes n m) = m := by
  have hvalue := leValue_leBytes_of_lt (n := n) (v := m) (by positivity) (by exact_mod_cast h)
  exact_mod_cast hvalue

theorem toInteger_natCast (n : ℕ) : toInteger (.finite n) = n := by
  show JsNumber.trunc n = n
  rw [JsNumber.trunc, if_pos n.cast_nonneg, Int.floor_natCast]

/-- The encoder writes the header and the samples, and fills its buffer. -/
theorem encode_eq (rate : ℚ) (channelData : List JsNumber) : encodeWavFromAudioBuffer ⟨rate, channelData⟩ =
    some ⟨headerBytes 1 2 (toInteger (.finite (rate * 2))) (channelData.length * 2) (44 + channelData.length * 2) rate ++
      (channelData.map quantized).flatMap (leBytes 2), lit "audio/wav"⟩ := by
  have hsize : (44 + (channelData.length : ℤ) * 2).toNat =
      (headerBytes 1 2 (toInteger (.finite (rate * 2))) (channelData.length * 2) (44 + channelData.length * 2) rate ++
        (channelData.map quantized).flatMap (leBytes 2)).length := by
    rw [List.length_append, length_flatMap_leBytes, List.length_map]
    show _ = 44 + _
    omega
  have hview := ((writes_writeHeader 1 2 (toInteger (.finite (rate * 2))) (channelData.length * 2)
    (44 + channelData.length * 2) rate).bind (writes_writeSamples channelData)).view
  rw [← hsize] at hview
  obtain ⟨cursor, hcursor, hbytes⟩ := Option.map_eq_some_iff.mp hview
  have hblock : (((1 : ℤ) * 2 : ℤ) : ℚ) = 2 := by norm_num
  unfold encodeWavFromAudioBuffer
  dsimp only at hcursor ⊢
  rw [hblock, one_mul, ← hbytes]
  show (writeHeader _ _ _ _ _ _ _).bind (fun view => (writeSamples channelData view).bind _) = _
  rw [← Option.bind_assoc]
  exact congrArg (Option.bind · fun view => some (⟨view.view, lit "audio/wav"⟩ : Blob)) hcursor

/-- **What is encoded is a sound file of the samples**: every number of the header is exact, and no sample wraps
around. -/
theorem encodeWav_isWav {channelData : List JsNumber} {rate : ℕ} (hrate : 2 * rate < 2 ^ 32)
    (hlength : 2 * channelData.length + 45 ≤ 2 ^ 32) :
    ∃ blob, encodeWavFromAudioBuffer ⟨rate, channelData⟩ = some blob ∧
      IsWav rate (channelData.map quantized) blob.bytes ∧
      ∀ x ∈ channelData, -32768 ≤ quantized x ∧ quantized x ≤ 32767 := by
  refine ⟨_, encode_eq _ _, ?_, fun x _ => quantized_bounds x⟩
  have hdouble : toInteger (.finite ((rate : ℚ) * 2)) = ((2 * rate : ℕ) : ℤ) := by
    rw [← toInteger_natCast]
    push_cast
    rw [mul_comm]
  have hdata : (channelData.length : ℤ) * 2 = ((2 * channelData.length : ℕ) : ℤ) := by
    push_cast
    ring
  have htotal : 44 + (channelData.length : ℤ) * 2 - 8 = ((36 + 2 * channelData.length : ℕ) : ℤ) := by
    push_cast
    ring
  have hsize : (headerBytes 1 2 (toInteger (.finite ((rate : ℚ) * 2))) (channelData.length * 2)
      (44 + channelData.length * 2) rate ++ (channelData.map quantized).flatMap (leBytes 2)).length =
      44 + 2 * channelData.length := by
    rw [List.length_append, length_flatMap_leBytes, List.length_map]
    rfl
  exact {
    length := by rw [List.length_map]; exact hsize
    riff := by rfl
    riffSize := by
      rw [hsize]
      show leValue (leBytes 4 (44 + (channelData.length : ℤ) * 2 - 8)) + 8 = _
      rw [htotal, leValue_of_lt (by omega)]
      omega
    wave := by rfl
    format := by rfl
    formatSize := by rfl
    pcm := by rfl
    channels := by rfl
    rate := by
      show leValue (leBytes 4 (toInteger (.finite (rate : ℚ)))) = _
      rw [toInteger_natCast, leValue_of_lt (by omega)]
    byteRate := by
      show leValue (leBytes 4 (toInteger (.finite ((rate : ℚ) * 2)))) = _
      rw [hdouble, leValue_of_lt (by omega)]
    blockAlign := by rfl
    bitsPerSample := by rfl
    data := by rfl
    dataSize := by
      show leValue (leBytes 4 ((channelData.length : ℤ) * 2)) = _
      rw [hdata, leValue_of_lt (by omega), List.length_map]
    samples := by
      show int16s ((channelData.map quantized).flatMap (leBytes 2)) = _
      refine int16s_flatMap fun v hv => ?_
      obtain ⟨x, -, rfl⟩ := List.mem_map.mp hv
      exact quantized_bounds x }

/-- Half of the range, something that is no number, and the lowest sample. -/
theorem encodeWav_isWav_three : ∃ blob,
    encodeWavFromAudioBuffer ⟨(8000 : ℕ), [.finite (1 / 2), .nan, .finite (-1)]⟩ = some blob ∧
      IsWav 8000 ([.finite (1 / 2), .nan, .finite (-1)].map quantized) blob.bytes ∧
      ∀ x ∈ [JsNumber.finite (1 / 2), .nan, .finite (-1)], -32768 ≤ quantized x ∧ quantized x ≤ 32767 :=
  encodeWav_isWav (by norm_num) (by decide)

end DreamWeaver.Client
