import DuckdbLerobot.Copy.Features
import DuckdbLerobot.Library.Bytes
import DuckdbLerobot.Storage.TimestampIndex

/-!
# Depth images as TIFF

COPY writes a depth image as a TIFF with one directory and one strip (`encodeDepthTiff`), after it has
checked the size of the raw frame (`writeImage`). `lerobot_decode_image` reads such a TIFF itself
(`decodeDepthTiff`), and leaves all other images to FFmpeg, which is a parameter.
-/

set_option autoImplicit false

namespace DuckdbLerobot.Image

open DuckdbLerobot.Library DuckdbLerobot.Storage DuckdbLerobot.Copy

/-- The bytes of a string. -/
abbrev Bytes := List UInt8

/-- `LerobotRawVisualType`. -/
inductive LerobotRawVisualType
  | rgb24
  | depthUint16
  | depthFloat32
  deriving DecidableEq

/-- `NumericLimits<uint32_t>::Maximum()`. -/
def uint32Maximum : Nat := 2 ^ 32 - 1

/-- `if (condition) throw InvalidInputException(message)`. -/
def reject (condition : Prop) [Decidable condition] (message : String) :
    Except InvalidInputException Unit :=
  if condition then .error ⟨message⟩ else .ok ()

theorem reject_eq_ok {condition : Prop} [Decidable condition] {message : String} {u : Unit} :
    reject condition message = .ok u ↔ ¬condition := by
  rw [reject, except_check_eq_ok]
  exact and_iff_left rfl

/-! ## The writer -/

/-- `AppendUInt16`. -/
def appendUInt16 (result : Bytes) (value : Nat) : Bytes :=
  result ++ [UInt8.ofNat (value &&& 0xff), UInt8.ofNat ((value >>> 8) &&& 0xff)]

/-- `AppendUInt32`. -/
def appendUInt32 (result : Bytes) (value : Nat) : Bytes :=
  (List.range 4).foldl (fun result byte =>
    result ++ [UInt8.ofNat ((value >>> (byte * 8)) &&& 0xff)]) result

/-- An entry of a TIFF directory with one value. -/
structure TiffEntry where
  tag : Nat
  type : Nat
  value : Nat

/-- `AppendTiffEntry`. Every entry of the source has the count 1. -/
def appendTiffEntry (result : Bytes) (entry : TiffEntry) : Bytes :=
  appendUInt32 (appendUInt32 (appendUInt16 (appendUInt16 result entry.tag) entry.type) 1) entry.value

/-- `PIXEL_OFFSET`: where the pixels start. -/
def pixelOffset : Nat := 8 + 2 + 11 * 12 + 4

/-- `bytes_per_sample` of a depth frame. -/
def bytesPerSample (rawType : LerobotRawVisualType) : Nat :=
  if rawType = .depthUint16 then 2 else 4

/-- The directory of a depth image. -/
def tiffEntries (width height : Nat) (rawType : LerobotRawVisualType) : List TiffEntry :=
  [⟨256, 4, width⟩, ⟨257, 4, height⟩, ⟨258, 3, bytesPerSample rawType * 8⟩, ⟨259, 3, 1⟩,
    ⟨262, 3, 1⟩, ⟨273, 4, pixelOffset⟩, ⟨277, 3, 1⟩, ⟨278, 4, height⟩,
    ⟨279, 4, width * height * bytesPerSample rawType⟩, ⟨284, 3, 1⟩,
    ⟨339, 3, if rawType = .depthUint16 then 1 else 3⟩]

/-- The bytes before the directory: the byte order, the version, the place of the directory, and the
number of its entries. -/
def tiffHeader : Bytes :=
  appendUInt16 (appendUInt32 (appendUInt16 [0x49, 0x49] 42) 8) 11

/-- `EncodeDepthTiff`. -/
def encodeDepthTiff (rawFrame : Bytes) (width height : Nat) (rawType : LerobotRawVisualType) :
    Except InvalidInputException Bytes := do
  let byteCount := width * height * bytesPerSample rawType
  reject (uint32Maximum < width ∨ uint32Maximum < height ∨ uint32Maximum < byteCount)
    "LeRobot depth image is too large for TIFF"
  let result := (tiffEntries width height rawType).foldl appendTiffEntry tiffHeader
  .ok (appendUInt32 result 0 ++ rawFrame)

/-- `LEROBOT_DEFAULT_MAX_VISUAL_FRAME_BYTES`. -/
def defaultMaxVisualFrameBytes : Nat := 64 * 1024 * 1024

/-- The bytes of a pixel. -/
def bytesPerPixel : LerobotRawVisualType → Nat
  | .rgb24 => 3
  | .depthUint16 => 2
  | .depthFloat32 => 4

/-- `ExpectedFrameBytes`. -/
def expectedFrameBytes (width height : Nat) (rawType : LerobotRawVisualType) :
    Except InvalidInputException Nat := do
  reject (width = 0 ∨ height = 0 ∨ idxMaximum / height < width)
    "LeRobot visual dimensions are empty or too large"
  reject (idxMaximum / bytesPerPixel rawType < width * height)
    "LeRobot visual frame byte size is too large"
  .ok (width * height * bytesPerPixel rawType)

/-- The sizes of the frames that are accepted. -/
theorem expectedFrameBytes_eq_ok {width height size : Nat} {rawType : LerobotRawVisualType} :
    expectedFrameBytes width height rawType = .ok size ↔
      0 < width ∧ 0 < height ∧
      (width ≤ idxMaximum / height ∧ width * height ≤ idxMaximum / bytesPerPixel rawType) ∧
      size = width * height * bytesPerPixel rawType := by
  simp only [expectedFrameBytes, except_bind_eq_ok, reject_eq_ok, not_or, not_lt, Nat.pos_iff_ne_zero]
  constructor
  · rintro ⟨_, ⟨hwidth, hheight, hpixels⟩, _, hbytes, hok⟩
    cases hok
    exact ⟨hwidth, hheight, ⟨hpixels, hbytes⟩, rfl⟩
  · rintro ⟨hwidth, hheight, ⟨hpixels, hbytes⟩, rfl⟩
    exact ⟨(), ⟨hwidth, hheight, hpixels⟩, (), hbytes, rfl⟩

/-- `feature.shape[1]`. -/
def frameWidth (feature : LerobotFeature) : Nat := feature.shape.getD 1 0

/-- `feature.shape[0]`. -/
def frameHeight (feature : LerobotFeature) : Nat := feature.shape.getD 0 0

/-- `InferRawVisualType`. -/
def inferRawVisualType (feature : LerobotFeature) (frameSize : Nat) :
    Except InvalidInputException LerobotRawVisualType := do
  let width := frameWidth feature
  let height := frameHeight feature
  if !feature.isDepth then do
    let expected ← expectedFrameBytes width height .rgb24
    reject (frameSize ≠ expected) <|
      s!"LeRobot RGB feature '{String.ofList feature.name}' frame has {frameSize} bytes; expected " ++
        s!"HWC uint8 RGB24 ({expected})"
    .ok .rgb24
  else do
    let uint16Size ← expectedFrameBytes width height .depthUint16
    let float32Size ← expectedFrameBytes width height .depthFloat32
    if frameSize = uint16Size then .ok .depthUint16
    else if frameSize = float32Size then .ok .depthFloat32
    else .error ⟨s!"LeRobot depth feature '{String.ofList feature.name}' frame has {frameSize} " ++
      s!"bytes; expected HWC uint16 ({uint16Size}) or float32 ({float32Size})"⟩

/-- `ResolveRawVisualType`: the type of a feature is the one of its first frame. -/
def resolveRawVisualType (feature : LerobotFeature) (known : Option LerobotRawVisualType)
    (frameSize : Nat) : Except InvalidInputException LerobotRawVisualType := do
  let inferred ← inferRawVisualType feature frameSize
  reject (known.any (· ≠ inferred)) <|
    s!"LeRobot visual feature '{String.ofList feature.name}' changes raw dtype within the dataset"
  .ok inferred

/-- `LerobotImageWriter::Encode`, with the PNG encoder of FFmpeg as a parameter. -/
def encodeImage (encodePng : Bytes → Nat → Nat → Except InvalidInputException Bytes)
    (width height : Nat) (rawType : LerobotRawVisualType) (rawFrame : Bytes) :
    Except InvalidInputException Bytes := do
  let expectedSize ← expectedFrameBytes width height rawType
  reject (rawFrame.length ≠ expectedSize)
    s!"LeRobot visual frame has {rawFrame.length} bytes; expected {expectedSize}"
  if rawType = .rgb24 then encodePng rawFrame width height
  else encodeDepthTiff rawFrame width height rawType

/-- What `AppendRun` does with a frame of an image feature: the type of the frame and its image. -/
def writeImage (encodePng : Bytes → Nat → Nat → Except InvalidInputException Bytes)
    (maxVisualFrameBytes : Nat) (feature : LerobotFeature) (known : Option LerobotRawVisualType)
    (rawFrame : Bytes) : Except InvalidInputException (LerobotRawVisualType × Bytes) := do
  reject (maxVisualFrameBytes < rawFrame.length) <|
    s!"LeRobot visual feature '{String.ofList feature.name}' frame has {rawFrame.length} bytes, " ++
      s!"exceeding MAX_VISUAL_FRAME_BYTES={maxVisualFrameBytes}"
  let rawType ← resolveRawVisualType feature known rawFrame.length
  let encoded ← encodeImage encodePng (frameWidth feature) (frameHeight feature) rawType rawFrame
  .ok (rawType, encoded)

/-! ## The reader -/

/-- `MAX_IMAGE_BYTES`. -/
def maxImageBytes : Nat := 64 * 1024 * 1024

/-- `ImageValue`: the result of `lerobot_decode_image`. -/
structure ImageValue where
  image : Bytes
  width : Nat
  height : Nat
  channels : Nat
  dtype : String
  deriving DecidableEq

/-- The values of the tags that have been read. -/
abbrev TiffFields := List (Nat × List Nat)

section Reader

variable (data : Bytes) (little : Bool)

/-- `read`: the number in some bytes at a place. -/
def readTiff (offset bytes : Nat) : Except InvalidInputException Nat := do
  reject (data.length < offset ∨ data.length - offset < bytes) "Truncated LeRobot TIFF image"
  .ok (joinBytes little bytes fun i => data.getD (offset + i) 0)

/-- The tags that the reader needs. -/
def knownTags : List Nat := [256, 257, 258, 259, 262, 273, 274, 277, 278, 279, 284, 338, 339]

/-- The bytes of a value: a `SHORT` has two and a `LONG` has four. -/
def elementSize (type : Nat) : Nat := if type = 3 then 2 else if type = 4 then 4 else 0

/-- `max_elements`. -/
def maxElements (tag : Nat) : Nat :=
  if tag = 273 ∨ tag = 279 then data.length / 4
  else if tag = 258 ∨ tag = 338 ∨ tag = 339 then 4 else 1

/-- Where the values of an entry are: in the entry, or at a place that the entry gives. -/
def valuesOffset (entry bytes : Nat) : Except InvalidInputException Nat :=
  if bytes ≤ 4 then .ok (entry + 8) else readTiff data little (entry + 8) 4

/-- The values of an entry with a tag that is needed. -/
def readFieldValues (fields : TiffFields) (entry tag : Nat) :
    Except InvalidInputException (List Nat) := do
  let type ← readTiff data little (entry + 2) 2
  let elements ← readTiff data little (entry + 4) 4
  let size := elementSize type
  reject (size = 0 ∨ elements = 0 ∨ maxElements data tag < elements ∨
    data.length / size < elements ∨ (fields.lookup tag).isSome) "Invalid LeRobot TIFF field"
  let offset ← valuesOffset data little entry (elements * size)
  reject (data.length < offset ∨ data.length - offset < elements * size)
    "Truncated LeRobot TIFF field"
  (List.range elements).mapM fun j => readTiff data little (offset + j * size) size

/-- One round of the loop over the directory: the fields, and the entries that FFmpeg is given. -/
def readTiffEntry (directory : Nat) (state : TiffFields × List Nat) (i : Nat) :
    Except InvalidInputException (TiffFields × List Nat) := do
  let entry := directory + 2 + i * 12
  let tag ← readTiff data little entry 2
  let decoderEntries := if tag ≠ 338 ∧ tag ≠ 339 then state.2 ++ [entry] else state.2
  if tag ∉ knownTags then .ok (state.1, decoderEntries)
  else (readFieldValues data little state.1 entry tag).map fun values =>
    (state.1 ++ [(tag, values)], decoderEntries)

/-- `scalar`. -/
def TiffFields.scalar (fields : TiffFields) (tag fallback : Nat) : Nat :=
  match fields.lookup tag with
  | none => fallback
  | some [value] => value
  | some _ => 0

/-- `uniform`. -/
def TiffFields.uniform (fields : TiffFields) (samples tag fallback : Nat) :
    Except InvalidInputException Nat :=
  match fields.lookup tag with
  | none => .ok fallback
  | some values => do
      reject (values.length ≠ 1 ∧ values.length ≠ samples)
        "Invalid LeRobot TIFF per-channel field count"
      reject (values.any (· ≠ values.headD 0))
        "LeRobot TIFF requires uniform sample widths and formats"
      .ok (values.headD 0)

/-- The pixels of a strip, with the bytes of a sample in the order of a little-endian machine. -/
def stripPixels (offset samples bytes : Nat) : Bytes :=
  (List.range samples).flatMap fun sample => (List.range bytes).map fun b =>
    data.getD (offset + sample * bytes + if little then b else bytes - b - 1) 0

/-- The loop over the strips. Each is written after the one before, and together they fill the image. -/
def readStrips (offsets counts : List Nat) (rowsPerStrip width height bytes : Nat) :
    Except InvalidInputException Bytes :=
  (List.range offsets.length).foldlM (fun pixels i => do
    let rows := min rowsPerStrip (height - i * rowsPerStrip)
    let length := rows * width * bytes
    let offset := offsets.getD i 0
    reject (counts.getD i 0 ≠ length ∨ data.length < offset ∨ data.length - offset < length)
      "Truncated or inconsistent LeRobot TIFF strip"
    .ok (pixels ++ stripPixels data little offset (rows * width) bytes)) []

/-- The image of a TIFF whose samples are depths, without compression. -/
def readDepthImage (fields : TiffFields) (bits format : Nat) :
    Except InvalidInputException ImageValue := do
  let offsets := (fields.lookup 273).getD []
  let counts := (fields.lookup 279).getD []
  reject (fields.scalar 262 1 ≠ 1 ∨ fields.scalar 274 1 ≠ 1 ∨ fields.scalar 284 1 ≠ 1)
    "Unsupported LeRobot depth TIFF photometric, orientation or planar layout"
  let width := fields.scalar 256 0
  let height := fields.scalar 257 0
  let bytes := bits / 8
  reject (width = 0 ∨ height = 0 ∨ maxImageBytes / bytes < width ∨
      maxImageBytes / (width * bytes) < height)
    "LeRobot decoded image exceeds the 64 MiB per-image limit or has zero dimensions"
  let rowsPerStrip := fields.scalar 278 height
  reject (rowsPerStrip = 0 ∨ offsets.length ≠ (height - 1) / rowsPerStrip + 1 ∨
    counts.length ≠ offsets.length) "Invalid LeRobot TIFF strip layout"
  let pixels ← readStrips data little offsets counts rowsPerStrip width height bytes
  .ok ⟨pixels, width, height, 1, if format = 3 then "float32" else "uint16"⟩

/-- The checks of the fields, for every TIFF. The result is false for one that FFmpeg is to decode. -/
def checkTiffFields (fields : TiffFields) (samples bits format : Nat) :
    Except InvalidInputException Bool := do
  reject (samples = 0 ∨ 4 < samples ∨ bits = 0 ∨
      (if format = 1 then 16 < bits else ¬(format = 3 ∧ bits = 32 ∧ samples = 1)))
    "Unsupported LeRobot TIFF sample width or format"
  reject ((fields.lookup 338).any fun extra =>
      samples ≠ 4 ∨ fields.scalar 262 1 ≠ 2 ∨ extra ≠ [2])
    "LeRobot TIFF supports only unassociated RGBA extra samples"
  let offsets := (fields.lookup 273).getD []
  let counts := (fields.lookup 279).getD []
  reject (offsets.length ≠ counts.length) "Invalid LeRobot TIFF strip layout"
  reject ((offsets.zip counts).any fun strip =>
      data.length < strip.1 ∨ data.length - strip.1 < strip.2)
    "Truncated LeRobot TIFF strip"
  if samples ≠ 1 ∨ ¬(bits = 16 ∧ format = 1 ∨ bits = 32 ∧ format = 3) then .ok false
  else if fields.scalar 259 1 ≠ 1 then do
    reject (format = 3) "LeRobot float32 TIFF requires uncompressed strips"
    .ok false
  else .ok true

end Reader

/-- `DecodeDepthTiff`: the image, or the entries of the directory that FFmpeg is given. -/
def decodeDepthTiff (data : Bytes) : Except InvalidInputException (Option ImageValue × List Nat) := do
  let little := data.getD 0 0 == 0x49
  let directory ← readTiff data little 4 4
  let count ← readTiff data little directory 2
  reject (data.length < directory ∨ (data.length - directory - 2) / 12 < count)
    "Truncated LeRobot TIFF directory"
  let (fields, decoderEntries) ←
    (List.range count).foldlM (readTiffEntry data little directory) ([], [])
  let samples := fields.scalar 277 1
  let bits ← fields.uniform samples 258 1
  let format ← fields.uniform samples 339 1
  let isDepth ← checkTiffFields data fields samples bits format
  if isDepth then do
    let image ← readDepthImage data little fields bits format
    .ok (some image, decoderEntries)
  else .ok (none, decoderEntries)

/-- The images that FFmpeg decodes. -/
inductive ImageCodec
  | png
  | tiff (decoderEntries : List Nat)

/-- `DecodeImage`. -/
def decodeImage (ffmpeg : ImageCodec → Bytes → Except InvalidInputException ImageValue)
    (data : Bytes) : Except InvalidInputException ImageValue := do
  reject (maxImageBytes < data.length) "LeRobot encoded image exceeds the 64 MiB per-image limit"
  if data.take 8 = [0x89, 0x50, 0x4e, 0x47, 0x0d, 0x0a, 0x1a, 0x0a] then ffmpeg .png data
  else if data.take 4 = [0x49, 0x49, 0x2a, 0x00] ∨ data.take 4 = [0x4d, 0x4d, 0x00, 0x2a] then do
    let (image, decoderEntries) ← decodeDepthTiff data
    match image with
    | some image => .ok image
    | none => ffmpeg (.tiff decoderEntries) data
  else .error ⟨"lerobot_decode_image requires a PNG or TIFF BLOB"⟩

end DuckdbLerobot.Image
