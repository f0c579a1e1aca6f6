import DuckdbLerobot.Library.Containers
import DuckdbLerobot.Library.Fallible
import DuckdbLerobot.Library.Rounding
import DuckdbLerobot.Path.RelativePath
import Mathlib.Data.List.Sort

/-!
# The reader of the Python package

`TorchCodecReader` decodes the targets that DuckDB has resolved, a batch of rows at a time. Within a batch the targets
are grouped by file, and each group is decoded with one call for its distinct frame indexes in increasing order. The
decoders stay open in a cache that drops the least recently used one.

TorchCodec, the file system and `read_blob` are parameters (`Environment`). An exception carries the cache, since the
reader can be used after it.
-/

set_option autoImplicit false

namespace DuckdbLerobot.Reader

open DuckdbLerobot.Library DuckdbLerobot.Path

/-! ## The environment -/

/-- The exceptions of Python. -/
inductive PythonError
  | valueError (message : String)
  | runtimeError (message : String)
  | overflowError (message : String)
  | keyError
  | indexError
  /-- The `ValueError` about a frame at another time: its path, its request and both times. -/
  | timestampMismatch (path : Text) (requestId : Int) (expected decoded : Double)
  /-- What a library raises. -/
  | library (message : String)
  deriving DecidableEq

/-- What a decoder is opened from: a file, or the bytes of a blob. -/
inductive VideoSource
  | file (path : Text)
  | payload (content : List UInt8)
  deriving DecidableEq

/-- The result of `get_frames_at`. -/
structure FrameBatch (Image : Type) where
  data : List Image
  ptsSeconds : List Double

/-- What the reader calls. -/
structure Environment (Decoder Image : Type) where
  /-- `SELECT size FROM read_blob(?)`, `none` without a row or for a NULL. -/
  blobSize : Text → Except PythonError (Option Int)
  /-- `SELECT content FROM read_blob(?)`. -/
  blobContent : Text → Except PythonError (Option (List UInt8))
  /-- `Path(path).resolve(strict=True)`. -/
  resolve : Text → Except PythonError Text
  /-- `is_relative_to(self.dataset)`. -/
  isRelativeToDataset : Text → Bool
  /-- Whether `from torchcodec.decoders import VideoDecoder` succeeds. -/
  torchcodecLoads : Bool
  videoDecoder : VideoSource → Except PythonError Decoder
  averageFps : Decoder → Option Double
  beginStreamSeconds : Decoder → Option Double
  getFramesAt : Decoder → List Int → Except PythonError (FrameBatch Image)

/-- `TorchCodecReader`: the arguments that its constructor has checked. -/
structure TorchCodecReader where
  batchSize : Nat := 32
  maxCachedDecoders : Nat := 4
  maxVideoBytes : Nat := 64 * 1024 * 1024
  tolerance : Double
  batchSize_pos : 0 < batchSize
  maxCachedDecoders_pos : 0 < maxCachedDecoders

/-- The fields of `VideoTarget` that the reader reads. -/
structure VideoTarget where
  requestId : Int
  videoPath : Text
  videoTimestamp : Double
  channels : Int
  targetId : Nat
  deriving DecidableEq

/-- `DecodedBatch`. -/
structure DecodedBatch (Image : Type) where
  targets : List VideoTarget
  images : List (Option Image)
  decodedTimestamps : List Double

/-- `_decoders`, the least recently used one first. -/
abbrev Decoders (Decoder : Type) := List (Text × Decoder)

section Reader

variable {Decoder Image : Type} (reader : TorchCodecReader) (env : Environment Decoder Image)

/-! ## The cache of decoders -/

/-- An exception leaves the decoders as they are. -/
def raising {α : Type} (decoders : Decoders Decoder) (x : Except PythonError α) :
    Except (PythonError × Decoders Decoder) α := x.mapError fun error => (error, decoders)

/-- `raise` behind a condition. -/
def raiseIf (condition : Prop) [Decidable condition] (error : PythonError) : Except PythonError Unit :=
  if condition then .error error else .ok ()

/-- The value of a row that must have one. -/
def required {α : Type} (error : PythonError) : Option α → Except PythonError α
  | none => .error error
  | some value => .ok value

/-- The first part of `_decoder`, for a blob: its bytes are read again each time. -/
def blobPayload (path : Text) : Except PythonError (List UInt8) := do
  let found ← env.blobSize path
  let size ← required (.valueError "Lance video blob must have a positive size") found
  raiseIf (size ≤ 0) (.valueError "Lance video blob must have a positive size")
  raiseIf ((reader.maxVideoBytes : Int) < size) <| .valueError
    (s!"Lance video blob size {size} exceeds max_video_bytes ({reader.maxVideoBytes}); " ++
      "increase the limit or use SQL decoding")
  let content ← env.blobContent path
  let payload ← required (.valueError "Lance video blob size changed while reading") content
  raiseIf ((payload.length : Int) ≠ size) (.valueError "Lance video blob size changed while reading")
  .ok payload

/-- The first part of `_decoder`, for a file: its path without links. -/
def resolvedFile (path : Text) : Except PythonError Text := do
  raiseIf ("://".toList <:+: path) (.valueError "Video paths must be local files or lance-blob:// URIs")
  let resolved ← env.resolve path
  raiseIf (env.isRelativeToDataset resolved = false)
    (.valueError "Video files must be inside the local dataset directory")
  .ok resolved

/-- The key of a path in the cache, and what its decoder is opened from. -/
def decoderKey (path : Text) : Except PythonError (Text × VideoSource) :=
  if "lance-blob://".toList <+: path then (blobPayload reader env path).map fun payload => (path, .payload payload)
  else (resolvedFile env path).map fun resolved => (resolved, .file resolved)

/-- The rest of `_decoder`: a decoder of the cache becomes the last one, and a new one replaces the first. -/
def cachedDecoder (key : Text) (source : VideoSource) (decoders : Decoders Decoder) :
    Except (PythonError × Decoders Decoder) (Decoder × Decoders Decoder) :=
  match decoders.lookup key with
  | some decoder => .ok (decoder, decoders.filter (fun entry => entry.1 ≠ key) ++ [(key, decoder)])
  | none => do
      raising decoders <| raiseIf (env.torchcodecLoads = false) <| .runtimeError
        ("TorchCodec could not load. Install a TorchCodec version compatible " ++
          "with your PyTorch build and its required shared FFmpeg libraries.")
      let kept := if reader.maxCachedDecoders ≤ decoders.length then decoders.tail else decoders
      let decoder ← raising kept (env.videoDecoder source)
      .ok (decoder, kept ++ [(key, decoder)])

/-- `_decoder`. -/
def decoder (path : Text) (decoders : Decoders Decoder) :
    Except (PythonError × Decoders Decoder) (Decoder × Decoders Decoder) := do
  let (key, source) ← raising decoders (decoderKey reader env path)
  cachedDecoder reader env key source decoders

/-! ## A group of targets -/

/-- The frame rate and the begin of a stream, which must be usable. -/
def frameRate (path : Text) (decoder : Decoder) : Except PythonError (ℚ × Double) :=
  match env.averageFps decoder, env.beginStreamSeconds decoder with
  | some (.finite fps), some streamBegin =>
      if fps ≤ 0 then .error (unusable path) else .ok (fps, streamBegin)
  | _, _ => .error (unusable path)
where
  unusable (path : Text) : PythonError :=
    .valueError s!"Video has no usable frame-rate/timestamp metadata: {String.ofList path}"

/-- `-` of two values of the type `float`. -/
def floatSub (a : Double) : Double → Double
  | .finite b => Arithmetic.ieee.double.map (· - b) a
  | .infinite negative => Arithmetic.ieee.double.add a (.infinite !negative)
  | .nan => .nan

/-- `round` of a value of the type `float`. -/
def roundFloat : Double → Except PythonError Int
  | .finite value => .ok (Double.halfToEven value)
  | .infinite _ => .error (.overflowError "cannot convert float infinity to integer")
  | .nan => .error (.valueError "cannot convert float NaN to integer")

/-- `round((video_timestamp - begin) * fps)`. The rate is finite and positive. -/
def frameIndex (fps : ℚ) (streamBegin : Double) (target : VideoTarget) : Except PythonError Int :=
  roundFloat (Arithmetic.ieee.double.map (· * fps) (floatSub target.videoTimestamp streamBegin))

/-- `sorted(set(indices))`. -/
def sortedSet (indices : List Int) : List Int := indices.dedup.insertionSort (· ≤ ·)

/-- The check of the time of a frame. -/
def checkTimestamp (path : Text) (target : VideoTarget) (actual : Double) : Except PythonError Unit :=
  raiseIf (actual.isFinite = false ∨
      Double.less reader.tolerance (floatSub actual target.videoTimestamp).abs = true)
    (.timestampMismatch path target.requestId target.videoTimestamp actual)

/-- `images` and `timestamps`. -/
structure DecodedRows (Image : Type) where
  images : List (Option Image)
  timestamps : List Double

/-- One round of the loop over the positions of a group. -/
def placeFrame (targets : List VideoTarget) (path : Text) (unique : List Int) (frames : FrameBatch Image)
    (rows : DecodedRows Image) (entry : Nat × Int) : Except PythonError (DecodedRows Image) := do
  let offset ← required .keyError (unique.idxOf? entry.2)
  let actual ← required .indexError frames.ptsSeconds[offset]?
  let target ← required .indexError targets[entry.1]?
  checkTimestamp reader path target actual
  let image ← required .indexError frames.data[offset]?
  .ok ⟨rows.images.set entry.1 (some image), rows.timestamps.set entry.1 actual⟩

/-- One round of the loop over the groups. -/
def decodeGroup (targets : List VideoTarget) (state : DecodedRows Image × Decoders Decoder)
    (group : Text × List Nat) : Except (PythonError × Decoders Decoder) (DecodedRows Image × Decoders Decoder) := do
  let (decoder, decoders) ← decoder reader env group.1 state.2
  let (fps, streamBegin) ← raising decoders (frameRate env group.1 decoder)
  let indices ← raising decoders <| group.2.mapM fun position =>
    required .indexError targets[position]? >>= frameIndex fps streamBegin
  let unique := sortedSet indices
  let frames ← raising decoders (env.getFramesAt decoder unique)
  let rows ← raising decoders <|
    (group.2.zip indices).foldlM (placeFrame reader targets group.1 unique frames) state.1
  .ok (rows, decoders)

/-! ## A batch -/

/-- `groups.setdefault(path, []).append(position)`. -/
def appendPosition (path : Text) (position : Nat) : List (Text × List Nat) → List (Text × List Nat)
  | [] => [(path, [position])]
  | group :: groups =>
      if group.1 = path then (group.1, group.2 ++ [position]) :: groups
      else group :: appendPosition path position groups

/-- One round of the loop over the targets. -/
def groupTarget (groups : List (Text × List Nat)) (entry : VideoTarget × Nat) :
    Except PythonError (List (Text × List Nat)) := do
  raiseIf (entry.1.channels ≠ 3) (.valueError "TorchCodecReader supports RGB videos, not depth video")
  .ok (appendPosition entry.1.videoPath entry.2 groups)

/-- `_decode`. -/
def decode (targets : List VideoTarget) (decoders : Decoders Decoder) :
    Except (PythonError × Decoders Decoder) (DecodedBatch Image × Decoders Decoder) := do
  let groups ← raising decoders (targets.zipIdx.foldlM groupTarget [])
  let empty := ⟨List.replicate targets.length none, List.replicate targets.length 0⟩
  let (rows, decoders) ← groups.foldlM (decodeGroup reader env targets) (empty, decoders)
  .ok (⟨targets, rows.images, rows.timestamps⟩, decoders)

/-! ## All rows -/

/-- What a caller of `batches` sees: the batches, each with the decoders that are open then, the exception if there is
one, and the decoders after it. -/
structure BatchRun (Decoder Image : Type) where
  yielded : List (DecodedBatch Image × Decoders Decoder)
  error : Option PythonError
  decoders : Decoders Decoder

/-- The loop of `batches`, over what the calls of `fetchmany` return. -/
def yieldBatches : List (List VideoTarget) → Decoders Decoder → BatchRun Decoder Image
  | [], decoders => ⟨[], none, decoders⟩
  | targets :: fetched, decoders =>
      match decode reader env targets decoders with
      | .error (error, decoders) => ⟨[], some error, decoders⟩
      | .ok (batch, decoders) =>
          let run := yieldBatches fetched decoders
          { run with yielded := (batch, decoders) :: run.yielded }

/-- `batches`, for the resolved targets in the order of their `target_id`. -/
def batches (targets : List VideoTarget) (decoders : Decoders Decoder) : BatchRun Decoder Image :=
  yieldBatches reader env (splitEvery reader.batchSize targets) decoders

end Reader

end DuckdbLerobot.Reader
