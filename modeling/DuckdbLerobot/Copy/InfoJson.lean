import DuckdbLerobot.Copy.FileIndex
import DuckdbLerobot.Image.DepthTiff
import DuckdbLerobot.Library.Json

/-!
# The text of `info.json`

COPY writes `meta/info.json` by putting strings together. The names of the features, their types and the type of the
robot come from the user, and `JsonEscape` makes a literal of each. A string is a list of bytes here, as it is in the
source: nothing is assumed of its encoding.

`jsonEscape_reads` says that a literal is read back as the string, and `infoJSON_parse` that the text has the members
that were meant, whatever the strings are.
-/

set_option autoImplicit false

namespace DuckdbLerobot.Copy

open DuckdbLerobot.Library DuckdbLerobot.Image

/-! ## Texts -/

/-- A character of ASCII. -/
def asciiByte (ch : Char) : UInt8 := UInt8.ofNat ch.toNat

/-- A literal of the source. -/
def ascii (text : String) : Bytes := text.toList.map asciiByte

/-- `std::hex << std::setw(4) << std::setfill('0')`. -/
def hexField (value : Nat) : Bytes := ((Nat.toDigits 16 value).map asciiByte).leftpad 4 (asciiByte '0')

/-- What `JsonEscape` writes for a byte. -/
def escapeByte (byte : UInt8) : Bytes :=
  if byte = asciiByte '"' then ascii "\\\""
  else if byte = asciiByte '\\' then ascii "\\\\"
  else if byte = 0x08 then ascii "\\b"
  else if byte = 0x0C then ascii "\\f"
  else if byte = asciiByte '\n' then ascii "\\n"
  else if byte = asciiByte '\r' then ascii "\\r"
  else if byte = asciiByte '\t' then ascii "\\t"
  else if byte < 0x20 then ascii "\\u" ++ hexField byte.toNat
  else [byte]

/-- `JsonEscape`. -/
def jsonEscape (input : Bytes) : Bytes := asciiByte '"' :: (input.flatMap escapeByte ++ [asciiByte '"'])

/-- `JsonNumber`. A zero has no sign here. -/
def jsonNumber : Double → Except CopyException Bytes
  | .finite value => .ok (Json.numberBytes (formatGeneral 17 value))
  | _ => .error (.invalidInput "LeRobot statistics cannot contain NaN or infinity")

/-- The text of an integer. -/
def integerText (value : Int) : DecimalText := ⟨decide (value < 0), decimalDigits value.natAbs, [], none⟩

/-- `std::to_string` of an integer. -/
def decimalText (value : Int) : Bytes := Json.numberBytes (integerText value)

/-- `true` or `false`. -/
def booleanText (value : Bool) : Bytes := if value then ascii "true" else ascii "false"

/-! ## Features -/

/-- The fields of `LerobotFeature` that `info.json` has. -/
structure InfoFeature where
  name : Bytes
  dtype : Bytes
  shape : List Nat
  namesJson : Bytes
  isImage : Bool := false
  isVideo : Bool := false
  isDepth : Bool := false

/-- The fields of `LerobotEncodedVideoInfo` that `info.json` has. -/
structure EncodedVideoInfo where
  encoder : Bytes
  codec : Bytes
  pixelFormat : Bytes
  gop : Int

/-- The fields of the encoding options that `info.json` has. -/
structure InfoEncoding where
  rgbCrf : Int := 30
  depthMin : Double
  depthMax : Double
  depthShift : Double
  depthUseLog : Bool := true

/-- What the writer has of a feature: the type of its frames, if there is a row, and its encoded video. -/
structure VisualState where
  rawType : Option LerobotRawVisualType
  encoded : EncodedVideoInfo

/-- The fields of the writer that `info.json` is made from. -/
structure InfoWriter where
  features : List (InfoFeature × VisualState)
  encoding : InfoEncoding
  fps : Nat
  chunksSize : Nat
  dataFileSizeMb : Double
  videoFileSizeMb : Double
  robotType : Option Bytes
  totalEpisodes : Nat
  totalFrames : Nat
  totalTasks : Nat

/-- `ShapeJSON`. -/
def shapeJSON (shape : List Nat) : Bytes :=
  ascii "[" ++ (Json.commaSeparated (shape.map fun dimension : Nat => decimalText dimension) ++ ascii "]")

/-- `DepthQuantizerJSON`. -/
def depthQuantizerJSON (config : InfoEncoding) : Except CopyException Bytes := do
  let minimum ← jsonNumber config.depthMin
  let maximum ← jsonNumber config.depthMax
  let shift ← jsonNumber config.depthShift
  .ok <| ascii "\"video.depth_min\":" ++ (minimum ++ (ascii ",\"video.depth_max\":" ++ (maximum ++
    (ascii ",\"video.shift\":" ++ (shift ++ (ascii ",\"video.use_log\":" ++ booleanText config.depthUseLog))))))

/-- `depth_unit`. -/
def depthUnit (rawType : LerobotRawVisualType) : Bytes :=
  if rawType = .depthUint16 then ascii "mm" else ascii "m"

/-- The members of `VisualInfoJSON` for a video that was encoded, up to `is_depth_map`. -/
def encodedVideoMembers (config : InfoEncoding) (fps : Nat) (feature : InfoFeature) (encoded : EncodedVideoInfo) :
    Bytes :=
  let depth := feature.isDepth
  let isSvt := decide (encoded.encoder = ascii "libsvtav1")
  ascii "\"video.height\":" ++ (decimalText (feature.shape.getD 0 0) ++ (ascii ",\"video.width\":" ++
    (decimalText (feature.shape.getD 1 0) ++ (ascii ",\"video.codec\":" ++ (jsonEscape encoded.codec ++
    (ascii ",\"video.pix_fmt\":" ++ (jsonEscape encoded.pixelFormat ++ (ascii ",\"video.fps\":" ++
    (decimalText fps ++ (ascii ",\"video.channels\":" ++ (decimalText (feature.shape.getD 2 0) ++
    (ascii ",\"has_audio\":false,\"video.g\":" ++ (decimalText encoded.gop ++ (ascii ",\"video.crf\":" ++
    (decimalText (if depth then 30 else config.rgbCrf) ++ (ascii ",\"video.preset\":" ++
    ((if depth || !isSvt then ascii "null" else ascii "12") ++
    (ascii ",\"video.fast_decode\":0,\"video.video_backend\":\"pyav\",\"video.extra_options\":" ++
    ((if depth then ascii "\x7b\"bf\":0,\"x265-params\":\"lossless=1:open-gop=0\"\x7d"
      else if isSvt then ascii "\x7b\x7d" else ascii "\x7b\"cpu-used\":8,\"b\":0\x7d") ++
    (ascii ",\"is_depth_map\":" ++ booleanText depth))))))))))))))))))))

/-- `VisualInfoJSON`. -/
def visualInfoJSON (config : InfoEncoding) (fps : Nat) (feature : InfoFeature) (state : VisualState) :
    Except CopyException Bytes :=
  if !feature.isImage && !feature.isVideo then .ok []
  else
    match state.rawType with
    | none =>
        if !feature.isDepth then .ok []
        else if feature.isImage then .ok (ascii "\x7b\"is_depth_map\":true\x7d")
        else (depthQuantizerJSON config).map fun quantizer =>
          ascii "\x7b\"video.pix_fmt\":\"gray12le\"," ++ (quantizer ++ ascii ",\"is_depth_map\":true\x7d")
    | some rawType =>
        if feature.isImage then
          .ok (if feature.isDepth then
              ascii "\x7b\"is_depth_map\":true,\"depth_unit\":" ++ (jsonEscape (depthUnit rawType) ++ ascii "\x7d")
            else [])
        else if state.encoded.codec = [] then .ok []
        else
          let members := encodedVideoMembers config fps feature state.encoded
          if feature.isDepth then
            (depthQuantizerJSON config).map fun quantizer =>
              ascii "\x7b" ++ (members ++ (ascii "," ++ (quantizer ++ (ascii ",\"depth_unit\":" ++
                (jsonEscape (depthUnit rawType) ++ ascii "\x7d")))))
          else .ok (ascii "\x7b" ++ (members ++ ascii "\x7d"))

/-- One round of the loop of `FeaturesJSON`. -/
def featureJSON (config : InfoEncoding) (fps : Nat) (entry : InfoFeature × VisualState) : Except CopyException Bytes :=
  (visualInfoJSON config fps entry.1 entry.2).map fun info =>
    jsonEscape entry.1.name ++ (ascii ":\x7b\"dtype\":" ++ (jsonEscape entry.1.dtype ++ (ascii ",\"shape\":" ++
      (shapeJSON entry.1.shape ++ (ascii ",\"names\":" ++ (entry.1.namesJson ++
        ((if info = [] then [] else ascii ",\"info\":" ++ info) ++ ascii "\x7d")))))))

/-- `FeaturesJSON`. -/
def featuresJSON (writer : InfoWriter) : Except CopyException Bytes :=
  (writer.features.mapM (featureJSON writer.encoding writer.fps)).map fun features =>
    ascii "\x7b" ++ (Json.commaSeparated features ++ ascii "\x7d")

/-- `LEROBOT_DATA_PATH`. -/
def dataPathText : Bytes := ascii "data/chunk-\x7bchunk_index:03d\x7d/file-\x7bfile_index:03d\x7d.parquet"

/-- `LEROBOT_VIDEO_PATH`. -/
def videoPathText : Bytes :=
  ascii "videos/\x7bvideo_key\x7d/chunk-\x7bchunk_index:03d\x7d/file-\x7bfile_index:03d\x7d.mp4"

/-- A string, or `null` without one. -/
def stringOrNull : Option Bytes → Bytes
  | none => ascii "null"
  | some content => jsonEscape content

/-- `InfoJSON`. -/
def infoJSON (writer : InfoWriter) : Except CopyException Bytes := do
  let hasVideo := writer.features.any fun entry => entry.1.isVideo
  let features ← featuresJSON writer
  let dataFileSize ← jsonNumber writer.dataFileSizeMb
  let videoFileSize ← jsonNumber writer.videoFileSizeMb
  .ok <| ascii "\x7b\"codebase_version\":\"v3.0\",\"fps\":" ++ (decimalText writer.fps ++ (ascii ",\"features\":" ++
    (features ++ (ascii ",\"total_episodes\":" ++ (decimalText writer.totalEpisodes ++ (ascii ",\"total_frames\":" ++
    (decimalText writer.totalFrames ++ (ascii ",\"total_tasks\":" ++ (decimalText writer.totalTasks ++
    (ascii ",\"chunks_size\":" ++ (decimalText writer.chunksSize ++ (ascii ",\"data_files_size_in_mb\":" ++
    (dataFileSize ++ (ascii ",\"video_files_size_in_mb\":" ++ (videoFileSize ++ (ascii ",\"data_path\":" ++
    (jsonEscape dataPathText ++ (ascii ",\"video_path\":" ++
    (stringOrNull (if hasVideo then some videoPathText else none) ++ (ascii ",\"robot_type\":" ++
    (stringOrNull writer.robotType ++ (ascii ",\"splits\":\x7b" ++
    ((if writer.totalEpisodes = 0 then []
      else ascii "\"train\":\"0:" ++ (decimalText writer.totalEpisodes ++ ascii "\"")) ++
    ascii "\x7d\x7d")))))))))))))))))))))))

/-! ## Literals -/

section Literals

open Json

/-- The digits of a control byte. -/
theorem hexField_eq : ∀ value < 32,
    hexField value = [0x30, 0x30, UInt8.ofNat (0x30 + value / 16), (ascii "0123456789abcdef").getD (value % 16) 0] := by
  decide

theorem codeUnit_hexField : ∀ value < 32,
    codeUnit 0x30 0x30 (UInt8.ofNat (0x30 + value / 16)) ((ascii "0123456789abcdef").getD (value % 16) 0) =
      some value := by
  decide

/-- **One byte of a literal** is read as this byte. The cases are those of the switch. -/
theorem scanString_escapeByte (byte : UInt8) (rest : Bytes) :
    scanString (escapeByte byte ++ rest) = (scanString rest).map (before [byte]) := by
  rw [escapeByte]
  split
  · next h =>
    rw [h]
    exact scanString_short rfl rest
  · next hquote =>
    split
    · next h =>
      rw [h]
      exact scanString_short rfl rest
    · next hslash =>
      split
      · next h =>
        rw [h]
        exact scanString_short rfl rest
      · split
        · next h =>
          rw [h]
          exact scanString_short rfl rest
        · split
          · next h =>
            rw [h]
            exact scanString_short rfl rest
          · split
            · next h =>
              rw [h]
              exact scanString_short rfl rest
            · split
              · next h =>
                rw [h]
                exact scanString_short rfl rest
              · split
                · next hcontrol =>
                  have hlt : byte.toNat < 32 := UInt8.lt_iff_toNat_lt.mp hcontrol
                  have hread := scanString_unicode (codeUnit_hexField byte.toNat hlt) (by omega) rest
                  rw [UInt8.ofNat_toNat] at hread
                  rw [hexField_eq byte.toNat hlt]
                  exact hread
                · next hcontrol => exact scanString_plain hcontrol hquote hslash rest

theorem readsString_escape (input : Bytes) : ReadsString (input.flatMap escapeByte ++ [0x22]) input := by
  induction input with
  | nil => exact readsString_quote
  | cons byte input ih =>
      rw [List.flatMap_cons, List.append_assoc]
      exact ih.before (scanString_escapeByte byte)

/-- A literal of `JsonEscape` is a value. -/
theorem reads_jsonEscape (input : Bytes) : Reads (jsonEscape input) (.string input) :=
  reads_string (readsString_escape input)

/-! ## Numbers and words -/

theorem reads_decimalText (value : Int) : Reads (decimalText value) (.number value) := by
  have hwell : (integerText value).WellFormed :=
    ⟨decimalDigits_ne_nil _, head?_decimalDigits _, fun _ hdigit => decimalDigits_lt hdigit,
      fun _ hdigit => absurd hdigit List.not_mem_nil, fun _ _ h => by cases h⟩
  have hvalue : (integerText value).value = value := by
    simp only [integerText, DecimalText.value, DecimalText.exponentValue, List.append_nil, digitsValue_decimalDigits,
      decide_eq_true_eq, List.length_nil, Nat.cast_zero, sub_zero, zpow_zero, mul_one]
    by_cases hneg : value < 0
    · rw [if_pos hneg, neg_one_mul]
      have habs : ((value.natAbs : Nat) : Int) = -value := by omega
      rw [← Int.cast_natCast, habs, Int.cast_neg, neg_neg]
    · rw [if_neg hneg, one_mul]
      have habs : ((value.natAbs : Nat) : Int) = value := by omega
      rw [← Int.cast_natCast, habs]
  have hreads := reads_number hwell
  rwa [hvalue] at hreads

/-- Digits of the source. -/
theorem reads_digits (digits : List Nat) (hne : digits ≠ []) (hhead : digits.head? = some 0 → digits = [0])
    (hlt : ∀ digit ∈ digits, digit < 10) : Reads (digits.map digitByte) (.number (digitsValue digits)) := by
  have hwell : (DecimalText.mk false digits [] none).WellFormed :=
    ⟨hne, hhead, hlt, fun _ hdigit => absurd hdigit List.not_mem_nil, fun _ _ h => by cases h⟩
  have hvalue : (DecimalText.mk false digits [] none).value = digitsValue digits := by
    simp [DecimalText.value, DecimalText.exponentValue]
  have htext : Json.numberBytes (DecimalText.mk false digits [] none) = digits.map digitByte := by
    simp [Json.numberBytes, fractionBytes, exponentBytes]
  have hreads := reads_number hwell
  rwa [hvalue, htext] at hreads

/-- The number of a text of `JsonNumber`. -/
theorem reads_jsonNumber {value : Double} {text : Bytes} (h : jsonNumber value = .ok text) :
    ∃ number, value = .finite number ∧ Reads text (.number (formatGeneral 17 number).value) := by
  cases value with
  | finite number =>
      obtain rfl := Except.ok.inj h
      exact ⟨number, rfl, reads_number (wellFormed_formatGeneral 17 number)⟩
  | infinite negative => cases h
  | nan => cases h

theorem reads_booleanText (value : Bool) : Reads (booleanText value) (.boolean value) := by
  cases value with
  | true => exact reads_true
  | false => exact reads_false

/-- `null`, as the source writes it. -/
theorem reads_nullText : Reads (ascii "null") .null := reads_null

/-- A string of the source without special characters. -/
theorem reads_plainText (content : Bytes) (h : content.all isPlain = true) :
    Reads (0x22 :: (content ++ [0x22])) (.string content) :=
  reads_string (readsString_plain h)

/-- A member whose name is a literal of the source. -/
def member (name : String) (value : Bytes) : Bytes := 0x22 :: ((ascii name ++ [0x22]) ++ 0x3A :: value)

theorem readsMembers_member (name : String) (hname : (ascii name).all isPlain = true) {text : Bytes} {value : Json}
    (h : Reads text value) : ReadsMembers (member name text) [(ascii name, value)] :=
  readsMembers_single (readsString_plain hname) h

theorem readsMembers_of_eq {text text' : Bytes} {entries : List (Bytes × Json)} (h : ReadsMembers text entries)
    (heq : text' = text) : ReadsMembers text' entries := heq ▸ h

theorem reads_of_eq {text text' : Bytes} {value : Json} (h : Reads text value) (heq : text' = text) :
    Reads text' value := heq ▸ h

theorem reads_shapeJSON (shape : List Nat) :
    Reads (shapeJSON shape) (.array (shape.map fun dimension : Nat => .number dimension)) := by
  have hdimensions : List.Forall₂ Reads (shape.map fun dimension : Nat => decimalText dimension)
      (shape.map fun dimension : Nat => .number dimension) := by
    rw [List.forall₂_map_left_iff, List.forall₂_map_right_iff]
    apply List.forall₂_same.mpr
    intro dimension _
    exact_mod_cast reads_decimalText dimension
  exact reads_array hdimensions

/-! ## Information about videos -/

/-- The members of `DepthQuantizerJSON`. -/
theorem readsMembers_depthQuantizerJSON {config : InfoEncoding} {text : Bytes}
    (h : depthQuantizerJSON config = .ok text) : ∃ entries, ReadsMembers text entries := by
  simp only [depthQuantizerJSON, except_bind_eq_ok] at h
  obtain ⟨minimum, hminimum, maximum, hmaximum, shift, hshift, htext⟩ := h
  obtain rfl := Except.ok.inj htext
  obtain ⟨_, -, hminimum⟩ := reads_jsonNumber hminimum
  obtain ⟨_, -, hmaximum⟩ := reads_jsonNumber hmaximum
  obtain ⟨_, -, hshift⟩ := reads_jsonNumber hshift
  have hmembers := (readsMembers_member "video.depth_min" rfl hminimum).append <|
    (readsMembers_member "video.depth_max" rfl hmaximum).append <|
    (readsMembers_member "video.shift" rfl hshift).append <|
    readsMembers_member "video.use_log" rfl (reads_booleanText config.depthUseLog)
  refine ⟨_, readsMembers_of_eq hmembers ?_⟩
  simp only [member, List.append_assoc, List.cons_append]
  rfl

/-- The value of `video.extra_options`. -/
theorem reads_extraOptions (depth isSvt : Bool) : ∃ value, Reads
    (if depth then ascii "\x7b\"bf\":0,\"x265-params\":\"lossless=1:open-gop=0\"\x7d"
      else if isSvt then ascii "\x7b\x7d" else ascii "\x7b\"cpu-used\":8,\"b\":0\x7d") value := by
  have hzero : Reads (ascii "0") (.number (digitsValue [0] : Nat)) :=
    reads_digits [0] (by decide) (by decide) (by decide)
  have height : Reads (ascii "8") (.number (digitsValue [8] : Nat)) :=
    reads_digits [8] (by decide) (by decide) (by decide)
  cases depth with
  | true =>
      have hparams : Reads (ascii "\"lossless=1:open-gop=0\"") (.string (ascii "lossless=1:open-gop=0")) :=
        reads_plainText (ascii "lossless=1:open-gop=0") rfl
      have hmembers := (readsMembers_member "bf" rfl hzero).append (readsMembers_member "x265-params" rfl hparams)
      exact ⟨_, hmembers.object⟩
  | false =>
      cases isSvt with
      | true => exact ⟨_, reads_object .nil⟩
      | false =>
          have hmembers := (readsMembers_member "cpu-used" rfl height).append (readsMembers_member "b" rfl hzero)
          exact ⟨_, hmembers.object⟩

set_option maxRecDepth 4096 in
/-- The members for an encoded video. -/
theorem readsMembers_encodedVideoMembers (config : InfoEncoding) (fps : Nat) (feature : InfoFeature)
    (encoded : EncodedVideoInfo) :
    ∃ entries, ReadsMembers (encodedVideoMembers config fps feature encoded) entries := by
  have hzero : Reads (ascii "0") (.number (digitsValue [0] : Nat)) :=
    reads_digits [0] (by decide) (by decide) (by decide)
  have htwelve : Reads (ascii "12") (.number (digitsValue [1, 2] : Nat)) :=
    reads_digits [1, 2] (by decide) (by decide) (by decide)
  have hbackend : Reads (ascii "\"pyav\"") (.string (ascii "pyav")) := reads_plainText (ascii "pyav") rfl
  have hpreset : ∃ value, Reads (if feature.isDepth || !decide (encoded.encoder = ascii "libsvtav1") then ascii "null"
      else ascii "12") value := by
    split
    · exact ⟨_, reads_nullText⟩
    · exact ⟨_, htwelve⟩
  obtain ⟨preset, hpreset⟩ := hpreset
  obtain ⟨options, hoptions⟩ := reads_extraOptions feature.isDepth (decide (encoded.encoder = ascii "libsvtav1"))
  have hmembers := (readsMembers_member "video.height" rfl (reads_decimalText (feature.shape.getD 0 0 : Nat))).append <|
    (readsMembers_member "video.width" rfl (reads_decimalText (feature.shape.getD 1 0 : Nat))).append <|
    (readsMembers_member "video.codec" rfl (reads_jsonEscape encoded.codec)).append <|
    (readsMembers_member "video.pix_fmt" rfl (reads_jsonEscape encoded.pixelFormat)).append <|
    (readsMembers_member "video.fps" rfl (reads_decimalText fps)).append <|
    (readsMembers_member "video.channels" rfl (reads_decimalText (feature.shape.getD 2 0 : Nat))).append <|
    (readsMembers_member "has_audio" rfl (reads_booleanText false)).append <|
    (readsMembers_member "video.g" rfl (reads_decimalText encoded.gop)).append <|
    (readsMembers_member "video.crf" rfl
      (reads_decimalText (if feature.isDepth then 30 else config.rgbCrf))).append <|
    (readsMembers_member "video.preset" rfl hpreset).append <|
    (readsMembers_member "video.fast_decode" rfl hzero).append <|
    (readsMembers_member "video.video_backend" rfl hbackend).append <|
    (readsMembers_member "video.extra_options" rfl hoptions).append <|
    readsMembers_member "is_depth_map" rfl (reads_booleanText feature.isDepth)
  refine ⟨_, readsMembers_of_eq hmembers ?_⟩
  simp only [encodedVideoMembers, member, List.append_assoc, List.cons_append]
  rfl

/-- **What `VisualInfoJSON` returns is empty or a value.** -/
theorem reads_visualInfoJSON {config : InfoEncoding} {fps : Nat} {feature : InfoFeature} {state : VisualState}
    {text : Bytes} (h : visualInfoJSON config fps feature state = .ok text) :
    text = [] ∨ ∃ value, Reads text value := by
  have hdepthMap : ReadsMembers (ascii "\"is_depth_map\":true") [(ascii "is_depth_map", .boolean true)] :=
    readsMembers_member "is_depth_map" rfl reads_true
  have hunit : ∀ rawType, ReadsMembers (member "depth_unit" (jsonEscape (depthUnit rawType)))
      [(ascii "depth_unit", .string (depthUnit rawType))] :=
    fun rawType => readsMembers_member "depth_unit" rfl (reads_jsonEscape _)
  rw [visualInfoJSON] at h
  split at h
  · exact .inl (Except.ok.inj h).symm
  · split at h
    · split at h
      · exact .inl (Except.ok.inj h).symm
      · split at h
        · obtain rfl := Except.ok.inj h
          exact .inr ⟨_, hdepthMap.object⟩
        · obtain ⟨quantizer, hquantizer, rfl⟩ := except_map_eq_ok.mp h
          obtain ⟨entries, hentries⟩ := readsMembers_depthQuantizerJSON hquantizer
          have hformat : Reads (ascii "\"gray12le\"") (.string (ascii "gray12le")) :=
            reads_plainText (ascii "gray12le") rfl
          have hmembers := (readsMembers_member "video.pix_fmt" rfl hformat).append (hentries.append hdepthMap)
          refine .inr ⟨_, reads_of_eq hmembers.object ?_⟩
          simp only [member, List.append_assoc, List.cons_append]
          rfl
    · next rawType _ =>
      split at h
      · obtain rfl := Except.ok.inj h
        split
        · refine .inr ⟨_, reads_of_eq (hdepthMap.append (hunit rawType)).object ?_⟩
          simp only [member, List.append_assoc, List.cons_append]
          rfl
        · exact .inl rfl
      · split at h
        · exact .inl (Except.ok.inj h).symm
        · obtain ⟨entries, hentries⟩ := readsMembers_encodedVideoMembers config fps feature state.encoded
          dsimp only at h
          split at h
          · obtain ⟨quantizer, hquantizer, rfl⟩ := except_map_eq_ok.mp h
            obtain ⟨depthEntries, hdepth⟩ := readsMembers_depthQuantizerJSON hquantizer
            refine .inr ⟨_, reads_of_eq (hentries.append (hdepth.append (hunit rawType))).object ?_⟩
            simp only [member, List.append_assoc, List.cons_append]
            rfl
          · obtain rfl := Except.ok.inj h
            exact .inr ⟨_, hentries.object⟩

/-- The options that COPY accepts are finite. -/
structure InfoWriter.FiniteOptions (writer : InfoWriter) : Prop where
  depthMin : writer.encoding.depthMin.isFinite = true
  depthMax : writer.encoding.depthMax.isFinite = true
  depthShift : writer.encoding.depthShift.isFinite = true
  dataFileSizeMb : writer.dataFileSizeMb.isFinite = true
  videoFileSizeMb : writer.videoFileSizeMb.isFinite = true

theorem jsonNumber_total {value : Double} (h : value.isFinite = true) : ∃ text, jsonNumber value = .ok text := by
  cases value with
  | finite number => exact ⟨_, rfl⟩
  | infinite negative => cases h
  | nan => cases h

theorem depthQuantizerJSON_total {writer : InfoWriter} (h : writer.FiniteOptions) :
    ∃ text, depthQuantizerJSON writer.encoding = .ok text := by
  obtain ⟨minimum, hminimum⟩ := jsonNumber_total h.depthMin
  obtain ⟨maximum, hmaximum⟩ := jsonNumber_total h.depthMax
  obtain ⟨shift, hshift⟩ := jsonNumber_total h.depthShift
  rw [depthQuantizerJSON, hminimum, hmaximum, hshift]
  exact ⟨_, rfl⟩

theorem visualInfoJSON_total {writer : InfoWriter} (h : writer.FiniteOptions) (feature : InfoFeature)
    (state : VisualState) : ∃ text, visualInfoJSON writer.encoding writer.fps feature state = .ok text := by
  obtain ⟨quantizer, hquantizer⟩ := depthQuantizerJSON_total h
  rw [visualInfoJSON, hquantizer]
  split
  · exact ⟨_, rfl⟩
  · split
    · split
      · exact ⟨_, rfl⟩
      · split
        · exact ⟨_, rfl⟩
        · exact ⟨_, rfl⟩
    · split
      · exact ⟨_, rfl⟩
      · split
        · exact ⟨_, rfl⟩
        · dsimp only
          split
          · exact ⟨_, rfl⟩
          · exact ⟨_, rfl⟩

/-! ## Features -/

/-- What `info.json` says of a feature. -/
structure FeatureMember (feature : InfoFeature) (entry : Bytes × Json) : Prop where
  name : entry.1 = feature.name
  value : ∃ names info, Reads feature.namesJson names ∧ (info = [] ∨ ∃ value, info = [(ascii "info", value)]) ∧
    entry.2 = .object ([(ascii "dtype", .string feature.dtype),
      (ascii "shape", .array (feature.shape.map fun dimension : Nat => .number dimension)),
      (ascii "names", names)] ++ info)

theorem readsMember_featureJSON {config : InfoEncoding} {fps : Nat} {entry : InfoFeature × VisualState} {text : Bytes}
    {names : Json} (hnames : Reads entry.1.namesJson names) (h : featureJSON config fps entry = .ok text) :
    ∃ result, ReadsMember text result ∧ FeatureMember entry.1 result := by
  obtain ⟨info, hinfo, rfl⟩ := except_map_eq_ok.mp h
  have hmembers := (readsMembers_member "dtype" rfl (reads_jsonEscape entry.1.dtype)).append <|
    (readsMembers_member "shape" rfl (reads_shapeJSON entry.1.shape)).append <|
    readsMembers_member "names" rfl hnames
  have hname : ReadsString (entry.1.name.flatMap escapeByte ++ [0x22]) entry.1.name := readsString_escape entry.1.name
  by_cases hempty : info = []
  · rw [if_pos hempty]
    refine ⟨(entry.1.name, _), ⟨_, _, ?_, hname, hmembers.object⟩, rfl, names, [], hnames, .inl rfl, rfl⟩
    simp only [jsonEscape, member, List.append_assoc, List.cons_append]
    rfl
  · rw [if_neg hempty]
    obtain ⟨value, hvalue⟩ := (reads_visualInfoJSON hinfo).resolve_left hempty
    have hall := hmembers.append (readsMembers_member "info" rfl hvalue)
    refine ⟨(entry.1.name, _), ⟨_, _, ?_, hname, hall.object⟩, rfl, names, _, hnames, .inr ⟨value, rfl⟩, rfl⟩
    simp only [jsonEscape, member, List.append_assoc, List.cons_append]
    rfl

/-- **The features are read in order**, each under its own name. -/
theorem reads_featuresJSON {writer : InfoWriter}
    (hnames : ∀ entry ∈ writer.features, ∃ names, Reads entry.1.namesJson names) {text : Bytes}
    (h : featuresJSON writer = .ok text) :
    ∃ entries, Reads text (.object entries) ∧
      List.Forall₂ (fun feature entry => FeatureMember feature.1 entry) writer.features entries := by
  obtain ⟨texts, htexts, rfl⟩ := except_map_eq_ok.mp h
  have hforall := mapM_eq_ok.mp htexts
  clear h htexts
  suffices hread : ∃ entries, List.Forall₂ ReadsMember texts entries ∧
      List.Forall₂ (fun feature entry => FeatureMember feature.1 entry) writer.features entries by
    obtain ⟨entries, hmembers, hfeatures⟩ := hread
    exact ⟨entries, reads_object hmembers, hfeatures⟩
  generalize writer.features = features at hnames hforall ⊢
  induction hforall with
  | nil => exact ⟨[], .nil, .nil⟩
  | cons hfirst _ ih =>
      obtain ⟨names, hfeature⟩ := hnames _ List.mem_cons_self
      obtain ⟨entry, hmember, hdescribes⟩ := readsMember_featureJSON hfeature hfirst
      obtain ⟨entries, hmembers, hall⟩ := ih fun other hother => hnames other (List.mem_cons_of_mem _ hother)
      exact ⟨entry :: entries, .cons hmember hmembers, .cons hdescribes hall⟩

theorem featuresJSON_total {writer : InfoWriter} (h : writer.FiniteOptions) :
    ∃ text, featuresJSON writer = .ok text := by
  have htexts : ∃ texts, writer.features.mapM (featureJSON writer.encoding writer.fps) = .ok texts := by
    apply mapM_total
    intro entry _
    obtain ⟨info, hinfo⟩ := visualInfoJSON_total h entry.1 entry.2
    exact ⟨_, by rw [featureJSON, hinfo]; rfl⟩
  obtain ⟨texts, htexts⟩ := htexts
  exact ⟨_, by rw [featuresJSON, htexts]; rfl⟩

/-! ## The whole text -/

/-- The number that a text of `JsonNumber` has. -/
def writtenNumber : Double → ℚ
  | .finite value => (formatGeneral 17 value).value
  | _ => 0

/-- A string, or `null`. -/
def optionalString : Option Bytes → Json
  | none => .null
  | some content => .string content

/-- The members of `info.json`. -/
def infoMembers (writer : InfoWriter) (features : List (Bytes × Json)) : List (Bytes × Json) :=
  [(ascii "codebase_version", .string (ascii "v3.0")),
    (ascii "fps", .number writer.fps),
    (ascii "features", .object features),
    (ascii "total_episodes", .number writer.totalEpisodes),
    (ascii "total_frames", .number writer.totalFrames),
    (ascii "total_tasks", .number writer.totalTasks),
    (ascii "chunks_size", .number writer.chunksSize),
    (ascii "data_files_size_in_mb", .number (writtenNumber writer.dataFileSizeMb)),
    (ascii "video_files_size_in_mb", .number (writtenNumber writer.videoFileSizeMb)),
    (ascii "data_path", .string dataPathText),
    (ascii "video_path",
      optionalString (if writer.features.any fun entry => entry.1.isVideo then some videoPathText else none)),
    (ascii "robot_type", optionalString writer.robotType),
    (ascii "splits", .object (if writer.totalEpisodes = 0 then []
      else [(ascii "train", .string (ascii "0:" ++ decimalText writer.totalEpisodes))]))]

theorem reads_natText (value : Nat) : Reads (decimalText value) (.number value) := by
  exact_mod_cast reads_decimalText value

theorem reads_writtenNumber {value : Double} {text : Bytes} (h : jsonNumber value = .ok text) :
    Reads text (.number (writtenNumber value)) := by
  obtain ⟨number, rfl, hreads⟩ := reads_jsonNumber h
  exact hreads

theorem reads_stringOrNull (content : Option Bytes) : Reads (stringOrNull content) (optionalString content) := by
  cases content with
  | none => exact reads_nullText
  | some content => exact reads_jsonEscape content

theorem isPlain_decimalText (value : Nat) : (decimalText value).all isPlain = true := by
  have htext : decimalText value = (decimalDigits value).map digitByte := by
    have hsign : ¬(value : Int) < 0 := Int.not_lt.mpr (Int.natCast_nonneg value)
    simp [decimalText, integerText, Json.numberBytes, fractionBytes, exponentBytes, hsign]
  rw [htext, List.all_eq_true]
  intro byte hbyte
  obtain ⟨digit, hdigit, rfl⟩ := List.mem_map.mp hbyte
  have hplain : ∀ digit < 10, isPlain (digitByte digit) = true := by decide
  exact hplain digit (decimalDigits_lt hdigit)

theorem reads_splits (episodes : Nat) :
    Reads (ascii "\x7b" ++ ((if episodes = 0 then []
        else ascii "\"train\":\"0:" ++ (decimalText episodes ++ ascii "\"")) ++ ascii "\x7d"))
      (.object (if episodes = 0 then [] else [(ascii "train", .string (ascii "0:" ++ decimalText episodes))])) := by
  by_cases hempty : episodes = 0
  · rw [if_pos hempty, if_pos hempty]
    exact reads_object .nil
  · rw [if_neg hempty, if_neg hempty]
    have hplain : (ascii "0:" ++ decimalText episodes).all isPlain = true := by
      rw [List.all_append, isPlain_decimalText]
      rfl
    have hmember := readsMembers_member "train" rfl (reads_plainText _ hplain)
    refine reads_of_eq hmember.object ?_
    simp only [member, List.append_assoc, List.cons_append]
    rfl

set_option maxRecDepth 4096 in
/-- The text of `info.json` has its members, whatever the names and the robot are. -/
theorem reads_infoJSON {writer : InfoWriter} {entries : List (Bytes × Json)}
    (hfeatures : ∀ text, featuresJSON writer = .ok text → Reads text (.object entries)) {text : Bytes}
    (h : infoJSON writer = .ok text) : Reads text (.object (infoMembers writer entries)) := by
  simp only [infoJSON, except_bind_eq_ok] at h
  obtain ⟨features, hok, dataFileSize, hdata, videoFileSize, hvideo, htext⟩ := h
  obtain rfl := Except.ok.inj htext
  have hversion : Reads (ascii "\"v3.0\"") (.string (ascii "v3.0")) := reads_plainText (ascii "v3.0") rfl
  have hmembers := (readsMembers_member "codebase_version" rfl hversion).append <|
    (readsMembers_member "fps" rfl (reads_natText writer.fps)).append <|
    (readsMembers_member "features" rfl (hfeatures features hok)).append <|
    (readsMembers_member "total_episodes" rfl (reads_natText writer.totalEpisodes)).append <|
    (readsMembers_member "total_frames" rfl (reads_natText writer.totalFrames)).append <|
    (readsMembers_member "total_tasks" rfl (reads_natText writer.totalTasks)).append <|
    (readsMembers_member "chunks_size" rfl (reads_natText writer.chunksSize)).append <|
    (readsMembers_member "data_files_size_in_mb" rfl (reads_writtenNumber hdata)).append <|
    (readsMembers_member "video_files_size_in_mb" rfl (reads_writtenNumber hvideo)).append <|
    (readsMembers_member "data_path" rfl (reads_jsonEscape dataPathText)).append <|
    (readsMembers_member "video_path" rfl (reads_stringOrNull
      (if writer.features.any fun entry => entry.1.isVideo then some videoPathText else none))).append <|
    (readsMembers_member "robot_type" rfl (reads_stringOrNull writer.robotType)).append <|
    readsMembers_member "splits" rfl (reads_splits writer.totalEpisodes)
  refine reads_of_eq hmembers.object ?_
  simp only [member, List.append_assoc, List.cons_append]
  rfl

theorem infoJSON_total {writer : InfoWriter} (h : writer.FiniteOptions) : ∃ text, infoJSON writer = .ok text := by
  obtain ⟨features, hfeatures⟩ := featuresJSON_total h
  obtain ⟨dataFileSize, hdata⟩ := jsonNumber_total h.dataFileSizeMb
  obtain ⟨videoFileSize, hvideo⟩ := jsonNumber_total h.videoFileSizeMb
  rw [infoJSON, hfeatures, hdata, hvideo]
  exact ⟨_, rfl⟩

end Literals

/-- A literal of `JsonEscape` is read to its end and not further, and its content is the string. -/
theorem jsonEscape_reads (content rest : Bytes) :
    ∃ literal, jsonEscape content = asciiByte '"' :: literal ∧
      Json.scanString (literal ++ rest) = some (content, rest) :=
  ⟨_, rfl, readsString_escape content rest⟩

/-- **Escaped strings decode back.** A literal of `JsonEscape` is read to its end and not further, and gives back the
string. So the features are read in their order and under their names, and `info.json` has the members that were meant,
whatever the names and the robot are. -/
theorem infoJSON_parse (writer : InfoWriter) (hoptions : writer.FiniteOptions)
    (hnames : ∀ entry ∈ writer.features, ∃ names, Json.Reads entry.1.namesJson names) :
    (∀ content rest, ∃ literal, jsonEscape content = asciiByte '"' :: literal ∧
      Json.scanString (literal ++ rest) = some (content, rest)) ∧
    ∃ featuresText text entries, featuresJSON writer = .ok featuresText ∧ infoJSON writer = .ok text ∧
      Json.parse featuresText = some (.object entries) ∧
      List.Forall₂ (fun feature entry => FeatureMember feature.1 entry) writer.features entries ∧
      Json.parse text = some (.object (infoMembers writer entries)) := by
  refine ⟨jsonEscape_reads, ?_⟩
  obtain ⟨featuresText, hfeaturesText⟩ := featuresJSON_total hoptions
  obtain ⟨text, htext⟩ := infoJSON_total hoptions
  obtain ⟨entries, hreads, hdescribes⟩ := reads_featuresJSON hnames hfeaturesText
  have hfeatures : ∀ other, featuresJSON writer = .ok other → Json.Reads other (.object entries) := by
    intro other hother
    rw [hfeaturesText] at hother
    rwa [← Except.ok.inj hother]
  exact ⟨featuresText, text, entries, hfeaturesText, htext, hreads.parse, hdescribes,
    (reads_infoJSON hfeatures htext).parse⟩

/-- Two features whose names could end a literal, and a robot whose type would add a member. -/
def quotedWriter : InfoWriter where
  features := [(⟨ascii "a\":\x7b\"", ascii "float32", [2, 3], ascii "[\"x\",\"y\"]", false, false, false⟩,
      ⟨none, ascii "", ascii "", ascii "", 0⟩),
    (⟨[0x5C, 0x01, 0xFF], ascii "video", [480, 640, 1], ascii "null", false, true, true⟩,
      ⟨some .depthUint16, ascii "libx265", ascii "hevc", ascii "gray12le", 2⟩)]
  encoding := ⟨30, .finite (1 / 100), .finite 10, .finite (7 / 2), true⟩
  fps := 30
  chunksSize := 1000
  dataFileSizeMb := .finite 100
  videoFileSizeMb := .finite 500
  robotType := some (ascii "arm\",\"fps\":1,\"\\")
  totalEpisodes := 2
  totalFrames := 70
  totalTasks := 1

theorem quotedWriter_parse : ∃ text entries, infoJSON quotedWriter = .ok text ∧
    entries.map Prod.fst = [ascii "a\":\x7b\"", [0x5C, 0x01, 0xFF]] ∧
    Json.parse text = some (.object (infoMembers quotedWriter entries)) := by
  have haxes : Json.Reads (ascii "[\"x\",\"y\"]") (.array [.string (ascii "x"), .string (ascii "y")]) :=
    Json.reads_array (.cons (reads_plainText (ascii "x") rfl) (.cons (reads_plainText (ascii "y") rfl) .nil))
  have hnames : ∀ entry ∈ quotedWriter.features, ∃ names, Json.Reads entry.1.namesJson names := by
    intro entry hentry
    obtain rfl | rfl := List.mem_pair.mp hentry
    · exact ⟨_, haxes⟩
    · exact ⟨_, reads_nullText⟩
  obtain ⟨-, _, text, entries, -, htext, -, hdescribes, hparse⟩ :=
    infoJSON_parse quotedWriter ⟨rfl, rfl, rfl, rfl, rfl⟩ hnames
  refine ⟨text, entries, htext, ?_, hparse⟩
  cases hdescribes with
  | cons hfirst hrest =>
      cases hrest with
      | cons hsecond hrest =>
          cases hrest
          rw [List.map_cons, List.map_cons, hfirst.name, hsecond.name]
          rfl

end DuckdbLerobot.Copy
