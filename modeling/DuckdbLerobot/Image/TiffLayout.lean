import DuckdbLerobot.Image.DepthRoundTrip
import DuckdbLerobot.Image.TiffAccess
import DuckdbLerobot.Library.Containers

/-!
# The layouts of a depth image

A TIFF may have its numbers in either byte order, its directory anywhere, a field as SHORT or as LONG, the values of
a field in its entry or in a table, the rows in strips of any number of rows, and fields that have nothing to do with
the image. `TiffLayout` is such a choice, `TiffLayout.Describes` says that it is one for an image, and
`TiffLayout.InFile` that a file is written in this way. None of them refers to the reader.

`decodeDepthTiff_layouts` says that the reader returns the same for all layouts of an image, and that it is safe on
every file.
-/

set_option autoImplicit false

namespace DuckdbLerobot.Image

open DuckdbLerobot.Library DuckdbLerobot.Storage

/-! ## Images -/

/-- An image of depths, row by row. The sample of a float is the number that its bits are. -/
structure DepthImage where
  rawType : LerobotRawVisualType
  width : Nat
  height : Nat
  samples : List Nat
  depth : rawType ≠ .rgb24
  width_pos : 0 < width
  height_pos : 0 < height
  length_samples : samples.length = width * height
  samples_lt : ∀ sample ∈ samples, sample < 256 ^ bytesPerSample rawType
  limit : width * height * bytesPerSample rawType ≤ maxImageBytes

/-- The image as `lerobot_decode_image` is to return it, with its samples as on a little-endian machine. -/
def DepthImage.value (image : DepthImage) : ImageValue where
  image := image.samples.flatMap (littleEndian (bytesPerSample image.rawType))
  width := image.width
  height := image.height
  channels := 1
  dtype := depthDtype image.rawType

/-- The two kinds of samples. -/
theorem DepthImage.sample_cases (image : DepthImage) :
    (bytesPerSample image.rawType = 2 ∧ DepthFrame.sampleFormat image.rawType = 1 ∧
        depthDtype image.rawType = "uint16") ∨
      (bytesPerSample image.rawType = 4 ∧ DepthFrame.sampleFormat image.rawType = 3 ∧
        depthDtype image.rawType = "float32") := by
  cases hraw : image.rawType with
  | rgb24 => exact absurd hraw image.depth
  | depthUint16 => exact .inl ⟨rfl, rfl, rfl⟩
  | depthFloat32 => exact .inr ⟨rfl, rfl, rfl⟩

/-! ## Layouts -/

/-- A field of a directory, with values of the type `SHORT` or `LONG`, and the place of its table. -/
structure TiffField where
  tag : Nat
  long : Bool
  values : List Nat
  table : Nat
  deriving DecidableEq

namespace TiffField

variable (field : TiffField)

def type : Nat := if field.long then 4 else 3

/-- The tag with the values. -/
def tagged : Nat × List Nat := (field.tag, field.values)

/-- The bytes of one value. -/
def valueBytes : Nat := if field.long then 4 else 2

/-- The bytes of all values. They are in the entry if they fit in its four bytes. -/
def size : Nat := field.values.length * field.valueBytes

/-- The values as they are written. -/
def bytes (little : Bool) : Bytes := field.values.flatMap (numberBytes little field.valueBytes)

end TiffField

/-- An entry of a directory: a field of the image, or one of another tag. -/
inductive DirectoryEntry
  | field (field : TiffField)
  | other (tag : Nat)
  deriving DecidableEq

/-- The field of an entry. -/
def DirectoryEntry.field? : DirectoryEntry → Option TiffField
  | .field known => some known
  | .other _ => none

/-- How an image is laid out in a file. -/
structure TiffLayout where
  little : Bool
  directory : Nat
  entries : List DirectoryEntry
  rowsPerStrip : Nat
  /-- The places of the strips. -/
  offsets : List Nat

namespace TiffLayout

variable (layout : TiffLayout) (image : DepthImage)

/-- The fields of the image. -/
def fields : List TiffField := layout.entries.filterMap DirectoryEntry.field?

/-- The values of a tag. -/
def valuesOf (tag : Nat) : Option (List Nat) :=
  (layout.fields.map TiffField.tagged).lookup tag

/-- The samples of a strip. -/
def stripSamples (i : Nat) : List Nat :=
  (image.samples.drop (i * (layout.rowsPerStrip * image.width))).take (layout.rowsPerStrip * image.width)

/-- The bytes of a strip. -/
def strip (i : Nat) : Bytes :=
  (layout.stripSamples image i).flatMap (numberBytes layout.little (bytesPerSample image.rawType))

/-- The regions of the file: the header, the directory, the tables and the strips. -/
def regions : List (Nat × Nat) :=
  (0, 8) :: (layout.directory, 2 + layout.entries.length * 12) ::
    (((layout.fields.filter (4 < TiffField.size ·)).map fun field => (field.table, field.size)) ++
      (List.range layout.offsets.length).map fun i => (layout.offsets.getD i 0, (layout.strip image i).length))

end TiffLayout

/-- Two regions that do not overlap. -/
def Separate (first second : Nat × Nat) : Prop :=
  first.1 + first.2 ≤ second.1 ∨ second.1 + second.2 ≤ first.1

instance (first second : Nat × Nat) : Decidable (Separate first second) :=
  inferInstanceAs (Decidable (_ ∨ _))

/-- **A layout of an image**: its fields say what the image is, in the order of the directory or in any other. The
photometric interpretation is that zero is black. -/
structure TiffLayout.Describes (layout : TiffLayout) (image : DepthImage) : Prop where
  entries_lt : layout.entries.length < 2 ^ 16
  tags_nodup : (layout.fields.map TiffField.tag).Nodup
  tags_known : ∀ field ∈ layout.fields, field.tag ∈ knownTags
  values_lt : ∀ field ∈ layout.fields, ∀ value ∈ field.values, value < 256 ^ field.valueBytes
  others : ∀ tag, .other tag ∈ layout.entries → tag < 2 ^ 16 ∧ tag ∉ knownTags
  width : layout.valuesOf 256 = some [image.width]
  height : layout.valuesOf 257 = some [image.height]
  bits : layout.valuesOf 258 = some [bytesPerSample image.rawType * 8]
  /-- Samples are unsigned numbers, if the layout does not say what they are. -/
  format : layout.valuesOf 339 = some [DepthFrame.sampleFormat image.rawType] ∨
    layout.valuesOf 339 = none ∧ image.rawType = .depthUint16
  /-- No compression, zero is black, the first row is on top, one sample for each pixel, one plane. -/
  defaults : ∀ tag ∈ [259, 262, 274, 277, 284], layout.valuesOf tag = none ∨ layout.valuesOf tag = some [1]
  extra : layout.valuesOf 338 = none
  rows_pos : 0 < layout.rowsPerStrip
  /-- There is one strip, if the layout does not say how many rows a strip has. -/
  rows : layout.valuesOf 278 = some [layout.rowsPerStrip] ∨
    layout.valuesOf 278 = none ∧ layout.rowsPerStrip = image.height
  strips : layout.offsets.length = (image.height + layout.rowsPerStrip - 1) / layout.rowsPerStrip
  offsets : layout.valuesOf 273 = some layout.offsets
  counts : layout.valuesOf 279 =
    some ((List.range layout.offsets.length).map fun i => (layout.strip image i).length)

/-- The bytes of a file at the place of the entry of a field. -/
def TiffField.At (data : Bytes) (little : Bool) (place : Nat) (field : TiffField) : Prop :=
  BytesAt data place (numberBytes little 2 field.tag) ∧ BytesAt data (place + 2) (numberBytes little 2 field.type) ∧
    BytesAt data (place + 4) (numberBytes little 4 field.values.length) ∧
    if field.size ≤ 4 then BytesAt data (place + 8) (field.bytes little)
    else BytesAt data (place + 8) (numberBytes little 4 field.table) ∧ BytesAt data field.table (field.bytes little)

instance (data : Bytes) (little : Bool) (place : Nat) (field : TiffField) :
    Decidable (field.At data little place) :=
  inferInstanceAs <| Decidable <|
    BytesAt data place (numberBytes little 2 field.tag) ∧ BytesAt data (place + 2) (numberBytes little 2 field.type) ∧
      BytesAt data (place + 4) (numberBytes little 4 field.values.length) ∧
      if field.size ≤ 4 then BytesAt data (place + 8) (field.bytes little)
      else BytesAt data (place + 8) (numberBytes little 4 field.table) ∧ BytesAt data field.table (field.bytes little)

/-- The bytes of a file at the place of an entry. An entry of another tag may have any type and values. -/
def DirectoryEntry.At (data : Bytes) (little : Bool) (place : Nat) : DirectoryEntry → Prop
  | .field known => known.At data little place
  | .other tag => BytesAt data place (numberBytes little 2 tag)

instance (data : Bytes) (little : Bool) (place : Nat) (entry : DirectoryEntry) :
    Decidable (entry.At data little place) :=
  match entry with
  | .field known => inferInstanceAs (Decidable (known.At data little place))
  | .other tag => inferInstanceAs (Decidable (BytesAt data place (numberBytes little 2 tag)))

/-- **A file with a layout of an image.** Its regions do not overlap. -/
structure TiffLayout.InFile (layout : TiffLayout) (image : DepthImage) (data : Bytes) : Prop where
  magic : data.take 4 = if layout.little then [0x49, 0x49, 0x2a, 0x00] else [0x4d, 0x4d, 0x00, 0x2a]
  header : BytesAt data 4 (numberBytes layout.little 4 layout.directory)
  count : BytesAt data layout.directory (numberBytes layout.little 2 layout.entries.length)
  room : layout.directory + 2 + layout.entries.length * 12 ≤ data.length
  entries : ∀ i (entry : DirectoryEntry), layout.entries[i]? = some entry →
    entry.At data layout.little (layout.directory + 2 + i * 12)
  strips : ∀ i < layout.offsets.length, BytesAt data (layout.offsets.getD i 0) (layout.strip image i)
  separate : (layout.regions image).Pairwise Separate

/-! ## Fields are read as they were written -/

section Field

variable {data : Bytes} {little : Bool}

theorem readTiff_at {offset bytes value : Nat} (h : BytesAt data offset (numberBytes little bytes value))
    (hvalue : value < 256 ^ bytes) : readTiff data little offset bytes = .ok value := by
  have hinside := h.inside
  rw [length_numberBytes] at hinside
  exact readTiff_eq_ok.mpr ⟨hinside, (h.joinBytes_eq hvalue).symm⟩

namespace TiffField

theorem elementSize_type (field : TiffField) : elementSize field.type = field.valueBytes := by
  unfold type valueBytes
  cases field.long <;> rfl

theorem valueBytes_cases (field : TiffField) : field.valueBytes = 2 ∨ field.valueBytes = 4 := by
  unfold valueBytes
  cases field.long
  · exact .inl rfl
  · exact .inr rfl

theorem type_lt (field : TiffField) : field.type < 256 ^ 2 := by
  unfold type
  cases field.long <;> decide

theorem length_bytes (field : TiffField) (little : Bool) : (field.bytes little).length = field.size :=
  length_blocks (length_numberBytes little _) _

/-- The values are inside of the file, in the entry or in the table. -/
theorem At.size_le {field : TiffField} {place : Nat} (h : field.At data little place) : field.size ≤ data.length := by
  obtain ⟨-, -, -, hvalues⟩ := h
  split at hvalues
  · have hinside := hvalues.inside
    rw [length_bytes] at hinside
    omega
  · have hinside := hvalues.2.inside
    rw [length_bytes] at hinside
    omega

theorem At.table_le {field : TiffField} {place : Nat} (h : field.At data little place) (hlarge : 4 < field.size) :
    field.table + field.size ≤ data.length := by
  obtain ⟨-, -, -, hvalues⟩ := h
  rw [if_neg (by omega)] at hvalues
  have hinside := hvalues.2.inside
  rwa [length_bytes] at hinside

/-- **The values of a field are where the reader looks for them.** -/
theorem At.valuesOffset {field : TiffField} {place : Nat} (h : field.At data little place)
    (hlength : data.length < 2 ^ 32) :
    ∃ offset, valuesOffset data little place field.size = .ok offset ∧ BytesAt data offset (field.bytes little) := by
  obtain ⟨-, -, -, hvalues⟩ := h
  unfold Image.valuesOffset
  split at hvalues
  case isTrue hinline => exact ⟨place + 8, if_pos hinline, hvalues⟩
  case isFalse htable =>
    have hinside := hvalues.2.inside
    refine ⟨field.table, (if_neg htable).trans ?_, hvalues.2⟩
    exact readTiff_at hvalues.1 (by omega)

end TiffField

/-- **A field is read as it was written.** -/
theorem readFieldValues_at (hlength : data.length < 2 ^ 32) {field : TiffField} {place : Nat}
    (h : field.At data little place) (hvalues : ∀ value ∈ field.values, value < 256 ^ field.valueBytes)
    (hpos : 0 < field.values.length) (hmax : field.values.length ≤ maxElements data field.tag) {fields : TiffFields}
    (hnew : fields.lookup field.tag = none) :
    readFieldValues data little fields place field.tag = .ok field.values := by
  have hsize := h.size_le
  have hbytes := field.valueBytes_cases
  rw [TiffField.size] at hsize
  have hcount : field.values.length < 2 ^ 32 := by
    rcases hbytes with hbytes | hbytes <;> rw [hbytes] at hsize <;> omega
  have hvalid : ¬(field.valueBytes = 0 ∨ field.values.length = 0 ∨ maxElements data field.tag < field.values.length ∨
      data.length / field.valueBytes < field.values.length ∨ (fields.lookup field.tag).isSome) := by
    have hdiv : field.values.length ≤ data.length / field.valueBytes :=
      (Nat.le_div_iff_mul_le (by omega)).mpr hsize
    rw [hnew]
    simp only [Option.isSome_none, Bool.false_eq_true, or_false]
    omega
  obtain ⟨offset, hoffset, hat⟩ := h.valuesOffset hlength
  have hinside := hat.inside
  rw [field.length_bytes] at hinside
  obtain ⟨-, htype, helements, -⟩ := h
  refine except_bind_eq_ok.mpr ⟨field.type, readTiff_at htype field.type_lt, ?_⟩
  refine except_bind_eq_ok.mpr ⟨field.values.length, readTiff_at helements hcount, ?_⟩
  dsimp only
  rw [field.elementSize_type]
  refine except_bind_eq_ok.mpr ⟨(), reject_eq_ok.mpr hvalid, ?_⟩
  refine except_bind_eq_ok.mpr ⟨offset, hoffset, ?_⟩
  refine except_bind_eq_ok.mpr ⟨(), reject_eq_ok.mpr (by rw [TiffField.size] at hinside; omega), ?_⟩
  -- each value is one block of the table
  rw [mapM_eq_ok, List.forall₂_iff_get]
  refine ⟨List.length_range, ?_⟩
  intro j hj hj'
  have hblock := hat.block (length_numberBytes little _) (List.getElem?_eq_getElem hj')
  rw [List.get_eq_getElem, List.getElem_range]
  exact readTiff_at hblock (hvalues _ (List.getElem_mem hj'))

end Field

/-! ## The fields of a layout -/

namespace TiffLayout

variable {layout : TiffLayout} {image : DepthImage} {data : Bytes}

theorem mem_fields {field : TiffField} : field ∈ layout.fields ↔ .field field ∈ layout.entries := by
  rw [fields, List.mem_filterMap]
  constructor
  · rintro ⟨entry, hentry, hfield⟩
    cases entry with
    | field other =>
        cases hfield
        exact hentry
    | other tag => cases hfield
  · intro hentry
    exact ⟨_, hentry, rfl⟩

/-- A tag with values is the one of a field. -/
theorem exists_field {tag : Nat} {values : List Nat} (h : layout.valuesOf tag = some values) :
    ∃ field ∈ layout.fields, field.tag = tag ∧ field.values = values := by
  obtain ⟨field, hfield, hpair⟩ := List.mem_map.mp (mem_of_lookup h)
  cases hpair
  exact ⟨field, hfield, rfl, rfl⟩

theorem Describes.valuesOf_field (h : layout.Describes image) {field : TiffField} (hfield : field ∈ layout.fields) :
    layout.valuesOf field.tag = some field.values := by
  apply lookup_of_mem_nodup
  · rw [List.map_map]
    exact h.tags_nodup
  · exact List.mem_map_of_mem hfield

/-- The strips are counted as the reader counts them. -/
theorem Describes.length_offsets (h : layout.Describes image) :
    layout.offsets.length = (image.height - 1) / layout.rowsPerStrip + 1 := by
  have hheight := image.height_pos
  rw [h.strips, ← Nat.add_div_right _ h.rows_pos]
  congr 1
  omega

/-- **The fields other than the strip tables have one value.** -/
theorem Describes.length_values (h : layout.Describes image) {tag : Nat} (hknown : tag ∈ knownTags)
    {values : List Nat} (hvalues : layout.valuesOf tag = some values) :
    values.length = if tag = 273 ∨ tag = 279 then layout.offsets.length else 1 := by
  have hsome : ∀ {values' : List Nat}, layout.valuesOf tag = some values' → values = values' := fun h' =>
    Option.some.inj (hvalues.symm.trans h')
  have hdefault : tag ∈ [259, 262, 274, 277, 284] → values.length = 1 := fun htag => by
    rcases h.defaults tag htag with hnone | hone
    · exact absurd (hnone.symm.trans hvalues) nofun
    · rw [hsome hone]
      rfl
  simp only [knownTags, List.mem_cons, List.not_mem_nil, or_false] at hknown
  rcases hknown with rfl | rfl | rfl | rfl | rfl | rfl | rfl | rfl | rfl | rfl | rfl | rfl | rfl
  · exact congrArg List.length (hsome h.width)
  · exact congrArg List.length (hsome h.height)
  · exact congrArg List.length (hsome h.bits)
  · exact hdefault (by decide)
  · exact hdefault (by decide)
  · exact congrArg List.length (hsome h.offsets)
  · exact hdefault (by decide)
  · exact hdefault (by decide)
  · rcases h.rows with hrows | ⟨hrows, -⟩
    · exact congrArg List.length (hsome hrows)
    · exact absurd (hrows.symm.trans hvalues) nofun
  · rw [hsome h.counts]
    simp
  · exact hdefault (by decide)
  · exact absurd (h.extra.symm.trans hvalues) nofun
  · rcases h.format with hformat | ⟨hformat, -⟩
    · exact congrArg List.length (hsome hformat)
    · exact absurd (hformat.symm.trans hvalues) nofun

/-- The entry of a field is somewhere in the directory. -/
theorem InFile.exists_at (h : layout.InFile image data) {field : TiffField} (hfield : field ∈ layout.fields) :
    ∃ place, field.At data layout.little place := by
  obtain ⟨i, hi⟩ := List.mem_iff_getElem?.mp (mem_fields.mp hfield)
  exact ⟨_, h.entries i _ hi⟩

/-- Tables do not overlap. -/
theorem InFile.tables_separate (h : layout.InFile image data) {first second : TiffField}
    (hfirst : first ∈ layout.fields) (hsecond : second ∈ layout.fields) (hne : first ≠ second)
    (hlarge : 4 < first.size) (hlarge' : 4 < second.size) :
    Separate (first.table, first.size) (second.table, second.size) := by
  have htables := (List.pairwise_append.mp (h.separate.of_cons.of_cons)).1
  rw [List.pairwise_map] at htables
  have : Std.Symm fun first second : TiffField => Separate (first.table, first.size) (second.table, second.size) :=
    ⟨fun _ _ => Or.symm⟩
  apply htables.forall
  · exact List.mem_filter.mpr ⟨hfirst, by simpa using hlarge⟩
  · exact List.mem_filter.mpr ⟨hsecond, by simpa using hlarge'⟩
  · exact hne

/-- **There is room for both strip tables**, since they do not overlap: four bytes for each strip, in the file. -/
theorem InFile.offsets_le (h : layout.InFile image data) (hdescribes : layout.Describes image) :
    layout.offsets.length ≤ data.length / 4 := by
  obtain ⟨offsets, hoffsets, htag, hvalues⟩ := exists_field hdescribes.offsets
  obtain ⟨counts, hcounts, htag', hvalues'⟩ := exists_field hdescribes.counts
  obtain ⟨place, hat⟩ := h.exists_at hoffsets
  obtain ⟨place', hat'⟩ := h.exists_at hcounts
  have hne : offsets ≠ counts := by
    rintro rfl
    omega
  have hlength : counts.values.length = layout.offsets.length := by
    rw [hvalues', List.length_map, List.length_range]
  have hsize : offsets.size = layout.offsets.length * offsets.valueBytes := by
    rw [TiffField.size, hvalues]
  have hsize' : counts.size = layout.offsets.length * counts.valueBytes := by
    rw [TiffField.size, hlength]
  have hfile := hat.size_le
  have hfile' := hat'.size_le
  have hheader := h.header.inside
  rw [length_numberBytes] at hheader
  rw [Nat.le_div_iff_mul_le (by decide)]
  rcases offsets.valueBytes_cases with hbytes | hbytes <;> rw [hbytes] at hsize
  case inr => omega
  rcases counts.valueBytes_cases with hbytes' | hbytes' <;> rw [hbytes'] at hsize'
  case inr => omega
  -- both tables have values of two bytes: they are in the entries, or apart
  by_cases hlarge : 4 < offsets.size
  · have hseparate := h.tables_separate hoffsets hcounts hne hlarge (by omega)
    have hroom := hat.table_le hlarge
    have hroom' := hat'.table_le (by omega)
    rw [Separate] at hseparate
    omega
  · omega

/-- **The reader accepts the number of the values.** -/
theorem InFile.accepted (h : layout.InFile image data) (hdescribes : layout.Describes image) {field : TiffField}
    (hfield : field ∈ layout.fields) :
    0 < field.values.length ∧ field.values.length ≤ maxElements data field.tag := by
  have hlength := hdescribes.length_values (hdescribes.tags_known field hfield) (hdescribes.valuesOf_field hfield)
  have hheader := h.header.inside
  rw [length_numberBytes] at hheader
  split at hlength
  case isTrue htag =>
    rw [hlength, maxElements, if_pos htag]
    exact ⟨by rw [hdescribes.length_offsets]; exact Nat.succ_pos _, h.offsets_le hdescribes⟩
  case isFalse =>
    rw [hlength]
    exact ⟨Nat.one_pos, one_le_maxElements (by omega) _⟩

/-! ## The directory is read as it was written -/

/-- The entries up to some place have one more field, or none. -/
theorem take_fields {i : Nat} {entry : DirectoryEntry} (hi : layout.entries[i]? = some entry) :
    (layout.entries.take (i + 1)).filterMap DirectoryEntry.field? =
      (layout.entries.take i).filterMap DirectoryEntry.field? ++ entry.field?.toList := by
  rw [List.take_add_one, hi, List.filterMap_append]
  cases entry <;> rfl

/-- A field has another tag than the fields before it. -/
theorem Describes.lookup_before (h : layout.Describes image) {i : Nat} {field : TiffField}
    (hi : layout.entries[i]? = some (.field field)) :
    (((layout.entries.take i).filterMap DirectoryEntry.field?).map TiffField.tagged).lookup field.tag = none := by
  have hnodup := h.tags_nodup
  rw [fields, ← List.take_append_drop (i + 1) layout.entries, List.filterMap_append, take_fields hi,
    List.append_assoc, List.map_append, List.nodup_append] at hnodup
  rw [List.lookup_eq_none_iff]
  intro before hbefore
  obtain ⟨other, hother, rfl⟩ := List.mem_map.mp hbefore
  have hne := hnodup.2.2 other.tag (List.mem_map_of_mem hother) field.tag (by simp [DirectoryEntry.field?])
  simpa [TiffField.tagged] using Ne.symm hne

theorem tag_lt_of_known {tag : Nat} (h : tag ∈ knownTags) : tag < 256 ^ 2 := by
  have hall : ∀ tag ∈ knownTags, tag < 256 ^ 2 := by decide
  exact hall tag h

/-- **A round of the loop over the directory** finds the next field. -/
theorem InFile.readTiffEntry (h : layout.InFile image data) (hdescribes : layout.Describes image)
    (hlength : data.length < 2 ^ 32) {i : Nat} {entry : DirectoryEntry} (hi : layout.entries[i]? = some entry)
    {state : TiffFields × List Nat}
    (hstate : state.1 = ((layout.entries.take i).filterMap DirectoryEntry.field?).map TiffField.tagged) :
    ∃ state', Image.readTiffEntry data layout.little layout.directory state i = .ok state' ∧
      state'.1 = ((layout.entries.take (i + 1)).filterMap DirectoryEntry.field?).map TiffField.tagged := by
  have hat := h.entries i entry hi
  rw [take_fields hi, List.map_append, ← hstate]
  cases entry with
  | other tag =>
      obtain ⟨hsmall, hunknown⟩ := hdescribes.others tag (List.mem_of_getElem? hi)
      have htag : readTiff data layout.little (layout.directory + 2 + i * 12) 2 = .ok tag :=
        readTiff_at hat hsmall
      refine ⟨_, except_bind_eq_ok.mpr ⟨tag, htag, if_pos hunknown⟩, ?_⟩
      exact (List.append_nil _).symm
  | field field =>
      have hfield : field ∈ layout.fields := mem_fields.mpr (List.mem_of_getElem? hi)
      have hknown := hdescribes.tags_known field hfield
      obtain ⟨hpos, hmax⟩ := h.accepted hdescribes hfield
      have htag : readTiff data layout.little (layout.directory + 2 + i * 12) 2 = .ok field.tag :=
        readTiff_at hat.1 (tag_lt_of_known hknown)
      have hnew : state.1.lookup field.tag = none := by
        rw [hstate]
        exact hdescribes.lookup_before hi
      have hvalues := readFieldValues_at hlength hat (hdescribes.values_lt field hfield) hpos hmax hnew
      refine ⟨(state.1 ++ [field.tagged], if field.tag ≠ 338 ∧ field.tag ≠ 339 then
        state.2 ++ [layout.directory + 2 + i * 12] else state.2), ?_, rfl⟩
      refine except_bind_eq_ok.mpr ⟨field.tag, htag, (if_neg (not_not.mpr hknown)).trans ?_⟩
      rw [hvalues]
      rfl

/-- **The loop over the directory finds the fields of the layout.** -/
theorem InFile.readDirectory (h : layout.InFile image data) (hdescribes : layout.Describes image)
    (hlength : data.length < 2 ^ 32) :
    ∃ decoderEntries, (List.range layout.entries.length).foldlM
        (Image.readTiffEntry data layout.little layout.directory) ([], []) =
      .ok (layout.fields.map TiffField.tagged, decoderEntries) := by
  obtain ⟨⟨found, decoderEntries⟩, hloop, hfound⟩ := foldlM_range_total
    (f := Image.readTiffEntry data layout.little layout.directory)
    (I := fun i state => state.1 = ((layout.entries.take i).filterMap DirectoryEntry.field?).map TiffField.tagged)
    (n := layout.entries.length) (b := ([], [])) rfl (by
      intro i hi state hstate
      exact h.readTiffEntry hdescribes hlength (List.getElem?_eq_getElem hi) hstate)
  refine ⟨decoderEntries, hloop.trans ?_⟩
  rw [List.take_length] at hfound
  rw [fields, ← hfound]

/-! ## The strips are the samples -/

/-- The bytes of a sample, whatever their order in the file. -/
theorem sampleAt_eq {little : Bool} {place bytes value : Nat}
    (h : BytesAt data place (numberBytes little bytes value)) :
    sampleAt data little place bytes = littleEndian bytes value := by
  apply List.map_congr_left
  intro b hb
  have hlt := List.mem_range.mp hb
  have hsource : (if little then b else bytes - b - 1) < bytes := by
    split <;> omega
  rw [h.getD _ (by rwa [length_numberBytes]), getD_numberBytes little value hsource]
  cases little with
  | true => rfl
  | false =>
      congr 1
      simp only [Bool.false_eq_true, ↓reduceIte]
      omega

/-- **The pixels of a strip** are its samples as on a little-endian machine. -/
theorem stripPixels_eq {little : Bool} {offset bytes : Nat} {samples : List Nat}
    (h : BytesAt data offset (samples.flatMap (numberBytes little bytes))) :
    stripPixels data little offset samples.length bytes = samples.flatMap (littleEndian bytes) := by
  suffices hfirst : ∀ count ≤ samples.length,
      stripPixels data little offset count bytes = (samples.take count).flatMap (littleEndian bytes) by
    have hall := hfirst samples.length le_rfl
    rwa [List.take_length] at hall
  intro count
  induction count with
  | zero =>
      intro _
      rfl
  | succ count ih =>
      intro hcount
      have hblock := h.block (length_numberBytes little _) (List.getElem?_eq_getElem (Nat.lt_of_succ_le hcount))
      rw [stripPixels_succ, ih (Nat.le_of_succ_le hcount), sampleAt_eq hblock,
        List.take_succ_eq_append_getElem (Nat.lt_of_succ_le hcount), List.flatMap_append, List.flatMap_singleton]

/-- The number of the samples in a strip. -/
theorem length_stripSamples (layout : TiffLayout) (image : DepthImage) (i : Nat) :
    (layout.stripSamples image i).length =
      min layout.rowsPerStrip (image.height - i * layout.rowsPerStrip) * image.width := by
  rw [stripSamples, List.length_take, List.length_drop, image.length_samples, Nat.mul_comm image.width,
    ← Nat.mul_assoc, ← Nat.sub_mul, Nat.mul_min_mul_right]

theorem length_strip (layout : TiffLayout) (image : DepthImage) (i : Nat) :
    (layout.strip image i).length =
      min layout.rowsPerStrip (image.height - i * layout.rowsPerStrip) * image.width *
        bytesPerSample image.rawType := by
  rw [strip, length_blocks (length_numberBytes _ _), length_stripSamples]

/-- **The loop over the strips puts the image together.** -/
theorem InFile.readStrips (h : layout.InFile image data) (hdescribes : layout.Describes image) :
    Image.readStrips data layout.little layout.offsets
        ((List.range layout.offsets.length).map fun i => (layout.strip image i).length)
        layout.rowsPerStrip image.width image.height (bytesPerSample image.rawType) =
      .ok image.value.image := by
  -- the samples of the strips so far are the first samples of the image
  obtain ⟨pixels, hloop, hpixels⟩ := foldlM_range_total (ε := InvalidInputException)
    (f := fun pixels i => do
      let rows := min layout.rowsPerStrip (image.height - i * layout.rowsPerStrip)
      let length := rows * image.width * bytesPerSample image.rawType
      let offset := layout.offsets.getD i 0
      reject (((List.range layout.offsets.length).map fun i => (layout.strip image i).length).getD i 0 ≠ length ∨
        data.length < offset ∨ data.length - offset < length) "Truncated or inconsistent LeRobot TIFF strip"
      .ok (pixels ++ stripPixels data layout.little offset (rows * image.width) (bytesPerSample image.rawType)))
    (I := fun i pixels => pixels = (image.samples.take (i * (layout.rowsPerStrip * image.width))).flatMap
      (littleEndian (bytesPerSample image.rawType)))
    (n := layout.offsets.length) (b := []) (by simp) (by
      rintro i hi _ rfl
      have hat := h.strips i hi
      have hinside := hat.inside
      rw [length_strip] at hinside
      have hcount : ((List.range layout.offsets.length).map fun i => (layout.strip image i).length).getD i 0 =
          min layout.rowsPerStrip (image.height - i * layout.rowsPerStrip) * image.width *
            bytesPerSample image.rawType := by
        rw [List.getD_eq_getElem _ _ (by simpa using hi), List.getElem_map, List.getElem_range, length_strip]
      refine ⟨_, except_bind_eq_ok.mpr ⟨(), reject_eq_ok.mpr ?_, rfl⟩, ?_⟩
      · rw [hcount]
        omega
      · rw [← length_stripSamples, stripPixels_eq hat, stripSamples, Nat.succ_mul, List.take_add,
          List.flatMap_append])
  have hall : image.samples.length ≤ layout.offsets.length * (layout.rowsPerStrip * image.width) := by
    have hrows := all_rows hdescribes.rows_pos image.height_pos
    rw [hdescribes.length_offsets, image.length_samples, Nat.mul_comm image.width, ← Nat.mul_assoc]
    exact Nat.mul_le_mul_right _ (min_eq_right_iff.mp hrows)
  rw [Image.readStrips, hloop, hpixels, List.take_of_length_le hall]
  rfl

/-! ## The image is read as it was written -/

theorem scalar_of_lookup {tag value fallback : Nat} (h : layout.valuesOf tag = some [value]) :
    TiffFields.scalar (layout.fields.map TiffField.tagged) tag fallback = value := by
  have hlookup : (layout.fields.map TiffField.tagged).lookup tag = some [value] := h
  rw [TiffFields.scalar, hlookup]

theorem scalar_fallback {tag fallback : Nat} (h : layout.valuesOf tag = none) :
    TiffFields.scalar (layout.fields.map TiffField.tagged) tag fallback = fallback := by
  have hlookup : (layout.fields.map TiffField.tagged).lookup tag = none := h
  rw [TiffFields.scalar, hlookup]

/-- A tag with the value 1, or with this default. -/
theorem Describes.scalar_one (h : layout.Describes image) {tag : Nat} (htag : tag ∈ [259, 262, 274, 277, 284]) :
    TiffFields.scalar (layout.fields.map TiffField.tagged) tag 1 = 1 := by
  rcases h.defaults tag htag with hnone | hone
  · exact scalar_fallback hnone
  · exact scalar_of_lookup hone

/-- The samples are what the image has. -/
theorem Describes.uniform_format (h : layout.Describes image) :
    TiffFields.uniform (layout.fields.map TiffField.tagged) 1 339 1 =
      .ok (DepthFrame.sampleFormat image.rawType) := by
  rcases h.format with hformat | ⟨hnone, htype⟩
  · exact DepthFrame.uniform_of_single hformat
  · have hlookup : (layout.fields.map TiffField.tagged).lookup 339 = none := hnone
    rw [TiffFields.uniform, hlookup, htype]
    rfl

/-- The rows of a strip, or all of them. -/
theorem Describes.scalar_rows (h : layout.Describes image) :
    TiffFields.scalar (layout.fields.map TiffField.tagged) 278 image.height = layout.rowsPerStrip := by
  rcases h.rows with hrows | ⟨hnone, hrows⟩
  · exact scalar_of_lookup hrows
  · exact (scalar_fallback hnone).trans hrows.symm

/-- **The fields of a layout pass the checks of the reader.** -/
theorem InFile.checkTiffFields (h : layout.InFile image data) (hdescribes : layout.Describes image) :
    Image.checkTiffFields data (layout.fields.map TiffField.tagged) 1 (bytesPerSample image.rawType * 8)
      (DepthFrame.sampleFormat image.rawType) = .ok true := by
  have hsamples : ¬(1 = 0 ∨ 4 < 1 ∨ bytesPerSample image.rawType * 8 = 0 ∨
      (if DepthFrame.sampleFormat image.rawType = 1 then 16 < bytesPerSample image.rawType * 8
        else ¬(DepthFrame.sampleFormat image.rawType = 3 ∧ bytesPerSample image.rawType * 8 = 32 ∧ 1 = 1))) := by
    rcases image.sample_cases with ⟨hbytes, hformat, -⟩ | ⟨hbytes, hformat, -⟩
    · rw [hbytes, hformat]
      decide
    · rw [hbytes, hformat]
      decide
  have hdepth : ¬(1 ≠ 1 ∨ ¬(bytesPerSample image.rawType * 8 = 16 ∧ DepthFrame.sampleFormat image.rawType = 1 ∨
      bytesPerSample image.rawType * 8 = 32 ∧ DepthFrame.sampleFormat image.rawType = 3)) := by
    rcases image.sample_cases with ⟨hbytes, hformat, -⟩ | ⟨hbytes, hformat, -⟩
    · rw [hbytes, hformat]
      decide
    · rw [hbytes, hformat]
      decide
  have hextra : (layout.fields.map TiffField.tagged).lookup 338 = none := hdescribes.extra
  have hoffsets : (layout.fields.map TiffField.tagged).lookup 273 = some layout.offsets := hdescribes.offsets
  have hcounts : (layout.fields.map TiffField.tagged).lookup 279 =
      some ((List.range layout.offsets.length).map fun i => (layout.strip image i).length) := hdescribes.counts
  have hinside : ¬((layout.offsets.zip ((List.range layout.offsets.length).map fun i =>
      (layout.strip image i).length)).any fun strip =>
        data.length < strip.1 ∨ data.length - strip.1 < strip.2) = true := by
    rw [List.any_eq_true]
    rintro ⟨strip, hstrip, hout⟩
    obtain ⟨i, hi, hget⟩ := List.mem_iff_getElem.mp hstrip
    rw [List.length_zip, List.length_map, List.length_range, Nat.min_self] at hi
    have hroom := (h.strips i hi).inside
    rw [List.getD_eq_getElem _ _ hi] at hroom
    rw [List.getElem_zip, List.getElem_map, List.getElem_range] at hget
    subst hget
    simp only [decide_eq_true_eq] at hout
    omega
  refine except_bind_eq_ok.mpr ⟨(), reject_eq_ok.mpr hsamples, ?_⟩
  rw [hextra, hoffsets, hcounts]
  refine except_bind_eq_ok.mpr ⟨(), reject_eq_ok.mpr Bool.false_ne_true, ?_⟩
  refine except_bind_eq_ok.mpr ⟨(), reject_eq_ok.mpr (by simp), ?_⟩
  refine except_bind_eq_ok.mpr ⟨(), reject_eq_ok.mpr hinside, ?_⟩
  refine (if_neg hdepth).trans (if_neg ?_)
  rw [hdescribes.scalar_one (by decide)]
  exact not_not.mpr rfl

/-- **The image of a layout** is the image that it describes. -/
theorem InFile.readDepthImage (h : layout.InFile image data) (hdescribes : layout.Describes image) :
    Image.readDepthImage data layout.little (layout.fields.map TiffField.tagged) (bytesPerSample image.rawType * 8)
      (DepthFrame.sampleFormat image.rawType) = .ok image.value := by
  have hbytes : bytesPerSample image.rawType * 8 / 8 = bytesPerSample image.rawType :=
    Nat.mul_div_cancel _ (by decide)
  have hsample : 0 < bytesPerSample image.rawType := by
    rcases image.sample_cases with ⟨hbytes, -, -⟩ | ⟨hbytes, -, -⟩ <;> omega
  have hdimensions : ¬(image.width = 0 ∨ image.height = 0 ∨
      maxImageBytes / bytesPerSample image.rawType < image.width ∨
      maxImageBytes / (image.width * bytesPerSample image.rawType) < image.height) := by
    have hsize : image.height * (image.width * bytesPerSample image.rawType) ≤ maxImageBytes :=
      (rows_le le_rfl).trans image.limit
    have hrow : image.width * bytesPerSample image.rawType ≤ maxImageBytes :=
      (Nat.le_mul_of_pos_left _ image.height_pos).trans hsize
    have hrowPos : 0 < image.width * bytesPerSample image.rawType := Nat.mul_pos image.width_pos hsample
    rintro (hzero | hzero | hwide | htall)
    · exact absurd hzero image.width_pos.ne'
    · exact absurd hzero image.height_pos.ne'
    · exact absurd ((Nat.le_div_iff_mul_le hsample).mpr hrow) hwide.not_ge
    · exact absurd ((Nat.le_div_iff_mul_le hrowPos).mpr hsize) htall.not_ge
  have hstrips : ¬(layout.rowsPerStrip = 0 ∨
      layout.offsets.length ≠ (image.height - 1) / layout.rowsPerStrip + 1 ∨
      ((List.range layout.offsets.length).map fun i => (layout.strip image i).length).length ≠
        layout.offsets.length) := by
    rintro (hzero | hcount | hcount)
    · exact absurd hzero hdescribes.rows_pos.ne'
    · exact hcount hdescribes.length_offsets
    · exact hcount (by rw [List.length_map, List.length_range])
  have hoffsets : (layout.fields.map TiffField.tagged).lookup 273 = some layout.offsets := hdescribes.offsets
  have hcounts : (layout.fields.map TiffField.tagged).lookup 279 =
      some ((List.range layout.offsets.length).map fun i => (layout.strip image i).length) := hdescribes.counts
  have hdtype : (if DepthFrame.sampleFormat image.rawType = 3 then "float32" else "uint16") =
      depthDtype image.rawType := by
    rcases image.sample_cases with ⟨-, hformat, hdtype⟩ | ⟨-, hformat, hdtype⟩
    · rw [hformat, hdtype]
      rfl
    · rw [hformat, hdtype]
      rfl
  rw [Image.readDepthImage, hoffsets, hcounts, hdescribes.scalar_one (by decide), hdescribes.scalar_one (by decide),
    hdescribes.scalar_one (by decide), scalar_of_lookup hdescribes.width, scalar_of_lookup hdescribes.height, hbytes]
  dsimp only
  rw [hdescribes.scalar_rows]
  refine except_bind_eq_ok.mpr ⟨(), reject_eq_ok.mpr (by decide), ?_⟩
  refine except_bind_eq_ok.mpr ⟨(), reject_eq_ok.mpr hdimensions, ?_⟩
  refine except_bind_eq_ok.mpr ⟨(), reject_eq_ok.mpr hstrips, ?_⟩
  refine except_bind_eq_ok.mpr ⟨_, h.readStrips hdescribes, ?_⟩
  rw [hdtype]
  rfl

/-- The first byte says what the byte order is. -/
theorem InFile.order (h : layout.InFile image data) : (data.getD 0 0 == 0x49) = layout.little := by
  have hmagic := congrArg (fun start => start.getD 0 0) h.magic
  have hfirst : (data.take 4).getD 0 0 = data.getD 0 0 := by
    cases data <;> rfl
  rw [hfirst] at hmagic
  rw [hmagic]
  cases layout.little <;> rfl

/-- **A file is decoded to the image that it was made for**, in whatever layout. -/
theorem InFile.decodeDepthTiff (h : layout.InFile image data) (hdescribes : layout.Describes image)
    (hlength : data.length < 2 ^ 32) :
    ∃ decoderEntries, Image.decodeDepthTiff data = .ok (some image.value, decoderEntries) := by
  have hroom := h.room
  have hdirectory : readTiff data layout.little 4 4 = .ok layout.directory := readTiff_at h.header (by omega)
  have hcount : readTiff data layout.little layout.directory 2 = .ok layout.entries.length :=
    readTiff_at h.count hdescribes.entries_lt
  have hfits : ¬(data.length < layout.directory ∨
      (data.length - layout.directory - 2) / 12 < layout.entries.length) := by
    omega
  obtain ⟨decoderEntries, hloop⟩ := h.readDirectory hdescribes hlength
  have hsamples : TiffFields.scalar (layout.fields.map TiffField.tagged) 277 1 = 1 :=
    hdescribes.scalar_one (by decide)
  have hbits : TiffFields.uniform (layout.fields.map TiffField.tagged) 1 258 1 =
      .ok (bytesPerSample image.rawType * 8) := DepthFrame.uniform_of_single hdescribes.bits
  refine ⟨decoderEntries, ?_⟩
  rw [Image.decodeDepthTiff, h.order]
  refine except_bind_eq_ok.mpr ⟨_, hdirectory, except_bind_eq_ok.mpr ⟨_, hcount, ?_⟩⟩
  refine except_bind_eq_ok.mpr ⟨(), reject_eq_ok.mpr hfits, ?_⟩
  refine except_bind_eq_ok.mpr ⟨_, hloop, ?_⟩
  dsimp only
  rw [hsamples]
  refine except_bind_eq_ok.mpr ⟨_, hbits, except_bind_eq_ok.mpr ⟨_, hdescribes.uniform_format, ?_⟩⟩
  refine except_bind_eq_ok.mpr ⟨true, h.checkTiffFields hdescribes, (if_pos rfl).trans ?_⟩
  exact except_bind_eq_ok.mpr ⟨_, h.readDepthImage hdescribes, rfl⟩

end TiffLayout

theorem IsTiff.length_pos {data : Bytes} (h : IsTiff data) : 0 < data.length := by
  cases data with
  | nil => rcases h with h | h <;> cases h
  | cons byte data => exact Nat.succ_pos _

/-- **The decoder does not depend on the layout, and is safe.** A file in any layout of an image is decoded to this
image. On every file with the magic of a TIFF no byte outside of the file is read and none outside of the pixel
buffer is written, and the buffer has the size of the image, within the limit, when an image is returned. -/
theorem decodeDepthTiff_layouts {data : Bytes} (hlength : data.length < 2 ^ 32) (htiff : IsTiff data) :
    (∀ layout image, TiffLayout.Describes layout image → layout.InFile image data →
        ∃ decoderEntries, decodeDepthTiffAccess data = .ok (some image.value, decoderEntries)) ∧
      (∀ access, decodeDepthTiffAccess data ≠ .error (.outside access)) ∧
      ∀ value decoderEntries, decodeDepthTiffAccess data = .ok (some value, decoderEntries) → value.Complete := by
  have hsimulates := decodeDepthTiffAccess_simulates hlength htiff.length_pos
  refine ⟨?_, ?_, ?_⟩
  · intro layout image hdescribes hfile
    obtain ⟨decoderEntries, hdecode⟩ := hfile.decodeDepthTiff hdescribes hlength
    rw [hdecode] at hsimulates
    cases haccess : decodeDepthTiffAccess data with
    | error stop =>
        rw [haccess] at hsimulates
        exact hsimulates.elim
    | ok result =>
        rw [haccess] at hsimulates
        exact ⟨decoderEntries, congrArg Except.ok hsimulates.1⟩
  · intro outside haccess
    rw [haccess] at hsimulates
    cases hdecode : decodeDepthTiff data with
    | error exception =>
        rw [hdecode] at hsimulates
        cases hsimulates
    | ok result =>
        rw [hdecode] at hsimulates
        exact hsimulates
  · intro value decoderEntries haccess
    rw [haccess] at hsimulates
    cases hdecode : decodeDepthTiff data with
    | error exception =>
        rw [hdecode] at hsimulates
        exact hsimulates.elim
    | ok result =>
        rw [hdecode] at hsimulates
        obtain ⟨hsame, hcomplete⟩ := hsimulates
        exact hcomplete value (congrArg Prod.fst hsame).symm

theorem depthUint16_depth : LerobotRawVisualType.depthUint16 ≠ .rgb24 := by
  decide

theorem three_pos : 0 < 3 := by
  decide

theorem threeRows_lt : ∀ sample ∈ [1, 258, 65535], sample < 256 ^ bytesPerSample .depthUint16 := by
  decide

theorem threeRows_limit : 1 * 3 * bytesPerSample .depthUint16 ≤ maxImageBytes := by
  decide

/-- An image of three rows. -/
def threeRows : DepthImage where
  rawType := .depthUint16
  width := 1
  height := 3
  samples := [1, 258, 65535]
  depth := depthUint16_depth
  width_pos := Nat.one_pos
  height_pos := three_pos
  length_samples := rfl
  samples_lt := threeRows_lt
  limit := threeRows_limit

/-- The highest byte first, each row a strip, the last row first in the file, the directory at the end and not in
the order of the tags, and `Software` among its fields. -/
def bigEndianRows : TiffLayout where
  little := false
  directory := 32
  entries := [.field ⟨279, false, [2, 2, 2], 26⟩, .field ⟨256, false, [1], 0⟩, .other 305,
    .field ⟨273, true, [10, 12, 8], 14⟩, .field ⟨257, true, [3], 0⟩, .field ⟨258, false, [16], 0⟩,
    .field ⟨278, true, [1], 0⟩, .field ⟨262, false, [1], 0⟩]
  rowsPerStrip := 1
  offsets := [10, 12, 8]

/-- The file with this layout. -/
def bigEndianFile : Bytes :=
  [0x4d, 0x4d, 0x00, 0x2a, 0x00, 0x00, 0x00, 0x20, 0xff, 0xff, 0x00, 0x01, 0x01, 0x02,
    0x00, 0x00, 0x00, 0x0a, 0x00, 0x00, 0x00, 0x0c, 0x00, 0x00, 0x00, 0x08, 0x00, 0x02, 0x00, 0x02, 0x00, 0x02,
    0x00, 0x08,
    0x01, 0x17, 0x00, 0x03, 0x00, 0x00, 0x00, 0x03, 0x00, 0x00, 0x00, 0x1a,
    0x01, 0x00, 0x00, 0x03, 0x00, 0x00, 0x00, 0x01, 0x00, 0x01, 0x00, 0x00,
    0x01, 0x31, 0x00, 0x02, 0x00, 0x00, 0x00, 0x02, 0x41, 0x00, 0x00, 0x00,
    0x01, 0x11, 0x00, 0x04, 0x00, 0x00, 0x00, 0x03, 0x00, 0x00, 0x00, 0x0e,
    0x01, 0x01, 0x00, 0x04, 0x00, 0x00, 0x00, 0x01, 0x00, 0x00, 0x00, 0x03,
    0x01, 0x02, 0x00, 0x03, 0x00, 0x00, 0x00, 0x01, 0x00, 0x10, 0x00, 0x00,
    0x01, 0x16, 0x00, 0x04, 0x00, 0x00, 0x00, 0x01, 0x00, 0x00, 0x00, 0x01,
    0x01, 0x06, 0x00, 0x03, 0x00, 0x00, 0x00, 0x01, 0x00, 0x01, 0x00, 0x00,
    0x00, 0x00, 0x00, 0x00]

theorem bigEndianRows_describes : bigEndianRows.Describes threeRows where
  entries_lt := by decide
  tags_nodup := by decide
  tags_known := by decide
  values_lt := by decide
  others := by
    intro tag htag
    simp only [bigEndianRows, List.mem_cons, DirectoryEntry.other.injEq, reduceCtorEq, List.not_mem_nil, or_false,
      false_or] at htag
    subst htag
    decide
  width := rfl
  height := rfl
  bits := rfl
  format := .inr ⟨rfl, rfl⟩
  defaults := by decide
  extra := rfl
  rows_pos := Nat.one_pos
  rows := .inl rfl
  strips := rfl
  offsets := rfl
  counts := rfl

theorem bigEndianFile_inFile : bigEndianRows.InFile threeRows bigEndianFile where
  magic := rfl
  header := by decide +kernel
  count := by decide +kernel
  room := by decide +kernel
  entries := by
    have hall : ∀ i < bigEndianRows.entries.length, ∀ entry ∈ bigEndianRows.entries[i]?,
        DirectoryEntry.At bigEndianFile false (32 + 2 + i * 12) entry := by
      decide +kernel
    intro i entry hi
    exact hall i (List.getElem?_eq_some_iff.mp hi).1 entry hi
  strips := by decide +kernel
  separate := by decide +kernel

theorem bigEndianFile_decoded :
    (∃ decoderEntries, decodeDepthTiffAccess bigEndianFile =
        .ok (some ⟨[0x01, 0x00, 0x02, 0x01, 0xff, 0xff], 1, 3, 1, "uint16"⟩, decoderEntries)) ∧
      ∀ access, decodeDepthTiffAccess bigEndianFile ≠ .error (.outside access) := by
  have hlength : bigEndianFile.length < 2 ^ 32 := by decide +kernel
  have htiff : IsTiff bigEndianFile := .inr rfl
  obtain ⟨hlayouts, hinside, -⟩ := decodeDepthTiff_layouts hlength htiff
  exact ⟨hlayouts bigEndianRows threeRows bigEndianRows_describes bigEndianFile_inFile, hinside⟩

end DuckdbLerobot.Image
