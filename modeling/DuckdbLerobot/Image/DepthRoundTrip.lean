import DuckdbLerobot.Image.DepthTiff

/-!
# Depth images are read as they were written

The directory of a depth image has eleven entries, and the reader finds each of them where the writer put it
(`readTiffEntry_written`). Its one strip is the raw frame. The header makes the image longer than the
frame, and the reader has a limit for the image: `depthImage_roundTrip` says which frames come back.
-/

set_option autoImplicit false

namespace DuckdbLerobot.Image

open DuckdbLerobot.Library DuckdbLerobot.Storage DuckdbLerobot.Copy

/-! ## What is written -/

theorem appendUInt16_eq (result : Bytes) (value : Nat) :
    appendUInt16 result value = result ++ littleEndian 2 value := rfl

theorem appendUInt32_eq (result : Bytes) (value : Nat) :
    appendUInt32 result value = result ++ littleEndian 4 value := by
  simp only [appendUInt32, littleEndian, byteOf, List.range_succ, List.range_zero, List.nil_append,
    List.foldl_append, List.foldl_cons, List.foldl_nil, List.map_append, List.map_cons,
    List.map_nil, List.append_assoc, Nat.mul_comm]

/-- The twelve bytes of an entry. -/
def TiffEntry.bytes (entry : TiffEntry) : Bytes :=
  littleEndian 2 entry.tag ++ (littleEndian 2 entry.type ++ (littleEndian 4 1 ++
    littleEndian 4 entry.value))

theorem appendTiffEntry_eq (result : Bytes) (entry : TiffEntry) :
    appendTiffEntry result entry = result ++ entry.bytes := by
  simp only [appendTiffEntry, appendUInt16_eq, appendUInt32_eq, TiffEntry.bytes, List.append_assoc]

@[simp] theorem TiffEntry.length_bytes (entry : TiffEntry) : entry.bytes.length = 12 := by
  simp [TiffEntry.bytes]

theorem foldl_appendTiffEntry (entries : List TiffEntry) (result : Bytes) :
    entries.foldl appendTiffEntry result = result ++ entries.flatMap TiffEntry.bytes := by
  induction entries generalizing result with
  | nil => simp
  | cons entry entries ih => rw [List.foldl_cons, ih, appendTiffEntry_eq]; simp

theorem length_tiffEntries (entries : List TiffEntry) :
    (entries.flatMap TiffEntry.bytes).length = entries.length * 12 := by
  induction entries with
  | nil => rfl
  | cons entry entries ih => simp [ih]; omega

/-- A TIFF with one directory, which starts at the byte 8. -/
def tiffBytes (entries : List TiffEntry) (pixels : Bytes) : Bytes :=
  tiffHeader ++ (entries.flatMap TiffEntry.bytes ++ (littleEndian 4 0 ++ pixels))

theorem length_tiffHeader : tiffHeader.length = 10 := rfl

theorem length_tiffBytes (entries : List TiffEntry) (pixels : Bytes) :
    (tiffBytes entries pixels).length = 14 + entries.length * 12 + pixels.length := by
  simp only [tiffBytes, List.length_append, length_tiffHeader, length_tiffEntries,
    length_littleEndian]
  omega

/-! ## What is read -/

/-- **A number is read where it was written**, with the lowest byte first. -/
theorem readTiff_of_split {data before after : Bytes} {offset bytes width value : Nat}
    (hdata : data = before ++ (littleEndian width value ++ after)) (hoffset : before.length = offset)
    (hbytes : bytes ≤ width) (hvalue : value < 256 ^ bytes) :
    readTiff data true offset bytes = .ok value := by
  have hroom : ¬(data.length < offset ∨ data.length - offset < bytes) := by
    have hlength := congrArg List.length hdata
    rw [List.length_append, List.length_append, length_littleEndian] at hlength
    omega
  refine except_bind_eq_ok.mpr ⟨(), reject_eq_ok.mpr hroom, ?_⟩
  rw [joinBytes_of_split hdata hoffset hbytes hvalue]

/-- A directory entry that fits its type, and that the reader needs. -/
structure TiffEntry.Readable (entry : TiffEntry) : Prop where
  known : entry.tag ∈ knownTags
  notExtra : entry.tag ≠ 338
  type_eq : entry.type = 3 ∨ entry.type = 4
  value_lt : entry.value < 256 ^ elementSize entry.type

theorem TiffEntry.Readable.tag_lt {entry : TiffEntry} (h : entry.Readable) :
    entry.tag < 256 ^ 2 := by
  have hall : ∀ tag ∈ knownTags, tag < 256 ^ 2 := by decide
  exact hall entry.tag h.known

theorem TiffEntry.Readable.size_pos {entry : TiffEntry} (h : entry.Readable) :
    0 < elementSize entry.type ∧ elementSize entry.type ≤ 4 := by
  rcases h.type_eq with htype | htype <;> rw [htype] <;> decide

theorem one_le_maxElements {data : Bytes} (h : 4 ≤ data.length) (tag : Nat) :
    1 ≤ maxElements data tag := by
  unfold maxElements
  split
  · omega
  · split <;> decide

/-- **An entry is read as it was written.** -/
theorem readFieldValues_written {data before after : Bytes} {entry : TiffEntry} {fields : TiffFields}
    {offset : Nat} (hdata : data = before ++ (entry.bytes ++ after)) (hoffset : before.length = offset)
    (h : entry.Readable) (hnew : fields.lookup entry.tag = none) :
    readFieldValues data true fields offset entry.tag = .ok [entry.value] := by
  obtain ⟨hpos, hfour⟩ := h.size_pos
  have hlength : offset + 12 ≤ data.length := by
    rw [hdata, List.length_append, List.length_append, TiffEntry.length_bytes]
    omega
  have htypeAt : data = (before ++ littleEndian 2 entry.tag) ++ (littleEndian 2 entry.type ++
      (littleEndian 4 1 ++ (littleEndian 4 entry.value ++ after))) := by
    simp [hdata, TiffEntry.bytes]
  have hcountAt : data = (before ++ (littleEndian 2 entry.tag ++ littleEndian 2 entry.type)) ++
      (littleEndian 4 1 ++ (littleEndian 4 entry.value ++ after)) := by
    simp [hdata, TiffEntry.bytes]
  have hvalueAt : data = (before ++ (littleEndian 2 entry.tag ++ (littleEndian 2 entry.type ++
      littleEndian 4 1))) ++ (littleEndian 4 entry.value ++ after) := by
    simp [hdata, TiffEntry.bytes]
  have htypeLt : entry.type < 256 ^ 2 := by
    rcases h.type_eq with htype | htype <;> rw [htype] <;> decide
  have htype : readTiff data true (offset + 2) 2 = .ok entry.type :=
    readTiff_of_split htypeAt (by simp [hoffset]) le_rfl htypeLt
  have helements : readTiff data true (offset + 4) 4 = .ok 1 :=
    readTiff_of_split hcountAt (by simp [hoffset]) le_rfl (by decide)
  have hvalue : readTiff data true (offset + 8) (elementSize entry.type) = .ok entry.value :=
    readTiff_of_split hvalueAt (by simp [hoffset]) hfour h.value_lt
  have hvalid : ¬(elementSize entry.type = 0 ∨ 1 = 0 ∨ maxElements data entry.tag < 1 ∨
      data.length / elementSize entry.type < 1 ∨ (fields.lookup entry.tag).isSome) := by
    have hmax : 1 ≤ maxElements data entry.tag := one_le_maxElements (by omega) entry.tag
    have hdiv : 1 ≤ data.length / elementSize entry.type := by
      rw [Nat.le_div_iff_mul_le hpos]
      omega
    rw [hnew]
    simp only [Option.isSome_none, Bool.false_eq_true, or_false]
    omega
  have hroom : ¬(data.length < offset + 8 ∨
      data.length - (offset + 8) < 1 * elementSize entry.type) := by
    omega
  refine except_bind_eq_ok.mpr ⟨entry.type, htype, except_bind_eq_ok.mpr ⟨1, helements, ?_⟩⟩
  refine except_bind_eq_ok.mpr ⟨(), reject_eq_ok.mpr hvalid, ?_⟩
  refine except_bind_eq_ok.mpr ⟨offset + 8, if_pos (by omega), ?_⟩
  refine except_bind_eq_ok.mpr ⟨(), reject_eq_ok.mpr hroom, ?_⟩
  simp [hvalue]

/-- The field of an entry. -/
def TiffEntry.field (entry : TiffEntry) : Nat × List Nat := (entry.tag, [entry.value])

/-- A directory that the reader accepts. -/
structure ReadableDirectory (entries : List TiffEntry) : Prop where
  each : ∀ entry ∈ entries, entry.Readable
  tags_nodup : (entries.map TiffEntry.tag).Nodup

theorem readTiffEntry_written {entries seen rest : List TiffEntry} {entry : TiffEntry}
    (h : ReadableDirectory entries) (hsplit : entries = seen ++ entry :: rest) (pixels : Bytes)
    (decoderEntries : List Nat) :
    ∃ decoderEntries', readTiffEntry (tiffBytes entries pixels) true 8
        (seen.map TiffEntry.field, decoderEntries) seen.length =
      .ok ((seen ++ [entry]).map TiffEntry.field, decoderEntries') := by
  have hmem : entry ∈ entries := hsplit ▸ List.mem_append_right _ List.mem_cons_self
  have hentry := h.each entry hmem
  have hdata : tiffBytes entries pixels = (tiffHeader ++ seen.flatMap TiffEntry.bytes) ++
      (entry.bytes ++ (rest.flatMap TiffEntry.bytes ++ (littleEndian 4 0 ++ pixels))) := by
    simp [tiffBytes, hsplit]
  have hoffset : (tiffHeader ++ seen.flatMap TiffEntry.bytes).length = 8 + 2 + seen.length * 12 := by
    rw [List.length_append, length_tiffHeader, length_tiffEntries]
  have hnew : (seen.map TiffEntry.field).lookup entry.tag = none := by
    have hnodup := h.tags_nodup
    rw [hsplit, List.map_append, List.nodup_append] at hnodup
    rw [List.lookup_eq_none_iff]
    intro field hfield
    obtain ⟨other, hother, rfl⟩ := List.mem_map.mp hfield
    have hne := hnodup.2.2 other.tag (List.mem_map_of_mem hother) entry.tag (by simp)
    simpa [TiffEntry.field] using Ne.symm hne
  have htagAt : tiffBytes entries pixels = (tiffHeader ++ seen.flatMap TiffEntry.bytes) ++
      (littleEndian 2 entry.tag ++ (littleEndian 2 entry.type ++ (littleEndian 4 1 ++
        (littleEndian 4 entry.value ++ (rest.flatMap TiffEntry.bytes ++
          (littleEndian 4 0 ++ pixels)))))) := by
    simp [hdata, TiffEntry.bytes]
  have htag : readTiff (tiffBytes entries pixels) true (8 + 2 + seen.length * 12) 2 =
      .ok entry.tag :=
    readTiff_of_split htagAt hoffset le_rfl hentry.tag_lt
  have hvalues := readFieldValues_written hdata hoffset hentry hnew
  refine ⟨if entry.tag ≠ 338 ∧ entry.tag ≠ 339 then
    decoderEntries ++ [8 + 2 + seen.length * 12] else decoderEntries, ?_⟩
  refine except_bind_eq_ok.mpr ⟨entry.tag, htag, ?_⟩
  refine (if_neg (not_not.mpr hentry.known)).trans ?_
  rw [hvalues, List.map_append]
  rfl

/-- An element of a range is the number of the elements before it. -/
theorem eq_length_of_range {n a : Nat} {seen rest : List Nat} (h : List.range n = seen ++ a :: rest) :
    a = seen.length ∧ seen.length < n := by
  have hlength := congrArg List.length h
  have hget := congrArg (·[seen.length]?) h
  simp only [List.length_range, List.length_append, List.length_cons] at hlength
  have hlt : seen.length < n := by omega
  simp only [List.getElem?_append_right le_rfl, Nat.sub_self, List.getElem?_cons_zero,
    List.getElem?_range hlt, Option.some.injEq] at hget
  exact ⟨hget.symm, hlt⟩

/-- **The directory is read as it was written.** -/
theorem readDirectory_written {entries : List TiffEntry} (h : ReadableDirectory entries)
    (pixels : Bytes) :
    ∃ decoderEntries, (List.range entries.length).foldlM
        (readTiffEntry (tiffBytes entries pixels) true 8) ([], []) =
      .ok (entries.map TiffEntry.field, decoderEntries) := by
  have hloop : ∃ state, (List.range entries.length).foldlM
      (readTiffEntry (tiffBytes entries pixels) true 8) ([], []) = .ok state ∧
        state.1 = (entries.take (List.range entries.length).length).map TiffEntry.field := by
    apply foldlM_total (I := fun (seen : List Nat) (state : TiffFields × List Nat) =>
      state.1 = (entries.take seen.length).map TiffEntry.field) rfl
    rintro seen i rest ⟨fields, decoderEntries⟩ hrange hfields
    obtain ⟨rfl, hlt⟩ := eq_length_of_range hrange
    have hsplit : entries = entries.take seen.length ++
        entries[seen.length] :: entries.drop (seen.length + 1) := by
      rw [← List.drop_eq_getElem_cons hlt, List.take_append_drop]
    have hlength : (entries.take seen.length).length = seen.length := by
      rw [List.length_take, Nat.min_eq_left hlt.le]
    obtain ⟨decoderEntries', hround⟩ := readTiffEntry_written h hsplit pixels decoderEntries
    rw [hlength] at hround
    subst hfields
    refine ⟨_, hround, ?_⟩
    rw [List.length_append, List.length_singleton, List.take_succ_eq_append_getElem hlt]
  obtain ⟨⟨fields, decoderEntries⟩, hfold, hfields⟩ := hloop
  refine ⟨decoderEntries, hfold.trans ?_⟩
  dsimp only at hfields
  rw [hfields, List.length_range, List.take_length]

/-! ## The strip -/

theorem flatMap_range_mul {α : Type} (f : Nat → α) (n width : Nat) :
    ((List.range n).flatMap fun i => (List.range width).map fun j => f (i * width + j)) =
      (List.range (n * width)).map f := by
  induction n with
  | zero => simp
  | succ n ih =>
      rw [List.range_succ, List.flatMap_append, ih, Nat.succ_mul, List.range_add, List.map_append,
        List.flatMap_singleton, List.map_map]
      rfl

/-- **The strip is the raw frame.** -/
theorem stripPixels_of_split {data before pixels : Bytes} {offset samples bytes : Nat}
    (hdata : data = before ++ pixels) (hoffset : before.length = offset)
    (hlength : pixels.length = samples * bytes) :
    stripPixels data true offset samples bytes = pixels := by
  unfold stripPixels
  simp only [↓reduceIte, Nat.add_assoc]
  rw [flatMap_range_mul fun k => data.getD (offset + k) 0]
  apply List.ext_getElem
  · rw [List.length_map, List.length_range, hlength]
  · intro k hk hk'
    subst hdata hoffset
    rw [List.getElem_map, List.getElem_range, List.getD_append_right _ _ _ _ (Nat.le_add_right _ _),
      Nat.add_sub_cancel_left, List.getD_eq_getElem _ _ hk']

/-! ## The image -/

/-- The `dtype` of a depth image. -/
def depthDtype (rawType : LerobotRawVisualType) : String :=
  if rawType = .depthUint16 then "uint16" else "float32"

/-- A raw frame of depths, as small as the writer accepts them. -/
structure DepthFrame (rawFrame : Bytes) (width height : Nat) (rawType : LerobotRawVisualType) :
    Prop where
  depth : rawType ≠ .rgb24
  width_pos : 0 < width
  height_pos : 0 < height
  length_eq : rawFrame.length = width * height * bytesPerSample rawType
  accepted : rawFrame.length ≤ defaultMaxVisualFrameBytes

namespace DepthFrame

variable {rawFrame : Bytes} {width height : Nat} {rawType : LerobotRawVisualType}

theorem bytesPerSample_cases (rawType : LerobotRawVisualType) :
    bytesPerSample rawType = 2 ∨ bytesPerSample rawType = 4 := by
  unfold bytesPerSample
  split
  · exact .inl rfl
  · exact .inr rfl

theorem bounds (h : DepthFrame rawFrame width height rawType) :
    width < 2 ^ 32 ∧ height < 2 ^ 32 ∧ width * height * bytesPerSample rawType < 2 ^ 32 := by
  have hle := h.accepted
  rw [h.length_eq, defaultMaxVisualFrameBytes] at hle
  have hbytes : 0 < bytesPerSample rawType := by
    rcases bytesPerSample_cases rawType with heq | heq <;> omega
  have hwidth : width ≤ width * height * bytesPerSample rawType := by
    rw [Nat.mul_assoc]
    exact Nat.le_mul_of_pos_right _ (Nat.mul_pos h.height_pos hbytes)
  have hheight : height ≤ width * height * bytesPerSample rawType := by
    rw [Nat.mul_comm width, Nat.mul_assoc]
    exact Nat.le_mul_of_pos_right _ (Nat.mul_pos h.width_pos hbytes)
  omega

/-- What the writer makes of it. -/
theorem encode_eq (h : DepthFrame rawFrame width height rawType) :
    encodeDepthTiff rawFrame width height rawType =
      .ok (tiffBytes (tiffEntries width height rawType) rawFrame) := by
  obtain ⟨hwidth, hheight, hbytes⟩ := h.bounds
  have hsmall : ¬(uint32Maximum < width ∨ uint32Maximum < height ∨
      uint32Maximum < width * height * bytesPerSample rawType) := by
    rw [uint32Maximum]
    omega
  refine except_bind_eq_ok.mpr ⟨(), reject_eq_ok.mpr hsmall, ?_⟩
  dsimp only
  rw [foldl_appendTiffEntry, appendUInt32_eq, tiffBytes]
  simp only [List.append_assoc]

theorem readable_long {tag value : Nat} (htag : tag ∈ knownTags ∧ tag ≠ 338)
    (hvalue : value < 2 ^ 32) : TiffEntry.Readable ⟨tag, 4, value⟩ :=
  ⟨htag.1, htag.2, .inr rfl, hvalue⟩

theorem readable_short {tag value : Nat} (htag : tag ∈ knownTags ∧ tag ≠ 338)
    (hvalue : value < 2 ^ 16) : TiffEntry.Readable ⟨tag, 3, value⟩ :=
  ⟨htag.1, htag.2, .inl rfl, hvalue⟩

theorem readableDirectory (h : DepthFrame rawFrame width height rawType) :
    ReadableDirectory (tiffEntries width height rawType) where
  each := by
    obtain ⟨hwidth, hheight, hbytes⟩ := h.bounds
    have hbits : bytesPerSample rawType * 8 < 2 ^ 16 := by
      rcases bytesPerSample_cases rawType with heq | heq <;> rw [heq] <;> decide
    have hformat : (if rawType = .depthUint16 then 1 else 3) < 2 ^ 16 := by
      split <;> decide
    intro entry hentry
    simp only [tiffEntries, List.mem_cons, List.not_mem_nil, or_false] at hentry
    rcases hentry with rfl | rfl | rfl | rfl | rfl | rfl | rfl | rfl | rfl | rfl | rfl
    · exact readable_long (by decide) hwidth
    · exact readable_long (by decide) hheight
    · exact readable_short (by decide) hbits
    · exact readable_short (by decide) (by decide)
    · exact readable_short (by decide) (by decide)
    · exact readable_long (by decide) (by decide)
    · exact readable_short (by decide) (by decide)
    · exact readable_long (by decide) hheight
    · exact readable_long (by decide) hbytes
    · exact readable_short (by decide) (by decide)
    · exact readable_short (by decide) hformat
  tags_nodup := by
    change [256, 257, 258, 259, 262, 273, 277, 278, 279, 284, 339].Nodup
    decide

/-- The fields that the reader has after the directory. -/
def fields (width height : Nat) (rawType : LerobotRawVisualType) : TiffFields :=
  (tiffEntries width height rawType).map TiffEntry.field

/-- The header leads to the directory. -/
theorem header_read (entries : List TiffEntry) (pixels : Bytes) :
    (tiffBytes entries pixels).getD 0 0 = 0x49 ∧
      readTiff (tiffBytes entries pixels) true 4 4 = .ok 8 ∧
      readTiff (tiffBytes entries pixels) true 8 2 = .ok 11 := by
  have hdirectoryAt : tiffBytes entries pixels = ([0x49, 0x49] ++ littleEndian 2 42) ++
      (littleEndian 4 8 ++ (littleEndian 2 11 ++ (entries.flatMap TiffEntry.bytes ++
        (littleEndian 4 0 ++ pixels)))) := by
    simp [tiffBytes, tiffHeader, appendUInt16_eq, appendUInt32_eq]
  have hcountAt : tiffBytes entries pixels = ([0x49, 0x49] ++ (littleEndian 2 42 ++
      littleEndian 4 8)) ++ (littleEndian 2 11 ++ (entries.flatMap TiffEntry.bytes ++
        (littleEndian 4 0 ++ pixels))) := by
    simp [tiffBytes, tiffHeader, appendUInt16_eq, appendUInt32_eq]
  refine ⟨?_, readTiff_of_split hdirectoryAt rfl le_rfl (by decide),
    readTiff_of_split hcountAt rfl le_rfl (by decide)⟩
  rw [hdirectoryAt]
  rfl

/-- The format of a sample, as the tag `SampleFormat` has it. -/
def sampleFormat (rawType : LerobotRawVisualType) : Nat := if rawType = .depthUint16 then 1 else 3

theorem sample_cases (h : DepthFrame rawFrame width height rawType) :
    (bytesPerSample rawType = 2 ∧ sampleFormat rawType = 1 ∧ depthDtype rawType = "uint16") ∨
      (bytesPerSample rawType = 4 ∧ sampleFormat rawType = 3 ∧ depthDtype rawType = "float32") := by
  cases rawType with
  | rgb24 => exact absurd rfl h.depth
  | depthUint16 => exact .inl ⟨rfl, rfl, rfl⟩
  | depthFloat32 => exact .inr ⟨rfl, rfl, rfl⟩

theorem length_data :
    (tiffBytes (tiffEntries width height rawType) rawFrame).length = 146 + rawFrame.length :=
  length_tiffBytes _ _

/-- **The tags of a written image** pass the checks of the reader. -/
theorem checkTiffFields_written (h : DepthFrame rawFrame width height rawType) :
    checkTiffFields (tiffBytes (tiffEntries width height rawType) rawFrame)
      (fields width height rawType) 1 (bytesPerSample rawType * 8) (sampleFormat rawType) =
        .ok true := by
  have hsamples : ¬(1 = 0 ∨ 4 < 1 ∨ bytesPerSample rawType * 8 = 0 ∨
      (if sampleFormat rawType = 1 then 16 < bytesPerSample rawType * 8
        else ¬(sampleFormat rawType = 3 ∧ bytesPerSample rawType * 8 = 32 ∧ 1 = 1))) := by
    rcases h.sample_cases with ⟨hbytes, hformat, -⟩ | ⟨hbytes, hformat, -⟩ <;>
      rw [hbytes, hformat] <;> decide
  have hdepth : ¬(1 ≠ 1 ∨ ¬(bytesPerSample rawType * 8 = 16 ∧ sampleFormat rawType = 1 ∨
      bytesPerSample rawType * 8 = 32 ∧ sampleFormat rawType = 3)) := by
    rcases h.sample_cases with ⟨hbytes, hformat, -⟩ | ⟨hbytes, hformat, -⟩ <;>
      rw [hbytes, hformat] <;> decide
  have hstrip : ¬(([pixelOffset].zip [width * height * bytesPerSample rawType]).any fun strip =>
      (tiffBytes (tiffEntries width height rawType) rawFrame).length < strip.1 ∨
        (tiffBytes (tiffEntries width height rawType) rawFrame).length - strip.1 < strip.2) := by
    simp [length_data, h.length_eq, pixelOffset]
  refine except_bind_eq_ok.mpr ⟨(), reject_eq_ok.mpr hsamples, ?_⟩
  refine except_bind_eq_ok.mpr ⟨(), reject_eq_ok.mpr Bool.false_ne_true, ?_⟩
  refine except_bind_eq_ok.mpr ⟨(), reject_eq_ok.mpr (not_not.mpr rfl), ?_⟩
  refine except_bind_eq_ok.mpr ⟨(), reject_eq_ok.mpr hstrip, ?_⟩
  exact (if_neg hdepth).trans (if_neg (not_not.mpr rfl))

/-- The one strip has all rows. -/
theorem readStrips_written (h : DepthFrame rawFrame width height rawType) :
    readStrips (tiffBytes (tiffEntries width height rawType) rawFrame) true [pixelOffset]
      [width * height * bytesPerSample rawType] height width height (bytesPerSample rawType) =
        .ok rawFrame := by
  have hdata : tiffBytes (tiffEntries width height rawType) rawFrame = (tiffHeader ++
      ((tiffEntries width height rawType).flatMap TiffEntry.bytes ++ littleEndian 4 0)) ++
        rawFrame := by
    simp [tiffBytes]
  have hstrip : stripPixels (tiffBytes (tiffEntries width height rawType) rawFrame) true pixelOffset
      (height * width) (bytesPerSample rawType) = rawFrame := by
    apply stripPixels_of_split hdata rfl
    rw [h.length_eq, Nat.mul_comm height]
  have hroom : ¬(width * height * bytesPerSample rawType ≠
        min height (height - 0 * height) * width * bytesPerSample rawType ∨
      (tiffBytes (tiffEntries width height rawType) rawFrame).length < pixelOffset ∨
      (tiffBytes (tiffEntries width height rawType) rawFrame).length - pixelOffset <
        min height (height - 0 * height) * width * bytesPerSample rawType) := by
    rw [length_data, h.length_eq, Nat.zero_mul, Nat.sub_zero, Nat.min_self, Nat.mul_comm height width,
      pixelOffset]
    omega
  refine except_bind_eq_ok.mpr ⟨rawFrame, ?_, rfl⟩
  refine except_bind_eq_ok.mpr ⟨(), reject_eq_ok.mpr hroom, ?_⟩
  rw [Nat.zero_mul, Nat.sub_zero, Nat.min_self, List.nil_append]
  exact congrArg Except.ok hstrip

/-- **The image of a written directory** is the frame. -/
theorem readDepthImage_written (h : DepthFrame rawFrame width height rawType) :
    readDepthImage (tiffBytes (tiffEntries width height rawType) rawFrame) true
      (fields width height rawType) (bytesPerSample rawType * 8) (sampleFormat rawType) =
        .ok ⟨rawFrame, width, height, 1, depthDtype rawType⟩ := by
  have hbytes : bytesPerSample rawType * 8 / 8 = bytesPerSample rawType :=
    Nat.mul_div_cancel _ (by decide)
  have hlayout : ¬((1 : Nat) ≠ 1 ∨ (1 : Nat) ≠ 1 ∨ (1 : Nat) ≠ 1) := by decide
  have hdimensions : ¬(width = 0 ∨ height = 0 ∨
      maxImageBytes / (bytesPerSample rawType * 8 / 8) < width ∨
      maxImageBytes / (width * (bytesPerSample rawType * 8 / 8)) < height) := by
    have hsample : 0 < bytesPerSample rawType := by
      rcases bytesPerSample_cases rawType with heq | heq <;> omega
    have hsize : height * (width * bytesPerSample rawType) ≤ maxImageBytes := by
      have hle := h.accepted
      rwa [h.length_eq, Nat.mul_assoc, Nat.mul_left_comm] at hle
    have hrow : width * bytesPerSample rawType ≤ maxImageBytes :=
      (Nat.le_mul_of_pos_left _ h.height_pos).trans hsize
    have hrowPos : 0 < width * bytesPerSample rawType := Nat.mul_pos h.width_pos hsample
    rw [hbytes]
    rintro (hzero | hzero | hwide | htall)
    · exact absurd hzero h.width_pos.ne'
    · exact absurd hzero h.height_pos.ne'
    · exact absurd ((Nat.le_div_iff_mul_le hsample).mpr hrow) hwide.not_ge
    · exact absurd ((Nat.le_div_iff_mul_le hrowPos).mpr hsize) htall.not_ge
  have hstrips : ¬(height = 0 ∨ 1 ≠ (height - 1) / height + 1 ∨ 1 ≠ 1) := by
    have hzero : (height - 1) / height = 0 := Nat.div_eq_of_lt (Nat.sub_lt h.height_pos one_pos)
    have hpos := h.height_pos
    rw [hzero]
    omega
  have hpixels : readStrips (tiffBytes (tiffEntries width height rawType) rawFrame) true [pixelOffset]
      [width * height * bytesPerSample rawType] height width height
        (bytesPerSample rawType * 8 / 8) = .ok rawFrame := by
    rw [hbytes]
    exact readStrips_written h
  refine except_bind_eq_ok.mpr ⟨(), reject_eq_ok.mpr hlayout, ?_⟩
  refine except_bind_eq_ok.mpr ⟨(), reject_eq_ok.mpr hdimensions, ?_⟩
  refine except_bind_eq_ok.mpr ⟨(), reject_eq_ok.mpr hstrips, ?_⟩
  refine except_bind_eq_ok.mpr ⟨rawFrame, hpixels, ?_⟩
  have hdtype : (if sampleFormat rawType = 3 then "float32" else "uint16") = depthDtype rawType := by
    rcases h.sample_cases with ⟨-, hformat, hdtype⟩ | ⟨-, hformat, hdtype⟩ <;>
      rw [hformat, hdtype] <;> rfl
  rw [hdtype]
  rfl

theorem uniform_of_single {fields : TiffFields} {samples tag fallback value : Nat}
    (h : fields.lookup tag = some [value]) : fields.uniform samples tag fallback = .ok value := by
  have hsame : ¬([value].any (· ≠ value)) = true := by simp
  rw [TiffFields.uniform, h]
  refine except_bind_eq_ok.mpr ⟨(), reject_eq_ok.mpr fun hcount => hcount.1 rfl, ?_⟩
  exact except_bind_eq_ok.mpr ⟨(), reject_eq_ok.mpr hsame, rfl⟩

/-- **A depth image is decoded as it was written.** -/
theorem decodeDepthTiff_written (h : DepthFrame rawFrame width height rawType) :
    ∃ decoderEntries, decodeDepthTiff (tiffBytes (tiffEntries width height rawType) rawFrame) =
      .ok (some ⟨rawFrame, width, height, 1, depthDtype rawType⟩, decoderEntries) := by
  obtain ⟨hfirst, hdirectory, hcount⟩ :=
    header_read (tiffEntries width height rawType) rawFrame
  obtain ⟨decoderEntries, hfold⟩ := readDirectory_written h.readableDirectory rawFrame
  have hlittle : ((tiffBytes (tiffEntries width height rawType) rawFrame).getD 0 0 == 0x49) =
      true := by
    rw [hfirst]
    rfl
  have hroom : ¬((tiffBytes (tiffEntries width height rawType) rawFrame).length < 8 ∨
      ((tiffBytes (tiffEntries width height rawType) rawFrame).length - 8 - 2) / 12 < 11) := by
    rw [length_data]
    omega
  have hbits : (fields width height rawType).uniform 1 258 1 = .ok (bytesPerSample rawType * 8) :=
    uniform_of_single rfl
  have hformat : (fields width height rawType).uniform 1 339 1 = .ok (sampleFormat rawType) :=
    uniform_of_single rfl
  refine ⟨decoderEntries, ?_⟩
  unfold decodeDepthTiff
  rw [hlittle]
  refine except_bind_eq_ok.mpr ⟨8, hdirectory, except_bind_eq_ok.mpr ⟨11, hcount, ?_⟩⟩
  refine except_bind_eq_ok.mpr ⟨(), reject_eq_ok.mpr hroom, ?_⟩
  refine except_bind_eq_ok.mpr ⟨_, hfold, ?_⟩
  refine except_bind_eq_ok.mpr ⟨_, hbits, except_bind_eq_ok.mpr ⟨_, hformat, ?_⟩⟩
  refine except_bind_eq_ok.mpr ⟨true, checkTiffFields_written h, (if_pos rfl).trans ?_⟩
  exact except_bind_eq_ok.mpr ⟨_, readDepthImage_written h, rfl⟩

end DepthFrame

/-! ## What comes back -/

theorem inferRawVisualType_depth {feature : LerobotFeature} {frameSize : Nat}
    {rawType : LerobotRawVisualType} (hdepth : feature.isDepth = true)
    (h : inferRawVisualType feature frameSize = .ok rawType) : rawType ≠ .rgb24 := by
  unfold inferRawVisualType at h
  simp only [hdepth, Bool.not_true, Bool.false_eq_true, if_false, except_bind_eq_ok] at h
  obtain ⟨uint16Size, -, float32Size, -, h⟩ := h
  split at h
  · cases h
    decide
  · split at h <;> cases h
    decide

theorem bytesPerPixel_depth {rawType : LerobotRawVisualType} (h : rawType ≠ .rgb24) :
    bytesPerPixel rawType = bytesPerSample rawType := by
  cases rawType with
  | rgb24 => exact absurd rfl h
  | depthUint16 => rfl
  | depthFloat32 => rfl

/-- The frame of an image that the writer has made. -/
theorem depthFrame_of_write {encodePng : Bytes → Nat → Nat → Except InvalidInputException Bytes}
    {feature : LerobotFeature} {known : Option LerobotRawVisualType} {rawFrame encoded : Bytes}
    {rawType : LerobotRawVisualType} (hdepth : feature.isDepth = true)
    (h : writeImage encodePng defaultMaxVisualFrameBytes feature known rawFrame =
      .ok (rawType, encoded)) :
    DepthFrame rawFrame (frameWidth feature) (frameHeight feature) rawType ∧
      encodeDepthTiff rawFrame (frameWidth feature) (frameHeight feature) rawType = .ok encoded := by
  simp only [writeImage, resolveRawVisualType, encodeImage, except_bind_eq_ok, reject_eq_ok] at h
  obtain ⟨-, haccepted, inferred, ⟨_, hinferred, -, -, hsame⟩, image,
    ⟨size, hsize, -, hlength, hencode⟩, hok⟩ := h
  cases hsame
  cases hok
  have hne := inferRawVisualType_depth hdepth hinferred
  obtain ⟨hwidth, hheight, -, rfl⟩ := expectedFrameBytes_eq_ok.mp hsize
  rw [if_neg hne] at hencode
  refine ⟨⟨hne, hwidth, hheight, ?_, not_lt.mp haccepted⟩, hencode⟩
  rw [← bytesPerPixel_depth hne]
  exact not_not.mp hlength

/-- A frame of depths has the size that is expected of it. -/
theorem DepthFrame.expectedFrameBytes_eq {rawFrame : Bytes} {width height : Nat}
    {rawType : LerobotRawVisualType} (h : DepthFrame rawFrame width height rawType) :
    expectedFrameBytes width height rawType = .ok rawFrame.length := by
  obtain ⟨hwidth, hheight, hbytes⟩ := h.bounds
  have hpixels : width * height ≤ idxMaximum := by
    have hle : width * height ≤ width * height * bytesPerSample rawType := by
      apply Nat.le_mul_of_pos_right
      rcases DepthFrame.bytesPerSample_cases rawType with heq | heq <;> omega
    rw [idxMaximum]
    omega
  have hdimensions : ¬(width = 0 ∨ height = 0 ∨ idxMaximum / height < width) := by
    rintro (hzero | hzero | hlarge)
    · exact absurd hzero h.width_pos.ne'
    · exact absurd hzero h.height_pos.ne'
    · exact absurd ((Nat.le_div_iff_mul_le h.height_pos).mpr hpixels) hlarge.not_ge
  have hsize : ¬idxMaximum / bytesPerPixel rawType < width * height := by
    have hpos : 0 < bytesPerSample rawType := by
      rcases DepthFrame.bytesPerSample_cases rawType with heq | heq <;> omega
    rw [bytesPerPixel_depth h.depth, not_lt, Nat.le_div_iff_mul_le hpos, idxMaximum]
    omega
  refine except_bind_eq_ok.mpr ⟨(), reject_eq_ok.mpr hdimensions, ?_⟩
  refine except_bind_eq_ok.mpr ⟨(), reject_eq_ok.mpr hsize, ?_⟩
  rw [bytesPerPixel_depth h.depth, h.length_eq]

/-- COPY accepts such a frame, with the default options. -/
theorem DepthFrame.writeImage_eq
    {encodePng : Bytes → Nat → Nat → Except InvalidInputException Bytes} {feature : LerobotFeature}
    {rawFrame : Bytes} {rawType : LerobotRawVisualType}
    (h : DepthFrame rawFrame (frameWidth feature) (frameHeight feature) rawType)
    (hinferred : inferRawVisualType feature rawFrame.length = .ok rawType) :
    writeImage encodePng defaultMaxVisualFrameBytes feature none rawFrame =
      .ok (rawType, tiffBytes (tiffEntries (frameWidth feature) (frameHeight feature) rawType)
        rawFrame) := by
  refine except_bind_eq_ok.mpr ⟨(), reject_eq_ok.mpr h.accepted.not_gt, ?_⟩
  refine except_bind_eq_ok.mpr ⟨rawType, ?_, ?_⟩
  · exact except_bind_eq_ok.mpr ⟨_, hinferred,
      except_bind_eq_ok.mpr ⟨(), reject_eq_ok.mpr Bool.false_ne_true, rfl⟩⟩
  · refine except_bind_eq_ok.mpr ⟨_, except_bind_eq_ok.mpr ⟨_, h.expectedFrameBytes_eq, ?_⟩, rfl⟩
    refine except_bind_eq_ok.mpr ⟨(), reject_eq_ok.mpr (not_not.mpr rfl), ?_⟩
    exact (if_neg h.depth).trans h.encode_eq

/-- The header of a depth image. -/
theorem take_tiffBytes (entries : List TiffEntry) (pixels : Bytes) :
    (tiffBytes entries pixels).take 8 = [0x49, 0x49, 0x2a, 0x00, 0x08, 0x00, 0x00, 0x00] ∧
      (tiffBytes entries pixels).take 4 = [0x49, 0x49, 0x2a, 0x00] :=
  ⟨rfl, rfl⟩

/-- **Which depth images come back.** The image that COPY writes for a depth frame is longer than the frame
by its header of 146 bytes. It is decoded to the frame, with its dimensions, one channel and its type,
when the frame leaves room for the header below the limit of the reader; otherwise the reader throws. -/
theorem depthImage_roundTrip
    {encodePng : Bytes → Nat → Nat → Except InvalidInputException Bytes}
    {ffmpeg : ImageCodec → Bytes → Except InvalidInputException ImageValue}
    {feature : LerobotFeature} {known : Option LerobotRawVisualType} {rawFrame encoded : Bytes}
    {rawType : LerobotRawVisualType} (hdepth : feature.isDepth = true)
    (hwrite : writeImage encodePng defaultMaxVisualFrameBytes feature known rawFrame =
      .ok (rawType, encoded)) :
    decodeImage ffmpeg encoded =
        .ok ⟨rawFrame, frameWidth feature, frameHeight feature, 1, depthDtype rawType⟩ ↔
      rawFrame.length ≤ maxImageBytes - 146 := by
  obtain ⟨hframe, hencode⟩ := depthFrame_of_write hdepth hwrite
  have hencoded := Except.ok.inj (hencode.symm.trans hframe.encode_eq)
  subst hencoded
  have hlimit : 146 ≤ maxImageBytes := by decide
  constructor
  · intro hdecode
    obtain ⟨_, hroom, _⟩ := except_bind_eq_ok.mp hdecode
    have hsize := reject_eq_ok.mp hroom
    rw [DepthFrame.length_data] at hsize
    omega
  · intro hroom
    have hsize : ¬maxImageBytes <
        (tiffBytes (tiffEntries (frameWidth feature) (frameHeight feature) rawType)
          rawFrame).length := by
      rw [DepthFrame.length_data]
      omega
    obtain ⟨decoderEntries, hdecode⟩ := hframe.decodeDepthTiff_written
    obtain ⟨height, hfour⟩ := take_tiffBytes
      (tiffEntries (frameWidth feature) (frameHeight feature) rawType) rawFrame
    refine except_bind_eq_ok.mpr ⟨(), reject_eq_ok.mpr hsize, ?_⟩
    rw [height, hfour]
    refine (if_neg (by decide)).trans ((if_pos (.inl rfl)).trans ?_)
    exact except_bind_eq_ok.mpr ⟨_, hdecode, rfl⟩

/-- A depth image of 4096 rows and 8192 columns. -/
def largeDepth : LerobotFeature where
  name := "depth".toList
  dtype := "image"
  shape := [4096, 8192, 1]
  storageType := .blob
  outputType := imageType
  isImage := true
  isDepth := true

/-- FFmpeg is not asked about depth images. -/
def noPng (_ : Bytes) (_ _ : Nat) : Except InvalidInputException Bytes := .error ⟨"no PNG encoder"⟩

/-- FFmpeg is not asked about depth images. -/
def noFFmpeg (_ : ImageCodec) (_ : Bytes) : Except InvalidInputException ImageValue :=
  .error ⟨"no decoder"⟩

/-- **A frame that cannot be read back.** It has the 64 MiB that COPY accepts by default, and the reader
refuses its image. -/
theorem largeDepth_refused : ∃ encoded,
    writeImage noPng defaultMaxVisualFrameBytes largeDepth none
        (List.replicate (64 * 1024 * 1024) 0) = .ok (.depthUint16, encoded) ∧
      decodeImage noFFmpeg encoded =
        .error ⟨"LeRobot encoded image exceeds the 64 MiB per-image limit"⟩ := by
  have hlength : (List.replicate (64 * 1024 * 1024) (0 : UInt8)).length = 64 * 1024 * 1024 :=
    List.length_replicate
  have hframe : DepthFrame (List.replicate (64 * 1024 * 1024) 0) (frameWidth largeDepth)
      (frameHeight largeDepth) .depthUint16 :=
    ⟨by decide, by decide, by decide, hlength, hlength.le⟩
  have hinferred : inferRawVisualType largeDepth
      (List.replicate (64 * 1024 * 1024) (0 : UInt8)).length = .ok .depthUint16 := by
    rw [hlength]
    rfl
  refine ⟨_, hframe.writeImage_eq hinferred, ?_⟩
  have hlong : maxImageBytes < (tiffBytes (tiffEntries (frameWidth largeDepth)
      (frameHeight largeDepth) .depthUint16) (List.replicate (64 * 1024 * 1024) 0)).length := by
    rw [DepthFrame.length_data, hlength]
    decide
  rw [decodeImage, reject, if_pos hlong]
  rfl

/-- A depth image of one pixel. -/
def smallDepth : LerobotFeature := { largeDepth with shape := [1, 1, 1] }

/-- The frame of one metre. -/
theorem smallDepth_frame : DepthFrame [0x00, 0x00, 0x80, 0x3f] (frameWidth smallDepth)
    (frameHeight smallDepth) .depthFloat32 :=
  ⟨by decide, by decide, by decide, by decide, by decide⟩

theorem smallDepth_returned :
    decodeImage noFFmpeg (tiffBytes (tiffEntries 1 1 .depthFloat32) [0x00, 0x00, 0x80, 0x3f]) =
      .ok ⟨[0x00, 0x00, 0x80, 0x3f], 1, 1, 1, "float32"⟩ := by
  have hwrite : writeImage noPng defaultMaxVisualFrameBytes smallDepth none
      [0x00, 0x00, 0x80, 0x3f] =
        .ok (.depthFloat32, tiffBytes (tiffEntries 1 1 .depthFloat32) [0x00, 0x00, 0x80, 0x3f]) :=
    smallDepth_frame.writeImage_eq rfl
  exact (depthImage_roundTrip rfl hwrite).mpr (by decide)

end DuckdbLerobot.Image
