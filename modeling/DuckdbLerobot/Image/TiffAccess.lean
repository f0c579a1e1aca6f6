import DuckdbLerobot.Image.TiffPacket

/-!
# The accesses of the TIFF reader

`decodeDepthTiff` takes a byte outside of the file to be zero, and puts the strips one after the other. The source
reads through a pointer and writes into a buffer that it has allocated, and its sums and products are those of
`idx_t`. `decodeDepthTiffAccess` is the reader with both: an access outside stops it, and arithmetic is modulo 2^64.

`decodeDepthTiffAccess_simulates` says that it does the same as `decodeDepthTiff`, so that nothing wraps around and
nothing outside is accessed, and that the buffer is full in the end.
-/

set_option autoImplicit false

namespace DuckdbLerobot.Image

open DuckdbLerobot.Library DuckdbLerobot.Storage

/-! ## The reader with its accesses -/

/-- What stops the reader: it throws, or it accesses a byte outside of the file or of the pixel buffer. -/
inductive Stop
  | thrown (exception : InvalidInputException)
  | outside (access : OutOfBounds)
  deriving DecidableEq

/-- `throw`. -/
def thrown {α : Type} (x : Except InvalidInputException α) : Except Stop α := x.mapError Stop.thrown

/-- An access through a pointer. -/
def access {α : Type} (x : Except OutOfBounds α) : Except Stop α := x.mapError Stop.outside

/-- A result of `idx_t`. -/
def word (value : Nat) : Nat := value % 2 ^ 64

/-- A difference of `idx_t`. -/
def wordSub (a b : Nat) : Nat := (a + 2 ^ 64 - b) % 2 ^ 64

section Reader

variable (data : Bytes) (little : Bool)

/-- `read`, with the shifts of `uint32_t`. -/
def readTiffAccess (offset bytes : Nat) : Except Stop Nat := do
  thrown (reject (data.length < offset ∨ wordSub data.length offset < bytes) "Truncated LeRobot TIFF image")
  (List.range bytes).foldlM (fun value i => do
    let byte ← access (loadByte data (word (offset + i)))
    .ok (value ||| (byte.toNat <<< (8 * if little then i else bytes - i - 1)) % 2 ^ 32)) 0

/-- Where the values of an entry are. -/
def valuesOffsetAccess (entry bytes : Nat) : Except Stop Nat :=
  if bytes ≤ 4 then .ok (word (entry + 8)) else readTiffAccess data little (word (entry + 8)) 4

/-- The values of an entry with a tag that is needed. -/
def readFieldValuesAccess (fields : TiffFields) (entry tag : Nat) : Except Stop (List Nat) := do
  let type ← readTiffAccess data little (word (entry + 2)) 2
  let elements ← readTiffAccess data little (word (entry + 4)) 4
  let size := elementSize type
  thrown <| reject (size = 0 ∨ elements = 0 ∨ maxElements data tag < elements ∨
    data.length / size < elements ∨ (fields.lookup tag).isSome) "Invalid LeRobot TIFF field"
  let bytes := word (elements * size)
  let offset ← valuesOffsetAccess data little entry bytes
  thrown (reject (data.length < offset ∨ wordSub data.length offset < bytes) "Truncated LeRobot TIFF field")
  (List.range elements).mapM fun j => readTiffAccess data little (word (offset + word (j * size))) size

/-- One round of the loop over the directory. -/
def readTiffEntryAccess (directory : Nat) (state : TiffFields × List Nat) (i : Nat) :
    Except Stop (TiffFields × List Nat) := do
  let entry := word (word (directory + 2) + word (i * 12))
  let tag ← readTiffAccess data little entry 2
  let decoderEntries := if tag ≠ 338 ∧ tag ≠ 339 then state.2 ++ [entry] else state.2
  if tag ∉ knownTags then .ok (state.1, decoderEntries)
  else do
    let values ← readFieldValuesAccess data little state.1 entry tag
    .ok (state.1 ++ [(tag, values)], decoderEntries)

/-- The bytes of a sample. -/
def copySampleAccess (offset position j bytes : Nat) (pixels : Bytes) : Except Stop Bytes :=
  (List.range bytes).foldlM (fun pixels b => do
    let byte ← access (loadByte data (word (word (offset + j) + if little then b else bytes - b - 1)))
    access (storeByte pixels (word (word (position + j) + b)) byte)) pixels

/-- The loop over the samples of a strip, in steps of `bytes`. -/
def copyStripAccess (offset position length bytes : Nat) (pixels : Bytes) : Except Stop Bytes :=
  (List.range ((length + bytes - 1) / bytes)).foldlM (fun pixels k =>
    copySampleAccess data little offset position (k * bytes) bytes pixels) pixels

/-- One round of the loop over the strips, with the pixel buffer and the position in it. -/
def readStripAccess (offsets counts : List Nat) (rowsPerStrip width height bytes : Nat)
    (state : Bytes × Nat) (i : Nat) : Except Stop (Bytes × Nat) := do
  let rows := min rowsPerStrip (wordSub height (word (i * rowsPerStrip)))
  let length := word (word (rows * width) * bytes)
  let offset := offsets.getD i 0
  thrown <| reject (counts.getD i 0 ≠ length ∨ data.length < offset ∨ wordSub data.length offset < length)
    "Truncated or inconsistent LeRobot TIFF strip"
  let pixels ← copyStripAccess data little offset state.2 length bytes state.1
  .ok (pixels, word (state.2 + length))

/-- The image, in a buffer of `width * height * bytes` zeros. -/
def readDepthImageAccess (fields : TiffFields) (bits format : Nat) : Except Stop ImageValue := do
  let offsets := (fields.lookup 273).getD []
  let counts := (fields.lookup 279).getD []
  thrown <| reject (fields.scalar 262 1 ≠ 1 ∨ fields.scalar 274 1 ≠ 1 ∨ fields.scalar 284 1 ≠ 1)
    "Unsupported LeRobot depth TIFF photometric, orientation or planar layout"
  let width := fields.scalar 256 0
  let height := fields.scalar 257 0
  let bytes := bits / 8
  thrown <| reject (width = 0 ∨ height = 0 ∨ maxImageBytes / bytes < width ∨
      maxImageBytes / word (width * bytes) < height)
    "LeRobot decoded image exceeds the 64 MiB per-image limit or has zero dimensions"
  let rowsPerStrip := fields.scalar 278 height
  thrown <| reject (rowsPerStrip = 0 ∨ offsets.length ≠ word (wordSub height 1 / rowsPerStrip + 1) ∨
    counts.length ≠ offsets.length) "Invalid LeRobot TIFF strip layout"
  let buffer := List.replicate (word (word (width * height) * bytes)) 0
  let (pixels, _) ← (List.range offsets.length).foldlM
    (readStripAccess data little offsets counts rowsPerStrip width height bytes) (buffer, 0)
  .ok ⟨pixels, width, height, 1, if format = 3 then "float32" else "uint16"⟩

end Reader

/-- `DecodeDepthTiff`, with its accesses. -/
def decodeDepthTiffAccess (data : Bytes) : Except Stop (Option ImageValue × List Nat) := do
  let first ← access (loadByte data 0)
  let little := first == 0x49
  let directory ← readTiffAccess data little 4 4
  let count ← readTiffAccess data little directory 2
  thrown <| reject (data.length < directory ∨ wordSub (wordSub data.length directory) 2 / 12 < count)
    "Truncated LeRobot TIFF directory"
  let (fields, decoderEntries) ←
    (List.range count).foldlM (readTiffEntryAccess data little directory) ([], [])
  let samples := fields.scalar 277 1
  let bits ← thrown (fields.uniform samples 258 1)
  let format ← thrown (fields.uniform samples 339 1)
  let isDepth ← thrown (checkTiffFields data fields samples bits format)
  if isDepth then do
    let image ← readDepthImageAccess data little fields bits format
    .ok (some image, decoderEntries)
  else .ok (none, decoderEntries)

/-! ## Nothing wraps around -/

theorem word_eq {value : Nat} (h : value < 2 ^ 64) : word value = value := Nat.mod_eq_of_lt h

theorem wordSub_eq {a b : Nat} (hle : b ≤ a) (ha : a < 2 ^ 64) : wordSub a b = a - b := by
  unfold wordSub
  omega

theorem simulates_thrown {α : Type} (x : Except InvalidInputException α) :
    Simulates Eq Stop.thrown x (thrown x) :=
  simulates_eq_iff.mpr rfl

/-- A check, written in two ways. -/
theorem simulates_reject {condition condition' : Prop} [Decidable condition] [Decidable condition']
    {message : String} (h : condition' ↔ condition) :
    Simulates Eq Stop.thrown (reject condition message) (thrown (reject condition' message)) := by
  have hsame : reject condition' message = reject condition message := by
    unfold reject
    simp only [h]
  rw [hsame]
  exact simulates_thrown _

section Reader

variable {data : Bytes} {little : Bool}

/-- A region that is checked, with a difference of `idx_t`. -/
theorem room_iff (hlength : data.length < 2 ^ 32) (offset count : Nat) :
    (data.length < offset ∨ wordSub data.length offset < count) ↔
      (data.length < offset ∨ data.length - offset < count) := by
  by_cases hafter : data.length < offset
  · exact iff_of_true (.inl hafter) (.inl hafter)
  · rw [wordSub_eq (by omega) (by omega)]

theorem load_inside {offset : Nat} (h : offset < data.length) :
    access (loadByte data offset) = .ok (data.getD offset 0) := by
  rw [loadByte, if_pos h]
  rfl

/-- **A number is read from inside of the file.** -/
theorem readTiffAccess_simulates (hlength : data.length < 2 ^ 32) (offset : Nat) {bytes : Nat} (hbytes : bytes ≤ 4) :
    Simulates Eq Stop.thrown (readTiff data little offset bytes) (readTiffAccess data little offset bytes) := by
  apply (simulates_reject (room_iff hlength offset bytes)).bind
  intro _ _ hroom _
  have hinside := reject_eq_ok.mp hroom
  have hloop := foldlM_range_pure (ε := Stop)
    (f := fun value i => do
      let byte ← access (loadByte data (word (offset + i)))
      .ok (value ||| (byte.toNat <<< (8 * if little then i else bytes - i - 1)) % 2 ^ 32))
    (g := fun value i => value |||
      (data.getD (offset + i) 0).toNat <<< (8 * if little then i else bytes - i - 1)) (n := bytes) 0 (by
      intro i hi value
      have hword : word (offset + i) = offset + i := word_eq (by omega)
      have hplace : 8 + 8 * (if little then i else bytes - i - 1) ≤ 32 := by
        split <;> omega
      rw [hword, load_inside (by omega)]
      exact congrArg (fun part => Except.ok (value ||| part)) (Nat.mod_eq_of_lt (shift_byte_lt _ hplace)))
  rw [hloop]
  exact rfl

/-! ## The directory -/

theorem valuesOffsetAccess_simulates (hlength : data.length < 2 ^ 32) {entry : Nat} (hentry : entry < 2 ^ 40)
    (bytes : Nat) :
    Simulates Eq Stop.thrown (valuesOffset data little entry bytes) (valuesOffsetAccess data little entry bytes) := by
  have hword : word (entry + 8) = entry + 8 := word_eq (by omega)
  rw [valuesOffset, valuesOffsetAccess, hword]
  split
  · exact rfl
  · exact readTiffAccess_simulates hlength _ le_rfl

/-- **The values of an entry are read from inside of the file.** -/
theorem readFieldValuesAccess_simulates (hlength : data.length < 2 ^ 32) (fields : TiffFields) {entry : Nat}
    (hentry : entry < 2 ^ 40) (tag : Nat) :
    Simulates Eq Stop.thrown (readFieldValues data little fields entry tag)
      (readFieldValuesAccess data little fields entry tag) := by
  have htypeAt : word (entry + 2) = entry + 2 := word_eq (by omega)
  have helementsAt : word (entry + 4) = entry + 4 := word_eq (by omega)
  rw [readFieldValues, readFieldValuesAccess, htypeAt, helementsAt]
  apply (readTiffAccess_simulates hlength _ (by decide)).bind
  rintro type _ htype rfl
  apply (readTiffAccess_simulates hlength _ le_rfl).bind
  rintro elements _ helements rfl
  apply (simulates_thrown _).bind
  rintro _ _ hvalid -
  have hsize : elementSize type ≤ 4 := by
    unfold elementSize
    split
    · decide
    · split <;> decide
  -- the check of the count bounds the size of the table by that of the file
  have hbytes : elements * elementSize type ≤ data.length := by
    have hchecked := reject_eq_ok.mp hvalid
    have hpos : 0 < elementSize type := by omega
    exact (Nat.le_div_iff_mul_le hpos).mp (by omega)
  have hword : word (elements * elementSize type) = elements * elementSize type := word_eq (by omega)
  dsimp only
  rw [hword]
  apply (valuesOffsetAccess_simulates hlength hentry _).bind
  rintro offset _ - rfl
  apply (simulates_reject (room_iff hlength offset _)).bind
  rintro _ _ hroom -
  have hinside := reject_eq_ok.mp hroom
  apply Simulates.mapM
  intro j hj
  have hplace : (j + 1) * elementSize type ≤ elements * elementSize type :=
    Nat.mul_le_mul_right _ (List.mem_range.mp hj)
  rw [Nat.succ_mul] at hplace
  have hindex : word (j * elementSize type) = j * elementSize type := word_eq (by omega)
  have hvalue : word (offset + j * elementSize type) = offset + j * elementSize type := word_eq (by omega)
  rw [hindex, hvalue]
  exact readTiffAccess_simulates hlength _ hsize

/-- **A round of the loop over the directory.** -/
theorem readTiffEntryAccess_simulates (hlength : data.length < 2 ^ 32) {directory i : Nat}
    (hdirectory : directory < 2 ^ 32) (hi : i < 2 ^ 16) (state : TiffFields × List Nat) :
    Simulates Eq Stop.thrown (readTiffEntry data little directory state i)
      (readTiffEntryAccess data little directory state i) := by
  have hfirst : word (directory + 2) = directory + 2 := word_eq (by omega)
  have hindex : word (i * 12) = i * 12 := word_eq (by omega)
  have hentry : word (directory + 2 + i * 12) = directory + 2 + i * 12 := word_eq (by omega)
  rw [readTiffEntry, readTiffEntryAccess, hfirst, hindex]
  dsimp only
  rw [hentry]
  apply (readTiffAccess_simulates hlength _ (by decide)).bind
  rintro tag _ - rfl
  split
  · exact rfl
  · have hplace : directory + 2 + i * 12 < 2 ^ 40 := by omega
    have hvalues : Simulates Eq Stop.thrown (readFieldValues data little state.1 (directory + 2 + i * 12) tag)
        (readFieldValuesAccess data little state.1 (directory + 2 + i * 12) tag) :=
      readFieldValuesAccess_simulates hlength state.1 hplace tag
    rw [simulates_eq_iff] at hvalues ⊢
    rw [hvalues]
    cases readFieldValues data little state.1 (directory + 2 + i * 12) tag <;> rfl

/-! ## The strips -/

/-- The bytes of a sample, in the order of a little-endian machine. -/
def sampleAt (data : Bytes) (little : Bool) (place bytes : Nat) : Bytes :=
  (List.range bytes).map fun b => data.getD (place + if little then b else bytes - b - 1) 0

@[simp] theorem length_sampleAt (place bytes : Nat) : (sampleAt data little place bytes).length = bytes := by
  simp [sampleAt]

theorem stripPixels_succ (offset samples bytes : Nat) :
    stripPixels data little offset (samples + 1) bytes =
      stripPixels data little offset samples bytes ++ sampleAt data little (offset + samples * bytes) bytes := by
  rw [stripPixels, List.range_succ, List.flatMap_append, List.flatMap_singleton]
  rfl

@[simp] theorem length_stripPixels (offset samples bytes : Nat) :
    (stripPixels data little offset samples bytes).length = samples * bytes := by
  induction samples with
  | zero => simp [stripPixels]
  | succ samples ih => rw [stripPixels_succ, List.length_append, ih, length_sampleAt, Nat.succ_mul]

/-- **A sample is copied to the first bytes that are not yet written.** -/
theorem copySampleAccess_eq (hlength : data.length < 2 ^ 32) {written : Bytes} {rest offset position j bytes : Nat}
    (hposition : position + j = written.length) (hroom : bytes ≤ rest) (hsmall : written.length + rest < 2 ^ 32)
    (hinside : offset + j + bytes ≤ data.length) :
    copySampleAccess data little offset position j bytes (written ++ List.replicate rest 0) =
      .ok ((written ++ sampleAt data little (offset + j) bytes) ++ List.replicate (rest - bytes) 0) := by
  -- the bytes before `b` are written, and the others are zero
  obtain ⟨buffer, hbuffer, hwritten⟩ := foldlM_range_total (ε := Stop)
    (f := fun pixels b => do
      let byte ← access (loadByte data (word (word (offset + j) + if little then b else bytes - b - 1)))
      access (storeByte pixels (word (word (position + j) + b)) byte))
    (I := fun b buffer => buffer = (written ++ (List.range b).map fun b =>
        data.getD (offset + j + if little then b else bytes - b - 1) 0) ++ List.replicate (rest - b) 0)
    (n := bytes) (b := written ++ List.replicate rest 0) (by simp) (by
      rintro b hb _ rfl
      have hsource : (if little then b else bytes - b - 1) < bytes := by
        split <;> omega
      have hfrom : word (word (offset + j) + if little then b else bytes - b - 1) =
          offset + j + if little then b else bytes - b - 1 := by
        have hsample : word (offset + j) = offset + j := word_eq (by omega)
        rw [hsample]
        exact word_eq (by omega)
      have hto : word (word (position + j) + b) = written.length + b := by
        have hsample : word (position + j) = position + j := word_eq (by omega)
        rw [hsample, hposition]
        exact word_eq (by omega)
      have hplace : (written ++ (List.range b).map fun b =>
          data.getD (offset + j + if little then b else bytes - b - 1) 0).length = written.length + b := by
        simp
      refine ⟨_, except_bind_eq_ok.mpr
        ⟨data.getD (offset + j + if little then b else bytes - b - 1) 0, ?_, ?_⟩, rfl⟩
      · rw [hfrom, load_inside (by omega)]
      · rw [hto, ← hplace, show rest - b = rest - (b + 1) + 1 by omega, storeByte_next, List.range_succ,
          List.map_append, ← List.append_assoc]
        rfl)
  rw [copySampleAccess, hbuffer, hwritten]
  rfl

/-- **A strip is copied to the first bytes that are not yet written.** -/
theorem copyStripAccess_eq (hlength : data.length < 2 ^ 32) {written : Bytes} {rest offset samples bytes : Nat}
    (hbytes : 0 < bytes) (hroom : samples * bytes ≤ rest) (hsmall : written.length + rest < 2 ^ 32)
    (hinside : offset + samples * bytes ≤ data.length) :
    copyStripAccess data little offset written.length (samples * bytes) bytes (written ++ List.replicate rest 0) =
      .ok ((written ++ stripPixels data little offset samples bytes) ++ List.replicate (rest - samples * bytes) 0) := by
  have hrounds : (samples * bytes + bytes - 1) / bytes = samples := by
    rw [Nat.add_sub_assoc hbytes, Nat.add_comm, Nat.add_mul_div_right _ _ hbytes,
      Nat.div_eq_of_lt (Nat.sub_lt hbytes Nat.one_pos), Nat.zero_add]
  obtain ⟨buffer, hbuffer, hwritten⟩ := foldlM_range_total (ε := Stop)
    (f := fun pixels k => copySampleAccess data little offset written.length (k * bytes) bytes pixels)
    (I := fun k buffer => buffer =
      (written ++ stripPixels data little offset k bytes) ++ List.replicate (rest - k * bytes) 0)
    (n := samples) (b := written ++ List.replicate rest 0) (by simp [stripPixels]) (by
      rintro k hk _ rfl
      have hnext : k * bytes + bytes ≤ samples * bytes := by
        rw [← Nat.succ_mul]
        exact Nat.mul_le_mul_right _ hk
      have hfilled : (written ++ stripPixels data little offset k bytes).length = written.length + k * bytes := by
        rw [List.length_append, length_stripPixels]
      refine ⟨_, copySampleAccess_eq hlength hfilled.symm (by omega) (by omega) (by omega), ?_⟩
      rw [stripPixels_succ, ← List.append_assoc, Nat.sub_sub, ← Nat.succ_mul])
  rw [copyStripAccess, hrounds, hbuffer, hwritten]

/-- The rows before a strip, and the ones in it. -/
theorem strip_rows {rowsPerStrip height i : Nat} (hrows : 0 < rowsPerStrip) (hheight : 0 < height)
    (hi : i < (height - 1) / rowsPerStrip + 1) :
    i * rowsPerStrip < height ∧
      min ((i + 1) * rowsPerStrip) height = i * rowsPerStrip + min rowsPerStrip (height - i * rowsPerStrip) := by
  have hle : i * rowsPerStrip ≤ height - 1 := (Nat.le_div_iff_mul_le hrows).mp (Nat.le_of_lt_succ hi)
  rw [Nat.succ_mul]
  omega

/-- The strips have all rows. -/
theorem all_rows {rowsPerStrip height : Nat} (hrows : 0 < rowsPerStrip) (hheight : 0 < height) :
    min (((height - 1) / rowsPerStrip + 1) * rowsPerStrip) height = height := by
  have hlt := Nat.lt_div_mul_add (a := height - 1) hrows
  rw [Nat.succ_mul]
  omega

/-- The rows of an image fit in it. -/
theorem rows_le {rows width height bytes : Nat} (h : rows ≤ height) :
    rows * (width * bytes) ≤ width * height * bytes :=
  calc rows * (width * bytes)
      ≤ height * (width * bytes) := Nat.mul_le_mul_right _ h
    _ = width * height * bytes := by rw [Nat.mul_left_comm, Nat.mul_assoc]

/-- The buffer and the position in it, when some pixels are written. -/
def Filled (size : Nat) (pixels : Bytes) (state : Bytes × Nat) : Prop :=
  state = (pixels ++ List.replicate (size - pixels.length) 0, pixels.length)

/-- **A strip is read from inside of the file, and written inside of the buffer.** -/
theorem readStripAccess_simulates (hlength : data.length < 2 ^ 32) {offsets counts : List Nat}
    {rowsPerStrip width height bytes i : Nat} (hbytes : 0 < bytes) (hsize : width * height * bytes ≤ maxImageBytes)
    (hrows : 0 < rowsPerStrip) (hheight : 0 < height) (hsmall : height < 2 ^ 32)
    (hi : i < (height - 1) / rowsPerStrip + 1) {pixels : Bytes} {state : Bytes × Nat}
    (hpixels : pixels.length = min (i * rowsPerStrip) height * (width * bytes))
    (hstate : Filled (width * height * bytes) pixels state) :
    Simulates (fun pixels state => pixels.length = min ((i + 1) * rowsPerStrip) height * (width * bytes) ∧
        Filled (width * height * bytes) pixels state) Stop.thrown
      (do
        let rows := min rowsPerStrip (height - i * rowsPerStrip)
        let length := rows * width * bytes
        let offset := offsets.getD i 0
        reject (counts.getD i 0 ≠ length ∨ data.length < offset ∨ data.length - offset < length)
          "Truncated or inconsistent LeRobot TIFF strip"
        .ok (pixels ++ stripPixels data little offset (rows * width) bytes))
      (readStripAccess data little offsets counts rowsPerStrip width height bytes state i) := by
  obtain ⟨hbefore, hnext⟩ := strip_rows hrows hheight hi
  generalize hstrip : min rowsPerStrip (height - i * rowsPerStrip) = rows at hnext ⊢
  have hinside : i * rowsPerStrip + rows ≤ height := by omega
  have htotal : (i * rowsPerStrip + rows) * (width * bytes) ≤ width * height * bytes := rows_le hinside
  have hlong : rows * width * bytes = rows * (width * bytes) := Nat.mul_assoc _ _ _
  have hrow : rows * width ≤ rows * width * bytes := Nat.le_mul_of_pos_right _ hbytes
  rw [Nat.min_eq_left hbefore.le] at hpixels
  rw [Nat.add_mul] at htotal
  rw [maxImageBytes] at hsize
  subst hstate
  have hfirst : word (i * rowsPerStrip) = i * rowsPerStrip := word_eq (by omega)
  have hsamples : word (rows * width) = rows * width := word_eq (by omega)
  have hbytesWord : word (rows * width * bytes) = rows * width * bytes := word_eq (by omega)
  rw [readStripAccess, hfirst, wordSub_eq hbefore.le (by omega), hstrip]
  dsimp only
  rw [hsamples, hbytesWord]
  apply (simulates_reject (or_congr Iff.rfl (room_iff hlength _ _))).bind
  rintro _ _ hroom -
  have hchecked := reject_eq_ok.mp hroom
  have hcopy : copyStripAccess data little (offsets.getD i 0) pixels.length (rows * width * bytes) bytes
      (pixels ++ List.replicate (width * height * bytes - pixels.length) 0) =
      .ok ((pixels ++ stripPixels data little (offsets.getD i 0) (rows * width) bytes) ++
        List.replicate (width * height * bytes - pixels.length - rows * width * bytes) 0) :=
    copyStripAccess_eq hlength hbytes (by omega) (by omega) (by omega)
  rw [hcopy]
  refine ⟨?_, ?_⟩
  · rw [hnext, List.length_append, length_stripPixels, hpixels, Nat.add_mul, hlong]
  · rw [Filled, List.length_append, length_stripPixels, Nat.sub_sub, word_eq (by omega)]

/-- **The loop over the strips fills the buffer.** -/
theorem readStripsAccess_simulates (hlength : data.length < 2 ^ 32) {offsets counts : List Nat}
    {rowsPerStrip width height bytes : Nat} (hbytes : 0 < bytes) (hsize : width * height * bytes ≤ maxImageBytes)
    (hrows : 0 < rowsPerStrip) (hheight : 0 < height) (hsmall : height < 2 ^ 32)
    (hcount : offsets.length = (height - 1) / rowsPerStrip + 1) :
    Simulates (fun pixels state => pixels.length = width * height * bytes ∧ state.1 = pixels) Stop.thrown
      (readStrips data little offsets counts rowsPerStrip width height bytes)
      ((List.range offsets.length).foldlM
        (readStripAccess data little offsets counts rowsPerStrip width height bytes)
        (List.replicate (width * height * bytes) 0, 0)) := by
  have hloop := Simulates.foldlM_range (ε := InvalidInputException) (e := Stop.thrown)
    (S := fun i pixels state => pixels.length = min (i * rowsPerStrip) height * (width * bytes) ∧
      Filled (width * height * bytes) pixels state)
    (f := fun pixels i => do
      let rows := min rowsPerStrip (height - i * rowsPerStrip)
      let length := rows * width * bytes
      let offset := offsets.getD i 0
      reject (counts.getD i 0 ≠ length ∨ data.length < offset ∨ data.length - offset < length)
        "Truncated or inconsistent LeRobot TIFF strip"
      .ok (pixels ++ stripPixels data little offset (rows * width) bytes))
    (g := readStripAccess data little offsets counts rowsPerStrip width height bytes) (n := offsets.length)
    (b := []) (c := (List.replicate (width * height * bytes) 0, 0)) ⟨by simp, rfl⟩ (by
      rintro i hi pixels state ⟨hpixels, hstate⟩
      exact readStripAccess_simulates hlength hbytes hsize hrows hheight hsmall (hcount ▸ hi) hpixels hstate)
  apply hloop.mono
  rintro pixels state ⟨hpixels, hstate⟩
  rw [hcount, all_rows hrows hheight, ← Nat.mul_assoc, Nat.mul_comm height] at hpixels
  refine ⟨hpixels, ?_⟩
  rw [hstate, hpixels, Nat.sub_self]
  exact List.append_nil _

/-! ## The image -/

/-- The size of the image, when it is accepted. -/
theorem size_le_maxImageBytes {width height bytes : Nat} (hbytes : 0 < bytes) (hwidth : 0 < width)
    (htall : height ≤ maxImageBytes / (width * bytes)) : width * height * bytes ≤ maxImageBytes := by
  have hrow : 0 < width * bytes := Nat.mul_pos hwidth hbytes
  have hle := (Nat.le_div_iff_mul_le hrow).mp htall
  rwa [Nat.mul_left_comm, ← Nat.mul_assoc] at hle

theorem height_le_size {width height bytes : Nat} (hbytes : 0 < bytes) (hwidth : 0 < width) :
    height ≤ width * height * bytes :=
  (Nat.le_mul_of_pos_left _ hwidth).trans (Nat.le_mul_of_pos_right _ hbytes)

/-- **The image is read from inside of the file, and written inside of a buffer of its size.** -/
theorem readDepthImageAccess_simulates (hlength : data.length < 2 ^ 32) (fields : TiffFields) {bits : Nat}
    (hbytes : 0 < bits / 8) (format : Nat) :
    Simulates (fun value value' => value' = value ∧ value.image.length = value.width * value.height * (bits / 8) ∧
        value.image.length ≤ maxImageBytes ∧ value.dtype = if format = 3 then "float32" else "uint16") Stop.thrown
      (readDepthImage data little fields bits format) (readDepthImageAccess data little fields bits format) := by
  rw [readDepthImage, readDepthImageAccess]
  apply (simulates_thrown _).bind
  rintro _ _ - -
  dsimp only
  generalize fields.scalar 256 0 = width
  generalize fields.scalar 257 0 = height
  generalize bits / 8 = bytes at hbytes ⊢
  generalize fields.scalar 278 height = rowsPerStrip
  generalize (fields.lookup 273).getD [] = offsets
  generalize (fields.lookup 279).getD [] = counts
  -- the product of the check does not wrap around when its first part holds
  have hdimensions : (width = 0 ∨ height = 0 ∨ maxImageBytes / bytes < width ∨
      maxImageBytes / word (width * bytes) < height) ↔ (width = 0 ∨ height = 0 ∨ maxImageBytes / bytes < width ∨
        maxImageBytes / (width * bytes) < height) := by
    by_cases hwide : maxImageBytes / bytes < width
    · exact iff_of_true (.inr (.inr (.inl hwide))) (.inr (.inr (.inl hwide)))
    · have hrow := (Nat.le_div_iff_mul_le hbytes).mp (not_lt.mp hwide)
      have hlimit : maxImageBytes < 2 ^ 64 := by decide
      rw [word_eq (hrow.trans_lt hlimit)]
  apply (simulates_reject hdimensions).bind
  rintro _ _ haccepted -
  have hchecked := reject_eq_ok.mp haccepted
  simp only [not_or, not_lt] at hchecked
  obtain ⟨hwidth, hheight, -, htall⟩ := hchecked
  have hsize := size_le_maxImageBytes hbytes (Nat.pos_of_ne_zero hwidth) htall
  have hlimit : maxImageBytes < 2 ^ 32 := by decide
  have hsmall : height < 2 ^ 32 :=
    (height_le_size hbytes (Nat.pos_of_ne_zero hwidth)).trans_lt (hsize.trans_lt hlimit)
  have hcountWord : word (wordSub height 1 / rowsPerStrip + 1) = (height - 1) / rowsPerStrip + 1 := by
    have hle : (height - 1) / rowsPerStrip ≤ height - 1 := Nat.div_le_self _ _
    rw [wordSub_eq (by omega) (by omega)]
    exact word_eq (by omega)
  rw [hcountWord]
  apply (simulates_thrown _).bind
  rintro _ _ hlayout -
  have hstrips := reject_eq_ok.mp hlayout
  simp only [not_or, not_not] at hstrips
  obtain ⟨hrows, hcount, -⟩ := hstrips
  have hpixels : width * height ≤ width * height * bytes := Nat.le_mul_of_pos_right _ hbytes
  have hpixelsWord : word (width * height) = width * height := word_eq (by omega)
  have hsizeWord : word (width * height * bytes) = width * height * bytes := word_eq (by omega)
  rw [hpixelsWord, hsizeWord]
  apply (readStripsAccess_simulates hlength hbytes hsize (Nat.pos_of_ne_zero hrows) (Nat.pos_of_ne_zero hheight)
    hsmall hcount).bind
  rintro pixels ⟨buffer, position⟩ - ⟨hfull, rfl⟩
  exact ⟨rfl, hfull, hfull.trans_le hsize, rfl⟩

/-- The images that the reader decodes itself. -/
theorem checkTiffFields_true {fields : TiffFields} {samples bits format : Nat}
    (h : checkTiffFields data fields samples bits format = .ok true) :
    bits = 16 ∧ format = 1 ∨ bits = 32 ∧ format = 3 := by
  simp only [checkTiffFields, except_bind_eq_ok] at h
  obtain ⟨-, -, -, -, -, -, -, -, h⟩ := h
  split at h
  · cases h
  · rename_i hdepth
    exact not_not.mp (not_or.mp hdepth).2

end Reader

/-- What the reader has read: as many bytes as the image has, within the limit. -/
structure ImageValue.Complete (value : ImageValue) : Prop where
  dtype : value.dtype = "uint16" ∨ value.dtype = "float32"
  length_eq : value.image.length = value.width * value.height * if value.dtype = "uint16" then 2 else 4
  limit : value.image.length ≤ maxImageBytes

/-- **The reader with its accesses does what the reader does.** It accesses no byte outside of the file or of the
buffer, and the buffer is full in the end. -/
theorem decodeDepthTiffAccess_simulates {data : Bytes} (hlength : data.length < 2 ^ 32) (hfirst : 0 < data.length) :
    Simulates (fun result result' => result' = result ∧ ∀ value, result.1 = some value → value.Complete) Stop.thrown
      (decodeDepthTiff data) (decodeDepthTiffAccess data) := by
  rw [decodeDepthTiff, decodeDepthTiffAccess, load_inside hfirst]
  dsimp only
  apply (readTiffAccess_simulates hlength _ le_rfl).bind
  rintro directory _ hdirectory rfl
  apply (readTiffAccess_simulates hlength _ (by decide)).bind
  rintro count _ hcount rfl
  -- the directory has room for its count, so the differences of the check do not wrap around
  obtain ⟨hroom, hcountEq⟩ := readTiff_eq_ok.mp hcount
  have hcountLt : count < 2 ^ 16 := hcountEq ▸ joinBytes_lt _ 2 _
  have hrest : wordSub (wordSub data.length directory) 2 = data.length - directory - 2 := by
    rw [wordSub_eq (a := data.length) (by omega) (by omega)]
    exact wordSub_eq (by omega) (by omega)
  rw [hrest]
  apply (simulates_thrown _).bind
  rintro _ _ - -
  have hplace : directory < 2 ^ 32 := by omega
  apply (Simulates.foldlM_range (S := fun _ => Eq) rfl fun i hi state _ hstate => hstate ▸
    readTiffEntryAccess_simulates hlength hplace (by omega) state).bind
  rintro ⟨fields, decoderEntries⟩ _ - rfl
  apply (simulates_thrown _).bind
  rintro bits _ - rfl
  apply (simulates_thrown _).bind
  rintro format _ - rfl
  apply (simulates_thrown _).bind
  rintro isDepth _ hdepth rfl
  cases isDepth with
  | false =>
      refine ⟨rfl, ?_⟩
      intro value hvalue
      cases hvalue
  | true =>
      have hsample := checkTiffFields_true hdepth
      have hbytes : 0 < bits / 8 := by omega
      apply (readDepthImageAccess_simulates hlength fields hbytes format).bind
      rintro value _ - ⟨rfl, hfull, hlimit, hdtype⟩
      refine ⟨rfl, ?_⟩
      rintro _ hvalue
      cases hvalue
      rcases hsample with ⟨rfl, rfl⟩ | ⟨rfl, rfl⟩
      · exact ⟨.inl hdtype, by rw [hfull, hdtype]; rfl, hlimit⟩
      · exact ⟨.inr hdtype, by rw [hfull, hdtype]; rfl, hlimit⟩

end DuckdbLerobot.Image
