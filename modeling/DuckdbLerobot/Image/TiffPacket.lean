import DuckdbLerobot.Image.DepthTiff
import DuckdbLerobot.Library.ByteRegions

/-!
# The packet for FFmpeg

A TIFF that the reader leaves to FFmpeg gets a new first directory, without the tags `ExtraSamples` and
`SampleFormat`. `DecodeImage` appends it to a copy of the file and points the header to it (`tiffPacket`).
`tiffPacket_preserves` says that FFmpeg finds the other entries as they were, and the values and the strips
that they refer to, and that no byte outside of the packet or of the file is used.

What a TIFF says is defined apart from the reader: its first directory (`firstDirectory`), the value of an entry
(`entryValue`), which is in the entry if it fits there, and a strip (`stripAt`).
-/

set_option autoImplicit false

namespace DuckdbLerobot.Image

open DuckdbLerobot.Library DuckdbLerobot.Storage

/-! ## The packet -/

/-- `tiff_directory`: the size, rounded up to an even number. -/
def tiffDirectory (size : Nat) : Nat := (size + 1) / 2 * 2

/-- `packet_size` of a TIFF. -/
def packetSize (size entries : Nat) : Nat := tiffDirectory size + 2 + entries * 12 + 4

/-- The magic of a TIFF, in either byte order. -/
def IsTiff (data : Bytes) : Prop :=
  data.take 4 = [0x49, 0x49, 0x2a, 0x00] ∨ data.take 4 = [0x4d, 0x4d, 0x00, 0x2a]

/-- The byte order of a TIFF. -/
def isLittle (data : Bytes) : Bool := data.getD 0 0 == 0x49

/-- What `DecodeImage` makes of the buffer of `av_new_packet`. -/
def tiffPacket (buffer data : Bytes) (decoderEntries : List Nat) : Except OutOfBounds Bytes := do
  let directory := tiffDirectory data.length
  let packet ← copyBytes buffer 0 data 0 data.length
  let packet ← clearBytes packet data.length (buffer.length - data.length)
  let packet ← writeNumber (isLittle data) packet 4 (directory % 2 ^ 32) 4
  let packet ← writeNumber (isLittle data) packet directory (decoderEntries.length % 2 ^ 32) 2
  (List.range decoderEntries.length).foldlM (fun packet i =>
    copyBytes packet (directory + 2 + i * 12) data (decoderEntries.getD i 0) 12) packet

/-! ## What a TIFF says -/

/-- The bytes of a region. -/
def sliceAt (data : Bytes) (offset count : Nat) : Option Bytes :=
  if offset + count ≤ data.length then some ((data.drop offset).take count) else none

/-- A number at a place of some bytes. -/
def numberIn (bytes : Bytes) (little : Bool) (offset count : Nat) : Nat :=
  joinBytes little count fun i => bytes.getD (offset + i) 0

/-- A number in a file. -/
def numberAt (data : Bytes) (offset count : Nat) : Option Nat :=
  (sliceAt data offset count).map fun bytes => numberIn bytes (isLittle data) 0 count

/-- The first directory: its place, and the twelve bytes of each of its entries. -/
def firstDirectory (data : Bytes) : Option (Nat × List Bytes) := do
  let directory ← numberAt data 4 4
  let count ← numberAt data directory 2
  let entries ← (List.range count).mapM fun i => sliceAt data (directory + 2 + i * 12) 12
  some (directory, entries)

/-- The place of the next directory. -/
def nextDirectory (data : Bytes) : Option Nat := do
  let (directory, entries) ← firstDirectory data
  numberAt data (directory + 2 + entries.length * 12) 4

section Entry

variable (data : Bytes) (little : Bool) (entry : Bytes)

def entryTag : Nat := numberIn entry little 0 2

def entryType : Nat := numberIn entry little 2 2

def entryCount : Nat := numberIn entry little 4 4

/-- The bytes of one value of a type of TIFF. -/
def typeSize (type : Nat) : Nat :=
  match type with
  | 1 | 2 | 6 | 7 => 1
  | 3 | 8 => 2
  | 4 | 9 | 11 | 13 => 4
  | 5 | 10 | 12 => 8
  | _ => 0

def entrySize : Nat := entryCount little entry * typeSize (entryType little entry)

/-- Where the values are that do not fit in the entry. -/
def entryOffset : Nat := numberIn entry little 8 4

/-- The bytes of the values of an entry. -/
def entryValue : Option Bytes :=
  if entrySize little entry ≤ 4 then sliceAt entry 8 (entrySize little entry)
  else sliceAt data (entryOffset little entry) (entrySize little entry)

/-- One of the values, as a number. -/
def entryNumber (j : Nat) : Option Nat :=
  let size := typeSize (entryType little entry)
  (entryValue data little entry).bind fun value =>
    (sliceAt value (j * size) size).map fun bytes => numberIn bytes little 0 size

/-- A strip, by the entries of the strip offsets and of the strip sizes. -/
def stripAt (offsets counts : Bytes) (j : Nat) : Option Bytes :=
  (entryNumber data little offsets j).bind fun offset =>
    (entryNumber data little counts j).bind fun count => sliceAt data offset count

end Entry

/-- FFmpeg gets the entry. -/
def isKept (little : Bool) (entry : Bytes) : Bool :=
  entryTag little entry != 338 && entryTag little entry != 339

/-- A region that does not have the place of the first directory, the bytes 4 to 7. -/
def Apart (offset count : Nat) : Prop := count = 0 ∨ offset + count ≤ 4 ∨ 8 ≤ offset

/-- The values of an entry are in the entry or apart. -/
def ValueApart (little : Bool) (entry : Bytes) : Prop :=
  entrySize little entry ≤ 4 ∨ Apart (entryOffset little entry) (entrySize little entry)

/-- **The packet has the image of the file.** -/
structure Preserves (data packet : Bytes) : Prop where
  tiff : IsTiff packet
  order : isLittle packet = isLittle data
  /-- The first directory has the entries that are kept, in their order. -/
  directory : ∃ place entries, firstDirectory data = some (place, entries) ∧
    firstDirectory packet = some (tiffDirectory data.length, entries.filter (isKept (isLittle data)))
  /-- It is at an even place. -/
  even : tiffDirectory data.length % 2 = 0
  /-- There is no other directory. -/
  next : nextDirectory packet = some 0
  /-- The values are the same. -/
  values : ∀ entry bytes, ValueApart (isLittle data) entry →
    entryValue data (isLittle data) entry = some bytes → entryValue packet (isLittle data) entry = some bytes
  /-- The strips are the same. -/
  strips : ∀ offsets counts j offset count bytes,
    ValueApart (isLittle data) offsets → ValueApart (isLittle data) counts →
    entryNumber data (isLittle data) offsets j = some offset →
    entryNumber data (isLittle data) counts j = some count → Apart offset count →
    stripAt data (isLittle data) offsets counts j = some bytes →
    stripAt packet (isLittle data) offsets counts j = some bytes

/-! ## What the packet has where -/

theorem le_tiffDirectory (size : Nat) : size ≤ tiffDirectory size := by
  unfold tiffDirectory
  omega

theorem tiffDirectory_le (size : Nat) : tiffDirectory size ≤ size + 1 := by
  unfold tiffDirectory
  omega

section Packet

variable {buffer data : Bytes} {decoderEntries : List Nat}

/-- The entries are copied one after the other. -/
theorem copyEntries {packet : Bytes} (place : Nat) (hentries : ∀ entry ∈ decoderEntries, entry + 12 ≤ data.length)
    (hroom : place + decoderEntries.length * 12 ≤ packet.length) :
    ∃ packet', (List.range decoderEntries.length).foldlM (fun packet i =>
        copyBytes packet (place + i * 12) data (decoderEntries.getD i 0) 12) packet = .ok packet' ∧
      packet'.length = packet.length ∧
      (∀ offset bytes, BytesAt packet offset bytes →
        offset + bytes.length ≤ place ∨ place + decoderEntries.length * 12 ≤ offset →
          BytesAt packet' offset bytes) ∧
      ∀ i < decoderEntries.length,
        BytesAt packet' (place + i * 12) ((data.drop (decoderEntries.getD i 0)).take 12) := by
  apply foldlM_range_total (I := fun m packet' => packet'.length = packet.length ∧
    (∀ offset bytes, BytesAt packet offset bytes →
      offset + bytes.length ≤ place ∨ place + m * 12 ≤ offset → BytesAt packet' offset bytes) ∧
    ∀ i < m, BytesAt packet' (place + i * 12) ((data.drop (decoderEntries.getD i 0)).take 12))
  · exact ⟨rfl, fun _ _ hat _ => hat, fun i hi => absurd hi (Nat.not_lt_zero i)⟩
  · rintro m hm packet' ⟨hlength, hframe, hcopied⟩
    have hsource : decoderEntries.getD m 0 + 12 ≤ data.length := by
      rw [List.getD_eq_getElem _ _ hm]
      exact hentries _ (List.getElem_mem hm)
    have htwelve : ((data.drop (decoderEntries.getD m 0)).take 12).length = 12 := length_take_drop hsource
    have hfits : place + m * 12 + ((data.drop (decoderEntries.getD m 0)).take 12).length ≤ packet'.length := by
      omega
    refine ⟨_, copyBytes_eq hsource (by omega), ?_, ?_, ?_⟩
    · rw [length_overwrite hfits, hlength]
    · intro offset bytes hat hapart
      exact (hframe offset bytes hat (by omega)).overwrite hfits (by omega)
    · intro i hi
      rcases Nat.lt_succ_iff_lt_or_eq.mp hi with hlt | rfl
      · have hlengthAt : ((data.drop (decoderEntries.getD i 0)).take 12).length ≤ 12 := List.length_take_le _ _
        exact (hcopied i hlt).overwrite hfits (by omega)
      · exact bytesAt_overwrite hfits

/-- **The regions of the packet.** No access is outside. -/
theorem tiffPacket_regions (hmin : 8 ≤ data.length) (hsize : data.length ≤ maxImageBytes)
    (hbuffer : buffer.length = packetSize data.length decoderEntries.length)
    (hentries : ∀ entry ∈ decoderEntries, entry + 12 ≤ data.length)
    (hcount : decoderEntries.length < 2 ^ 16) :
    ∃ packet, tiffPacket buffer data decoderEntries = .ok packet ∧ packet.length = buffer.length ∧
      (∀ offset bytes, BytesAt data offset bytes → Apart offset bytes.length → BytesAt packet offset bytes) ∧
      BytesAt packet 4 (numberBytes (isLittle data) 4 (tiffDirectory data.length)) ∧
      BytesAt packet (tiffDirectory data.length) (numberBytes (isLittle data) 2 decoderEntries.length) ∧
      (∀ i < decoderEntries.length, BytesAt packet (tiffDirectory data.length + 2 + i * 12)
        ((data.drop (decoderEntries.getD i 0)).take 12)) ∧
      BytesAt packet (tiffDirectory data.length + 2 + decoderEntries.length * 12) (List.replicate 4 0) := by
  have hlow := le_tiffDirectory data.length
  have hhigh := tiffDirectory_le data.length
  have hdirectory : tiffDirectory data.length % 2 ^ 32 = tiffDirectory data.length := by
    apply Nat.mod_eq_of_lt
    unfold maxImageBytes at hsize
    omega
  have hentriesCount : decoderEntries.length % 2 ^ 32 = decoderEntries.length := by
    apply Nat.mod_eq_of_lt
    omega
  unfold packetSize at hbuffer
  unfold tiffPacket
  simp only [hdirectory, hentriesCount, except_bind_eq_ok]
  generalize tiffDirectory data.length = place at hlow hhigh hbuffer
  -- the file
  have hroom₁ : 0 + data.length ≤ buffer.length := by omega
  have hcopy : copyBytes buffer 0 data 0 data.length = .ok (overwrite buffer 0 data) := by
    rw [copyBytes_eq (by omega) hroom₁, List.drop_zero, List.take_length]
  have hat₁ := bytesAt_overwrite hroom₁
  have hlength₁ := length_overwrite hroom₁
  generalize overwrite buffer 0 data = copied at hcopy hat₁ hlength₁
  -- zeros after it
  have hroom₂ : data.length + (List.replicate (buffer.length - data.length) (0 : UInt8)).length ≤
      copied.length := by
    rw [List.length_replicate]
    omega
  have hclear : clearBytes copied data.length (buffer.length - data.length) =
      .ok (overwrite copied data.length (List.replicate (buffer.length - data.length) 0)) :=
    clearBytes_eq (by omega)
  have hat₂ := hat₁.overwrite hroom₂ (.inl (by omega))
  have hzeros₂ := bytesAt_overwrite hroom₂
  have hlength₂ := (length_overwrite hroom₂).trans hlength₁
  generalize overwrite copied data.length (List.replicate _ 0) = cleared at hclear hat₂ hzeros₂ hlength₂
  -- the place of the directory
  have hroom₃ : 4 + (numberBytes (isLittle data) 4 place).length ≤ cleared.length := by
    rw [length_numberBytes]
    omega
  have hpointer : writeNumber (isLittle data) cleared 4 place 4 =
      .ok (overwrite cleared 4 (numberBytes (isLittle data) 4 place)) :=
    writeNumber_eq (isLittle data) place (by omega)
  have hat₃ : ∀ offset bytes, BytesAt data offset bytes → Apart offset bytes.length →
      BytesAt (overwrite cleared 4 (numberBytes (isLittle data) 4 place)) offset bytes := by
    intro offset bytes hat hapart
    have hcleared : BytesAt cleared offset bytes := by
      have htrans := hat₂.trans hat
      rwa [Nat.zero_add] at htrans
    rcases hapart with hempty | hbefore | hafter
    · refine ⟨?_, fun i hi => absurd hi (by omega)⟩
      rw [length_overwrite hroom₃]
      exact hcleared.inside
    · exact hcleared.overwrite hroom₃ (.inl hbefore)
    · exact hcleared.overwrite hroom₃ (.inr (by rw [length_numberBytes]; exact hafter))
  have hplace₃ := bytesAt_overwrite hroom₃
  have hzeros₃ := hzeros₂.overwrite hroom₃ (.inr (by rw [length_numberBytes]; omega))
  have hlength₃ := (length_overwrite hroom₃).trans hlength₂
  generalize overwrite cleared 4 _ = pointed at hpointer hat₃ hplace₃ hzeros₃ hlength₃
  -- the number of its entries
  have hroom₄ : place + (numberBytes (isLittle data) 2 decoderEntries.length).length ≤ pointed.length := by
    rw [length_numberBytes]
    omega
  have hnumber : writeNumber (isLittle data) pointed place decoderEntries.length 2 =
      .ok (overwrite pointed place (numberBytes (isLittle data) 2 decoderEntries.length)) :=
    writeNumber_eq (isLittle data) decoderEntries.length (by omega)
  have hat₄ : ∀ offset bytes, BytesAt pointed offset bytes → offset + bytes.length ≤ place ∨ place + 2 ≤ offset →
      BytesAt (overwrite pointed place (numberBytes (isLittle data) 2 decoderEntries.length)) offset bytes := by
    intro offset bytes hat hapart
    apply hat.overwrite hroom₄
    rwa [length_numberBytes]
  have hcount₄ := bytesAt_overwrite hroom₄
  have hlength₄ := (length_overwrite hroom₄).trans hlength₃
  generalize overwrite pointed place _ = counted at hnumber hat₄ hcount₄ hlength₄
  -- the entries
  have hroom₅ : place + 2 + decoderEntries.length * 12 ≤ counted.length := by omega
  obtain ⟨packet, hpacket, hlength, hframe, hcopied⟩ := copyEntries (place + 2) hentries hroom₅
  refine ⟨packet, ⟨copied, hcopy, cleared, hclear, pointed, hpointer, counted, hnumber, hpacket⟩,
    hlength.trans hlength₄, ?_, ?_, ?_, hcopied, ?_⟩
  · intro offset bytes hat hapart
    have hinside := hat.inside
    exact hframe _ _ (hat₄ _ _ (hat₃ _ _ hat hapart) (.inl (by omega))) (.inl (by omega))
  · have hwidth := length_numberBytes (isLittle data) 4 place
    exact hframe _ _ (hat₄ _ _ hplace₃ (.inl (by omega))) (.inl (by omega))
  · have hwidth := length_numberBytes (isLittle data) 2 decoderEntries.length
    exact hframe _ _ hcount₄ (.inl (by omega))
  · have hzeros : BytesAt pointed (place + 2 + decoderEntries.length * 12) (List.replicate 4 0) :=
      hzeros₃.zeros (by omega) (by omega)
    exact hframe _ _ (hat₄ _ _ hzeros (.inr (by omega))) (.inr le_rfl)

end Packet

/-! ## What is found -/

section Found

variable {data bytes : Bytes} {little : Bool} {offset count value : Nat}

theorem sliceAt_eq_some :
    sliceAt data offset count = some bytes ↔ bytes.length = count ∧ BytesAt data offset bytes := by
  rw [sliceAt, bytesAt_iff]
  by_cases hinside : offset + count ≤ data.length
  · rw [if_pos hinside, Option.some_inj]
    constructor
    · rintro rfl
      rw [length_take_drop hinside]
      exact ⟨rfl, hinside, rfl⟩
    · rintro ⟨rfl, -, htake⟩
      exact htake
  · rw [if_neg hinside]
    constructor
    · intro h
      cases h
    · rintro ⟨rfl, h, -⟩
      exact absurd h hinside

/-- The bytes of a region that is inside. -/
theorem sliceAt_inside (h : offset + count ≤ data.length) :
    sliceAt data offset count = some ((data.drop offset).take count) := if_pos h

/-- A number of a region of the bytes. -/
theorem numberIn_slice {start length : Nat} (h : start + length ≤ data.length) (hinside : offset + count ≤ length) :
    numberIn ((data.drop start).take length) little offset count = numberIn data little (start + offset) count := by
  have hat := (sliceAt_eq_some.mp (sliceAt_inside h)).2
  have hlength := length_take_drop h
  apply joinBytes_congr
  intro i hi
  rw [Nat.add_assoc]
  exact (hat.getD (offset + i) (by omega)).symm

theorem numberAt_inside (h : offset + count ≤ data.length) :
    numberAt data offset count = some (numberIn data (isLittle data) offset count) := by
  rw [numberAt, sliceAt_inside h, Option.map_some, numberIn_slice h (by omega), Nat.add_zero]

/-- **A number is found where it was written.** -/
theorem numberAt_written (h : BytesAt data offset (numberBytes (isLittle data) count value))
    (hvalue : value < 256 ^ count) : numberAt data offset count = some value := by
  have hinside := h.inside
  rw [length_numberBytes] at hinside
  rw [numberAt_inside hinside]
  exact congrArg some (h.joinBytes_eq hvalue)

theorem readTiff_eq_ok : readTiff data little offset count = .ok value ↔
    offset + count ≤ data.length ∧ value = numberIn data little offset count := by
  have hroom : ¬(data.length < offset ∨ data.length - offset < count) ↔ offset + count ≤ data.length := by
    omega
  simp only [readTiff, except_bind_eq_ok, reject_eq_ok, hroom]
  constructor
  · rintro ⟨_, hinside, hok⟩
    cases hok
    exact ⟨hinside, rfl⟩
  · rintro ⟨hinside, rfl⟩
    exact ⟨(), hinside, rfl⟩

/-- A map that finds a result at each element. -/
theorem mapM_eq_some {α β : Type} {f : α → Option β} {g : α → β} {l : List α} (h : ∀ a ∈ l, f a = some (g a)) :
    l.mapM f = some (l.map g) := by
  induction l with
  | nil => rfl
  | cons a l ih =>
      rw [List.mapM_cons, h a List.mem_cons_self, ih fun a' ha' => h a' (List.mem_cons_of_mem _ ha')]
      rfl

/-- The twelve bytes of an entry. -/
def entryBytes (data : Bytes) (entry : Nat) : Bytes := (data.drop entry).take 12

/-- The first directory, by its place and the number of its entries. -/
theorem firstDirectory_eq {directory : Nat} (hdirectory : numberAt data 4 4 = some directory)
    (hcount : numberAt data directory 2 = some count) (hroom : directory + 2 + count * 12 ≤ data.length) :
    firstDirectory data =
      some (directory, (List.range count).map fun i => entryBytes data (directory + 2 + i * 12)) := by
  have hentries : ((List.range count).mapM fun i => sliceAt data (directory + 2 + i * 12) 12) =
      some ((List.range count).map fun i => entryBytes data (directory + 2 + i * 12)) := by
    apply mapM_eq_some
    intro i hi
    have hlt := List.mem_range.mp hi
    exact sliceAt_inside (by omega)
  simp [firstDirectory, hdirectory, hcount, hentries]

end Found

/-! ## The entries for FFmpeg -/

section Entries

variable {data : Bytes} {decoderEntries : List Nat} {image : Option ImageValue}

/-- The tag of an entry, in the file. -/
def tagAt (data : Bytes) (entry : Nat) : Nat := numberIn data (isLittle data) entry 2

/-- One round of the loop over the directory. -/
theorem readTiffEntry_entries {directory i : Nat} {state state' : TiffFields × List Nat}
    (h : readTiffEntry data (isLittle data) directory state i = .ok state') :
    directory + 2 + i * 12 + 2 ≤ data.length ∧
      state'.2 = state.2 ++ [directory + 2 + i * 12].filter fun entry =>
        tagAt data entry != 338 && tagAt data entry != 339 := by
  rw [readTiffEntry, except_bind_eq_ok] at h
  obtain ⟨tag, htag, hround⟩ := h
  obtain ⟨hinside, rfl⟩ := readTiff_eq_ok.mp htag
  refine ⟨hinside, ?_⟩
  -- an entry without values and one with values leave the same list
  have hentries : state'.2 = if tagAt data (directory + 2 + i * 12) ≠ 338 ∧
      tagAt data (directory + 2 + i * 12) ≠ 339 then state.2 ++ [directory + 2 + i * 12] else state.2 := by
    dsimp only at hround
    by_cases hknown : numberIn data (isLittle data) (directory + 2 + i * 12) 2 ∈ knownTags
    · rw [if_neg (not_not.mpr hknown)] at hround
      obtain ⟨values, -, hok⟩ := except_map_eq_ok.mp hround
      rw [← hok]
      rfl
    · rw [if_pos hknown] at hround
      cases hround
      rfl
  rw [hentries, List.filter_cons, List.filter_nil]
  by_cases hkept : tagAt data (directory + 2 + i * 12) ≠ 338 ∧ tagAt data (directory + 2 + i * 12) ≠ 339
  · rw [if_pos hkept, if_pos (by simpa using hkept)]
  · rw [if_neg hkept, if_neg (by simpa using hkept), List.append_nil]

/-- **The entries for FFmpeg** are those of the first directory that are kept. -/
theorem decoderEntries_eq (h : decodeDepthTiff data = .ok (image, decoderEntries)) :
    ∃ directory count, numberAt data 4 4 = some directory ∧ numberAt data directory 2 = some count ∧
      directory + 2 + count * 12 ≤ data.length ∧ count < 256 ^ 2 ∧
      decoderEntries = ((List.range count).map fun i => directory + 2 + i * 12).filter fun entry =>
        tagAt data entry != 338 && tagAt data entry != 339 := by
  simp only [decodeDepthTiff, except_bind_eq_ok, reject_eq_ok, not_or, not_lt] at h
  obtain ⟨directory, hdirectory, count, hcount, _, ⟨-, hroom⟩, ⟨fields, entries⟩, hloop, _, -, _, -,
    isDepth, -, hend⟩ := h
  have hresult : entries = decoderEntries := by
    cases isDepth with
    | false =>
        cases hend
        rfl
    | true =>
        obtain ⟨_, -, hok⟩ := except_bind_eq_ok.mp hend
        cases hok
        rfl
  have hread := readTiff_eq_ok.mp hdirectory
  have hread' := readTiff_eq_ok.mp hcount
  refine ⟨directory, count, ?_, ?_, by omega, ?_, ?_⟩
  · rw [numberAt_inside hread.1, hread.2]
    rfl
  · rw [numberAt_inside hread'.1, hread'.2]
    rfl
  · rw [hread'.2]
    exact joinBytes_lt _ _ _
  · -- after each round the entries before it
    rw [← hresult]
    exact foldlM_range_ok (I := fun m (state : TiffFields × List Nat) => state.2 =
        ((List.range m).map fun i => directory + 2 + i * 12).filter fun entry =>
          tagAt data entry != 338 && tagAt data entry != 339) hloop rfl (by
      intro i _ state state' hstate hround
      rw [List.range_succ, List.map_append, List.filter_append, ← hstate]
      exact (readTiffEntry_entries hround).2)

/-- Which entries are kept can be seen from their bytes. -/
theorem filter_entryBytes {entries : List Nat} (h : ∀ entry ∈ entries, entry + 12 ≤ data.length) :
    (entries.filter fun entry => tagAt data entry != 338 && tagAt data entry != 339).map (entryBytes data) =
      (entries.map (entryBytes data)).filter (isKept (isLittle data)) := by
  rw [List.filter_map]
  congr 1
  apply List.filter_congr
  intro entry hmem
  have htag : entryTag (isLittle data) (entryBytes data entry) = tagAt data entry := by
    rw [entryTag, entryBytes, numberIn_slice (h entry hmem) (by decide), tagAt, Nat.add_zero]
  simp only [Function.comp_apply, isKept, htag]

end Entries

/-! ## The image is preserved -/

section Preserved

variable {data packet : Bytes} {decoderEntries : List Nat}

/-- The directory of the packet, from its regions. -/
theorem firstDirectory_packet {place : Nat} (horder : isLittle packet = isLittle data) (hplace : place < 256 ^ 4)
    (hcount : decoderEntries.length < 256 ^ 2) (hentries : ∀ entry ∈ decoderEntries, entry + 12 ≤ data.length)
    (hpointer : BytesAt packet 4 (numberBytes (isLittle data) 4 place))
    (hnumber : BytesAt packet place (numberBytes (isLittle data) 2 decoderEntries.length))
    (hcopied : ∀ i < decoderEntries.length, BytesAt packet (place + 2 + i * 12)
      ((data.drop (decoderEntries.getD i 0)).take 12))
    (hroom : place + 2 + decoderEntries.length * 12 ≤ packet.length) :
    firstDirectory packet = some (place, decoderEntries.map (entryBytes data)) := by
  rw [← horder] at hpointer hnumber
  rw [firstDirectory_eq (numberAt_written hpointer hplace) (numberAt_written hnumber hcount) hroom]
  have hsame : ((List.range decoderEntries.length).map fun i => entryBytes packet (place + 2 + i * 12)) =
      decoderEntries.map (entryBytes data) := by
    apply List.ext_getElem
    · simp
    · intro i hi _
      rw [List.length_map, List.length_range] at hi
      have hat := bytesAt_iff.mp (hcopied i hi)
      rw [List.getD_eq_getElem _ _ hi, length_take_drop (hentries _ (List.getElem_mem hi))] at hat
      simpa [entryBytes] using hat.2
  rw [hsame]

/-- The values of an entry are found in every text that has the same bytes apart from the place of the
directory. -/
theorem entryValue_same {entry bytes : Bytes} {little : Bool}
    (hsame : ∀ offset bytes, BytesAt data offset bytes → Apart offset bytes.length → BytesAt packet offset bytes)
    (hvalue : ValueApart little entry) (h : entryValue data little entry = some bytes) :
    entryValue packet little entry = some bytes := by
  by_cases hinline : entrySize little entry ≤ 4
  · rw [entryValue, if_pos hinline] at h ⊢
    exact h
  · rw [entryValue, if_neg hinline] at h ⊢
    obtain ⟨hlength, hat⟩ := sliceAt_eq_some.mp h
    have hapart := hvalue.resolve_left hinline
    rw [← hlength] at hapart
    exact sliceAt_eq_some.mpr ⟨hlength, hsame _ _ hat hapart⟩

theorem entryNumber_same {entry : Bytes} {little : Bool} {j number : Nat}
    (hsame : ∀ offset bytes, BytesAt data offset bytes → Apart offset bytes.length → BytesAt packet offset bytes)
    (hvalue : ValueApart little entry) (h : entryNumber data little entry j = some number) :
    entryNumber packet little entry j = some number := by
  obtain ⟨bytes, hbytes, hnumber⟩ := Option.bind_eq_some_iff.mp h
  exact Option.bind_eq_some_iff.mpr ⟨bytes, entryValue_same hsame hvalue hbytes, hnumber⟩

/-- **The packet for FFmpeg has the image of the file.** -/
theorem tiffPacket_preserves {buffer : Bytes} (htiff : IsTiff data) (hsize : data.length ≤ maxImageBytes)
    (hdecode : decodeDepthTiff data = .ok (none, decoderEntries))
    (hbuffer : buffer.length = packetSize data.length decoderEntries.length) :
    packetSize data.length decoderEntries.length < 2 ^ 31 ∧
      ∃ packet, tiffPacket buffer data decoderEntries = .ok packet ∧ packet.length = buffer.length ∧
        Preserves data packet := by
  obtain ⟨directory, count, hdirectory, hcount, hroom, hlt, hfiltered⟩ := decoderEntries_eq hdecode
  have heven := tiffDirectory_le data.length
  have hmin : 8 ≤ data.length := by
    rw [numberAt] at hdirectory
    obtain ⟨bytes, hbytes, -⟩ := Option.map_eq_some_iff.mp hdirectory
    have hinside := (sliceAt_eq_some.mp hbytes).2.inside
    rw [(sliceAt_eq_some.mp hbytes).1] at hinside
    exact hinside
  have hentry : ∀ entry ∈ (List.range count).map fun i => directory + 2 + i * 12,
      entry + 12 ≤ data.length := by
    intro entry hmem
    obtain ⟨i, hi, rfl⟩ := List.mem_map.mp hmem
    have hi' := List.mem_range.mp hi
    omega
  have hentries : ∀ entry ∈ decoderEntries, entry + 12 ≤ data.length := by
    intro entry hmem
    rw [hfiltered] at hmem
    exact hentry entry (List.mem_of_mem_filter hmem)
  have hfewer : decoderEntries.length ≤ count := by
    have hle := List.length_filter_le (fun entry => tagAt data entry != 338 && tagAt data entry != 339)
      ((List.range count).map fun i => directory + 2 + i * 12)
    rw [← hfiltered, List.length_map, List.length_range] at hle
    exact hle
  have hsmall : packetSize data.length decoderEntries.length < 2 ^ 31 := by
    unfold packetSize
    unfold maxImageBytes at hsize
    omega
  obtain ⟨packet, hpacket, hlength, hsame, hpointer, hnumber, hcopied, hzeros⟩ :=
    tiffPacket_regions hmin hsize hbuffer hentries (hfewer.trans_lt hlt)
  -- the magic and the byte order are in the first four bytes
  have htake : (data.take 4).length = 4 := by
    rw [List.length_take]
    omega
  have hstart : BytesAt packet 0 (data.take 4) := by
    apply hsame
    · refine bytesAt_iff.mpr ⟨by omega, ?_⟩
      rw [htake, List.drop_zero]
    · exact .inr (.inl (by omega))
  have hmagic : packet.take 4 = data.take 4 := by
    have hslice := (bytesAt_iff.mp hstart).2
    rwa [htake, List.drop_zero] at hslice
  have horder : isLittle packet = isLittle data := by
    have hfirst := congrArg (fun text => text.getD 0 0 == 0x49) hmagic
    simpa [isLittle, List.getD_eq_getElem?_getD, List.getElem?_take_of_lt] using hfirst
  have hplace : tiffDirectory data.length < 256 ^ 4 := by
    unfold maxImageBytes at hsize
    omega
  have hend := hzeros.inside
  rw [List.length_replicate] at hend
  have hfirst : firstDirectory packet = some (tiffDirectory data.length, decoderEntries.map (entryBytes data)) :=
    firstDirectory_packet horder hplace (hfewer.trans_lt hlt) hentries hpointer hnumber hcopied (by omega)
  refine ⟨hsmall, packet, hpacket, hlength, ?_, horder, ?_, ?_, ?_, ?_, ?_⟩
  · rw [IsTiff, hmagic]
    exact htiff
  · refine ⟨_, _, firstDirectory_eq hdirectory hcount hroom, ?_⟩
    rw [hfirst]
    have hkept := filter_entryBytes hentry
    rw [← hfiltered, List.map_map] at hkept
    rw [hkept]
    rfl
  · unfold tiffDirectory
    omega
  · have hnext : numberAt packet (tiffDirectory data.length + 2 + decoderEntries.length * 12) 4 = some 0 := by
      apply numberAt_written _ (by decide)
      have hzero : numberBytes (isLittle packet) 4 0 = List.replicate 4 0 := by
        cases isLittle packet <;> decide
      rw [hzero]
      exact hzeros
    simp [nextDirectory, hfirst, hnext]
  · intro entry bytes hvalue h
    exact entryValue_same hsame hvalue h
  · intro offsets counts j offset size bytes hoffsets hcounts hoffset hcount' hapart h
    have hoffset' := entryNumber_same hsame hoffsets hoffset
    have hcount'' := entryNumber_same hsame hcounts hcount'
    rw [stripAt, hoffset, hcount'] at h
    rw [stripAt, hoffset', hcount'']
    obtain ⟨hsizeEq, hat⟩ := sliceAt_eq_some.mp h
    rw [← hsizeEq] at hapart
    exact sliceAt_eq_some.mpr ⟨hsizeEq, hsame _ _ hat hapart⟩

/-- A big-endian image of one RGB pixel, whose pixel has an odd number of bytes. -/
def oddImage : Bytes :=
  [0x4d, 0x4d, 0x00, 0x2a, 0x00, 0x00, 0x00, 0x08, 0x00, 0x0b,
    0x01, 0x00, 0x00, 0x04, 0x00, 0x00, 0x00, 0x01, 0x00, 0x00, 0x00, 0x01,
    0x01, 0x01, 0x00, 0x04, 0x00, 0x00, 0x00, 0x01, 0x00, 0x00, 0x00, 0x01,
    0x01, 0x02, 0x00, 0x03, 0x00, 0x00, 0x00, 0x03, 0x00, 0x00, 0x00, 0x92,
    0x01, 0x03, 0x00, 0x03, 0x00, 0x00, 0x00, 0x01, 0x00, 0x01, 0x00, 0x00,
    0x01, 0x06, 0x00, 0x03, 0x00, 0x00, 0x00, 0x01, 0x00, 0x02, 0x00, 0x00,
    0x01, 0x11, 0x00, 0x04, 0x00, 0x00, 0x00, 0x01, 0x00, 0x00, 0x00, 0x9e,
    0x01, 0x15, 0x00, 0x03, 0x00, 0x00, 0x00, 0x01, 0x00, 0x03, 0x00, 0x00,
    0x01, 0x16, 0x00, 0x04, 0x00, 0x00, 0x00, 0x01, 0x00, 0x00, 0x00, 0x01,
    0x01, 0x17, 0x00, 0x04, 0x00, 0x00, 0x00, 0x01, 0x00, 0x00, 0x00, 0x03,
    0x01, 0x1c, 0x00, 0x03, 0x00, 0x00, 0x00, 0x01, 0x00, 0x01, 0x00, 0x00,
    0x01, 0x53, 0x00, 0x03, 0x00, 0x00, 0x00, 0x03, 0x00, 0x00, 0x00, 0x98,
    0x00, 0x00, 0x00, 0x00, 0x00, 0x08, 0x00, 0x08, 0x00, 0x08, 0x00, 0x01, 0x00, 0x01, 0x00, 0x01,
    0x12, 0x34, 0x56]

/-- Its entries but the last, the sample format. -/
def oddEntries : List Nat := (List.range 10).map fun i => 10 + i * 12

theorem oddImage_preserved : ∃ packet,
    tiffPacket (List.replicate 288 0xff) oddImage oddEntries = .ok packet ∧ Preserves oddImage packet := by
  have hdecode : decodeDepthTiff oddImage = .ok (none, oddEntries) := by decide +kernel
  have hbuffer : (List.replicate 288 (0xff : UInt8)).length = packetSize oddImage.length oddEntries.length := by
    rw [List.length_replicate]
    decide +kernel
  obtain ⟨-, packet, hpacket, -, hpreserves⟩ :=
    tiffPacket_preserves (.inr (by decide)) (by decide +kernel) hdecode hbuffer
  exact ⟨packet, hpacket, hpreserves⟩

end Preserved

end DuckdbLerobot.Image
