import DuckdbLerobot.Library.Bytes
import DuckdbLerobot.Library.Fallible

/-!
# Regions of a text of bytes

`BytesAt data offset bytes` says what is at a place of a text. A writer overwrites a region of a buffer
(`overwrite`): what it writes is there afterwards, and the regions that it does not touch are as they were.
A number that is written in either order is read in the same order (`BytesAt.joinBytes_eq`).

`loadByte`, `storeByte`, `clearBytes` and `copyBytes` are the accesses of a program to a buffer: one outside is an
`OutOfBounds`, so a program that returns has made none.
-/

set_option autoImplicit false

namespace DuckdbLerobot.Library

/-! ## Numbers in either order -/

/-- The bytes of a number, the lowest first or last. -/
def numberBytes (little : Bool) (count value : Nat) : List UInt8 :=
  if little then littleEndian count value else (littleEndian count value).reverse

@[simp] theorem length_numberBytes (little : Bool) (count value : Nat) :
    (numberBytes little count value).length = count := by
  cases little <;> simp [numberBytes]

/-- The place of a byte in either order. -/
theorem getD_numberBytes (little : Bool) {count i : Nat} (value : Nat) (h : i < count) :
    (numberBytes little count value).getD i 0 = byteOf value (if little then i else count - i - 1) := by
  cases little with
  | true => exact getD_littleEndian h
  | false =>
      have hplace : count - 1 - i = count - i - 1 := by omega
      simp [numberBytes, List.getD_eq_getElem?_getD, h, hplace, littleEndian]

/-- The order in which the bytes of a number are visited does not matter. -/
theorem joinBytes_reverse (count : Nat) (byte : Nat → UInt8) :
    joinBytes false count (fun i => byte (count - i - 1)) = joinBytes true count byte := by
  have hperm : ((List.range count).map fun i => count - i - 1).Perm (List.range count) := by
    have hreverse : ((List.range count).map fun i => count - i - 1) = (List.range count).reverse := by
      apply List.ext_getElem
      · simp
      · intro i _ _
        simp
        omega
    rw [hreverse]
    exact List.reverse_perm _
  have hfold := List.Perm.foldl_eq' hperm
    (f := fun (value i : Nat) => value ||| (byte i).toNat <<< (8 * i))
    (fun i _ j _ value => by rw [Nat.or_assoc, Nat.or_assoc, Nat.or_comm (_ <<< (8 * i))]) 0
  rw [List.foldl_map] at hfold
  exact hfold

/-- **A number is read in the order in which it was written.** -/
theorem joinBytes_numberBytes (little : Bool) (count value : Nat) :
    joinBytes little count (fun i => (numberBytes little count value).getD i 0) = value % 256 ^ count := by
  rw [joinBytes_congr fun i hi => getD_numberBytes little value hi]
  cases little with
  | true => exact joinBytes_byteOf value count
  | false =>
      exact (joinBytes_reverse count (byteOf value)).trans (joinBytes_byteOf value count)

/-! ## What is at a place -/

/-- The bytes at a place of a text. -/
structure BytesAt (data : List UInt8) (offset : Nat) (bytes : List UInt8) : Prop where
  inside : offset + bytes.length ≤ data.length
  getD : ∀ i < bytes.length, data.getD (offset + i) 0 = bytes.getD i 0

section BytesAt

variable {data bytes : List UInt8} {offset : Nat}

theorem bytesAt_iff : BytesAt data offset bytes ↔
    offset + bytes.length ≤ data.length ∧ (data.drop offset).take bytes.length = bytes := by
  constructor
  · intro h
    refine ⟨h.inside, ?_⟩
    have hinside := h.inside
    apply List.ext_getElem
    · rw [List.length_take, List.length_drop]
      omega
    · intro i hi hi'
      have hget := h.getD i hi'
      rw [List.getD_eq_getElem _ _ (by omega), List.getD_eq_getElem _ _ hi'] at hget
      simpa using hget
  · rintro ⟨hinside, htake⟩
    refine ⟨hinside, ?_⟩
    intro i hi
    have hget := congrArg (fun text => text.getD i 0) htake
    simpa [List.getD_eq_getElem?_getD, List.getElem?_take_of_lt hi, List.getElem?_drop] using hget

instance (data : List UInt8) (offset : Nat) (bytes : List UInt8) : Decidable (BytesAt data offset bytes) :=
  decidable_of_iff _ bytesAt_iff.symm

theorem BytesAt.append {first second : List UInt8} (h : BytesAt data offset (first ++ second)) :
    BytesAt data offset first ∧ BytesAt data (offset + first.length) second := by
  have hinside := h.inside
  rw [List.length_append] at hinside
  refine ⟨⟨by omega, ?_⟩, ⟨by omega, ?_⟩⟩
  · intro i hi
    rw [h.getD i (by rw [List.length_append]; omega), List.getD_append _ _ _ _ hi]
  · intro i hi
    rw [Nat.add_assoc, h.getD _ (by rw [List.length_append]; omega),
      List.getD_append_right _ _ _ _ (Nat.le_add_right _ _), Nat.add_sub_cancel_left]

/-- A part of a region of zeros. -/
theorem BytesAt.zeros {count offset' count' : Nat} (h : BytesAt data offset (List.replicate count 0))
    (hbelow : offset ≤ offset') (habove : offset' + count' ≤ offset + count) :
    BytesAt data offset' (List.replicate count' 0) := by
  have hinside := h.inside
  rw [List.length_replicate] at hinside
  refine ⟨by rw [List.length_replicate]; omega, ?_⟩
  intro i hi
  rw [List.length_replicate] at hi
  have hget := h.getD (offset' + i - offset) (by rw [List.length_replicate]; omega)
  rw [show offset + (offset' + i - offset) = offset' + i by omega] at hget
  rw [hget, List.getD_replicate _ (by omega), List.getD_replicate _ hi]

/-- The place of a region of a region. -/
theorem BytesAt.trans {inner : List UInt8} {place : Nat} (h : BytesAt data offset bytes)
    (hinner : BytesAt bytes place inner) : BytesAt data (offset + place) inner := by
  have hinside := h.inside
  have hinside' := hinner.inside
  refine ⟨by omega, ?_⟩
  intro i hi
  rw [Nat.add_assoc, h.getD _ (by omega), hinner.getD i hi]

/-- Two texts that are the same in a region. -/
theorem BytesAt.congr {data' : List UInt8} (h : BytesAt data offset bytes)
    (hlength : offset + bytes.length ≤ data'.length)
    (hsame : ∀ i < bytes.length, data'.getD (offset + i) 0 = data.getD (offset + i) 0) :
    BytesAt data' offset bytes :=
  ⟨hlength, fun i hi => (hsame i hi).trans (h.getD i hi)⟩

/-- The size of some blocks of one size. -/
theorem length_blocks {α : Type} {f : α → List UInt8} {size : Nat} (hsize : ∀ a, (f a).length = size) (l : List α) :
    (l.flatMap f).length = l.length * size := by
  induction l with
  | nil => simp
  | cons a l ih => rw [List.flatMap_cons, List.length_append, hsize, ih, List.length_cons, Nat.succ_mul, Nat.add_comm]

/-- The place of one of some blocks of one size. -/
theorem BytesAt.block {α : Type} {f : α → List UInt8} {size : Nat} (hsize : ∀ a, (f a).length = size) {l : List α}
    (h : BytesAt data offset (l.flatMap f)) {j : Nat} {a : α} (hj : l[j]? = some a) :
    BytesAt data (offset + j * size) (f a) := by
  induction l generalizing offset j with
  | nil => cases hj
  | cons first l ih =>
      obtain ⟨hfirst, hrest⟩ := h.append
      cases j with
      | zero =>
          cases hj
          rwa [Nat.zero_mul, Nat.add_zero]
      | succ j =>
          have hnext := ih hrest hj
          rwa [hsize, Nat.add_assoc, Nat.add_comm size, ← Nat.succ_mul] at hnext

theorem BytesAt.joinBytes_eq {little : Bool} {count value : Nat}
    (h : BytesAt data offset (numberBytes little count value)) (hvalue : value < 256 ^ count) :
    joinBytes little count (fun i => data.getD (offset + i) 0) = value := by
  rw [joinBytes_congr fun i hi => h.getD i (by rw [length_numberBytes]; exact hi), joinBytes_numberBytes,
    Nat.mod_eq_of_lt hvalue]

end BytesAt

/-! ## Writing -/

/-- A buffer with a region that was written. -/
def overwrite (buffer : List UInt8) (offset : Nat) (bytes : List UInt8) : List UInt8 :=
  buffer.take offset ++ (bytes ++ buffer.drop (offset + bytes.length))

section Overwrite

variable {buffer bytes : List UInt8} {offset : Nat}

theorem length_overwrite (h : offset + bytes.length ≤ buffer.length) :
    (overwrite buffer offset bytes).length = buffer.length := by
  rw [overwrite, List.length_append, List.length_append, List.length_take, List.length_drop]
  omega

/-- A byte of the buffer afterwards. -/
theorem getD_overwrite (h : offset + bytes.length ≤ buffer.length) (i : Nat) :
    (overwrite buffer offset bytes).getD i 0 =
      if offset ≤ i ∧ i < offset + bytes.length then bytes.getD (i - offset) 0 else buffer.getD i 0 := by
  have htake : (buffer.take offset).length = offset := by
    rw [List.length_take]
    omega
  unfold overwrite
  by_cases hbefore : i < offset
  · rw [List.getD_append _ _ _ _ (by omega), if_neg (by omega)]
    simp [List.getD_eq_getElem?_getD, List.getElem?_take_of_lt hbefore]
  · rw [List.getD_append_right _ _ _ _ (by omega), htake]
    by_cases hinside : i < offset + bytes.length
    · rw [List.getD_append _ _ _ _ (by omega), if_pos (by omega)]
    · rw [List.getD_append_right _ _ _ _ (by omega), if_neg (by omega)]
      simp only [List.getD_eq_getElem?_getD, List.getElem?_drop]
      congr 2
      omega

/-- What is written is there. -/
theorem bytesAt_overwrite (h : offset + bytes.length ≤ buffer.length) :
    BytesAt (overwrite buffer offset bytes) offset bytes := by
  refine ⟨by rw [length_overwrite h]; exact h, ?_⟩
  intro i hi
  rw [getD_overwrite h, if_pos (by omega), Nat.add_sub_cancel_left]

/-- **A region that is not touched stays as it was.** -/
theorem BytesAt.overwrite (h : offset + bytes.length ≤ buffer.length) {offset' : Nat} {bytes' : List UInt8}
    (hat : BytesAt buffer offset' bytes')
    (hapart : offset' + bytes'.length ≤ offset ∨ offset + bytes.length ≤ offset') :
    BytesAt (overwrite buffer offset bytes) offset' bytes' := by
  apply hat.congr
  · rw [length_overwrite h]
    exact hat.inside
  · intro i hi
    rw [getD_overwrite h, if_neg (by omega)]

end Overwrite

/-! ## Accesses of a program -/

/-- An access outside of a buffer. -/
structure OutOfBounds where
  deriving DecidableEq

/-- A read of a byte. -/
def loadByte (data : List UInt8) (offset : Nat) : Except OutOfBounds UInt8 :=
  if offset < data.length then .ok (data.getD offset 0) else .error ⟨⟩

/-- A write of a byte. -/
def storeByte (buffer : List UInt8) (offset : Nat) (byte : UInt8) : Except OutOfBounds (List UInt8) :=
  if offset < buffer.length then .ok (buffer.set offset byte) else .error ⟨⟩

/-- `memset` to zero. -/
def clearBytes (buffer : List UInt8) (offset count : Nat) : Except OutOfBounds (List UInt8) :=
  if offset + count ≤ buffer.length then .ok (overwrite buffer offset (List.replicate count 0)) else .error ⟨⟩

/-- `memcpy`. -/
def copyBytes (buffer : List UInt8) (offset : Nat) (source : List UInt8) (start count : Nat) :
    Except OutOfBounds (List UInt8) :=
  if start + count ≤ source.length ∧ offset + count ≤ buffer.length then
    .ok (overwrite buffer offset ((source.drop start).take count))
  else .error ⟨⟩

/-- A number is written byte by byte. -/
def writeNumber (little : Bool) (buffer : List UInt8) (offset value count : Nat) :
    Except OutOfBounds (List UInt8) :=
  (List.range count).foldlM (fun buffer i =>
    storeByte buffer (offset + i) (byteOf value (if little then i else count - i - 1))) buffer

section Accesses

variable {buffer source : List UInt8} {offset start count : Nat}

theorem length_take_drop (h : start + count ≤ source.length) :
    ((source.drop start).take count).length = count := by
  rw [List.length_take, List.length_drop]
  omega

theorem clearBytes_eq (h : offset + count ≤ buffer.length) :
    clearBytes buffer offset count = .ok (overwrite buffer offset (List.replicate count 0)) := if_pos h

theorem copyBytes_eq (hsource : start + count ≤ source.length) (hbuffer : offset + count ≤ buffer.length) :
    copyBytes buffer offset source start count =
      .ok (overwrite buffer offset ((source.drop start).take count)) := if_pos ⟨hsource, hbuffer⟩

theorem getD_set (h : offset < buffer.length) (byte : UInt8) (i : Nat) :
    (buffer.set offset byte).getD i 0 = if i = offset then byte else buffer.getD i 0 := by
  rw [List.getD_eq_getElem?_getD, List.getElem?_set]
  by_cases hi : i = offset
  · subst hi
    rw [if_pos rfl, if_pos h, if_pos rfl]
    rfl
  · rw [if_neg (Ne.symm hi), if_neg hi, ← List.getD_eq_getElem?_getD]

/-- Texts of one length with the same bytes. -/
theorem ext_getD {first second : List UInt8} (hlength : first.length = second.length)
    (hsame : ∀ i, first.getD i 0 = second.getD i 0) : first = second := by
  apply List.ext_getElem hlength
  intro i hi hi'
  have hget := hsame i
  rwa [List.getD_eq_getElem _ _ hi, List.getD_eq_getElem _ _ hi'] at hget

/-- The first byte that is not yet written. -/
theorem storeByte_next (written : List UInt8) (rest : Nat) (byte : UInt8) :
    storeByte (written ++ List.replicate (rest + 1) 0) written.length byte =
      .ok ((written ++ [byte]) ++ List.replicate rest 0) := by
  have hinside : written.length < (written ++ List.replicate (rest + 1) (0 : UInt8)).length := by
    rw [List.length_append, List.length_replicate]
    omega
  rw [storeByte, if_pos hinside]
  simp [List.replicate_succ]

/-- **The bytes of a number are written in their order**, if there is room. -/
theorem writeNumber_eq (little : Bool) (value : Nat) (h : offset + count ≤ buffer.length) :
    writeNumber little buffer offset value count =
      .ok (overwrite buffer offset (numberBytes little count value)) := by
  have hroom : offset + (numberBytes little count value).length ≤ buffer.length := by
    rw [length_numberBytes]
    exact h
  -- after each round the first bytes are there
  obtain ⟨written, hwritten, hlength, hget⟩ := foldlM_range_total
    (f := fun buffer i => storeByte buffer (offset + i) (byteOf value (if little then i else count - i - 1)))
    (I := fun m written => written.length = buffer.length ∧ ∀ i, written.getD i 0 =
      if offset ≤ i ∧ i < offset + m then (numberBytes little count value).getD (i - offset) 0
      else buffer.getD i 0) (n := count) (b := buffer)
    ⟨rfl, fun i => by rw [if_neg (by omega)]⟩ (by
      rintro m hm written ⟨hlength, hget⟩
      refine ⟨written.set (offset + m) (byteOf value (if little then m else count - m - 1)),
        if_pos (by omega), by rw [List.length_set, hlength], ?_⟩
      intro i
      rw [getD_set (by omega), hget, ← getD_numberBytes little value hm]
      by_cases hi : i = offset + m
      · subst hi
        rw [if_pos rfl, if_pos ⟨Nat.le_add_right _ _, by omega⟩, Nat.add_sub_cancel_left]
      · rw [if_neg hi]
        by_cases hinside : offset ≤ i ∧ i < offset + m
        · rw [if_pos hinside, if_pos ⟨hinside.1, by omega⟩]
        · rw [if_neg hinside, if_neg (by omega)])
  rw [writeNumber, hwritten]
  apply congrArg Except.ok
  apply ext_getD
  · rw [hlength, length_overwrite hroom]
  · intro i
    rw [hget, getD_overwrite hroom, length_numberBytes]

end Accesses

end DuckdbLerobot.Library
