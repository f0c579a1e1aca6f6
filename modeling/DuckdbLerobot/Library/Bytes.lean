import Mathlib.Data.Nat.Bitwise
import Mathlib.Data.List.Basic
import Mathlib.Data.List.GetD

/-!
# Numbers in bytes

A writer cuts a number into bytes, the lowest first. A reader puts a number together from bytes in either
order, each shifted to its place. `joinBytes_of_split` is what a reader finds at a place of a text where a
writer has put a number.
-/

set_option autoImplicit false

namespace DuckdbLerobot.Library

/-- The byte at a place of a number. -/
def byteOf (value place : Nat) : UInt8 := UInt8.ofNat ((value >>> (8 * place)) &&& 0xff)

/-- The lowest bytes of a number, the lowest first. -/
def littleEndian (count value : Nat) : List UInt8 := (List.range count).map (byteOf value)

/-- The number that is put together from bytes, the lowest first or last. -/
def joinBytes (little : Bool) (count : Nat) (byte : Nat → UInt8) : Nat :=
  (List.range count).foldl (fun value i =>
    value ||| (byte i).toNat <<< (8 * if little then i else count - i - 1)) 0

@[simp] theorem length_littleEndian (count value : Nat) :
    (littleEndian count value).length = count := by
  simp [littleEndian]

theorem toNat_byteOf (value place : Nat) :
    (byteOf value place).toNat = value / 256 ^ place % 256 := by
  have hmask : (value >>> (8 * place)) &&& 0xff = value / 256 ^ place % 256 := by
    rw [show (0xff : Nat) = 2 ^ 8 - 1 from rfl, Nat.and_two_pow_sub_one_eq_mod,
      Nat.shiftRight_eq_div_pow, Nat.pow_mul]
  rw [byteOf, hmask, UInt8.toNat_ofNat_of_lt']
  exact Nat.mod_lt _ (by decide)

theorem joinBytes_congr {little : Bool} {count : Nat} {byte byte' : Nat → UInt8}
    (h : ∀ i < count, byte i = byte' i) : joinBytes little count byte = joinBytes little count byte' := by
  apply List.foldl_ext
  intro value i hi
  rw [h i (List.mem_range.mp hi)]

/-- The loop of a reader: after each byte, the low bytes of the number. -/
theorem joinBytes_byteOf (value count : Nat) :
    joinBytes true count (byteOf value) = value % 256 ^ count := by
  induction count with
  | zero => exact (Nat.mod_one value).symm
  | succ count ih =>
      have hlt : value % 256 ^ count < 2 ^ (8 * count) := by
        rw [Nat.pow_mul]
        exact Nat.mod_lt _ (Nat.pow_pos (by decide))
      rw [joinBytes, List.range_succ, List.foldl_append]
      change joinBytes true count (byteOf value) ||| (byteOf value count).toNat <<< (8 * count) = _
      rw [ih, Nat.or_comm, ← Nat.shiftLeft_add_eq_or_of_lt hlt, toNat_byteOf, Nat.mod_pow_succ,
        Nat.shiftLeft_eq, Nat.pow_mul, Nat.add_comm, Nat.mul_comm]

/-- A byte that is shifted to a place among some bits. -/
theorem shift_byte_lt (byte : UInt8) {place bits : Nat} (h : 8 + place ≤ bits) :
    byte.toNat <<< place < 2 ^ bits :=
  calc byte.toNat <<< place
      = byte.toNat * 2 ^ place := Nat.shiftLeft_eq _ _
    _ < 2 ^ 8 * 2 ^ place := Nat.mul_lt_mul_of_pos_right byte.toNat_lt (Nat.two_pow_pos _)
    _ = 2 ^ (8 + place) := (Nat.pow_add _ _ _).symm
    _ ≤ 2 ^ bits := Nat.pow_le_pow_right (by decide) h

/-- A number has no more bytes than it was put together from. -/
theorem joinBytes_lt (little : Bool) (count : Nat) (byte : Nat → UInt8) :
    joinBytes little count byte < 256 ^ count := by
  have hplace : ∀ i < count, (byte i).toNat <<< (8 * if little then i else count - i - 1) < 2 ^ (8 * count) := by
    intro i hi
    apply shift_byte_lt
    split <;> omega
  have hbound : (256 : Nat) ^ count = 2 ^ (8 * count) := by
    rw [Nat.pow_mul]
  rw [hbound, joinBytes]
  refine List.foldlRecOn (motive := (· < 2 ^ (8 * count))) _ _ (Nat.two_pow_pos _) ?_
  · intro value hvalue i hi
    exact Nat.or_lt_two_pow hvalue (hplace i (List.mem_range.mp hi))

theorem getD_littleEndian {count value i : Nat} (h : i < count) :
    (littleEndian count value).getD i 0 = byteOf value i := by
  simp [littleEndian, List.getD_eq_getElem?_getD, h]

/-- **A number is read where it was written.** The reader may leave out high bytes that are zero. -/
theorem joinBytes_of_split {data before after : List UInt8} {count width value offset : Nat}
    (hdata : data = before ++ (littleEndian width value ++ after)) (hoffset : before.length = offset)
    (hcount : count ≤ width) (hvalue : value < 256 ^ count) :
    joinBytes true count (fun i => data.getD (offset + i) 0) = value := by
  have hbytes : ∀ i < count, data.getD (offset + i) 0 = byteOf value i := by
    intro i hi
    have hwidth := hi.trans_le hcount
    subst hdata hoffset
    rw [List.getD_append_right _ _ _ _ (Nat.le_add_right _ _), Nat.add_sub_cancel_left,
      List.getD_append _ _ _ _ (by simpa using hwidth), getD_littleEndian hwidth]
  rw [joinBytes_congr hbytes, joinBytes_byteOf, Nat.mod_eq_of_lt hvalue]

end DuckdbLerobot.Library
