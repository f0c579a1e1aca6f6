import DuckdbLerobot.Path.RelativePath
import Mathlib.Logic.Function.Iterate
import Mathlib.Tactic.NormNum

/-!
# The numbers of the files

The files of a dataset are numbered by a chunk and a place in it. The file with the number `k` is at
the place `k % chunkSize` of the chunk `k / chunkSize` (`advanceFileIndex_iterate`).
-/

set_option autoImplicit false

namespace DuckdbLerobot.Copy

open DuckdbLerobot.Path

/-- What the writer of a dataset throws. -/
inductive CopyException
  | binder (exception : BinderException)
  | internal (message : String)
  | invalidInput (message : String)
  | io (message : String)
  deriving DecidableEq

/-- A check of the writer. -/
def ensure (condition : Prop) [Decidable condition] (exception : CopyException) :
    Except CopyException Unit :=
  if condition then .ok () else .error exception

theorem ensure_eq_ok {condition : Prop} [Decidable condition] {exception : CopyException}
    {value : Unit} : ensure condition exception = .ok value ↔ condition := by
  rw [ensure]
  split
  · rename_i h
    exact iff_of_true rfl h
  · rename_i h
    exact iff_of_false (fun heq => by cases heq) h

/-- The chunk of a file, and its place in the chunk. -/
structure FileIndex where
  chunkIndex : Nat := 0
  fileIndex : Nat := 0
  deriving DecidableEq

/-- `AdvanceFileIndex`. -/
def advanceFileIndex (chunkSize : Nat) (index : FileIndex) : FileIndex :=
  if index.fileIndex = chunkSize - 1 then ⟨index.chunkIndex + 1, 0⟩
  else ⟨index.chunkIndex, index.fileIndex + 1⟩

/-- The place of a file with a number. -/
def numberedFile (chunkSize number : Nat) : FileIndex := ⟨number / chunkSize, number % chunkSize⟩

section

variable {chunkSize : Nat}

theorem advanceFileIndex_numberedFile (h : 0 < chunkSize) (number : Nat) :
    advanceFileIndex chunkSize (numberedFile chunkSize number) = numberedFile chunkSize (number + 1) := by
  have hdecomposed := Nat.div_add_mod number chunkSize
  rw [advanceFileIndex, numberedFile]
  split
  · -- the chunk is complete
    rename_i hlast
    have hnext : number + 1 = chunkSize * (number / chunkSize + 1) := by
      rw [Nat.mul_succ]
      dsimp only at hlast
      omega
    rw [numberedFile, hnext, Nat.mul_div_cancel_left _ h, Nat.mul_mod_right]
  · rename_i hlast
    have hlt := Nat.mod_lt number h
    dsimp only at hlast
    have hnext : number + 1 = number % chunkSize + 1 + chunkSize * (number / chunkSize) := by omega
    have hplace : number % chunkSize + 1 < chunkSize := by omega
    rw [numberedFile, hnext, Nat.add_mul_div_left _ _ h, Nat.div_eq_of_lt hplace, Nat.zero_add,
      Nat.add_mul_mod_self_left, Nat.mod_eq_of_lt hplace]

/-- **The number of a file.** -/
theorem advanceFileIndex_iterate (h : 0 < chunkSize) (number : Nat) :
    (advanceFileIndex chunkSize)^[number] {} = numberedFile chunkSize number := by
  induction number with
  | zero => simp [numberedFile]
  | succ number ih => rw [Function.iterate_succ_apply', ih, advanceFileIndex_numberedFile h]

/-- Two files have different numbers. -/
theorem numberedFile_injective : Function.Injective (numberedFile chunkSize) := by
  intro first second heq
  rw [numberedFile, numberedFile, FileIndex.mk.injEq] at heq
  rw [← Nat.div_add_mod first chunkSize, heq.1, heq.2, Nat.div_add_mod]

end

end DuckdbLerobot.Copy
