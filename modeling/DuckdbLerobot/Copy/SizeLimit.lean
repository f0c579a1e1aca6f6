import DuckdbLerobot.Copy.EpisodesWriter
import DuckdbLerobot.Copy.ShardPacking
import DuckdbLerobot.Library.NearestInteger

/-!
# The size of an open file

A writer goes on to its next file when the open one has a size, which is computed in doubles from the
options and from the lengths of the episodes. DuckDB is asked whether the file is larger than a
number of bytes (`rotate_next_file`). The answer is the right one and its conversion is defined, except for
one size (`sizeAtLeast_exact`).
-/

set_option autoImplicit false

namespace DuckdbLerobot.Copy

open DuckdbLerobot.Library DuckdbLerobot.Path

/-! ## Conversions -/

/-- `static_cast<idx_t>` of a `double`: its whole part. `none` stands for the undefined behaviour of a
value out of range. -/
def castToIdx (value : ℚ) : Option Nat :=
  let whole := if value < 0 then ⌈value⌉ else ⌊value⌋
  if 0 ≤ whole ∧ whole < 2 ^ 64 then some whole.toNat else none

theorem castToIdx_intCast {n : Int} (hnonneg : 0 ≤ n) (hlt : n < 2 ^ 64) :
    castToIdx n = some n.toNat := by
  have hcast : ¬(n : ℚ) < 0 := by exact_mod_cast hnonneg.not_gt
  rw [castToIdx, if_neg hcast, Int.floor_intCast, if_pos ⟨hnonneg, hlt⟩]

/-- `static_cast<double>(NumericLimits<idx_t>::Maximum())`. -/
def roundedIdxMaximum : Double := Double.rounded idxMaximum

/-- The largest integer is rounded up. -/
theorem roundedIdxMaximum_eq : roundedIdxMaximum = .finite (2 ^ 64) := by decide +kernel

/-- A double below `2 ^ 64` is not above the largest integer. -/
theorem ceil_lt_of_isDouble {value : ℚ} (hdouble : IsDouble value) (hlt : value < 2 ^ 64) :
    ⌈value⌉ < 2 ^ 64 := by
  by_cases hsmall : value ≤ 2 ^ 53
  · have hceil : ⌈value⌉ ≤ 2 ^ 53 := Int.ceil_le.mpr (by exact_mod_cast hsmall)
    omega
  · -- from here on the doubles are integers
    rw [not_le] at hsmall
    have hpos : (0 : ℚ) < value := lt_trans (by norm_num) hsmall
    have hlog : (52 : Int) ≤ Double.placeExponent (-1022) value := by
      refine le_max_of_le_left ?_
      rw [abs_of_pos hpos]
      apply (Int.zpow_le_iff_le_log one_lt_two hpos).mp
      refine le_trans ?_ hsmall.le
      norm_num
    have hwhole : (⌊value⌋ : ℚ) = value :=
      Double.floor_of_large (nearestAt_of_isDouble hdouble) (by simpa using hlog)
    rw [← hwhole, Int.ceil_intCast]
    have hcast : (⌊value⌋ : ℚ) < ((2 ^ 64 : Int) : ℚ) := by
      rw [hwhole]
      exact_mod_cast hlt
    exact_mod_cast hcast

/-! ## The test -/

section Test

variable {ρ : Type}

/-- `DelegatedParquetWriter::SizeAtLeast`. `rotateNextFile` is the function of DuckDB, of a file and a
limit, and it can be missing. The outcome `none` is undefined behaviour. -/
def DelegatedParquetWriter.sizeAtLeast (rotateNextFile : Option (ParquetFile ρ → Nat → Bool))
    (writer : DelegatedParquetWriter ρ) (bytes : Double) : Option (Except CopyException Bool) :=
  match writer.globalData with
  | none => some (.ok false)
  | some file =>
      if bytes.lessEqual 0 then some (.ok true)
      else
        match bytes with
        | .finite value =>
            if roundedIdxMaximum.less bytes then some (.ok false)
            else
              match rotateNextFile with
              | none => some (.error (.internal "DuckDB 1.5 Parquet COPY is missing rotate_next_file"))
              | some rotate => do
                  let minimumSize ← castToIdx ⌈value⌉
                  let maximumSmallerSize := if minimumSize = 0 then 0 else minimumSize - 1
                  some (.ok (rotate file maximumSmallerSize))
        | _ => some (.ok false)

/-- The quotient of two values. The divisors here are at least one. -/
def divide (rounding : Rounding) : Double → Double → Double
  | .finite a, .finite b => rounding.round (a / b)
  | .infinite negative, .finite b => .infinite (xor negative (decide (b < 0)))
  | .finite _, .infinite _ => 0
  | _, _ => .nan

/-- `size_limit / projection_factor`, from the option and the frames or episodes before this one. -/
def projectedLimit (double : Rounding) (dataFileSizeMb : ℚ) (episodeLength divisor : Nat) : Double :=
  let sizeLimit := double.map (· * 1024) (double.round (dataFileSizeMb * 1024))
  let projectionFactor :=
    if 0 < divisor then
      double.add (.finite 1)
        (divide double (double.round episodeLength) (double.round divisor))
    else .finite 1
  divide double sizeLimit projectionFactor

/-- The size for which `EnsureDataWriter` tests, with `total_frames - data_file_start_frame`. -/
def dataFileLimit (double : Rounding) (dataFileSizeMb : ℚ) (episodeLength framesInFile : Nat) : Double :=
  projectedLimit double dataFileSizeMb episodeLength framesInFile

/-- The size for which `MaybeRotateEpisodesWriter` tests. -/
def episodesFileLimit (double : Rounding) (dataFileSizeMb : ℚ) (episodeLength currentEpisode : Nat) :
    Double :=
  projectedLimit double dataFileSizeMb episodeLength (currentEpisode - 1)

variable {writer : DelegatedParquetWriter ρ} {file : ParquetFile ρ}

/-- What the test does with a positive size. -/
theorem sizeAtLeast_eq (hopen : writer.globalData = some file)
    (rotate : ParquetFile ρ → Nat → Bool) {bytes : ℚ} (hpos : 0 < bytes) :
    writer.sizeAtLeast (some rotate) (.finite bytes) =
      if 2 ^ 64 < bytes then some (.ok false)
      else (castToIdx ⌈bytes⌉).map fun minimumSize =>
        .ok (rotate file (if minimumSize = 0 then 0 else minimumSize - 1)) := by
  have hzero : (Double.finite bytes).lessEqual 0 = false := by
    change (!decide (0 < bytes)) = false
    rw [decide_eq_true hpos]
    rfl
  have hless : roundedIdxMaximum.less (.finite bytes) = decide (2 ^ 64 < bytes) := by
    rw [roundedIdxMaximum_eq]
    rfl
  unfold DelegatedParquetWriter.sizeAtLeast
  simp only [hopen, hzero, hless, decide_eq_true_eq, Bool.false_eq_true, if_false]
  split
  · rfl
  · cases castToIdx ⌈bytes⌉ <;> rfl

/-- **The test of a size is exact and its conversion is defined, if and only if the size is not the one
to which the largest integer is rounded.** -/
theorem sizeAtLeast_exact (hopen : writer.globalData = some file)
    {rotate : ParquetFile ρ → Nat → Bool} {size : Nat} (hsize : size < 2 ^ 64)
    (hrotate : ∀ limit, rotate file limit = decide (limit < size)) {bytes : ℚ}
    (hdouble : IsDouble bytes) (hpos : 0 < bytes) :
    writer.sizeAtLeast (some rotate) (.finite bytes) = some (.ok (decide (bytes ≤ size))) ↔
      bytes ≠ 2 ^ 64 := by
  rw [sizeAtLeast_eq hopen rotate hpos]
  have hsizeCast : (size : ℚ) < 2 ^ 64 := by exact_mod_cast hsize
  rcases lt_trichotomy bytes (2 ^ 64) with hlt | heq | hgt
  · -- in range: a file larger than the integer below has at least the size
    refine iff_of_true ?_ hlt.ne
    have hceil : 0 < ⌈bytes⌉ := Int.ceil_pos.mpr hpos
    rw [if_neg hlt.not_gt, castToIdx_intCast hceil.le (ceil_lt_of_isDouble hdouble hlt),
      Option.map_some, hrotate, if_neg (by omega)]
    congr 2
    rw [decide_eq_decide]
    constructor
    · intro hlarger
      have hle : ⌈bytes⌉ ≤ (size : Int) := by omega
      exact_mod_cast Int.ceil_le.mp hle
    · intro hle
      have hceilLe : ⌈bytes⌉ ≤ (size : Int) := Int.ceil_le.mpr (by exact_mod_cast hle)
      omega
  · -- the conversion is out of range
    refine iff_of_false ?_ (not_not.mpr heq)
    have hcast : castToIdx ⌈bytes⌉ = none := by
      rw [heq]
      decide +kernel
    rw [if_neg heq.not_gt, hcast]
    intro h
    cases h
  · refine iff_of_true ?_ hgt.ne'
    rw [if_pos hgt, decide_eq_false (not_le.mpr (hsizeCast.trans hgt))]

/-- A writer with an open file. -/
def openWriter : DelegatedParquetWriter Unit where
  globalData := some ⟨dataRelativePath 0 0, []⟩

theorem openWriter_sizeAtLeast :
    openWriter.sizeAtLeast (some fun _ limit => decide (limit < 4)) (.finite (7 / 2)) =
      some (.ok (decide ((7 / 2 : ℚ) ≤ (4 : Nat)))) :=
  (sizeAtLeast_exact rfl (by decide) (fun _ => rfl) (by rw [IsDouble]; decide +kernel)
    (by norm_num)).mpr (by norm_num)

/-- A limit of `2 ^ 45` megabytes and episodes of one frame: the test before the second frame is
undefined. -/
theorem sizeAtLeast_undefined :
    dataFileLimit Arithmetic.ieee.double (2 ^ 45) 1 1 = .finite (2 ^ 64) ∧
      openWriter.sizeAtLeast (some fun _ limit => decide (limit < 4))
        (dataFileLimit Arithmetic.ieee.double (2 ^ 45) 1 1) = none := by
  decide +kernel

end Test

end DuckdbLerobot.Copy
