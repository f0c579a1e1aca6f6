import DuckdbLerobot.Library.NearestInteger
import DuckdbLerobot.Video.VideoParameters

/-!
# Rounding a delta to frames

`RoundHalfToEven` computes with doubles and casts its result to `int64_t`. For every product that
`GetLerobotTemporalDeltas` rounds, its result is the nearest integer, and the even one of two, and the cast is in
range (`roundHalfToEven_eq`).
-/

set_option autoImplicit false

namespace DuckdbLerobot.Video

open DuckdbLerobot.Library DuckdbLerobot.Path

/-! ## Signed arithmetic -/

/-- The values of `int64_t`. -/
def InInt64 (value : Int) : Prop := -2 ^ 63 ≤ value ∧ value < 2 ^ 63

instance (value : Int) : Decidable (InInt64 value) := inferInstanceAs (Decidable (_ ∧ _))

/-- The result of an operation on `int64_t`, undefined when it overflows. -/
def int64Result (value : Int) : Option Int := if InInt64 value then some value else none

theorem int64Result_eq {value : Int} (h : InInt64 value) : int64Result value = some value := if_pos h

/-- `static_cast<int64_t>` of a finite double, undefined when the truncated value is out of range. -/
def castToInt64 (value : ℚ) : Option Int := int64Result (value.num.tdiv value.den)

theorem castToInt64_intCast (n : Int) : castToInt64 n = int64Result n := by
  simp [castToInt64]

/-- `RoundHalfToEven`. `std::floor` and `std::fmod` are exact. -/
def roundHalfToEven (value : ℚ) : Option Int :=
  let lower : ℚ := ⌊value⌋
  let fraction := Double.nearest (value - lower)
  if fraction < 1 / 2 then castToInt64 lower
  else if 1 / 2 < fraction then castToInt64 (Double.nearest (lower + 1))
  else castToInt64 (if ⌊value⌋ % 2 = 0 then lower else Double.nearest (lower + 1))

/-! ## The rounded product -/

section Rounded

variable {value : ℚ}

/-- A value of `int64_t` stays in range when it is rounded to an integer. -/
theorem inInt64_halfToEven (hlower : -2 ^ 63 ≤ value) (hupper : value ≤ 2 ^ 63 - 1) :
    InInt64 (Double.halfToEven value) := by
  constructor
  · have hcast : ((-2 ^ 63 : Int) : ℚ) ≤ value := by exact_mod_cast hlower
    have hmono := Double.halfToEven_mono hcast
    rwa [Double.halfToEven_intCast] at hmono
  · have hcast : value ≤ ((2 ^ 63 - 1 : Int) : ℚ) := by exact_mod_cast hupper
    have hmono := Double.halfToEven_mono hcast
    rw [Double.halfToEven_intCast] at hmono
    omega

/-- The last case: the value is between -1/2 and 0, where the fraction may be rounded to one half. -/
theorem roundHalfToEven_of_neg (hlower : -(1 / 2) < value) (hupper : value < 0) :
    roundHalfToEven value = some (Double.halfToEven value) := by
  have hfloor : ⌊value⌋ = -1 := by
    apply Int.floor_eq_iff.mpr
    constructor
    · push_cast
      linarith
    · push_cast
      linarith
  have hhalf : (1 : ℚ) / 2 ≤ Double.nearest (value - ((-1 : Int) : ℚ)) := by
    have hexact : Double.nearest (1 / 2) = 1 / 2 := by decide +kernel
    rw [← hexact, Double.nearest_eq_nearestAt]
    apply Double.nearestAt_mono (by decide)
    push_cast
    linarith
  have hone : Double.nearest (((-1 : Int) : ℚ) + 1) = ((0 : Int) : ℚ) := by decide +kernel
  have hround : Double.halfToEven value = 0 := by
    rw [Double.halfToEven, hfloor, if_neg, if_pos]
    · rfl
    · push_cast
      linarith
    · push_cast
      linarith
  rw [roundHalfToEven, hfloor, hround, if_neg hhalf.not_gt, hone]
  split
  · rfl
  · rfl

/-- A fraction that is greater than its value. -/
theorem between_of_lt_fraction (h : |value| < |value - ⌊value⌋|) : -(1 / 2) < value ∧ value < 0 := by
  have hfloor := Int.floor_le value
  have hlt := Int.lt_floor_add_one value
  rw [abs_of_nonneg (sub_nonneg.mpr hfloor)] at h
  have hneg : value < 0 := by
    by_contra hnonneg
    have hzero : (0 : ℚ) ≤ ⌊value⌋ := by exact_mod_cast Int.floor_nonneg.mpr (not_lt.mp hnonneg)
    have hself := le_abs_self value
    linarith
  refine ⟨?_, hneg⟩
  rw [abs_of_neg hneg] at h
  by_contra hhalf
  rcases le_or_gt (-1) value with hone | hone
  · have hminus : ⌊value⌋ = -1 := by
      apply Int.floor_eq_iff.mpr
      constructor
      · exact_mod_cast hone
      · push_cast
        linarith
    rw [hminus] at h
    push_cast at h
    linarith
  · linarith

theorem nearest_floor_add_one (h : |value| < 2 ^ 52) :
    Double.nearest ((⌊value⌋ : ℚ) + 1) = ((⌊value⌋ + 1 : Int) : ℚ) := by
  obtain ⟨hbelow, habove⟩ := abs_lt.mp h
  have hlower : -2 ^ 52 ≤ ⌊value⌋ := by
    apply Int.le_floor.mpr
    push_cast
    linarith
  have hupper : ⌊value⌋ < 2 ^ 52 := by
    apply Int.floor_lt.mpr
    push_cast
    exact habove
  have hsmall : |⌊value⌋ + 1| < 2 ^ 53 := by
    rw [abs_lt]
    constructor <;> omega
  have hexact : Double.nearestAt 53 (-1022) ((⌊value⌋ + 1 : Int) : ℚ) = ((⌊value⌋ + 1 : Int) : ℚ) :=
    Double.nearestAt_intCast (by decide) (by decide) hsmall
  rw [Double.nearest_eq_nearestAt]
  push_cast at hexact ⊢
  exact hexact

/-- **`RoundHalfToEven`** of a double in the range of `int64_t`. -/
theorem roundHalfToEven_eq (h : Double.nearest value = value) (hlower : -2 ^ 63 ≤ value)
    (hupper : value < 2 ^ 63) :
    roundHalfToEven value = some (Double.halfToEven value) ∧ InInt64 (Double.halfToEven value) := by
  rw [Double.nearest_eq_nearestAt] at h
  rcases le_or_gt ((53 : Nat) - 1 : Int) (Double.placeExponent (-1022) value) with hlarge | hsmall
  · -- a value that has no place for a fraction
    have hint := Double.floor_of_large h hlarge
    have hrange : InInt64 ⌊value⌋ := by
      constructor
      · have hcast : ((-2 ^ 63 : Int) : ℚ) ≤ ⌊value⌋ := by
          rw [hint]
          exact_mod_cast hlower
        exact_mod_cast hcast
      · have hcast : (⌊value⌋ : ℚ) < ((2 ^ 63 : Int) : ℚ) := by
          rw [hint]
          exact_mod_cast hupper
        exact_mod_cast hcast
    have hround : Double.halfToEven value = ⌊value⌋ := by
      have hexact := Double.halfToEven_intCast ⌊value⌋
      rwa [hint] at hexact
    have hfraction : Double.nearest (value - ⌊value⌋) = 0 := by
      rw [hint, sub_self, Double.nearest_eq_nearestAt, Double.nearestAt_zero]
    rw [hround]
    refine ⟨?_, hrange⟩
    rw [roundHalfToEven, hfraction, if_pos (by norm_num), castToInt64_intCast, int64Result_eq hrange]
  · have habs : |value| < 2 ^ 52 := by
      have hbinade : |value| < 2 ^ (Double.placeExponent (-1022) value + 1) :=
        Double.abs_lt_two_zpow value
      have hpow : (2 : ℚ) ^ (Double.placeExponent (-1022) value + 1) ≤ 2 ^ (52 : Int) :=
        zpow_le_zpow_right₀ one_le_two (by omega)
      exact hbinade.trans_le hpow
    obtain ⟨hbelow, habove⟩ := abs_lt.mp habs
    have hrange : InInt64 (Double.halfToEven value) :=
      inInt64_halfToEven (by linarith) (by linarith)
    refine ⟨?_, hrange⟩
    by_cases hle : |value - ⌊value⌋| ≤ |value|
    · -- the fraction is exact, and so is the next integer
      have hfraction : Double.nearest (value - ⌊value⌋) = value - ⌊value⌋ := by
        rw [Double.nearest_eq_nearestAt]
        exact Double.nearestAt_fraction h (by omega) hle
      have hsucc := nearest_floor_add_one habs
      rw [← int64Result_eq hrange, roundHalfToEven, hfraction, hsucc, Double.halfToEven]
      split_ifs
      · exact castToInt64_intCast _
      · exact castToInt64_intCast _
      · exact castToInt64_intCast _
      · exact castToInt64_intCast _
    · obtain ⟨hlow, hneg⟩ := between_of_lt_fraction (not_le.mp hle)
      exact roundHalfToEven_of_neg hlow hneg

end Rounded

/-! ## The parser -/

/-- What holds of a delta that was accepted: the product of its timestamp and the frame rate, as a double, is
rounded to its frame offset without overflow, and the offset is within the tolerance of the timestamp. -/
structure RoundedDelta (fps : Int) (tolerance : ℚ) (delta : LerobotTemporalDelta) : Prop where
  offset : ∃ scaled, Double.rounded (delta.timestamp * Double.nearest fps) = .finite scaled ∧
    roundHalfToEven scaled = some delta.frameOffset ∧ Double.NearestEven scaled delta.frameOffset
  inInt64 : InInt64 delta.frameOffset
  tolerance : |Double.nearest (delta.timestamp -
    Double.nearest (Double.nearest delta.frameOffset / Double.nearest fps))| ≤ tolerance

theorem nearest_of_rounded {value scaled : ℚ} (h : Double.rounded value = .finite scaled) :
    Double.nearest scaled = scaled := by
  rw [Double.rounded] at h
  split at h
  · cases h
  · cases h
    rw [Double.nearest_eq_nearestAt]
    exact Double.nearestAt_nearestAt (by decide) value

/-- **A timestamp** that is accepted. -/
theorem temporalDelta_rounded {print : ℚ → String} {fps : Int} {tolerance : ℚ} {functionName : String}
    {timestamp : Double} {delta : LerobotTemporalDelta}
    (h : temporalDelta print fps tolerance functionName timestamp = .ok delta) :
    RoundedDelta fps tolerance delta := by
  cases timestamp with
  | infinite negative => cases h
  | nan => cases h
  | finite timestamp =>
      rw [temporalDelta] at h
      cases hscaled : Double.rounded (timestamp * Double.nearest fps) with
      | infinite negative =>
          rw [hscaled] at h
          cases h
      | nan =>
          rw [hscaled] at h
          cases h
      | finite scaled =>
          rw [hscaled] at h
          obtain ⟨hrange, h⟩ := except_check_eq_ok.mp h
          obtain ⟨htolerance, h⟩ := except_check_eq_ok.mp h
          cases h
          rw [not_or, not_lt, not_le] at hrange
          obtain ⟨hround, hinside⟩ :=
            roundHalfToEven_eq (nearest_of_rounded hscaled) hrange.1 hrange.2
          exact {
            offset := ⟨scaled, hscaled, hround, Double.halfToEven_nearestEven scaled⟩
            inInt64 := hinside
            tolerance := not_lt.mp htolerance }

/-- The deltas that `GetLerobotTemporalDeltas` returns. -/
theorem getLerobotTemporalDeltas_rounded {print : ℚ → String} {input : NamedParameters} {fps : Int}
    {tolerance : ℚ} {functionName : String} {deltas : List LerobotTemporalDelta}
    (h : getLerobotTemporalDeltas print input fps tolerance functionName = .ok deltas) :
    ∀ delta ∈ deltas, RoundedDelta fps tolerance delta := by
  intro delta hdelta
  obtain ⟨timestamps, -, hmap⟩ := except_bind_eq_ok.mp h
  obtain ⟨timestamp, -, htemporal⟩ := exists_mem_of_mapM hmap hdelta
  exact temporalDelta_rounded htemporal

end DuckdbLerobot.Video
