import DuckdbLerobot.Copy.EpisodeSchema
import DuckdbLerobot.Copy.InfoJson
import DuckdbLerobot.Copy.ShardPacking
import DuckdbLerobot.Library.ShapedArrays

/-!
# Nested statistics

The statistics of a feature are lists of numbers. They are written twice, as nested values in the row of the episode and
as nested arrays in `stats.json`, and both are built by a recursion over the shape with one offset into the list.

The four recursions are the one of `readShaped`, with their own leaves and nodes. `nestedStatistics_flatten` says that
both texts and values have the numbers of the list in row-major order, and that a list of another length is refused.
-/

set_option autoImplicit false

namespace DuckdbLerobot.Copy

open DuckdbLerobot.Library DuckdbLerobot.Storage DuckdbLerobot.Image

variable {α : Type}

/-! ## The texts -/

/-- A leaf of `NestedStatsJSON`. -/
def statsJSONLeaf (values : List Double) (offset : Nat) : Except CopyException (Bytes × Nat) :=
  match values[offset]? with
  | none => .error (.internal "LeRobot statistic JSON shape exceeds its value count")
  | some value => (jsonNumber value).map fun text => (text, offset + 1)

/-- A leaf of `NestedIntegerStatsJSON`. -/
def integerStatsJSONLeaf (values : List (Value α)) (offset : Nat) : Except CopyException (Bytes × Nat) :=
  match values[offset]? with
  | none => .error (.internal "LeRobot integer statistic JSON shape exceeds its value count")
  | some (.integer value) => .ok (decimalText value, offset + 1)
  | some _ => .error (.internal "LeRobot integer statistic JSON contains a non-integer value")

/-- The brackets of `NestedStatsJSON` and `NestedIntegerStatsJSON`, and the commas between them. -/
def arrayText (_shape : List Nat) (elements : List Bytes) : Bytes :=
  ascii "[" ++ (Json.commaSeparated elements ++ ascii "]")

/-- `StatsJSONValue`. -/
def statsJSONValue (values : List Double) (shape : List Nat) : Except CopyException Bytes :=
  readAll (statsJSONLeaf values) arrayText shape values.length
    (.internal "LeRobot statistic JSON shape did not consume all values")

/-- `IntegerStatsJSONValue`. -/
def integerStatsJSONValue (values : List (Value α)) (shape : List Nat) : Except CopyException Bytes :=
  readAll (integerStatsJSONLeaf values) arrayText shape values.length
    (.internal "LeRobot integer statistic JSON shape did not consume all values")

/-! ## The values -/

/-- A leaf of `BuildNestedIntegerStatValue`, with the `DefaultCastAs` of DuckDB, which may throw. -/
def castIntegerStatLeaf (defaultCastAs : LogicalType → Int → Except CopyException Int) (values : List (Value α))
    (leafType : LogicalType) (offset : Nat) : Except CopyException (EpisodeValue α × Nat) :=
  match values[offset]? with
  | none => .error (.internal "LeRobot integer statistic shape exceeds its value count")
  | some (.integer value) =>
      (defaultCastAs leafType value).map fun result => (.integer leafType result, offset + 1)
  | some _ => .error (.internal "LeRobot integer statistic contains a non-integer value")

/-- `BuildIntegerStatValue`, with this leaf. -/
def buildCastIntegerStatValue (defaultCastAs : LogicalType → Int → Except CopyException Int) (values : List (Value α))
    (shape : List Nat) (leafType : LogicalType) : Except CopyException (EpisodeValue α) :=
  buildNested (castIntegerStatLeaf defaultCastAs values leafType) leafType shape 0 >>=
    consumeAll values.length "LeRobot integer statistic shape did not consume all values"

/-- A node of a nested value. -/
def listNode (leafType : LogicalType) (shape : List Nat) (children : List (EpisodeValue α)) : EpisodeValue α :=
  .list (statListType leafType shape) children

section Shaped

variable {child leaf : Nat → Except CopyException (EpisodeValue α × Nat)} {leafType : LogicalType}

theorem buildChildren_eq (size offset : Nat) : buildChildren child size offset = readParts child size offset := by
  induction size generalizing offset with
  | zero => rfl
  | succ size ih => simp only [buildChildren, readParts, ih]

theorem buildNested_eq (shape : List Nat) :
    buildNested leaf leafType shape = readShaped leaf (listNode leafType) shape := by
  induction shape with
  | nil => rfl
  | cons size shape ih =>
      funext offset
      rw [buildNested, readShaped, ih, buildChildren_eq]
      rfl

theorem buildAll_eq (shape : List Nat) (count : Nat) (message : String) :
    (buildNested leaf leafType shape 0 >>= consumeAll count message) =
      readAll leaf (listNode leafType) shape count (.internal message) := by
  rw [buildNested_eq, readAll]
  rfl

end Shaped

/-- A cast that changes nothing. -/
theorem buildCastIntegerStatValue_self (values : List (Value α)) (shape : List Nat) (leafType : LogicalType) :
    buildCastIntegerStatValue (fun _ value => .ok value) values shape leafType =
      buildIntegerStatValue values shape leafType := by
  have hleaf : castIntegerStatLeaf (fun _ value => .ok value) values leafType = integerStatLeaf values leafType := by
    funext offset
    rw [castIntegerStatLeaf, integerStatLeaf]
    cases values[offset]? with
    | none => rfl
    | some value => cases value <;> rfl
  rw [buildCastIntegerStatValue, hleaf]
  rfl

/-! ## Leaves -/

/-- A nested value has lists as its nodes. -/
def listElements : EpisodeValue α → Option (List (EpisodeValue α))
  | .list _ elements => some elements
  | _ => none

/-- A parsed text has arrays as its nodes. -/
def arrayElements : Json → Option (List Json)
  | .array elements => some elements
  | _ => none

/-- The `double` that is read for a number. -/
def readDouble : Json → Option Double
  | .number value => some (Double.rounded value)
  | _ => none

/-- The nearest `double` to the text of a `double` is this one. -/
theorem rounded_writtenNumber {value : ℚ} (h : IsDouble value) :
    Double.rounded (formatGeneral 17 value).value = .finite value := by
  have hnearest : Double.nearest (formatGeneral 17 value).value = value := by
    rw [Double.nearest_eq_nearestAt]
    exact nearest_formatGeneral (nearestAt_of_isDouble h)
  have hself : Double.nearest value = value := by
    rw [Double.nearest_eq_nearestAt]
    exact nearestAt_of_isDouble h
  have hbound : ¬(2 : ℚ) ^ 1024 ≤ |value| := by
    intro hle
    rw [IsDouble, Double.rounded, hself, if_pos hle] at h
    cases h
  rw [Double.rounded, hnearest, if_neg hbound]

section Leaves

variable {values : List Double} {integers : List Int}

theorem statLeaf_ok {numbers : List (WithBot (WithTop α))} (offset : Nat) (value : WithBot (WithTop α))
    (h : numbers[offset]? = some value) :
    ∃ result, statLeaf numbers offset = .ok (result, offset + 1) ∧ result = .statistic value :=
  ⟨_, by rw [statLeaf, h], rfl⟩

theorem statLeaf_advance {numbers : List (WithBot (WithTop α))} (offset : Nat) (result : EpisodeValue α) (after : Nat)
    (h : statLeaf numbers offset = .ok (result, after)) : offset < numbers.length ∧ after = offset + 1 := by
  rw [statLeaf] at h
  split at h
  · cases h
  · next hvalue =>
    obtain ⟨-, rfl⟩ := Prod.mk.inj (Except.ok.inj h)
    exact ⟨(List.getElem?_eq_some_iff.mp hvalue).1, rfl⟩

theorem castIntegerStatLeaf_advance {defaultCastAs : LogicalType → Int → Except CopyException Int}
    {numbers : List (Value α)} {leafType : LogicalType} (offset : Nat) (result : EpisodeValue α) (after : Nat)
    (h : castIntegerStatLeaf defaultCastAs numbers leafType offset = .ok (result, after)) :
    offset < numbers.length ∧ after = offset + 1 := by
  rw [castIntegerStatLeaf] at h
  split at h
  · cases h
  · next hvalue =>
    obtain ⟨_, -, heq⟩ := except_map_eq_ok.mp h
    obtain ⟨-, rfl⟩ := Prod.mk.inj heq
    exact ⟨(List.getElem?_eq_some_iff.mp hvalue).1, rfl⟩
  · cases h

theorem statsJSONLeaf_advance (offset : Nat) (text : Bytes) (after : Nat)
    (h : statsJSONLeaf values offset = .ok (text, after)) : offset < values.length ∧ after = offset + 1 := by
  rw [statsJSONLeaf] at h
  split at h
  · cases h
  · next hvalue =>
    obtain ⟨_, -, heq⟩ := except_map_eq_ok.mp h
    obtain ⟨-, rfl⟩ := Prod.mk.inj heq
    exact ⟨(List.getElem?_eq_some_iff.mp hvalue).1, rfl⟩

theorem integerStatsJSONLeaf_advance {numbers : List (Value α)} (offset : Nat) (text : Bytes) (after : Nat)
    (h : integerStatsJSONLeaf numbers offset = .ok (text, after)) : offset < numbers.length ∧ after = offset + 1 := by
  rw [integerStatsJSONLeaf] at h
  split at h
  · cases h
  · next hvalue =>
    obtain ⟨-, rfl⟩ := Prod.mk.inj (Except.ok.inj h)
    exact ⟨(List.getElem?_eq_some_iff.mp hvalue).1, rfl⟩
  · cases h

/-- A leaf that is the text of a number. -/
theorem statsJSONLeaf_ok (hdouble : ∀ value ∈ values, ∃ number, value = .finite number ∧ IsDouble number) (offset : Nat)
    (value : Double) (h : values[offset]? = some value) :
    ∃ text, statsJSONLeaf values offset = .ok (text, offset + 1) ∧
      ∃ json, Json.Reads text json ∧ readDouble json = some value := by
  obtain ⟨number, rfl, hnumber⟩ := hdouble value (List.mem_of_getElem? h)
  refine ⟨_, by rw [statsJSONLeaf, h]; rfl, _, Json.reads_number (wellFormed_formatGeneral 17 number), ?_⟩
  rw [readDouble, rounded_writtenNumber hnumber]

theorem integerStatsJSONLeaf_ok (offset : Nat) (value : Int)
    (h : (integers.map fun value : Int => (Value.integer value : Value α))[offset]? = some (.integer value)) :
    ∃ text, integerStatsJSONLeaf (integers.map fun value : Int => (Value.integer value : Value α)) offset =
        .ok (text, offset + 1) ∧
      Json.Reads text (.number value) :=
  ⟨_, by rw [integerStatsJSONLeaf, h], reads_decimalText value⟩

end Leaves

/-! ## Both forms -/

/-- A text is read as an array, whose leaves are those of the text. -/
theorem parse_arrayText {ν : Type} {leafHolds : ν → Json → Prop} {shape : List Nat} {values : List ν} {text : Bytes}
    (h : Holds arrayText (fun value text => ∃ json, Json.Reads text json ∧ leafHolds value json) shape values text) :
    ∃ json leaves, Json.parse text = some json ∧ flattenShaped arrayElements shape json = some leaves ∧
      List.Forall₂ leafHolds values leaves := by
  obtain ⟨json, hreads, hholds⟩ := h.transfer Json.Reads (fun _ elements => .array elements) leafHolds
    (fun _ _ hleaf => hleaf) (fun _ _ _ helements => Json.reads_array helements)
  obtain ⟨leaves, hflatten, hleaves⟩ := hholds.flatten arrayElements (fun _ _ => rfl)
  exact ⟨json, leaves, hreads.parse, hflatten, hleaves⟩

/-- Leaves that are determined by their values. -/
theorem leaves_eq {ι ν γ : Type} {values : List ι} {source : ι → ν} {target : ι → γ} {rel : ν → γ → Prop}
    {leaves : List γ} (hrel : ∀ value leaf, rel (source value) leaf → leaf = target value)
    (h : List.Forall₂ rel (values.map source) leaves) : leaves = values.map target := by
  induction values generalizing leaves with
  | nil => rw [List.forall₂_nil_left_iff.mp h, List.map_nil]
  | cons value values ih =>
      cases h with
      | cons hfirst hrest => rw [List.map_cons, hrel value _ hfirst, ih hrest]

section Forms

variable {shape : List Nat} {leafType : LogicalType} {defaultCastAs : LogicalType → Int → Except CopyException Int}

theorem buildStatValue_flatten {numbers : List (WithBot (WithTop α))} (h : numbers.length = shape.prod) :
    ∃ value, buildStatValue numbers shape = .ok value ∧
      value.HasType (lerobotNestedListType .double shape.length) ∧
      flattenShaped listElements shape value = some (numbers.map EpisodeValue.statistic) := by
  obtain ⟨value, hvalue, htype⟩ := buildStatValue_ok h
  have hall := readAll_ok (listNode .double) statLeaf_ok h
    (.internal "LeRobot statistic shape did not consume all values")
  obtain ⟨result, hresult, hholds⟩ := hall
  rw [← buildAll_eq, ← buildStatValue, hvalue] at hresult
  obtain rfl := Except.ok.inj hresult
  obtain ⟨leaves, hflatten, hleaves⟩ := hholds.flatten listElements (fun _ _ => rfl)
  rw [← List.map_id numbers] at hleaves
  have hfound : leaves = numbers.map EpisodeValue.statistic := leaves_eq (fun _ _ hleaf => hleaf) hleaves
  rw [hfound] at hflatten
  rw [statListType_eq] at htype
  exact ⟨value, hvalue, htype, hflatten⟩

theorem castIntegerStatLeaf_ok {integers : List Int}
    (hcast : ∀ value ∈ integers, defaultCastAs leafType value = .ok value)
    (offset : Nat) (number : Value α)
    (h : (integers.map fun value : Int => (Value.integer value : Value α))[offset]? = some number) :
    ∃ result, castIntegerStatLeaf defaultCastAs (integers.map fun value : Int => (Value.integer value : Value α))
        leafType offset = .ok (result, offset + 1) ∧
      ∃ value : Int, number = .integer value ∧ result = .integer leafType value := by
  obtain ⟨value, hvalue, rfl⟩ := List.mem_map.mp (List.mem_of_getElem? h)
  refine ⟨.integer leafType value, ?_, value, rfl, rfl⟩
  rw [castIntegerStatLeaf, h]
  change (defaultCastAs leafType value).map _ = _
  rw [hcast value hvalue]
  rfl

theorem buildCastIntegerStatValue_flatten {integers : List Int} (h : integers.length = shape.prod)
    (hcast : ∀ value ∈ integers, defaultCastAs leafType value = .ok value) :
    ∃ value : EpisodeValue α, buildCastIntegerStatValue defaultCastAs
        (integers.map fun value : Int => (Value.integer value : Value α)) shape leafType = .ok value ∧
      value.HasType (lerobotNestedListType leafType shape.length) ∧
      flattenShaped listElements shape value = some (integers.map fun value : Int => .integer leafType value) := by
  have hlength : (integers.map fun value : Int => (Value.integer value : Value α)).length = shape.prod := by
    rw [List.length_map, h]
  have hbuilds : Builds (castIntegerStatLeaf defaultCastAs
      (integers.map fun value : Int => (Value.integer value : Value α)) leafType)
      (integers.map fun value : Int => (Value.integer value : Value α)).length 1 leafType := by
    intro offset hoffset
    obtain ⟨result, hresult, _, -, rfl⟩ :=
      castIntegerStatLeaf_ok (α := α) hcast offset _ (List.getElem?_eq_getElem hoffset)
    exact ⟨_, hresult, .integer _ _⟩
  obtain ⟨value, hvalue, htype⟩ := buildAll_ok hbuilds hlength.symm
    "LeRobot integer statistic shape did not consume all values"
  have hall := readAll_ok (listNode leafType) (castIntegerStatLeaf_ok (α := α) hcast) hlength
    (.internal "LeRobot integer statistic shape did not consume all values")
  obtain ⟨result, hresult, hholds⟩ := hall
  rw [← buildAll_eq, hvalue] at hresult
  obtain rfl := Except.ok.inj hresult
  obtain ⟨leaves, hflatten, hleaves⟩ := hholds.flatten listElements (fun _ _ => rfl)
  have hrel : ∀ (value : Int) (leaf : EpisodeValue α),
      (∃ other : Int, (Value.integer value : Value α) = .integer other ∧ leaf = .integer leafType other) →
        leaf = .integer leafType value := by
    rintro value leaf ⟨other, hother, rfl⟩
    rw [Value.integer.inj hother]
  rw [leaves_eq hrel hleaves] at hflatten
  rw [statListType_eq] at htype
  exact ⟨value, hvalue, htype, hflatten⟩

theorem statsJSONValue_parse {values : List Double} (h : values.length = shape.prod)
    (hdouble : ∀ value ∈ values, ∃ number, value = .finite number ∧ IsDouble number) :
    ∃ text json leaves, statsJSONValue values shape = .ok text ∧ Json.parse text = some json ∧
      flattenShaped arrayElements shape json = some leaves ∧ leaves.map readDouble = values.map some := by
  obtain ⟨text, htext, hholds⟩ := readAll_ok arrayText (statsJSONLeaf_ok hdouble) h
    (.internal "LeRobot statistic JSON shape did not consume all values")
  obtain ⟨json, leaves, hparse, hflatten, hleaves⟩ := parse_arrayText hholds
  refine ⟨text, json, leaves, htext, hparse, hflatten, ?_⟩
  have hread : List.Forall₂ (fun value leaf => leaf = some value) (values.map id) (leaves.map readDouble) := by
    rw [List.map_id, List.forall₂_map_right_iff]
    exact hleaves
  exact leaves_eq (fun _ _ hleaf => hleaf) hread

theorem integerStatsJSONValue_parse {integers : List Int} (h : integers.length = shape.prod) :
    ∃ text json, integerStatsJSONValue (integers.map fun value : Int => (Value.integer value : Value α)) shape =
        .ok text ∧
      Json.parse text = some json ∧
      flattenShaped arrayElements shape json = some (integers.map fun value : Int => .number value) := by
  have hlength : (integers.map fun value : Int => (Value.integer value : Value α)).length = shape.prod := by
    rw [List.length_map, h]
  have hleaf : ∀ offset (number : Value α),
      (integers.map fun value : Int => (Value.integer value : Value α))[offset]? = some number →
        ∃ text, integerStatsJSONLeaf (integers.map fun value : Int => (Value.integer value : Value α)) offset =
            .ok (text, offset + 1) ∧
          ∃ json, Json.Reads text json ∧ ∃ value : Int, number = .integer value ∧ json = .number value := by
    intro offset number hnumber
    obtain ⟨value, -, rfl⟩ := List.mem_map.mp (List.mem_of_getElem? hnumber)
    obtain ⟨text, htext, hreads⟩ := integerStatsJSONLeaf_ok (α := α) offset value hnumber
    exact ⟨text, htext, _, hreads, value, rfl, rfl⟩
  obtain ⟨text, htext, hholds⟩ := readAll_ok arrayText hleaf hlength
    (.internal "LeRobot integer statistic JSON shape did not consume all values")
  obtain ⟨json, leaves, hparse, hflatten, hleaves⟩ := parse_arrayText hholds
  have hrel : ∀ (value : Int) (leaf : Json),
      (∃ other : Int, (Value.integer value : Value α) = .integer other ∧ leaf = .number other) →
        leaf = .number value := by
    rintro value leaf ⟨other, hother, rfl⟩
    rw [Value.integer.inj hother]
  rw [leaves_eq hrel hleaves] at hflatten
  exact ⟨text, json, htext, hparse, hflatten⟩

end Forms

/-- **Nested statistics have the numbers of the list in row-major order**, as values and as texts, where there is a
number for each place of the shape: finite ones for a text, and those that the type of the leaves has for values. Every
other list is refused by each of the four. -/
theorem nestedStatistics_flatten (defaultCastAs : LogicalType → Int → Except CopyException Int)
    (leafType : LogicalType) (size : Nat) (shape : List Nat) :
    (∀ values : List Double, values.length = (size :: shape).prod →
      (∃ value, buildStatValue (values.map finiteValue) (size :: shape) = .ok value ∧
        value.HasType (lerobotNestedListType .double (size :: shape).length) ∧
        flattenShaped listElements (size :: shape) value =
          some (values.map fun number => .statistic (finiteValue number))) ∧
      ((∀ value ∈ values, ∃ number, value = .finite number ∧ IsDouble number) →
        ∃ text json leaves, statsJSONValue values (size :: shape) = .ok text ∧ Json.parse text = some json ∧
          flattenShaped arrayElements (size :: shape) json = some leaves ∧
          leaves.map readDouble = values.map some)) ∧
    (∀ integers : List Int, integers.length = (size :: shape).prod →
      ((∀ value ∈ integers, defaultCastAs leafType value = .ok value) →
        ∃ value : EpisodeValue α, buildCastIntegerStatValue defaultCastAs
            (integers.map fun value : Int => (Value.integer value : Value α)) (size :: shape) leafType = .ok value ∧
          value.HasType (lerobotNestedListType leafType (size :: shape).length) ∧
          flattenShaped listElements (size :: shape) value =
            some (integers.map fun value : Int => .integer leafType value)) ∧
      ∃ text json, integerStatsJSONValue (integers.map fun value : Int => (Value.integer value : Value α))
          (size :: shape) = .ok text ∧
        Json.parse text = some json ∧
        flattenShaped arrayElements (size :: shape) json = some (integers.map fun value : Int => .number value)) ∧
    (∀ values : List Double, values.length ≠ (size :: shape).prod →
      (∃ e, buildStatValue (values.map finiteValue) (size :: shape) = .error e) ∧
        ∃ e, statsJSONValue values (size :: shape) = .error e) ∧
    ∀ values : List (Value α), values.length ≠ (size :: shape).prod →
      (∃ e, buildCastIntegerStatValue defaultCastAs values (size :: shape) leafType = .error e) ∧
        ∃ e, integerStatsJSONValue values (size :: shape) = .error e := by
  refine ⟨fun values hlength => ⟨?_, statsJSONValue_parse hlength⟩,
    fun integers hlength => ⟨buildCastIntegerStatValue_flatten hlength, integerStatsJSONValue_parse hlength⟩,
    fun values hlength => ⟨?_, readAll_error statsJSONLeaf_advance hlength _⟩,
    fun values hlength => ⟨?_, readAll_error integerStatsJSONLeaf_advance hlength _⟩⟩
  · have hnumbers : (values.map finiteValue).length = (size :: shape).prod := by rw [List.length_map, hlength]
    obtain ⟨value, hvalue, htype, hflatten⟩ := buildStatValue_flatten hnumbers
    rw [List.map_map] at hflatten
    exact ⟨value, hvalue, htype, hflatten⟩
  · rw [buildStatValue, buildAll_eq]
    apply readAll_error statLeaf_advance
    rwa [List.length_map]
  · rw [buildCastIntegerStatValue, buildAll_eq]
    exact readAll_error castIntegerStatLeaf_advance hlength _

/-- `JsonNumber` refuses what is not finite, so not every list of the right length has a text. -/
theorem statsJSONValue_nan : [Double.nan].length = [1].prod ∧
    statsJSONValue [Double.nan] [1] = .error (.invalidInput "LeRobot statistics cannot contain NaN or infinity") :=
  ⟨rfl, rfl⟩

/-- A cast to `UBIGINT`. -/
def castToUbigint (_leafType : LogicalType) (value : Int) : Except CopyException Int :=
  if 0 ≤ value ∧ value < 2 ^ 64 then .ok value else .error (.invalidInput "Failed to cast value")

theorem twoRows_flatten :
    (∃ value, buildStatValue ([Double.finite (1 / 2), .finite 3, .finite (-7 / 4), .nan].map finiteValue) [2, 1, 2] =
        .ok value ∧
      value.HasType (.list (.list (.list .double)))) ∧
    (∃ text json leaves, statsJSONValue [.finite (1 / 2), .finite (-7 / 4)] [2, 1] = .ok text ∧
      Json.parse text = some json ∧ flattenShaped arrayElements [2, 1] json = some leaves ∧
      leaves.map readDouble = [some (.finite (1 / 2)), some (.finite (-7 / 4))]) ∧
    ∃ value : EpisodeValue ℚ, buildCastIntegerStatValue castToUbigint
        ([2 ^ 64 - 1, 0].map fun value : Int => (Value.integer value : Value ℚ)) [1, 2] .ubigint = .ok value ∧
      flattenShaped listElements [1, 2] value = some [.integer .ubigint (2 ^ 64 - 1), .integer .ubigint 0] := by
  refine ⟨?_, ?_, ?_⟩
  · obtain ⟨value, hvalue, htype, -⟩ := ((nestedStatistics_flatten (α := ℚ) castToUbigint .ubigint 2 [1, 2]).1
      [.finite (1 / 2), .finite 3, .finite (-7 / 4), .nan] rfl).1
    exact ⟨value, hvalue, htype⟩
  · apply ((nestedStatistics_flatten (α := ℚ) castToUbigint .ubigint 2 [1]).1 [.finite (1 / 2), .finite (-7 / 4)] rfl).2
    intro value hvalue
    obtain rfl | rfl := List.mem_pair.mp hvalue
    · exact ⟨_, rfl, by rw [IsDouble]; decide +kernel⟩
    · exact ⟨_, rfl, by rw [IsDouble]; decide +kernel⟩
  · obtain ⟨value, hvalue, -, hflatten⟩ := ((nestedStatistics_flatten (α := ℚ) castToUbigint .ubigint 1 [2]).2.1
      [2 ^ 64 - 1, 0] rfl).1 (by decide)
    exact ⟨value, hvalue, hflatten⟩

end DuckdbLerobot.Copy
