import DuckdbLerobot.Copy.FeatureStats
import DuckdbLerobot.Library.Rounding

/-!
# Reading nested arrays

The statistics read a column of numbers, or of nested arrays of numbers. Each level of such a column is a vector with a
selection and a validity mask of its own. A row of the logical value is an entry of the storage that the selection
gives, and the place of an array in the child vector is computed from this entry.

`LerobotNumericStatsVector` reads such a column without flattening it. `appendRow_flattens` says that it appends the
logical value of a row in row-major order, at any depth. The vectors of DuckDB are data here; `ToUnifiedFormat` and
`ArrayVector::GetTotalSize` are parameters, with their documented meaning as a hypothesis.
-/

set_option autoImplicit false

namespace DuckdbLerobot.Copy

open DuckdbLerobot.Library

/-! ## Logical values -/

section Cells

variable {α : Type}

mutual

/-- Whether a value contains a NULL at some level. -/
def Cell.hasNull : Cell α → Bool
  | .null => true
  | .value _ => false
  | .array elements => anyNull elements

/-- Whether one of some values contains a NULL. -/
def anyNull : List (Cell α) → Bool
  | [] => false
  | cell :: cells => cell.hasNull || anyNull cells

end

mutual

/-- The numbers of a value in row-major order. -/
def Cell.flatten : Cell α → List (Value α)
  | .null => []
  | .value value => [value]
  | .array elements => flattenAll elements

/-- The numbers of some values, one after the other. -/
def flattenAll : List (Cell α) → List (Value α)
  | [] => []
  | cell :: cells => cell.flatten ++ flattenAll cells

end

end Cells

/-! ## The vectors of a column -/

/-- The numeric types among the leaf types. -/
inductive NumericType
  | boolean
  | tinyint
  | smallint
  | integer
  | bigint
  | utinyint
  | usmallint
  | uinteger
  | ubigint
  | float
  | double
  deriving DecidableEq

/-- The type `T` of `ReadNumericValues<T>`. -/
def NumericType.Physical (α : Type) : NumericType → Type
  | boolean => Bool
  | tinyint => BitVec 8
  | smallint => BitVec 16
  | integer => BitVec 32
  | bigint => BitVec 64
  | utinyint => BitVec 8
  | usmallint => BitVec 16
  | uinteger => BitVec 32
  | ubigint => BitVec 64
  | float => Option α
  | double => Option α

/-- `Value::CreateValue<T>`. -/
def createValue {α : Type} : (type : NumericType) → type.Physical α → Value α
  | .boolean, value => .boolean value
  | .tinyint, value => .integer (BitVec.toInt value)
  | .smallint, value => .integer (BitVec.toInt value)
  | .integer, value => .integer (BitVec.toInt value)
  | .bigint, value => .integer (BitVec.toInt value)
  | .utinyint, value => .integer (BitVec.toNat value)
  | .usmallint, value => .integer (BitVec.toNat value)
  | .uinteger, value => .integer (BitVec.toNat value)
  | .ubigint, value => .integer (BitVec.toNat value)
  | .float, value => .floating value
  | .double, value => .floating value

/-- The type of a vector: where the entry of a row is. -/
inductive VectorType
  | flat
  | constant
  | dictionary (selection : Nat → Nat)

/-- The entry of a row. -/
def VectorType.index : VectorType → Nat → Nat
  | flat, row => row
  | constant, _ => 0
  | dictionary selection, row => selection row

/-- The entries of a vector that is no array. -/
inductive LeafData (α : Type)
  | numeric (type : NumericType) (data : Nat → type.Physical α)
  | other (type : String)

/-- A vector of numbers or of arrays. `size` is the number of its entries; the entry `i` of a vector of arrays has the
rows from `i * arraySize` on of the child vector. -/
inductive DuckdbVector (α : Type)
  | leaf (vectorType : VectorType) (size : Nat) (validity : Nat → Bool) (data : LeafData α)
  | array (vectorType : VectorType) (size : Nat) (validity : Nat → Bool) (arraySize : Nat) (child : DuckdbVector α)

section Vectors

variable {α : Type}

/-- A number of a leaf. There is none in a leaf of another type. -/
def LeafData.value : LeafData α → Nat → Cell α
  | numeric type data, index => .value (createValue type (data index))
  | other _, _ => .null

namespace DuckdbVector

def vectorType : DuckdbVector α → VectorType
  | leaf vectorType _ _ _ => vectorType
  | array vectorType _ _ _ _ => vectorType

def size : DuckdbVector α → Nat
  | leaf _ size _ _ => size
  | array _ size _ _ _ => size

def validity : DuckdbVector α → Nat → Bool
  | leaf _ _ validity _ => validity
  | array _ _ validity _ _ => validity

/-- The data of the innermost vector. -/
def leafData : DuckdbVector α → LeafData α
  | leaf _ _ _ data => data
  | array _ _ _ _ child => child.leafData

/-- `Vector::GetValue`: the logical value of a row. -/
def value : DuckdbVector α → Nat → Cell α
  | leaf vectorType _ validity data, row =>
      let index := vectorType.index row
      if validity index then data.value index else .null
  | array vectorType _ validity arraySize child, row =>
      let index := vectorType.index row
      if validity index then .array ((List.range arraySize).map fun i => child.value (index * arraySize + i))
      else .null

/-- A vector has the entries of its first `count` rows. A child vector has those of all arrays of its parent. -/
def Holds : DuckdbVector α → Nat → Prop
  | leaf vectorType size _ _, count => ∀ row < count, vectorType.index row < size
  | array vectorType size _ arraySize child, count =>
      (∀ row < count, vectorType.index row < size) ∧ 0 < arraySize ∧ child.Holds (size * arraySize)

end DuckdbVector

end Vectors

/-! ## The functions of DuckDB -/

/-- `UnifiedVectorFormat`, with the number of rows of the selection and of entries of the data. -/
structure UnifiedVectorFormat (α : Type) where
  count : Nat
  size : Nat
  sel : Nat → Nat
  validity : Nat → Bool
  /-- `GetData<T>`, which takes the entries to be of the type `T`. -/
  getData : (type : NumericType) → Nat → type.Physical α

/-- `Vector::ToUnifiedFormat` and `ArrayVector::GetTotalSize`. -/
structure VectorLibrary (α : Type) where
  toUnifiedFormat : DuckdbVector α → Nat → UnifiedVectorFormat α
  getTotalSize : DuckdbVector α → Nat

/-- The documented meaning of the functions. A format is for the rows and entries that it has; nothing is known of
other ones. -/
structure VectorLibrary.Documented {α : Type} (library : VectorLibrary α) : Prop where
  count : ∀ vector count, (library.toUnifiedFormat vector count).count = count
  size : ∀ vector count, (library.toUnifiedFormat vector count).size = vector.size
  sel : ∀ vector count row, row < count →
    (library.toUnifiedFormat vector count).sel row = vector.vectorType.index row
  validity : ∀ vector count index, index < vector.size →
    (library.toUnifiedFormat vector count).validity index = vector.validity index
  getData : ∀ vectorType size validity type data count index, index < size →
    (library.toUnifiedFormat (.leaf vectorType size validity (.numeric type data)) count).getData type index =
      data index
  getTotalSize : ∀ vectorType size validity arraySize child,
    library.getTotalSize (.array vectorType size validity arraySize child) = size * arraySize

/-! ## The reader -/

/-- What stops the reader: it throws, or it reads outside of a vector. -/
inductive ReadStop
  | thrown (exception : StatsException)
  | outside

/-- `values` and `exact_values`. The latter are `none` where the caller has a null pointer. -/
structure NumericValues (α δ : Type) where
  values : List δ
  exactValues : Option (List (Value α))

section Reader

variable {α δ : Type} (library : VectorLibrary α) (toDouble : Value α → δ)

/-- `format.sel->get_index`. -/
def UnifiedVectorFormat.getIndex (format : UnifiedVectorFormat α) (row : Nat) : Except ReadStop Nat :=
  if row < format.count then .ok (format.sel row) else .error .outside

/-- `format.validity.RowIsValid`. -/
def UnifiedVectorFormat.rowIsValid (format : UnifiedVectorFormat α) (index : Nat) : Except ReadStop Bool :=
  if index < format.size then .ok (format.validity index) else .error .outside

/-- `data[index]`. -/
def UnifiedVectorFormat.dataAt (format : UnifiedVectorFormat α) (type : NumericType) (index : Nat) :
    Except ReadStop (type.Physical α) :=
  if index < format.size then .ok (format.getData type index) else .error .outside

/-- The first lines of both loops: the entry of a row, which must not be NULL. -/
def validIndex (format : UnifiedVectorFormat α) (row : Nat) : Except ReadStop Nat := do
  let index ← format.getIndex row
  let valid ← format.rowIsValid index
  if valid then .ok index else .error (.thrown (.invalidInput "LeRobot feature values must not be NULL"))

/-- `values.push_back` and `exact_values->push_back`. The argument `toDouble` is the cast to `double`. -/
def NumericValues.push (output : NumericValues α δ) (value : Value α) : NumericValues α δ :=
  ⟨output.values ++ [toDouble value], output.exactValues.map (· ++ [value])⟩

/-- `ReadNumericValues`. -/
def readNumericValues (type : NumericType) (format : UnifiedVectorFormat α) (offset count : Nat)
    (output : NumericValues α δ) : Except ReadStop (NumericValues α δ) :=
  (List.range count).foldlM (fun output i => do
    let index ← validIndex format (offset + i)
    let value ← format.dataAt type index
    .ok (output.push toDouble (createValue type value))) output

/-- `LerobotNumericStatsVector::Level`. -/
structure Level (α : Type) where
  data : UnifiedVectorFormat α
  arraySize : Nat := 0

/-- `LerobotNumericStatsVector`. The field `readValues` is the `T` of the function. -/
structure LerobotNumericStatsVector (α : Type) where
  levels : List (Level α)
  readValues : NumericType

/-- The loop of `Initialize`. -/
def vectorLevels : DuckdbVector α → Nat → List (Level α)
  | .leaf vectorType size validity data, count =>
      [⟨library.toUnifiedFormat (.leaf vectorType size validity data) count, 0⟩]
  | .array vectorType size validity arraySize child, count =>
      let current := .array vectorType size validity arraySize child
      ⟨library.toUnifiedFormat current count, arraySize⟩ :: vectorLevels child (library.getTotalSize current)

/-- `LerobotNumericStatsVector::Initialize`. -/
def LerobotNumericStatsVector.initialize (input : DuckdbVector α) (count : Nat) :
    Except StatsException (LerobotNumericStatsVector α) :=
  match input.leafData with
  | .numeric type _ => .ok ⟨vectorLevels library input count, type⟩
  | .other type => .error (.invalidInput s!"Unsupported LeRobot numeric statistics type '{type}'")

/-- `LerobotNumericStatsVector::AppendRange`, from a level on. -/
def LerobotNumericStatsVector.appendRange (type : NumericType) : List (Level α) → Nat → Nat → NumericValues α δ →
    Except ReadStop (NumericValues α δ)
  | [], _, _, _ => .error .outside
  | level :: levels, offset, count, output =>
      if level.arraySize = 0 then readNumericValues toDouble type level.data offset count output
      else
        (List.range count).foldlM (fun output i => do
          let index ← validIndex level.data (offset + i)
          LerobotNumericStatsVector.appendRange type levels (index * level.arraySize) level.arraySize output) output

/-- `LerobotNumericStatsVector::AppendRow`. -/
def LerobotNumericStatsVector.appendRow (reader : LerobotNumericStatsVector α) (row : Nat)
    (output : NumericValues α δ) : Except ReadStop (NumericValues α δ) :=
  appendRange toDouble reader.readValues reader.levels row 1 output

end Reader

/-! ## Facts about values -/

section Values

variable {α δ : Type}

/-- No bit of a number is lost. -/
theorem createValue_injective (type : NumericType) {a b : type.Physical α}
    (h : createValue type a = createValue type b) :
    a = b := by
  cases type with
  | boolean => exact Value.boolean.inj h
  | tinyint => exact BitVec.eq_of_toInt_eq (Value.integer.inj h)
  | smallint => exact BitVec.eq_of_toInt_eq (Value.integer.inj h)
  | integer => exact BitVec.eq_of_toInt_eq (Value.integer.inj h)
  | bigint => exact BitVec.eq_of_toInt_eq (Value.integer.inj h)
  | utinyint => exact BitVec.eq_of_toNat_eq (Int.ofNat.inj (Value.integer.inj h))
  | usmallint => exact BitVec.eq_of_toNat_eq (Int.ofNat.inj (Value.integer.inj h))
  | uinteger => exact BitVec.eq_of_toNat_eq (Int.ofNat.inj (Value.integer.inj h))
  | ubigint => exact BitVec.eq_of_toNat_eq (Int.ofNat.inj (Value.integer.inj h))
  | float => exact Value.floating.inj h
  | double => exact Value.floating.inj h

/-- Appending some numbers. -/
def NumericValues.append (toDouble : Value α → δ) (output : NumericValues α δ) (values : List (Value α)) :
    NumericValues α δ :=
  ⟨output.values ++ values.map toDouble, output.exactValues.map (· ++ values)⟩

@[simp] theorem NumericValues.append_nil (toDouble : Value α → δ) (output : NumericValues α δ) :
    output.append toDouble [] = output := by
  cases output with
  | mk values exactValues => cases exactValues <;> simp [append]

@[simp] theorem NumericValues.append_append (toDouble : Value α → δ) (output : NumericValues α δ)
    (a b : List (Value α)) : (output.append toDouble a).append toDouble b = output.append toDouble (a ++ b) := by
  cases output with
  | mk values exactValues => cases exactValues <;> simp [append]

theorem NumericValues.append_singleton (toDouble : Value α → δ) (output : NumericValues α δ) (value : Value α) :
    output.append toDouble [value] = output.push toDouble value := rfl

theorem anyNull_eq (cells : List (Cell α)) : anyNull cells = cells.any Cell.hasNull := by
  induction cells with
  | nil => rfl
  | cons cell cells ih => rw [anyNull, ih, List.any_cons]

theorem flattenAll_eq (cells : List (Cell α)) : flattenAll cells = cells.flatMap Cell.flatten := by
  induction cells with
  | nil => rfl
  | cons cell cells ih => rw [flattenAll, ih, List.flatMap_cons]

/-- What a call for some rows does: it throws because of a NULL, or it appends the numbers of the rows. -/
def appendCells (toDouble : Value α → δ) (cells : List (Cell α)) (output : NumericValues α δ) :
    Except ReadStop (NumericValues α δ) :=
  if anyNull cells then .error (.thrown (.invalidInput "LeRobot feature values must not be NULL"))
  else .ok (output.append toDouble (flattenAll cells))

theorem appendCells_nil (toDouble : Value α → δ) (output : NumericValues α δ) :
    appendCells toDouble [] output = .ok output := by
  rw [appendCells, anyNull, if_neg Bool.false_ne_true, flattenAll, NumericValues.append_nil]

theorem appendCells_null (toDouble : Value α → δ) (output : NumericValues α δ) :
    appendCells toDouble [.null] output =
      .error (.thrown (.invalidInput "LeRobot feature values must not be NULL")) := rfl

theorem appendCells_value (toDouble : Value α → δ) (value : Value α) (output : NumericValues α δ) :
    appendCells toDouble [.value value] output = .ok (output.push toDouble value) := rfl

/-- The numbers of an array are those of its elements. -/
theorem appendCells_array (toDouble : Value α → δ) (elements : List (Cell α)) (output : NumericValues α δ) :
    appendCells toDouble [.array elements] output = appendCells toDouble elements output := by
  simp only [appendCells, anyNull, Cell.hasNull, flattenAll, Cell.flatten, Bool.or_false, List.append_nil]

/-- One row after the other. -/
theorem appendCells_cons (toDouble : Value α → δ) (cell : Cell α) (cells : List (Cell α))
    (output : NumericValues α δ) :
    appendCells toDouble (cell :: cells) output =
      appendCells toDouble [cell] output >>= fun output => appendCells toDouble cells output := by
  cases hcell : cell.hasNull with
  | true => simp [appendCells, anyNull, hcell, Bind.bind, Except.bind]
  | false =>
      have hsingle : appendCells toDouble [cell] output = .ok (output.append toDouble cell.flatten) := by
        simp [appendCells, anyNull, flattenAll, hcell]
      rw [hsingle]
      simp only [appendCells, anyNull, flattenAll, hcell, Bool.false_or]
      cases anyNull cells with
      | true => rfl
      | false =>
          rw [if_neg Bool.false_ne_true, ← NumericValues.append_append]
          rfl

/-- **The loop over rows.** If each round appends the value of its row, then the loop appends those of all rows. -/
theorem foldlM_appendCells (toDouble : Value α → δ)
    {step : NumericValues α δ → Nat → Except ReadStop (NumericValues α δ)} {cell : Nat → Cell α} {count : Nat}
    (h : ∀ i < count, ∀ output, step output i = appendCells toDouble [cell i] output)
    (output : NumericValues α δ) :
    (List.range count).foldlM step output = appendCells toDouble ((List.range count).map cell) output := by
  have hmem : ∀ i ∈ List.range count, i < count := fun i hi => List.mem_range.mp hi
  revert hmem output
  generalize List.range count = rows
  induction rows with
  | nil =>
      intro output _
      rw [List.map_nil, appendCells_nil]
      rfl
  | cons row rows ih =>
      intro output hmem
      rw [List.foldlM_cons, List.map_cons, appendCells_cons, h row (hmem row List.mem_cons_self)]
      cases appendCells toDouble [cell row] output with
      | error stop => rfl
      | ok output => exact ih output fun i hi => hmem i (List.mem_cons_of_mem row hi)

mutual

/-- The statistics model a row by its logical value. The numbers that they read are these. -/
theorem appendRow_eq : ∀ cell : Cell α, appendRow cell =
    if cell.hasNull then .error (.invalidInput "LeRobot feature values must not be NULL") else .ok cell.flatten
  | .null => rfl
  | .value _ => rfl
  | .array elements => by
      rw [appendRow, appendRange_eq_flattenAll elements, Cell.hasNull, Cell.flatten]

theorem appendRange_eq_flattenAll : ∀ cells : List (Cell α), appendRange cells =
    if anyNull cells then .error (.invalidInput "LeRobot feature values must not be NULL") else .ok (flattenAll cells)
  | [] => rfl
  | cell :: cells => by
      rw [appendRange, appendRow_eq cell, appendRange_eq_flattenAll cells, anyNull, flattenAll]
      cases cell.hasNull with
      | true => rfl
      | false =>
          rw [if_neg Bool.false_ne_true, Bool.false_or]
          cases anyNull cells <;> rfl

end

end Values

/-! ## The levels -/

section Levels

variable {α δ : Type} {library : VectorLibrary α} {toDouble : Value α → δ}

section Row

variable {vector : DuckdbVector α} {count row : Nat}

theorem rowIsValid_eq (hlibrary : library.Documented) (hrow : row < count)
    (hindex : vector.vectorType.index row < vector.size) :
    (library.toUnifiedFormat vector count).getIndex row = .ok (vector.vectorType.index row) ∧
      (library.toUnifiedFormat vector count).rowIsValid (vector.vectorType.index row) =
        .ok (vector.validity (vector.vectorType.index row)) := by
  constructor
  · rw [UnifiedVectorFormat.getIndex, hlibrary.count, if_pos hrow, hlibrary.sel vector count row hrow]
  · rw [UnifiedVectorFormat.rowIsValid, hlibrary.size, if_pos hindex, hlibrary.validity vector count _ hindex]

/-- The entry of a row is read, -/
theorem validIndex_valid (hlibrary : library.Documented) (hrow : row < count)
    (hindex : vector.vectorType.index row < vector.size)
    (hvalid : vector.validity (vector.vectorType.index row) = true) :
    validIndex (library.toUnifiedFormat vector count) row = .ok (vector.vectorType.index row) := by
  obtain ⟨hget, hrowIsValid⟩ := rowIsValid_eq hlibrary hrow hindex
  rw [hvalid] at hrowIsValid
  rw [validIndex, hget]
  change (library.toUnifiedFormat vector count).rowIsValid (vector.vectorType.index row) >>= _ = _
  rw [hrowIsValid]
  rfl

/-- and a NULL is thrown. -/
theorem validIndex_null (hlibrary : library.Documented) (hrow : row < count)
    (hindex : vector.vectorType.index row < vector.size)
    (hnull : vector.validity (vector.vectorType.index row) ≠ true) :
    validIndex (library.toUnifiedFormat vector count) row =
      .error (.thrown (.invalidInput "LeRobot feature values must not be NULL")) := by
  obtain ⟨hget, hrowIsValid⟩ := rowIsValid_eq hlibrary hrow hindex
  rw [Bool.eq_false_iff.mpr hnull] at hrowIsValid
  rw [validIndex, hget]
  change (library.toUnifiedFormat vector count).rowIsValid (vector.vectorType.index row) >>= _ = _
  rw [hrowIsValid]
  rfl

end Row

/-- **One call of `AppendRange`** appends the logical values of its rows. The induction is on the levels. -/
theorem appendRange_eq (hlibrary : library.Documented) {type : NumericType} {data : Nat → type.Physical α}
    (vector : DuckdbVector α) (count : Nat) (hholds : vector.Holds count) (hleaf : vector.leafData = .numeric type data)
    (offset rows : Nat) (hrows : offset + rows ≤ count) (output : NumericValues α δ) :
    LerobotNumericStatsVector.appendRange toDouble type (vectorLevels library vector count) offset rows output =
      appendCells toDouble ((List.range rows).map fun i => vector.value (offset + i)) output := by
  induction vector generalizing count offset rows output with
  | leaf vectorType size validity leafData =>
      obtain rfl : leafData = .numeric type data := hleaf
      rw [vectorLevels, LerobotNumericStatsVector.appendRange, if_pos rfl, readNumericValues]
      apply foldlM_appendCells
      intro i hi output
      have hindex : vectorType.index (offset + i) < size := hholds (offset + i) (by omega)
      dsimp only
      rw [DuckdbVector.value]
      by_cases hvalid : validity (vectorType.index (offset + i)) = true
      · have hread : validIndex (library.toUnifiedFormat (.leaf vectorType size validity (.numeric type data)) count)
            (offset + i) = .ok (vectorType.index (offset + i)) :=
          validIndex_valid hlibrary (by omega) hindex hvalid
        have hdata : (library.toUnifiedFormat (.leaf vectorType size validity (.numeric type data)) count).dataAt type
            (vectorType.index (offset + i)) = .ok (data (vectorType.index (offset + i))) := by
          rw [UnifiedVectorFormat.dataAt, hlibrary.size, DuckdbVector.size, if_pos hindex,
            hlibrary.getData _ _ _ _ _ _ _ hindex]
        rw [hread, if_pos hvalid]
        change (library.toUnifiedFormat (.leaf vectorType size validity (.numeric type data)) count).dataAt type
          (vectorType.index (offset + i)) >>= _ = _
        rw [hdata]
        rfl
      · have hread : validIndex (library.toUnifiedFormat (.leaf vectorType size validity (.numeric type data)) count)
            (offset + i) = .error (.thrown (.invalidInput "LeRobot feature values must not be NULL")) :=
          validIndex_null hlibrary (by omega) hindex hvalid
        rw [hread, if_neg hvalid]
        rfl
  | array vectorType size validity arraySize child ih =>
      obtain ⟨hentries, hpositive, hchild⟩ := hholds
      rw [vectorLevels, hlibrary.getTotalSize, LerobotNumericStatsVector.appendRange, if_neg hpositive.ne']
      apply foldlM_appendCells
      intro i hi output
      have hindex : vectorType.index (offset + i) < size := hentries (offset + i) (by omega)
      rw [DuckdbVector.value]
      by_cases hvalid : validity (vectorType.index (offset + i)) = true
      · have hread : validIndex (library.toUnifiedFormat (.array vectorType size validity arraySize child) count)
            (offset + i) = .ok (vectorType.index (offset + i)) :=
          validIndex_valid hlibrary (by omega) hindex hvalid
        -- the array of the entry is inside the child vector
        have hinside : vectorType.index (offset + i) * arraySize + arraySize ≤ size * arraySize := by
          rw [← Nat.succ_mul]
          exact Nat.mul_le_mul_right arraySize hindex
        rw [hread, if_pos hvalid, appendCells_array]
        exact ih (size * arraySize) hchild hleaf (vectorType.index (offset + i) * arraySize) arraySize hinside output
      · have hread : validIndex (library.toUnifiedFormat (.array vectorType size validity arraySize child) count)
            (offset + i) = .error (.thrown (.invalidInput "LeRobot feature values must not be NULL")) :=
          validIndex_null hlibrary (by omega) hindex hvalid
        rw [hread, if_neg hvalid]
        rfl

/-- **The reader flattens the logical value of a row**, or throws if a level of it is NULL. It reads no entry outside
of a vector, and no row of a child vector from its total size on. -/
theorem appendRow_flattens (hlibrary : library.Documented) {input : DuckdbVector α} {count : Nat}
    (hholds : input.Holds count) {type : NumericType} {data : Nat → type.Physical α}
    (hleaf : input.leafData = .numeric type data) :
    ∃ reader, LerobotNumericStatsVector.initialize library input count = .ok reader ∧
      ∀ row < count, ∀ output : NumericValues α δ,
        reader.appendRow toDouble row output =
            (if (input.value row).hasNull then
              .error (.thrown (.invalidInput "LeRobot feature values must not be NULL"))
            else .ok (output.append toDouble (input.value row).flatten)) ∧
          reader.appendRow toDouble row output =
            ((Copy.appendRow (input.value row)).map (output.append toDouble)).mapError ReadStop.thrown := by
  refine ⟨⟨vectorLevels library input count, type⟩, ?_, ?_⟩
  · rw [ LerobotNumericStatsVector.initialize, hleaf]
  · intro row hrow output
    have hread : LerobotNumericStatsVector.appendRange toDouble type (vectorLevels library input count) row 1 output =
        appendCells toDouble [input.value row] output :=
      appendRange_eq hlibrary input count hholds hleaf row 1 hrow output
    rw [LerobotNumericStatsVector.appendRow, hread, appendRow_eq, appendCells, anyNull, anyNull, flattenAll, flattenAll,
      Bool.or_false, List.append_nil]
    refine ⟨rfl, ?_⟩
    cases (input.value row).hasNull <;> rfl

end Levels

/-! ## A nested column -/

/-- A value of a type for entries that a vector does not have. -/
def NumericType.zero {α : Type} : (type : NumericType) → type.Physical α
  | .boolean => false
  | .tinyint => (0 : BitVec 8)
  | .smallint => (0 : BitVec 16)
  | .integer => (0 : BitVec 32)
  | .bigint => (0 : BitVec 64)
  | .utinyint => (0 : BitVec 8)
  | .usmallint => (0 : BitVec 16)
  | .uinteger => (0 : BitVec 32)
  | .ubigint => (0 : BitVec 64)
  | .float => (none : Option α)
  | .double => (none : Option α)

/-- The data of a vector, as a pointer to a type. -/
def LeafData.pointer {α : Type} (data : LeafData α) (type : NumericType) (index : Nat) : type.Physical α :=
  match data with
  | .numeric dataType entries => if h : dataType = type then h ▸ entries index else type.zero
  | .other _ => type.zero

/-- The functions of DuckDB, with nothing outside of a format. -/
def vectorLibrary (α : Type) : VectorLibrary α where
  toUnifiedFormat vector count :=
    { count
      size := vector.size
      sel := vector.vectorType.index
      validity := vector.validity
      getData := vector.leafData.pointer }
  getTotalSize
    | .leaf _ _ _ _ => 0
    | .array _ size _ arraySize _ => size * arraySize

theorem vectorLibrary_documented (α : Type) : (vectorLibrary α).Documented where
  count _ _ := rfl
  size _ _ := rfl
  sel _ _ _ _ := rfl
  validity _ _ _ _ := rfl
  getData _ _ _ _ _ _ _ _ := dif_pos rfl
  getTotalSize _ _ _ _ _ := rfl

/-- A constant column of two arrays of three numbers, which a dictionary reverses. -/
def reversedColumn : DuckdbVector ℚ :=
  .array .constant 1 (fun _ => true) 2 <|
    .array .flat 2 (fun _ => true) 3 <|
      .leaf (.dictionary fun row => 5 - row) 6 (fun _ => true) <|
        .numeric .bigint fun index => BitVec.ofNat 64 (9007199254740993 + index)

/-- The cast of a number to `double`. -/
def castToDouble : Value ℚ → Option ℚ :=
  Value.toDouble ⟨Double.nearestAt 24 (-126), Double.nearestAt 53 (-1022), id⟩

theorem reversedColumn_flattens :
    ((vectorLibrary ℚ).Documented ∧ reversedColumn.Holds 16) ∧
    ∃ reader, LerobotNumericStatsVector.initialize (vectorLibrary ℚ) reversedColumn 16 = .ok reader ∧
      ∀ row < 16, ∀ output : NumericValues ℚ (Option ℚ),
        reader.appendRow castToDouble row output =
            (if (reversedColumn.value row).hasNull then
              .error (.thrown (.invalidInput "LeRobot feature values must not be NULL"))
            else .ok (output.append castToDouble (reversedColumn.value row).flatten)) ∧
          reader.appendRow castToDouble row output =
            ((Copy.appendRow (reversedColumn.value row)).map (output.append castToDouble)).mapError
              ReadStop.thrown := by
  have hholds : reversedColumn.Holds 16 := by
    refine ⟨fun row _ => Nat.zero_lt_one, by decide, fun row hrow => hrow, by decide, ?_⟩
    intro row _
    show 5 - row < 6
    omega
  exact ⟨⟨vectorLibrary_documented ℚ, hholds⟩, appendRow_flattens (vectorLibrary_documented ℚ) hholds rfl⟩

example : (reversedColumn.value 15).flatten = (List.range 6).map fun i : Nat => .integer (9007199254740998 - i) := rfl

end DuckdbLerobot.Copy
