import DuckdbLerobot.Library.SortedRange
import Mathlib.Algebra.Ring.Nat
import Mathlib.Data.Prod.Lex

/-!
# Two ways to find the rows of a frame

`LerobotTimestampLookup` answers for each requested frame how many rows of the data files it has
and, when it has one, the row's timestamp. A file is searched in a sorted index of its rows, or
joined with the requested frames by a query over all files without an index.

`Describes` says when an answer is right for the rows of a frame. Both ways give right answers
(`describes_find`, `describes_queryRow`).
-/

set_option autoImplicit false

namespace DuckdbLerobot.Storage

open DuckdbLerobot.Library

/-- `LerobotTimestampKey`: an episode and a frame of it. -/
abbrev LerobotTimestampKey := Int ×ₗ Int

/-- `InvalidInputException`. -/
structure InvalidInputException where
  message : String
  deriving DecidableEq

variable {δ : Type}

/-- The columns of a data file that the lookup reads. -/
structure FrameRow (δ : Type) where
  episodeIndex : Option Int
  frameIndex : Option Int
  timestamp : Option δ

/-- A row of an index. -/
structure IndexRow (δ : Type) where
  episode : Int
  frame : Int
  timestamp : δ
  hasTimestamp : Bool

namespace IndexRow

/-- The key of a row. -/
def key (row : IndexRow δ) : LerobotTimestampKey := toLex (row.episode, row.frame)

end IndexRow

/-- The answer for one key. -/
structure LerobotTimestampMatch (δ : Type) where
  count : Nat
  timestamp : δ
  hasTimestamp : Bool
  deriving DecidableEq

variable [Zero δ]

/-- The answer before any row is seen. -/
def LerobotTimestampMatch.initial : LerobotTimestampMatch δ := ⟨0, 0, false⟩

/-! ## The index -/

/-- The sorted rows of one file. -/
structure TimestampIndex (δ : Type) where
  rows : List (IndexRow δ)

/-- What the loop of `Load` keeps of a row: a NULL join key never matches a requested frame. -/
def indexRow (row : FrameRow δ) : Option (IndexRow δ) :=
  match row.episodeIndex, row.frameIndex with
  | some episode, some frame =>
      some ⟨episode, frame, row.timestamp.getD 0, row.timestamp.isSome⟩
  | _, _ => none

/-- Whether no row is less than the one before it. -/
def rowsSorted : List (IndexRow δ) → Bool
  | [] => true
  | [_] => true
  | previous :: row :: rows => !decide (row.key < previous.key) && rowsSorted (row :: rows)

namespace TimestampIndex

/-- `Load`: `rowCount` rows are announced by the footer of a file, `reserved` says whether there is
memory for them, and `rows` are read from its columns. -/
def load (sort : StdSort fun left right : IndexRow δ => decide (left.key < right.key))
    (rowCount : Nat) (reserved : Bool) (rows : List (FrameRow δ)) : Option (TimestampIndex δ) :=
  let indexRows := rows.filterMap indexRow
  if !reserved then none
  else if rowCount < indexRows.length then none
  else if rowsSorted indexRows then some ⟨indexRows⟩
  else some ⟨sort.run indexRows⟩

/-- `Find`. -/
def find (index : TimestampIndex δ) (key : LerobotTimestampKey) : LerobotTimestampMatch δ :=
  let first := lowerBound (fun row => decide (row.key < key)) index.rows
  let last := upperBound (fun row => decide (key < row.key)) first
  let count := first.length - last.length
  match first.head? with
  | some row =>
      if count = 1 then ⟨count, row.timestamp, row.hasTimestamp⟩
      else { LerobotTimestampMatch.initial with count := count }
  | none => LerobotTimestampMatch.initial

end TimestampIndex

/-! ## The query -/

/-- Whether a row joins with a key. NULL equals nothing. -/
def FrameRow.joins (key : LerobotTimestampKey) (row : FrameRow δ) : Bool :=
  row.episodeIndex == some (ofLex key).1 && row.frameIndex == some (ofLex key).2

/-- A row of the result of the filtered query. -/
structure QueryRow (δ : Type) where
  key : LerobotTimestampKey
  timestamp : Option δ
  count : Nat

/-- The group of one requested key in `FilteredQuery`: the rows that the left join gives it, their
least timestamp and how many of them have a frame index. -/
def queryRow [Min δ] (rows : List (FrameRow δ)) (key : LerobotTimestampKey) : QueryRow δ :=
  let matching := rows.filter (FrameRow.joins key)
  let joined := if matching.isEmpty then [⟨none, none, none⟩] else matching
  ⟨key, (joined.filterMap FrameRow.timestamp).min?, (joined.filterMap FrameRow.frameIndex).length⟩

/-- `FilteredQuery`: one row for each requested key. -/
def filteredQuery [Min δ] (files : List (List (FrameRow δ))) (keys : List LerobotTimestampKey) :
    List (QueryRow δ) :=
  keys.map (queryRow files.flatten)

/-- What `Lookup` merges of a row of the result. -/
def QueryRow.match (row : QueryRow δ) : LerobotTimestampMatch δ :=
  ⟨row.count, row.timestamp.getD 0, row.timestamp.isSome⟩

/-! ## Right answers -/

/-- The timestamps of the rows of a frame. -/
def matchingTimestamps (key : LerobotTimestampKey) (rows : List (FrameRow δ)) : List (Option δ) :=
  (rows.filter (FrameRow.joins key)).map FrameRow.timestamp

/-- An answer is right for these rows of a frame: it counts them, and has the timestamp of a single
one. -/
structure Describes (timestamps : List (Option δ)) (found : LerobotTimestampMatch δ) : Prop where
  count : found.count = timestamps.length
  none : timestamps = [] → found = LerobotTimestampMatch.initial
  one : ∀ t, timestamps = [t] → found = ⟨1, t.getD 0, t.isSome⟩

theorem describes_perm {timestamps timestamps' : List (Option δ)} {found : LerobotTimestampMatch δ}
    (h : Describes timestamps found) (hperm : timestamps.Perm timestamps') :
    Describes timestamps' found := by
  refine ⟨h.count.trans hperm.length_eq, ?_, ?_⟩
  · rintro rfl
    exact h.none hperm.eq_nil
  · rintro t rfl
    exact h.one t hperm.eq_singleton

/-- Two right answers agree on the count, and on a single row. -/
theorem describes_agree {timestamps : List (Option δ)} {found found' : LerobotTimestampMatch δ}
    (h : Describes timestamps found) (h' : Describes timestamps found') :
    found.count = found'.count ∧ (found.count = 1 → found = found') := by
  refine ⟨h.count.trans h'.count.symm, ?_⟩
  intro hone
  obtain ⟨t, ht⟩ := List.length_eq_one_iff.mp (h.count.symm.trans hone)
  rw [h.one t ht, h'.one t ht]

/-! ### The query's answers -/

omit [Zero δ] in
theorem filterMap_frameIndex {key : LerobotTimestampKey} {rows : List (FrameRow δ)} :
    ((rows.filter (FrameRow.joins key)).filterMap FrameRow.frameIndex).length =
      (rows.filter (FrameRow.joins key)).length := by
  induction rows with
  | nil => rfl
  | cons row rows ih =>
      by_cases hjoins : row.joins key = true
      · have hframe : row.frameIndex = some (ofLex key).2 := by
          simp only [FrameRow.joins, Bool.and_eq_true, beq_iff_eq] at hjoins
          exact hjoins.2
        rw [List.filter_cons_of_pos hjoins, List.filterMap_cons_some hframe, List.length_cons,
          List.length_cons, ih]
      · rw [List.filter_cons_of_neg hjoins]
        exact ih

/-- **The query answers right.** -/
theorem describes_queryRow [Min δ] (rows : List (FrameRow δ)) (key : LerobotTimestampKey) :
    Describes (matchingTimestamps key rows) (queryRow rows key).match := by
  unfold matchingTimestamps
  have hcount : ((rows.filter (FrameRow.joins key)).filterMap FrameRow.frameIndex).length =
      (rows.filter (FrameRow.joins key)).length := filterMap_frameIndex
  cases hmatching : rows.filter (FrameRow.joins key) with
  | nil =>
      have hempty : (queryRow rows key).match = LerobotTimestampMatch.initial := by
        simp only [queryRow, hmatching]
        rfl
      rw [hempty]
      refine ⟨rfl, fun _ => rfl, ?_⟩
      intro t ht
      cases ht
  | cons row rest =>
      have hjoined : queryRow rows key = ⟨key, ((row :: rest).filterMap FrameRow.timestamp).min?,
          (row :: rest).length⟩ := by
        rw [hmatching] at hcount
        simp only [queryRow, hmatching]
        exact congrArg _ hcount
      rw [hjoined]
      refine ⟨?_, ?_, ?_⟩
      · rw [List.length_map]
        rfl
      · intro h
        cases h
      · intro t ht
        obtain ⟨hrow, hrest⟩ := List.cons.inj ht
        rw [List.map_eq_nil_iff] at hrest
        subst hrest hrow
        cases htimestamp : row.timestamp with
        | none => simp [QueryRow.match, htimestamp]
        | some v => simp [QueryRow.match, htimestamp]

/-! ### The index's answers -/

omit [Zero δ] in
theorem pairwise_of_rowsSorted {rows : List (IndexRow δ)} (h : rowsSorted rows = true) :
    rows.Pairwise fun a b => a.key ≤ b.key := by
  have hchain : (rows.map IndexRow.key).IsChain (· ≤ ·) := by
    induction rows using rowsSorted.induct with
    | case1 => exact List.isChain_nil
    | case2 row => exact List.isChain_singleton _
    | case3 previous row rows ih =>
        rw [rowsSorted, Bool.and_eq_true] at h
        obtain ⟨hfirst, hrest⟩ := h
        rw [List.map_cons, List.map_cons, List.isChain_cons_cons]
        exact ⟨not_lt.mp (by simpa using hfirst), ih hrest⟩
  exact List.pairwise_map.mp (List.isChain_iff_pairwise.mp hchain)

/-- Loading keeps the rows with a key, sorted by it. -/
theorem load_rows {sort : StdSort fun left right : IndexRow δ => decide (left.key < right.key)}
    {rowCount : Nat} {reserved : Bool} {rows : List (FrameRow δ)} {index : TimestampIndex δ}
    (h : TimestampIndex.load sort rowCount reserved rows = some index) :
    index.rows.Perm (rows.filterMap indexRow) ∧ index.rows.Pairwise fun a b => a.key ≤ b.key := by
  simp only [TimestampIndex.load] at h
  split at h
  · cases h
  split at h
  · cases h
  split at h
  · rename_i hsorted
    cases h
    exact ⟨List.Perm.refl _, pairwise_of_rowsSorted hsorted⟩
  · cases h
    refine ⟨sort.perm _, (sort.sorted _).imp ?_⟩
    intro a b hab
    simpa using hab

theorem indexRow_eq_some {key : LerobotTimestampKey} {row : FrameRow δ} {entry : IndexRow δ}
    (h : indexRow row = some entry) :
    (entry.key = key ↔ row.joins key = true) ∧
      (entry.timestamp, entry.hasTimestamp) = (row.timestamp.getD 0, row.timestamp.isSome) := by
  obtain ⟨episodeIndex, frameIndex, timestamp⟩ := row
  cases episodeIndex with
  | none => cases h
  | some episode =>
      cases frameIndex with
      | none => cases h
      | some frame =>
          cases h
          refine ⟨?_, rfl⟩
          simp only [IndexRow.key, FrameRow.joins, Bool.and_eq_true, beq_iff_eq, Option.some.injEq]
          constructor
          · rintro rfl
            exact ⟨rfl, rfl⟩
          · rintro ⟨rfl, rfl⟩
            rfl

/-- The rows of a key in an index are the matching rows of its file. -/
theorem filter_indexRow (key : LerobotTimestampKey) (rows : List (FrameRow δ)) :
    ((rows.filterMap indexRow).filter fun row => decide (row.key = key)).map
        (fun row => (row.timestamp, row.hasTimestamp)) =
      (matchingTimestamps key rows).map fun t => (t.getD 0, t.isSome) := by
  unfold matchingTimestamps
  induction rows with
  | nil => rfl
  | cons row rows ih =>
      cases hindex : indexRow row with
      | none =>
          have hjoins : ¬(row.joins key = true) := by
            intro hjoins
            simp only [FrameRow.joins, Bool.and_eq_true, beq_iff_eq] at hjoins
            simp [indexRow, hjoins.1, hjoins.2] at hindex
          rw [List.filterMap_cons_none hindex, List.filter_cons_of_neg hjoins]
          exact ih
      | some entry =>
          rw [List.filterMap_cons_some hindex]
          have hentry : (entry.key = key ↔ row.joins key = true) ∧
              (entry.timestamp, entry.hasTimestamp) =
                (row.timestamp.getD 0, row.timestamp.isSome) := indexRow_eq_some hindex
          by_cases hkey : entry.key = key
          · rw [List.filter_cons_of_pos (by simpa using hkey),
              List.filter_cons_of_pos (hentry.1.mp hkey), List.map_cons, List.map_cons,
              List.map_cons, ih, hentry.2]
          · rw [List.filter_cons_of_neg (by simpa using hkey),
              List.filter_cons_of_neg fun hjoins => hkey (hentry.1.mpr hjoins)]
            exact ih

/-- What `Find` returns, by the rows of the key. -/
theorem find_eq {index : TimestampIndex δ} (hsorted : index.rows.Pairwise fun a b => a.key ≤ b.key)
    (key : LerobotTimestampKey) {found : List (IndexRow δ)}
    (hfound : (index.rows.filter fun row => decide (row.key = key)) = found) :
    (index.find key).count = found.length ∧ (found = [] → index.find key = .initial) ∧
      ∀ row, found = [row] → index.find key = ⟨1, row.timestamp, row.hasTimestamp⟩ := by
  have hrange : (lowerBound (fun row : IndexRow δ => decide (row.key < key)) index.rows).takeWhile
      (fun row => !decide (key < row.key)) = index.rows.filter fun row => decide (row.key = key) :=
    takeWhile_lowerBound hsorted
  rw [hfound] at hrange
  have hcount := @length_upperBound _
    (lowerBound (fun row : IndexRow δ => decide (row.key < key)) index.rows)
    (fun row => decide (key < row.key))
  rw [hrange] at hcount
  unfold TimestampIndex.find
  generalize hfirst : lowerBound (fun row : IndexRow δ => decide (row.key < key)) index.rows = first
    at hrange hcount
  simp only [hcount]
  cases first with
  | nil =>
      rw [List.takeWhile_nil] at hrange
      subst hrange
      refine ⟨rfl, fun _ => rfl, ?_⟩
      intro row hrow
      cases hrow
  | cons row rest =>
      rw [List.head?_cons]
      refine ⟨?_, ?_, ?_⟩
      · dsimp only
        split <;> rfl
      · rintro rfl
        rfl
      · rintro row' rfl
        -- the range of the key begins with the first element of the rest
        rw [List.takeWhile_cons] at hrange
        split at hrange
        · rw [(List.cons.inj hrange).1]
          rfl
        · cases hrange

/-- **The index answers right.** -/
theorem describes_find {sort : StdSort fun left right : IndexRow δ => decide (left.key < right.key)}
    {rowCount : Nat} {reserved : Bool} {rows : List (FrameRow δ)} {index : TimestampIndex δ}
    (h : TimestampIndex.load sort rowCount reserved rows = some index) (key : LerobotTimestampKey) :
    Describes (matchingTimestamps key rows) (index.find key) := by
  obtain ⟨hperm, hsorted⟩ := load_rows h
  obtain ⟨hcount, hnone, hone⟩ := find_eq hsorted key rfl
  have hrows := ((hperm.filter fun row => decide (row.key = key)).map
    fun row => (row.timestamp, row.hasTimestamp)).trans (List.Perm.of_eq (filter_indexRow key rows))
  have hlength := hrows.length_eq
  rw [List.length_map, List.length_map] at hlength
  refine ⟨hcount.trans hlength, ?_, ?_⟩
  · intro hempty
    apply hnone
    rw [← List.length_eq_zero_iff, hlength, hempty]
    rfl
  · intro t ht
    rw [ht] at hlength hrows
    obtain ⟨row, hrow⟩ := List.length_eq_one_iff.mp hlength
    rw [hrow] at hrows
    have hpair : (row.timestamp, row.hasTimestamp) = (t.getD 0, t.isSome) :=
      List.singleton_perm_singleton.mp hrows
    rw [hone row hrow, (Prod.mk.inj hpair).1, (Prod.mk.inj hpair).2]

end DuckdbLerobot.Storage
