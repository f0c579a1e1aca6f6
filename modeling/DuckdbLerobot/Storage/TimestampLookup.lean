import DuckdbLerobot.Storage.EpisodeRoutes
import DuckdbLerobot.Storage.TimestampIndex
import DuckdbLerobot.Video.DecodeBuffer

/-!
# The timestamp lookup

`Lookup` merges the answers of the files that have an index with the answers of one query over the
others. Which files have one depends on what was read before.

Whatever files have an index, the answers are right for the rows of all files together, or some
frame has more rows than a count holds (`lookup_spec`). So the choice does not show
(`lookup_independent_of_indexes`), and `ReadTargetTimestamps` accepts or rejects the same targets.
-/

set_option autoImplicit false

namespace DuckdbLerobot.Storage

open DuckdbLerobot.Library DuckdbLerobot.Path DuckdbLerobot.Video

variable {δ : Type} [Zero δ] [Min δ]

/-- The files that an index is at hand for. It was loaded from the rows of its file, which a scan
may return in any order. -/
structure Serving (frames : Text → List (FrameRow δ)) where
  index : Text → Option (TimestampIndex δ)
  loaded : ∀ path timestamps, index path = some timestamps → ∃ sort rowCount reserved rows,
    rows.Perm (frames path) ∧ TimestampIndex.load sort rowCount reserved rows = some timestamps

/-- The error of `Merge`. -/
def tooManyRows : InvalidInputException := ⟨"Too many matching LeRobot Parquet rows"⟩

/-- `Merge`. -/
def merge (result part : LerobotTimestampMatch δ) :
    Except InvalidInputException (LerobotTimestampMatch δ) :=
  if int64Maximum - result.count < part.count then .error tooManyRows
  else
    .ok ⟨result.count + part.count, if part.hasTimestamp then part.timestamp else result.timestamp,
      part.hasTimestamp || result.hasTimestamp⟩

/-- The loop of `Lookup` over the keys, for a file with an index. -/
def mergeIndex (index : TimestampIndex δ) (keys : List LerobotTimestampKey)
    (found : List (LerobotTimestampMatch δ)) :
    Except InvalidInputException (List (LerobotTimestampMatch δ)) :=
  (keys.zip found).mapM fun entry => merge entry.2 (index.find entry.1)

/-- The loop of `Lookup` at one file. -/
def visitFile {frames : Text → List (FrameRow δ)} (serving : Serving frames) (isLance : Bool)
    (keys : List LerobotTimestampKey) (state : List (LerobotTimestampMatch δ) × List Text)
    (file : Text) :
    Except InvalidInputException (List (LerobotTimestampMatch δ) × List Text) :=
  match if isLance then none else serving.index file with
  | none => .ok (state.1, state.2 ++ [file])
  | some index => do
      let found ← mergeIndex index keys state.1
      .ok (found, state.2)

/-- Merge into the answer at a position. -/
def mergeAt (part : LerobotTimestampMatch δ) :
    Nat → List (LerobotTimestampMatch δ) →
      Except InvalidInputException (List (LerobotTimestampMatch δ))
  | _, [] => .ok []
  | 0, result :: found => do
      let result ← merge result part
      .ok (result :: found)
  | position + 1, result :: found => do
      let found ← mergeAt part position found
      .ok (result :: found)

/-- The loop of `Lookup` at one row of the result of the query. -/
def mergeRow (keys : List LerobotTimestampKey) (found : List (LerobotTimestampMatch δ))
    (row : QueryRow δ) : Except InvalidInputException (List (LerobotTimestampMatch δ)) :=
  let position := keys.length - (lowerBound (fun key => decide (key < row.key)) keys).length
  mergeAt row.match position found

/-- `Lookup`. The rows of the query come in any order. -/
def lookup {frames : Text → List (FrameRow δ)} (serving : Serving frames)
    (order : AnyOrder (QueryRow δ)) (files : List Text) (keys : List LerobotTimestampKey)
    (isLance : Bool) : Except InvalidInputException (List (LerobotTimestampMatch δ)) :=
  let initial := keys.map fun _ => LerobotTimestampMatch.initial
  if keys = [] then .ok initial
  else do
    let (found, uncached) ← files.foldlM (visitFile serving isLance keys) (initial, [])
    if uncached = [] then .ok found
    else (order.run (filteredQuery (uncached.map frames) keys)).foldlM (mergeRow keys) found

/-! ## Right answers for every key -/

/-- The rows of all files. -/
def rowsOf (frames : Text → List (FrameRow δ)) (files : List Text) : List (FrameRow δ) :=
  files.flatMap frames

/-- The answers are right for the timestamps of their keys, and a count holds each number. -/
def Answers (keys : List LerobotTimestampKey)
    (timestamps : LerobotTimestampKey → List (Option δ))
    (found : List (LerobotTimestampMatch δ)) : Prop :=
  List.Forall₂ (fun key result =>
    Describes (timestamps key) result ∧ ((timestamps key).length : Int) ≤ int64Maximum) keys found

/-- A key has more rows than a count holds. -/
def Overflows (keys : List LerobotTimestampKey)
    (timestamps : LerobotTimestampKey → List (Option δ)) (e : InvalidInputException) : Prop :=
  e = tooManyRows ∧ ∃ key ∈ keys, int64Maximum < ((timestamps key).length : Int)

omit [Min δ] in
/-- Merging two right answers. -/
theorem merge_spec {a b : List (Option δ)} {result part : LerobotTimestampMatch δ}
    (hresult : Describes a result) (hpart : Describes b part) :
    Yields (fun merged => Describes (a ++ b) merged ∧ ((a ++ b).length : Int) ≤ int64Maximum)
      (fun e => e = tooManyRows ∧ int64Maximum < ((a ++ b).length : Int)) (merge result part) := by
  have hlength : ((a ++ b).length : Int) = result.count + part.count := by
    rw [List.length_append, hresult.count, hpart.count, Nat.cast_add]
  unfold merge
  split
  · rename_i hover
    refine ⟨rfl, ?_⟩
    omega
  · rename_i hfits
    refine ⟨⟨?_, ?_, ?_⟩, by omega⟩
    · rw [hresult.count, hpart.count, List.length_append]
    · intro hnil
      obtain ⟨ha, hb⟩ := List.append_eq_nil_iff.mp hnil
      rw [hresult.none ha, hpart.none hb]
      rfl
    · -- the single row is one of the result or one of the part
      intro t ht
      rcases List.append_eq_singleton_iff.mp ht with ⟨ha, hb⟩ | ⟨ha, hb⟩
      · rw [hresult.none ha, hpart.one t hb]
        cases t <;> rfl
      · rw [hresult.one t ha, hpart.none hb]
        cases t <;> rfl

omit [Min δ] in
theorem mergeIndex_spec {index : TimestampIndex δ} {keys : List LerobotTimestampKey}
    {timestamps added : LerobotTimestampKey → List (Option δ)}
    {found : List (LerobotTimestampMatch δ)} (h : Answers keys timestamps found)
    (hindex : ∀ key, Describes (added key) (index.find key)) :
    Yields (Answers keys fun key => timestamps key ++ added key)
      (Overflows keys fun key => timestamps key ++ added key) (mergeIndex index keys found) := by
  unfold mergeIndex
  induction h with
  | nil => exact .nil
  | @cons key result keys found hfirst hrest ih =>
      rw [List.zip_cons_cons, List.mapM_cons]
      have hmerge := merge_spec hfirst.1 (hindex key)
      cases hresult : merge result (index.find key) with
      | error e =>
          rw [hresult] at hmerge
          exact ⟨hmerge.1, key, List.mem_cons_self, hmerge.2⟩
      | ok merged =>
          rw [hresult] at hmerge
          cases hfound : (keys.zip found).mapM fun entry => merge entry.2 (index.find entry.1) with
          | error e =>
              rw [hfound] at ih
              obtain ⟨he, other, hother, hover⟩ := ih
              exact ⟨he, other, List.mem_cons_of_mem _ hother, hover⟩
          | ok rest =>
              rw [hfound] at ih
              exact .cons hmerge ih

omit [Min δ] in
theorem Answers.congr {keys : List LerobotTimestampKey}
    {timestamps timestamps' : LerobotTimestampKey → List (Option δ)}
    {found : List (LerobotTimestampMatch δ)} (h : Answers keys timestamps found)
    (hperm : ∀ key ∈ keys, (timestamps key).Perm (timestamps' key)) :
    Answers keys timestamps' found := by
  unfold Answers at h ⊢
  induction h with
  | nil => exact .nil
  | @cons key result keys found hfirst hrest ih =>
      have hkey := hperm key List.mem_cons_self
      refine .cons ⟨describes_perm hfirst.1 hkey, hkey.length_eq ▸ hfirst.2⟩ ?_
      exact ih fun other hother => hperm other (List.mem_cons_of_mem _ hother)

omit [Min δ] in
/-- Merging at the position of a key changes the answer of this key only. -/
theorem mergeAt_spec {keys : List LerobotTimestampKey} (hnodup : keys.Nodup)
    {timestamps : LerobotTimestampKey → List (Option δ)} {found : List (LerobotTimestampMatch δ)}
    (h : Answers keys timestamps found) {position : Nat} {key : LerobotTimestampKey}
    (hkey : keys[position]? = some key) {added : List (Option δ)} {part : LerobotTimestampMatch δ}
    (hpart : Describes added part) :
    Yields (Answers keys (Function.update timestamps key (timestamps key ++ added)))
      (Overflows keys (Function.update timestamps key (timestamps key ++ added)))
      (mergeAt part position found) := by
  unfold Answers at h
  induction h generalizing position with
  | nil => cases hkey
  | @cons first result keys found hfirst hrest ih =>
      rw [List.nodup_cons] at hnodup
      cases position with
      | zero =>
          obtain rfl : first = key := Option.some.inj hkey
          have hmerge := merge_spec hfirst.1 hpart
          cases hresult : merge result part with
          | error e =>
              rw [hresult] at hmerge
              rw [mergeAt, hresult]
              refine ⟨hmerge.1, first, List.mem_cons_self, ?_⟩
              rw [Function.update_self]
              exact hmerge.2
          | ok merged =>
              rw [hresult] at hmerge
              rw [mergeAt, hresult]
              refine .cons ?_ ?_
              · rw [Function.update_self]
                exact hmerge
              · refine Answers.congr hrest ?_
                intro other hother
                have hne : other ≠ first := by
                  rintro rfl
                  exact hnodup.1 hother
                rw [Function.update_of_ne hne]
      | succ position =>
          rw [List.getElem?_cons_succ] at hkey
          have hother : first ≠ key := fun heq => hnodup.1 (heq ▸ List.mem_of_getElem? hkey)
          have htail := ih hnodup.2 hkey
          rw [mergeAt]
          cases hfound : mergeAt part position found with
          | error e =>
              rw [hfound] at htail
              obtain ⟨he, key', hmem, hover⟩ := htail
              exact ⟨he, key', List.mem_cons_of_mem _ hmem, hover⟩
          | ok rest =>
              rw [hfound] at htail
              refine .cons ?_ htail
              rw [Function.update_of_ne hother]
              exact hfirst

/-- The rows of the query still to come. -/
theorem mergeRow_spec {keys : List LerobotTimestampKey} (hsorted : keys.Pairwise (· < ·))
    {timestamps : LerobotTimestampKey → List (Option δ)} {found : List (LerobotTimestampMatch δ)}
    (h : Answers keys timestamps found) {rows : List (FrameRow δ)} {key : LerobotTimestampKey}
    (hkey : key ∈ keys) :
    Yields
      (Answers keys (Function.update timestamps key
        (timestamps key ++ matchingTimestamps key rows)))
      (Overflows keys (Function.update timestamps key
        (timestamps key ++ matchingTimestamps key rows)))
      (mergeRow keys found (queryRow rows key)) := by
  have hbefore : ∀ other, decide (other < key) = true ↔ other < key := by simp
  exact mergeAt_spec (hsorted.imp fun hlt => ne_of_lt hlt) h
    (getElem?_lowerBound hbefore hsorted hkey) (describes_queryRow rows key)

omit [Zero δ] [Min δ] in
theorem matchingTimestamps_append (key : LerobotTimestampKey) (rows rows' : List (FrameRow δ)) :
    matchingTimestamps key (rows ++ rows') =
      matchingTimestamps key rows ++ matchingTimestamps key rows' := by
  unfold matchingTimestamps
  rw [List.filter_append, List.map_append]

omit [Zero δ] [Min δ] in
theorem matchingTimestamps_rowsOf (frames : Text → List (FrameRow δ)) (key : LerobotTimestampKey)
    (files files' : List Text) :
    matchingTimestamps key (rowsOf frames (files ++ files')) =
      matchingTimestamps key (rowsOf frames files) ++ matchingTimestamps key (rowsOf frames files') := by
  rw [rowsOf, List.flatMap_append, matchingTimestamps_append]
  rfl

omit [Zero δ] [Min δ] in
theorem matchingTimestamps_perm (key : LerobotTimestampKey) {rows rows' : List (FrameRow δ)}
    (h : rows.Perm rows') : (matchingTimestamps key rows).Perm (matchingTimestamps key rows') :=
  (h.filter _).map _

omit [Zero δ] [Min δ] in
theorem Overflows.mono {keys : List LerobotTimestampKey}
    {timestamps timestamps' : LerobotTimestampKey → List (Option δ)} {e : InvalidInputException}
    (h : Overflows keys timestamps e)
    (hle : ∀ key ∈ keys, (timestamps key).length ≤ (timestamps' key).length) :
    Overflows keys timestamps' e := by
  obtain ⟨he, key, hkey, hover⟩ := h
  refine ⟨he, key, hkey, lt_of_lt_of_le hover ?_⟩
  exact_mod_cast hle key hkey

omit [Min δ] in
theorem Serving.describes {frames : Text → List (FrameRow δ)} (serving : Serving frames)
    {file : Text} {index : TimestampIndex δ} (h : serving.index file = some index)
    (key : LerobotTimestampKey) : Describes (matchingTimestamps key (frames file)) (index.find key) := by
  obtain ⟨sort, rowCount, reserved, rows, hperm, hload⟩ := serving.loaded file index h
  exact describes_perm (describes_find hload key) (matchingTimestamps_perm key hperm)

/-- What the loop over the files has merged of the files so far, and what it leaves to the query. -/
def Merged (frames : Text → List (FrameRow δ)) (keys : List LerobotTimestampKey)
    (seen : List Text) (state : List (LerobotTimestampMatch δ) × List Text) : Prop :=
  ∃ timestamps, Answers keys timestamps state.1 ∧ ∀ key,
    (matchingTimestamps key (rowsOf frames seen)).Perm
      (timestamps key ++ matchingTimestamps key (rowsOf frames state.2))

omit [Min δ] in
theorem visitFiles_spec {frames : Text → List (FrameRow δ)} (serving : Serving frames)
    (isLance : Bool) (keys : List LerobotTimestampKey) (files : List Text) :
    Yields (Merged frames keys files)
      (Overflows keys fun key => matchingTimestamps key (rowsOf frames files))
      (files.foldlM (visitFile serving isLance keys)
        (keys.map fun _ => LerobotTimestampMatch.initial, [])) := by
  apply foldlM_rule
  · refine ⟨fun _ => [], ?_, fun key => List.Perm.refl _⟩
    unfold Answers
    rw [List.forall₂_map_right_iff, List.forall₂_same]
    exact fun key _ => ⟨⟨rfl, fun _ => rfl, by simp⟩, by simp [int64Maximum]⟩
  · rintro seen file rest ⟨found, uncached⟩ hfiles ⟨timestamps, hanswers, hperm⟩
    have hfile : rowsOf frames [file] = frames file := by simp [rowsOf]
    unfold visitFile
    split
    · -- no index: the rows of the file are left to the query
      refine ⟨timestamps, hanswers, ?_⟩
      intro key
      rw [matchingTimestamps_rowsOf, matchingTimestamps_rowsOf, ← List.append_assoc]
      exact (hperm key).append_right _
    · rename_i index hindex
      have hserved : serving.index file = some index := by
        split at hindex
        · cases hindex
        · exact hindex
      have hmerged : ∀ key, (matchingTimestamps key (rowsOf frames (seen ++ [file]))).Perm
          (timestamps key ++ matchingTimestamps key (frames file) ++
            matchingTimestamps key (rowsOf frames uncached)) := by
        intro key
        rw [matchingTimestamps_rowsOf, hfile]
        refine ((hperm key).append_right _).trans ?_
        rw [List.append_assoc, List.append_assoc]
        exact List.perm_append_comm.append_left _
      have hmerge := mergeIndex_spec hanswers (serving.describes hserved)
      cases hresult : mergeIndex index keys found with
      | ok merged =>
          rw [hresult] at hmerge
          exact ⟨_, hmerge, hmerged⟩
      | error e =>
          rw [hresult] at hmerge
          refine Overflows.mono hmerge ?_
          intro key _
          have hlength := (hmerged key).length_eq
          have htotal : files = (seen ++ [file]) ++ rest := by rw [hfiles, List.append_assoc]; rfl
          rw [htotal, matchingTimestamps_rowsOf]
          simp only [List.length_append] at hlength ⊢
          omega

/-- The answers while the rows of the query come: the keys that came are complete. -/
def QueryMerged (keys : List LerobotTimestampKey)
    (timestamps : LerobotTimestampKey → List (Option δ)) (rows : List (FrameRow δ))
    (seen : List (QueryRow δ)) (found : List (LerobotTimestampMatch δ)) : Prop :=
  Answers keys (fun key => timestamps key ++
    if key ∈ seen.map QueryRow.key then matchingTimestamps key rows else []) found

/-- What the query adds: the rows of the files without an index, to every key. -/
theorem mergeQuery_spec {keys : List LerobotTimestampKey} (hsorted : keys.Pairwise (· < ·))
    {timestamps : LerobotTimestampKey → List (Option δ)} {found : List (LerobotTimestampMatch δ)}
    (h : Answers keys timestamps found) (rows : List (FrameRow δ)) (order : AnyOrder (QueryRow δ)) :
    Yields (Answers keys fun key => timestamps key ++ matchingTimestamps key rows)
      (Overflows keys fun key => timestamps key ++ matchingTimestamps key rows)
      ((order.run (keys.map (queryRow rows))).foldlM (mergeRow keys) found) := by
  have hperm := order.perm (keys.map (queryRow rows))
  have hnodup : ((order.run (keys.map (queryRow rows))).map QueryRow.key).Nodup := by
    rw [(hperm.map QueryRow.key).nodup_iff, List.map_map]
    have hkeys : keys.map (QueryRow.key ∘ queryRow rows) = keys := List.map_id' keys
    rw [hkeys]
    exact hsorted.imp fun hlt => ne_of_lt hlt
  refine Yields.mono (foldlM_rule (I := QueryMerged keys timestamps rows)
    (E := Overflows keys fun key => timestamps key ++ matchingTimestamps key rows) ?_ ?_) ?_
    (fun _ => id)
  · unfold QueryMerged
    simpa using h
  · intro seen row rest found hrows hI
    have hmem : row ∈ keys.map (queryRow rows) := hperm.mem_iff.mp (by simp [hrows])
    obtain ⟨key, hkey, rfl⟩ := List.mem_map.mp hmem
    have hnew : key ∉ seen.map QueryRow.key := by
      rw [hrows, List.map_append, List.map_cons, List.nodup_append] at hnodup
      exact fun hseen => hnodup.2.2 key hseen key List.mem_cons_self rfl
    refine (mergeRow_spec hsorted hI hkey).mono ?_ ?_
    · intro found' hfound'
      refine hfound'.congr ?_
      intro other _
      rw [List.map_append]
      by_cases heq : other = key
      · subst heq
        rw [Function.update_self, if_neg hnew, List.append_nil, if_pos]
        simp [queryRow]
      · have hsame : other ∈ seen.map QueryRow.key ++ [queryRow rows key].map QueryRow.key ↔
            other ∈ seen.map QueryRow.key := by simp [queryRow, heq]
        rw [Function.update_of_ne heq]
        simp only [hsame, List.Perm.refl]
    · intro e he
      refine he.mono ?_
      intro other _
      by_cases heq : other = key
      · subst heq
        rw [Function.update_self, if_neg hnew, List.append_nil]
      · rw [Function.update_of_ne heq, List.length_append, List.length_append]
        split
        · exact le_rfl
        · exact Nat.add_le_add_left (Nat.zero_le _) _
  · intro found' hfound'
    refine hfound'.congr ?_
    intro key hkey
    have hrow : key ∈ (order.run (keys.map (queryRow rows))).map QueryRow.key := by
      rw [(hperm.map QueryRow.key).mem_iff, List.map_map]
      exact List.mem_map.mpr ⟨key, hkey, rfl⟩
    rw [if_pos hrow]

/-- **The answers of `Lookup` are right for the rows of all files.** -/
theorem lookup_spec {frames : Text → List (FrameRow δ)} (serving : Serving frames)
    (order : AnyOrder (QueryRow δ)) (files : List Text) {keys : List LerobotTimestampKey}
    (hsorted : keys.Pairwise (· < ·)) (isLance : Bool) :
    Yields (Answers keys fun key => matchingTimestamps key (rowsOf frames files))
      (Overflows keys fun key => matchingTimestamps key (rowsOf frames files))
      (lookup serving order files keys isLance) := by
  unfold lookup
  dsimp only
  split
  · rename_i hempty
    subst hempty
    exact .nil
  · refine (visitFiles_spec serving isLance keys files).bind ?_
    rintro ⟨found, uncached⟩ ⟨timestamps, hanswers, hperm⟩
    dsimp only
    split
    · rename_i hall
      refine hanswers.congr ?_
      intro key _
      have hkey := hperm key
      rw [hall] at hkey
      simpa [rowsOf, matchingTimestamps] using hkey.symm
    · have hquery := mergeQuery_spec hsorted hanswers (rowsOf frames uncached) order
      have hrows : filteredQuery (uncached.map frames) keys =
          keys.map (queryRow (rowsOf frames uncached)) := rfl
      rw [hrows]
      refine hquery.mono ?_ ?_
      · exact fun _ hfound => hfound.congr fun key _ => (hperm key).symm
      · exact fun _ he => he.mono fun key _ => (hperm key).length_eq.ge

/-! ## The choice of the indexes -/

/-- Two answers that no caller can tell apart. -/
def SameAnswer (result result' : LerobotTimestampMatch δ) : Prop :=
  result.count = result'.count ∧ (result.count = 1 → result = result')

/-- The same error, or answers that no caller can tell apart. -/
def SameAnswers (found found' : Except InvalidInputException (List (LerobotTimestampMatch δ))) :
    Prop :=
  Yields (fun found => Yields (List.Forall₂ SameAnswer found) (fun _ => False) found')
    (fun e => found' = .error e) found

omit [Min δ] in
theorem Answers.not_overflows {keys : List LerobotTimestampKey}
    {timestamps : LerobotTimestampKey → List (Option δ)} {found : List (LerobotTimestampMatch δ)}
    (h : Answers keys timestamps found) {e : InvalidInputException} :
    ¬Overflows keys timestamps e := by
  rintro ⟨-, key, hkey, hover⟩
  obtain ⟨result, -, -, hfits⟩ := exists_right_of_forall₂ h hkey
  omega

omit [Min δ] in
theorem Answers.same {keys : List LerobotTimestampKey}
    {timestamps : LerobotTimestampKey → List (Option δ)} {found found' : List (LerobotTimestampMatch δ)}
    (h : Answers keys timestamps found) (h' : Answers keys timestamps found') :
    List.Forall₂ SameAnswer found found' := by
  unfold Answers at h h'
  induction h generalizing found' with
  | nil =>
      cases h'
      exact .nil
  | cons hfirst _ ih =>
      cases h' with
      | cons hfirst' hrest' => exact .cons (describes_agree hfirst.1 hfirst'.1) (ih hrest')

/-- **`Lookup` answers the same whatever files have an index.** -/
theorem lookup_same {frames : Text → List (FrameRow δ)} (serving serving' : Serving frames)
    (order order' : AnyOrder (QueryRow δ)) (files : List Text) {keys : List LerobotTimestampKey}
    (hsorted : keys.Pairwise (· < ·)) (isLance : Bool) :
    SameAnswers (lookup serving order files keys isLance)
      (lookup serving' order' files keys isLance) := by
  have hleft := lookup_spec serving order files hsorted isLance
  have hright := lookup_spec serving' order' files hsorted isLance
  unfold SameAnswers
  cases hfound : lookup serving order files keys isLance with
  | error e =>
      rw [hfound] at hleft
      cases hfound' : lookup serving' order' files keys isLance with
      | error e' =>
          rw [hfound'] at hright
          rw [yields_error, hleft.1, hright.1]
      | ok found' =>
          rw [hfound'] at hright
          exact absurd hleft hright.not_overflows
  | ok found =>
      rw [hfound] at hleft
      cases hfound' : lookup serving' order' files keys isLance with
      | error e' =>
          rw [hfound'] at hright
          exact absurd hright hleft.not_overflows
      | ok found' =>
          rw [hfound'] at hright
          exact hleft.same hright

/-! ## Reading the timestamps of targets -/

/-- The frame that a target decodes. -/
def targetKey (target : LerobotDecodeTarget) : LerobotTimestampKey :=
  toLex (target.episodeIndex, target.targetFrameIndex)

/-- The loop of `ReadTargetTimestamps` over the answers. -/
def addTimestamp (storage : String) (timestamps : AList fun _ : LerobotTimestampKey => ℚ)
    (entry : LerobotTimestampKey × LerobotTimestampMatch Double) :
    Except InvalidInputException (AList fun _ : LerobotTimestampKey => ℚ) :=
  let (episodeIndex, frameIndex) := ofLex entry.1
  if entry.2.count ≠ 1 ∨ ¬entry.2.hasTimestamp then
    if entry.2.count = 0 then
      .error ⟨s!"LeRobot episode {episodeIndex} has no {storage} row for frame {frameIndex}"⟩
    else
      .error ⟨s!"LeRobot episode {episodeIndex} has {entry.2.count} {storage} rows for frame " ++
        s!"{frameIndex}"⟩
  else
    match entry.2.timestamp.nonnegative? with
    | none => .error ⟨s!"Invalid LeRobot timestamp for episode {episodeIndex}, frame {frameIndex}"⟩
    | some timestamp => .ok (timestamps.insert entry.1 timestamp)

/-- `ReadTargetTimestamps`. -/
def readTargetTimestamps {frames : Text → List (FrameRow Double)} (serving : Serving frames)
    (order : AnyOrder (QueryRow Double)) (dataset : LerobotDatasetMetadata)
    (targets : List LerobotDecodeTarget) :
    Except InvalidInputException (AList fun _ : LerobotTimestampKey => ℚ) :=
  let frameKeys := sortUnique (targets.map targetKey)
  let episodeIndices := sortUnique (targets.map LerobotDecodeTarget.episodeIndex)
  let dataFiles := dataset.resolveDataFiles episodeIndices
  let storage := if dataset.info.isLance then "Lance" else "Parquet"
  if dataFiles = [] then
    .error ⟨s!"LeRobot target episodes do not resolve to a {storage} data shard"⟩
  else do
    let found ← lookup serving order dataFiles frameKeys dataset.info.isLance
    (frameKeys.zip found).foldlM (addTimestamp storage) ∅

theorem addTimestamp_same {storage : String} {key : LerobotTimestampKey}
    {result result' : LerobotTimestampMatch Double} (h : SameAnswer result result')
    (timestamps : AList fun _ : LerobotTimestampKey => ℚ) :
    addTimestamp storage timestamps (key, result) = addTimestamp storage timestamps (key, result') := by
  by_cases hone : result.count = 1
  · rw [h.2 hone]
  · have hone' : result'.count ≠ 1 := h.1 ▸ hone
    simp only [addTimestamp, ne_eq, hone', not_false_iff, true_or, if_true, h.1]

theorem addTimestamps_same {storage : String} {keys : List LerobotTimestampKey}
    {found found' : List (LerobotTimestampMatch Double)} (h : List.Forall₂ SameAnswer found found')
    (timestamps : AList fun _ : LerobotTimestampKey => ℚ) :
    (keys.zip found).foldlM (addTimestamp storage) timestamps =
      (keys.zip found').foldlM (addTimestamp storage) timestamps := by
  induction h generalizing keys timestamps with
  | nil => rfl
  | cons hfirst _ ih =>
      cases keys with
      | nil => rfl
      | cons key keys =>
          rw [List.zip_cons_cons, List.zip_cons_cons, List.foldlM_cons, List.foldlM_cons,
            addTimestamp_same hfirst]
          congr 1
          funext timestamps
          exact ih timestamps

theorem readTargetTimestamps_same {frames : Text → List (FrameRow Double)}
    (serving serving' : Serving frames) (order order' : AnyOrder (QueryRow Double))
    (dataset : LerobotDatasetMetadata) (targets : List LerobotDecodeTarget) :
    readTargetTimestamps serving order dataset targets =
      readTargetTimestamps serving' order' dataset targets := by
  unfold readTargetTimestamps
  dsimp only
  split
  · rfl
  · have hsame := lookup_same serving serving' order order'
      (dataset.resolveDataFiles (sortUnique (targets.map LerobotDecodeTarget.episodeIndex)))
      (pairwise_sortUnique (targets.map targetKey)) dataset.info.isLance
    generalize lookup serving order _ _ _ = found at hsame
    generalize lookup serving' order' _ _ _ = found' at hsame
    cases found with
    | error e =>
        rw [SameAnswers, yields_error] at hsame
        rw [hsame]
    | ok found =>
        cases found' with
        | error e => exact hsame.elim
        | ok found' => exact addTimestamps_same hsame ∅

/-- **The index and the query answer alike.** Whichever of the files are answered from an index,
`Lookup` returns the same counts, and the same timestamp for a frame with one row; so
`ReadTargetTimestamps` returns the same timestamps or throws the same error. -/
theorem index_agrees_with_query {frames : Text → List (FrameRow Double)}
    (serving serving' : Serving frames) (order order' : AnyOrder (QueryRow Double)) :
    (∀ (files : List Text) (keys : List LerobotTimestampKey) (isLance : Bool),
      keys.Pairwise (· < ·) → SameAnswers (lookup serving order files keys isLance)
        (lookup serving' order' files keys isLance)) ∧
    ∀ (dataset : LerobotDatasetMetadata) (targets : List LerobotDecodeTarget),
      readTargetTimestamps serving order dataset targets =
        readTargetTimestamps serving' order' dataset targets :=
  ⟨fun files _ isLance hsorted => lookup_same serving serving' order order' files hsorted isLance,
    readTargetTimestamps_same serving serving' order order'⟩

/-- A file with one row. -/
def singleRow (_ : Text) : List (FrameRow Double) := [⟨some 0, some 3, some (.finite 1)⟩]

/-- Every file has an index. -/
def indexedServing : Serving singleRow where
  index _ := some ⟨[⟨0, 3, .finite 1, true⟩]⟩
  loaded _ _ h := ⟨StdSort.byKey IndexRow.key, 1, true, [⟨some 0, some 3, some (.finite 1)⟩],
    List.Perm.refl _, h⟩

/-- No file has an index. -/
def queriedServing : Serving singleRow where
  index _ := none
  loaded _ _ h := by cases h

/-- A frame found in an index and by the query. -/
theorem singleRow_agrees :
    SameAnswers
      (lookup indexedServing ⟨id, List.Perm.refl⟩ ["a".toList] [toLex (0, 3)] false)
      (lookup queriedServing ⟨List.reverse, List.reverse_perm⟩ ["a".toList] [toLex (0, 3)] false) :=
  (index_agrees_with_query indexedServing queriedServing ⟨id, List.Perm.refl⟩
    ⟨List.reverse, List.reverse_perm⟩).1 ["a".toList] [toLex (0, 3)] false
    (List.pairwise_singleton _ _)

end DuckdbLerobot.Storage
