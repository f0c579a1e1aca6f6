import DuckdbLerobot.Storage.TimestampLookup

/-!
# The timestamps of targets

`ReadTargetTimestamps` returns a timestamp for each target or throws. It returns exactly when each
target frame has one row in the files of the batch, with a finite timestamp that is not negative
(`readTargetTimestamps_spec`).
-/

set_option autoImplicit false

namespace DuckdbLerobot.Storage

open DuckdbLerobot.Library DuckdbLerobot.Path DuckdbLerobot.Video

/-- The rows of a frame are one row with a valid timestamp. -/
def OneTimestamp (timestamps : List (Option Double)) (timestamp : ℚ) : Prop :=
  timestamps = [some (.finite timestamp)] ∧ 0 ≤ timestamp

theorem OneTimestamp.unique {timestamps : List (Option Double)} {t t' : ℚ}
    (h : OneTimestamp timestamps t) (h' : OneTimestamp timestamps t') : t = t' := by
  have heq := h.1.symm.trans h'.1
  simpa using heq

theorem nonnegative?_eq_some {value : Double} {t : ℚ} :
    value.nonnegative? = some t ↔ value = .finite t ∧ 0 ≤ t := by
  cases value with
  | finite a =>
      rw [Double.nonnegative?]
      split
      · rename_i hneg
        constructor
        · intro h
          cases h
        · rintro ⟨heq, hle⟩
          cases heq
          exact absurd hle (not_le.mpr hneg)
      · rename_i hle
        constructor
        · intro h
          cases h
          exact ⟨rfl, not_lt.mp hle⟩
        · rintro ⟨heq, -⟩
          cases heq
          rfl
  | infinite negative => simp [Double.nonnegative?]
  | nan => simp [Double.nonnegative?]

/-- The loop at one answer. -/
theorem addTimestamp_spec (storage : String) (timestamps : AList fun _ : LerobotTimestampKey => ℚ)
    (key : LerobotTimestampKey) {rows : List (Option Double)} {found : LerobotTimestampMatch Double}
    (h : Describes rows found) :
    Yields (fun result => ∃ t, OneTimestamp rows t ∧ result = timestamps.insert key t)
      (fun _ => ∀ t, ¬OneTimestamp rows t) (addTimestamp storage timestamps (key, found)) := by
  unfold addTimestamp
  dsimp only
  split
  · rename_i hmany
    have hnone : ∀ t, ¬OneTimestamp rows t := by
      rintro t ⟨hrows, -⟩
      rw [h.one _ hrows] at hmany
      simp at hmany
    split
    · exact hnone
    · exact hnone
  · rename_i hone
    rw [not_or, not_not, not_not] at hone
    obtain ⟨value, hvalue⟩ := List.length_eq_one_iff.mp (h.count.symm.trans hone.1)
    have hfound := h.one value hvalue
    cases value with
    | none =>
        rw [hfound] at hone
        cases hone.2
    | some value =>
        rw [hfound]
        dsimp only [Option.getD_some]
        split
        · rename_i hinvalid
          rintro t ⟨hrows, hle⟩
          rw [hvalue] at hrows
          obtain rfl : value = .finite t := by simpa using hrows
          rw [nonnegative?_eq_some.mpr ⟨rfl, hle⟩] at hinvalid
          cases hinvalid
        · rename_i t hvalid
          obtain ⟨rfl, hle⟩ := nonnegative?_eq_some.mp hvalid
          exact ⟨t, ⟨hvalue, hle⟩, rfl⟩

/-- The loop over the answers. -/
theorem addTimestamps_spec (storage : String) {rows : LerobotTimestampKey → List (Option Double)}
    {keys : List LerobotTimestampKey} {found : List (LerobotTimestampMatch Double)}
    (h : Answers keys rows found) (hnodup : keys.Nodup)
    (timestamps : AList fun _ : LerobotTimestampKey => ℚ) :
    Yields (fun result => (∀ key ∈ keys, ∃ t, OneTimestamp (rows key) t ∧ result.lookup key = some t) ∧
        ∀ key, key ∉ keys → result.lookup key = timestamps.lookup key)
      (fun _ => ∃ key ∈ keys, ∀ t, ¬OneTimestamp (rows key) t)
      ((keys.zip found).foldlM (addTimestamp storage) timestamps) := by
  unfold Answers at h
  induction h generalizing timestamps with
  | nil =>
      constructor
      · intro key hkey
        cases hkey
      · exact fun _ _ => rfl
  | @cons key result keys found hfirst _ ih =>
      obtain ⟨hnew, hnodup⟩ := List.nodup_cons.mp hnodup
      rw [List.zip_cons_cons, List.foldlM_cons]
      cases hadd : addTimestamp storage timestamps (key, result) with
      | error e =>
          have hspec := addTimestamp_spec storage timestamps key hfirst.1
          rw [hadd] at hspec
          exact ⟨key, List.mem_cons_self, hspec⟩
      | ok timestamps' =>
          have hspec := addTimestamp_spec storage timestamps key hfirst.1
          rw [hadd] at hspec
          obtain ⟨t, hone, rfl⟩ := hspec
          refine (ih hnodup (timestamps.insert key t)).mono ?_ ?_
          · rintro result ⟨hkeys, hothers⟩
            constructor
            · intro key' hkey'
              rcases List.mem_cons.mp hkey' with rfl | hmem
              · exact ⟨t, hone, by rw [hothers _ hnew, AList.lookup_insert]⟩
              · exact hkeys key' hmem
            · intro key' hkey'
              rw [List.mem_cons, not_or] at hkey'
              rw [hothers key' hkey'.2, AList.lookup_insert_ne hkey'.1]
          · rintro e ⟨key', hmem, hnone⟩
            exact ⟨key', List.mem_cons_of_mem _ hmem, hnone⟩

/-- A frame that has rows in one of the files only. -/
theorem matchingTimestamps_ownFile (frames : Text → List (FrameRow Double))
    (key : LerobotTimestampKey) {files : List Text} {file : Text} (hnodup : files.Nodup)
    (hfile : file ∈ files)
    (hothers : ∀ file' ∈ files, file' ≠ file → matchingTimestamps key (frames file') = []) :
    matchingTimestamps key (rowsOf frames files) = matchingTimestamps key (frames file) := by
  have hparts : matchingTimestamps key (rowsOf frames files) =
      files.flatMap fun file => matchingTimestamps key (frames file) := by
    induction files with
    | nil => rfl
    | cons first files _ =>
        rw [matchingTimestamps, rowsOf, List.filter_flatMap, List.map_flatMap]
        rfl
  rw [hparts]
  exact flatMap_eq_of_unique hnodup hfile hothers

/-- The files that a batch of targets is read from. -/
def targetFiles (dataset : LerobotDatasetMetadata) (targets : List LerobotDecodeTarget) : List Text :=
  dataset.resolveDataFiles (sortUnique (targets.map LerobotDecodeTarget.episodeIndex))

/-- The timestamps of the rows of a target in these files. -/
def targetRows (frames : Text → List (FrameRow Double)) (dataset : LerobotDatasetMetadata)
    (targets : List LerobotDecodeTarget) (target : LerobotDecodeTarget) : List (Option Double) :=
  matchingTimestamps (targetKey target) (rowsOf frames (targetFiles dataset targets))

/-- **`ReadTargetTimestamps` returns the timestamps of the rows of the targets**, or it throws, since a
target has no row, several rows, or an invalid timestamp. -/
theorem readTargetTimestamps_spec {frames : Text → List (FrameRow Double)} (serving : Serving frames)
    (order : AnyOrder (QueryRow Double)) (dataset : LerobotDatasetMetadata)
    (targets : List LerobotDecodeTarget) :
    Yields (fun timestamps => targetFiles dataset targets ≠ [] ∧ ∀ target ∈ targets, ∃ t,
        OneTimestamp (targetRows frames dataset targets target) t ∧
          timestamps.lookup (targetKey target) = some t)
      (fun _ => targetFiles dataset targets = [] ∨ ∃ target ∈ targets, ∀ t,
        ¬OneTimestamp (targetRows frames dataset targets target) t)
      (readTargetTimestamps serving order dataset targets) := by
  have hkeys : ∀ key, key ∈ sortUnique (targets.map targetKey) ↔
      ∃ target ∈ targets, targetKey target = key := by
    intro key
    rw [mem_sortUnique, List.mem_map]
  have hsorted := pairwise_sortUnique (targets.map targetKey)
  unfold readTargetTimestamps
  dsimp only
  split
  · rename_i hfiles
    exact .inl hfiles
  · rename_i hfiles
    have hlookup := lookup_spec serving order (targetFiles dataset targets) hsorted
      dataset.info.isLance
    refine Yields.bind (hlookup.mono (fun _ h => h) ?_) ?_
    · -- one row is not too many
      rintro e ⟨-, key, hkey, hover⟩
      obtain ⟨target, htarget, rfl⟩ := (hkeys key).mp hkey
      refine .inr ⟨target, htarget, ?_⟩
      rintro t ⟨hrows, -⟩
      dsimp only at hover
      rw [targetRows] at hrows
      rw [hrows] at hover
      simp [int64Maximum] at hover
    · intro found hfound
      refine (addTimestamps_spec _ hfound (hsorted.imp fun hlt => ne_of_lt hlt) ∅).mono ?_ ?_
      · rintro timestamps ⟨htimestamps, -⟩
        exact ⟨hfiles, fun target htarget =>
          htimestamps (targetKey target) ((hkeys _).mpr ⟨target, htarget, rfl⟩)⟩
      · rintro e ⟨key, hkey, hnone⟩
        obtain ⟨target, htarget, rfl⟩ := (hkeys key).mp hkey
        exact .inr ⟨target, htarget, hnone⟩

end DuckdbLerobot.Storage
