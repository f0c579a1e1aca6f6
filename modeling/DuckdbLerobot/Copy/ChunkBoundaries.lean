import DuckdbLerobot.Copy.TaskTable

/-!
# Where the input is cut

DuckDB hands the rows to `Process` in chunks, and `Process` takes the rows of a chunk in runs of one episode. A run ends
where a chunk ends, so that the calls of `AppendRun` depend on the cutting. `rowStep` is the writer for one row at a
time, and `process_eq` says that a chunk is processed row by row. `copyRows_chunkBoundaries` is what follows for a
whole copy: where its rows are cut makes no difference.
-/

set_option autoImplicit false

namespace DuckdbLerobot.Copy

open DuckdbLerobot.Library DuckdbLerobot.Path DuckdbLerobot.Storage

namespace CopyWriter

variable {σ ρ ω : Type}

/-! ## Runs in two parts -/

/-- The writer after a run with this output and this number of rows. -/
def advanced (writer : CopyWriter σ ω) (output : List (DataRow ω)) (count : Nat) : CopyWriter σ ω :=
  { writer with
    currentData := writer.currentData ++ output
    currentEpisodeFrames := writer.currentEpisodeFrames + count }

/-- The states of the loop of `AppendRun`, when a run is cut: the second run starts after the first. -/
def SecondPart (output : List (DataRow ω)) (count : Nat) (state state' : CopyWriter σ ω × List (DataRow ω)) : Prop :=
  state'.1 = state.1.advanced output count ∧ state.2 = output ++ state'.2

variable {copyHost : CopyHost σ ρ ω} {arithmetic : Arithmetic} {fps : Nat}

/-- A row has the same frame index, from the start of the first run or of the second one. -/
theorem appendRunRow_secondPart {output : List (DataRow ω)} {count k : Nat} (row : InputRow ρ)
    {state state' : CopyWriter σ ω × List (DataRow ω)} (h : SecondPart output count state state') :
    Simulates (SecondPart output count) id (appendRunRow copyHost arithmetic fps state (row, count + k))
      (appendRunRow copyHost arithmetic fps state' (row, k)) := by
  obtain ⟨writer, rows⟩ := state
  obtain ⟨writer', rows'⟩ := state'
  obtain ⟨hwriter, hrows⟩ := h
  dsimp only at hwriter hrows
  subst hwriter hrows
  have hframe : writer.currentEpisodeFrames + (count + k) = (writer.advanced output count).currentEpisodeFrames + k :=
    (Nat.add_assoc _ _ _).symm
  rw [appendRunRow, appendRunRow]
  dsimp only
  rw [hframe]
  apply (simulates_refl _).bind
  rintro ⟨host, columns⟩ _ - rfl
  apply (simulates_refl _).bind
  rintro task _ - rfl
  apply (simulates_refl _).bind
  rintro ⟨taskIndex, taskTable⟩ _ - rfl
  apply (simulates_refl _).bind
  rintro frame _ - rfl
  apply (simulates_refl _).bind
  rintro index _ - rfl
  exact ⟨rfl, List.append_assoc _ _ _⟩

theorem foldlM_secondPart {output : List (DataRow ω)} {count : Nat} (run : List (InputRow ρ)) (k : Nat)
    {state state' : CopyWriter σ ω × List (DataRow ω)} (h : SecondPart output count state state') :
    Simulates (SecondPart output count) id ((run.zipIdx (count + k)).foldlM (appendRunRow copyHost arithmetic fps) state)
      ((run.zipIdx k).foldlM (appendRunRow copyHost arithmetic fps) state') := by
  induction run generalizing k state state' with
  | nil => exact h
  | cons row run ih =>
      rw [List.zipIdx_cons, List.zipIdx_cons, List.foldlM_cons, List.foldlM_cons]
      apply (appendRunRow_secondPart row h).bind
      intro next next' _ hnext
      exact ih (k + 1) hnext

/-- **A run may be cut anywhere.** -/
theorem appendRun_append (writer : CopyWriter σ ω) (run run' : List (InputRow ρ)) :
    appendRun copyHost arithmetic fps writer (run ++ run') =
      appendRun copyHost arithmetic fps writer run >>= fun writer => appendRun copyHost arithmetic fps writer run' := by
  rw [appendRun, List.zipIdx_append, List.foldlM_append, appendRun]
  cases run.zipIdx.foldlM (appendRunRow copyHost arithmetic fps) (writer, []) with
  | error e => rfl
  | ok state =>
      obtain ⟨middle, output⟩ := state
      have hparts : SecondPart output run.length (middle, output) (middle.advanced output run.length, []) :=
        ⟨rfl, (List.append_nil _).symm⟩
      have hsecond : Simulates (SecondPart output run.length) id
          ((run'.zipIdx (0 + run.length)).foldlM (appendRunRow copyHost arithmetic fps) (middle, output))
          (run'.zipIdx.foldlM (appendRunRow copyHost arithmetic fps) (middle.advanced output run.length, [])) := by
        rw [Nat.zero_add]
        exact foldlM_secondPart run' 0 hparts
      apply hsecond.map_eq
      rintro ⟨last, rows⟩ ⟨last', rows'⟩ ⟨hwriter, hrows⟩
      dsimp only at hwriter hrows
      subst hwriter hrows
      simp only [advanced, List.append_assoc, List.length_append, Nat.add_assoc]

theorem appendRun_cons (writer : CopyWriter σ ω) (row : InputRow ρ) (run : List (InputRow ρ)) :
    appendRun copyHost arithmetic fps writer (row :: run) =
      appendRun copyHost arithmetic fps writer [row] >>= fun writer => appendRun copyHost arithmetic fps writer run :=
  appendRun_append writer [row] run

/-! ## One row at a time -/

/-- The writer for a row. -/
def rowStep (copyHost : CopyHost σ ρ ω) (arithmetic : Arithmetic) (fps : Nat) (writer : CopyWriter σ ω)
    (row : InputRow ρ) : Except CopyException (CopyWriter σ ω) := do
  let episodeIndex ← row.episodeIndex.elim
    (.error (.invalidInput "LeRobot episode_index must not be NULL")) .ok
  let writer ← enterEpisode copyHost writer episodeIndex
  appendRun copyHost arithmetic fps writer [row]

variable {writer writer' : CopyWriter σ ω}

/-- A run belongs to the current episode. -/
theorem appendRun_current {run : List (InputRow ρ)} (h : appendRun copyHost arithmetic fps writer run = .ok writer') :
    writer'.hasCurrentEpisode = writer.hasCurrentEpisode ∧ writer'.currentEpisode = writer.currentEpisode := by
  obtain ⟨⟨last, output⟩, hfold, rfl⟩ := except_map_eq_ok.mp h
  refine foldlM_ok (I := fun _ (state : CopyWriter σ ω × List (DataRow ω)) =>
    state.1.hasCurrentEpisode = writer.hasCurrentEpisode ∧ state.1.currentEpisode = writer.currentEpisode) hfold
    ⟨rfl, rfl⟩ ?_
  rintro seen input rest ⟨before, rows⟩ ⟨after, rows'⟩ - hbefore hround
  simp only [appendRunRow, except_bind_eq_ok] at hround
  obtain ⟨⟨host, columns⟩, -, task, -, ⟨taskIndex, taskTable⟩, -, frame, -, index, -, hround⟩ := hround
  cases hround
  exact hbefore

theorem startEpisode_current {episodeIndex : Int} (h : startEpisode copyHost writer episodeIndex = .ok writer') :
    writer'.hasCurrentEpisode = true ∧ writer'.currentEpisode = episodeIndex := by
  simp only [startEpisode, except_bind_eq_ok] at h
  obtain ⟨expected, -, _, -, host, -, h⟩ := h
  cases h
  exact ⟨rfl, rfl⟩

/-- The episode of a row is current when the row is appended. -/
theorem enterEpisode_current {episodeIndex : Int} (h : enterEpisode copyHost writer episodeIndex = .ok writer') :
    writer'.hasCurrentEpisode = true ∧ writer'.currentEpisode = episodeIndex := by
  rw [enterEpisode] at h
  cases hcurrent : writer.hasCurrentEpisode with
  | false =>
      rw [hcurrent] at h
      exact startEpisode_current h
  | true =>
      rw [hcurrent] at h
      change (if episodeIndex ≠ writer.currentEpisode then _ else _) = _ at h
      split at h
      case isTrue =>
        obtain ⟨between, -, hstart⟩ := except_bind_eq_ok.mp h
        exact startEpisode_current hstart
      case isFalse hsame =>
        cases h
        exact ⟨hcurrent, (not_not.mp hsame).symm⟩

/-- The current episode is not left. -/
theorem enterEpisode_self (hcurrent : writer.hasCurrentEpisode = true) :
    enterEpisode copyHost writer writer.currentEpisode = .ok writer := by
  rw [enterEpisode, hcurrent]
  exact if_neg (not_not.mpr rfl)

theorem rowStep_eq {row : InputRow ρ} {episodeIndex : Int} (hrow : row.episodeIndex = some episodeIndex) :
    rowStep copyHost arithmetic fps writer row =
      enterEpisode copyHost writer episodeIndex >>= fun writer => appendRun copyHost arithmetic fps writer [row] := by
  rw [rowStep, hrow]
  rfl

/-- A row of the current episode. -/
theorem rowStep_current {row : InputRow ρ} (hcurrent : writer.hasCurrentEpisode = true)
    (hrow : row.episodeIndex = some writer.currentEpisode) :
    rowStep copyHost arithmetic fps writer row = appendRun copyHost arithmetic fps writer [row] := by
  rw [rowStep_eq hrow, enterEpisode_self hcurrent]
  rfl

/-- The rows of a run, one at a time. -/
theorem foldlM_rowStep (run : List (InputRow ρ)) (hcurrent : writer.hasCurrentEpisode = true)
    (hrun : ∀ row ∈ run, row.episodeIndex = some writer.currentEpisode) :
    run.foldlM (rowStep copyHost arithmetic fps) writer = appendRun copyHost arithmetic fps writer run := by
  induction run generalizing writer with
  | nil => simp [appendRun, Except.map, pure, Except.pure]
  | cons row run ih =>
      rw [List.foldlM_cons, rowStep_current hcurrent (hrun row List.mem_cons_self), appendRun_cons writer row run]
      cases happend : appendRun copyHost arithmetic fps writer [row] with
      | error e => rfl
      | ok next =>
          obtain ⟨hhas, hepisode⟩ := appendRun_current happend
          apply ih (hhas.trans hcurrent)
          rw [hepisode]
          exact fun row hrow => hrun row (List.mem_cons_of_mem _ hrow)

/-- The rows of an episode that is entered with the first of them. -/
theorem foldlM_enterEpisode {first : InputRow ρ} {run : List (InputRow ρ)} {episodeIndex : Int}
    (hrun : ∀ row ∈ first :: run, row.episodeIndex = some episodeIndex) :
    (first :: run).foldlM (rowStep copyHost arithmetic fps) writer =
      enterEpisode copyHost writer episodeIndex >>= fun writer =>
        appendRun copyHost arithmetic fps writer (first :: run) := by
  have hfirst := hrun first List.mem_cons_self
  rw [List.foldlM_cons, rowStep_eq hfirst, bind_assoc]
  cases henter : enterEpisode copyHost writer episodeIndex with
  | error e => rfl
  | ok entered =>
      obtain ⟨hcurrent, rfl⟩ := enterEpisode_current henter
      have hrows : (first :: run).foldlM (rowStep copyHost arithmetic fps) entered =
          appendRun copyHost arithmetic fps entered (first :: run) := foldlM_rowStep _ hcurrent hrun
      rw [List.foldlM_cons, rowStep_current hcurrent hfirst] at hrows
      exact hrows

/-- **The loop of `Process` takes the rows one at a time.** The induction is on the fuel, one run for each round. -/
theorem processRuns_eq (fuel : Nat) (writer : CopyWriter σ ω) (rows : List (InputRow ρ)) (hfuel : rows.length ≤ fuel) :
    processRuns copyHost arithmetic fps fuel writer rows = rows.foldlM (rowStep copyHost arithmetic fps) writer := by
  induction fuel generalizing writer rows with
  | zero =>
      rw [List.length_eq_zero_iff.mp (Nat.le_zero.mp hfuel)]
      rfl
  | succ fuel ih =>
      cases rows with
      | nil => rfl
      | cons first rest =>
          cases hfirst : first.episodeIndex with
          | none =>
              rw [List.foldlM_cons, rowStep, processRuns, hfirst]
              rfl
          | some episodeIndex =>
              have hrest : (rest.dropWhile fun next => next.episodeIndex == some episodeIndex).length ≤ fuel := by
                have hle := List.length_dropWhile_le (fun next : InputRow ρ => next.episodeIndex == some episodeIndex) rest
                rw [List.length_cons] at hfuel
                omega
              have hrun : ∀ row ∈ first :: rest.takeWhile fun next => next.episodeIndex == some episodeIndex,
                  row.episodeIndex = some episodeIndex := by
                intro row hrow
                rcases List.mem_cons.mp hrow with rfl | hrow
                · exact hfirst
                · have htest := List.mem_takeWhile_imp hrow
                  exact eq_of_beq htest
              -- the run of the first row, and the rows after it
              have hrows : first :: rest = (first :: rest.takeWhile fun next => next.episodeIndex == some episodeIndex) ++
                  rest.dropWhile fun next => next.episodeIndex == some episodeIndex := by
                rw [List.cons_append, List.takeWhile_append_dropWhile]
              rw [hrows, List.foldlM_append, foldlM_enterEpisode hrun, bind_assoc, ← hrows, processRuns, hfirst]
              have hnext : ∀ next : CopyWriter σ ω, processRuns copyHost arithmetic fps fuel next
                    (rest.dropWhile fun next => next.episodeIndex == some episodeIndex) =
                  (rest.dropWhile fun next => next.episodeIndex == some episodeIndex).foldlM
                    (rowStep copyHost arithmetic fps) next := fun next => ih next _ hrest
              simp only [← hnext]
              rfl

/-- **A chunk is processed row by row**, after its check. -/
theorem process_eq (writer : CopyWriter σ ω) (chunk : List (InputRow ρ)) :
    process copyHost arithmetic fps writer chunk =
      copyHost.checkChunk chunk >>= fun _ => chunk.foldlM (rowStep copyHost arithmetic fps) writer := by
  rw [process]
  simp only [processRuns_eq _ _ _ le_rfl]

/-! ## The chunks -/

/-- The check of a chunk is one of its rows: in the columns of the features there are no NULLs. -/
def ChecksRows (copyHost : CopyHost σ ρ ω) (accepts : InputRow ρ → Prop) : Prop :=
  ∀ chunk, copyHost.checkChunk chunk = .ok () ↔ ∀ row ∈ chunk, accepts row

/-- The chunks of the input return the writer of its rows, if each row is accepted. -/
theorem foldlM_process {accepts : InputRow ρ → Prop} (hcheck : ChecksRows copyHost accepts)
    (chunks : List (List (InputRow ρ))) :
    chunks.foldlM (process copyHost arithmetic fps) writer = .ok writer' ↔
      (∀ row ∈ chunks.flatten, accepts row) ∧
        chunks.flatten.foldlM (rowStep copyHost arithmetic fps) writer = .ok writer' := by
  induction chunks generalizing writer with
  | nil => simp
  | cons chunk chunks ih =>
      simp only [List.foldlM_cons, process_eq, except_bind_eq_ok, ih, List.flatten_cons, List.foldlM_append,
        List.mem_append]
      constructor
      · rintro ⟨middle, ⟨_, haccepted, hchunk⟩, hrest, hrows⟩
        refine ⟨?_, middle, hchunk, hrows⟩
        rintro row (hrow | hrow)
        · exact (hcheck chunk).mp haccepted row hrow
        · exact hrest row hrow
      · rintro ⟨haccepted, middle, hchunk, hrows⟩
        refine ⟨middle, ⟨(), ?_, hchunk⟩, fun row hrow => haccepted row (.inr hrow), hrows⟩
        exact (hcheck chunk).mpr fun row hrow => haccepted row (.inl hrow)

end CopyWriter

open CopyWriter

/-- **Where the input is cut makes no difference.** For two cuttings of the same rows, the writer is the same after the
last chunk, with what the host has made of the features, of the files and of the episodes, or both cuttings throw; and
the copies return the same dataset, or both throw. -/
theorem copyRows_chunkBoundaries {σ ρ ω : Type} {copyHost : CopyHost σ ρ ω} {accepts : InputRow ρ → Prop}
    (hcheck : ChecksRows copyHost accepts) (arithmetic : Arithmetic) (fps : Nat)
    {chunks chunks' : List (List (InputRow ρ))} (hrows : chunks.flatten = chunks'.flatten) :
    (∀ writer : CopyWriter σ ω,
        chunks.foldlM (process copyHost arithmetic fps) { host := copyHost.initial } = .ok writer ↔
          chunks'.foldlM (process copyHost arithmetic fps) { host := copyHost.initial } = .ok writer) ∧
      ∀ dataset, copyRows copyHost arithmetic fps chunks = .ok dataset ↔
        copyRows copyHost arithmetic fps chunks' = .ok dataset := by
  have hsame : ∀ writer : CopyWriter σ ω,
      chunks.foldlM (process copyHost arithmetic fps) { host := copyHost.initial } = .ok writer ↔
        chunks'.foldlM (process copyHost arithmetic fps) { host := copyHost.initial } = .ok writer := by
    intro writer
    rw [foldlM_process hcheck, foldlM_process hcheck, hrows]
  refine ⟨hsame, ?_⟩
  intro dataset
  simp only [copyRows, except_bind_eq_ok, hsame]

end DuckdbLerobot.Copy
