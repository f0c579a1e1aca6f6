import DuckdbLerobot.Copy.ChunkBoundaries

/-!
# The numbers of the frames

The writer numbers the rows of the data from zero, and the frames of each episode from zero. The row of an episode says
which rows are its own: they start where those of the episode before end, and there is at least one.

A copy makes blocks, one for each episode (`BlocksOf`). A block has the rows of the input together with the rows of the
data that the writer has made of them. What the rest of the writer does in a copy is proved by an invariant of the
blocks (`HostInvariant`, `copyHostRows_blocks`).
-/

set_option autoImplicit false

namespace DuckdbLerobot.Copy

open DuckdbLerobot.Library DuckdbLerobot.Path DuckdbLerobot.Storage

/-! ## Blocks -/

/-- A row of the input, and the row of the data for it. -/
structure WrittenRow (ρ ω : Type) where
  input : InputRow ρ
  data : DataRow ω

/-- The columns of the features, before and after. -/
def WrittenRow.columns {ρ ω : Type} (row : WrittenRow ρ ω) : ρ × ω := (row.input.columns, row.data.columns)

/-- The rows of an episode, from a row of the dataset on. -/
def EpisodeBlock {ρ ω : Type} (arithmetic : Arithmetic) (fps episode first : Nat) (rows : List (WrittenRow ρ ω)) : Prop :=
  ∀ (frame : Nat) (row : WrittenRow ρ ω), rows[frame]? = some row → row.data.frameIndex = (frame : Int) ∧
    row.data.index = ((first + frame : Nat) : Int) ∧ row.data.episodeIndex = (episode : Int) ∧
      row.data.timestamp = generatedTimestamp arithmetic frame fps ∧ row.input.episodeIndex = some (episode : Int)

/-- The row of an episode, for the block of its rows. -/
structure RecordOfBlock {ρ ω : Type} (arithmetic : Arithmetic) (fps episode first : Nat)
    (rows : List (WrittenRow ρ ω)) (record : EpisodeRecord) : Prop where
  episodeIndex : record.episodeIndex = (episode : Int)
  nonempty : rows ≠ []
  length : record.length = (rows.length : Int)
  fromIndex : record.fromIndex = (first : Int)
  toIndex : record.toIndex = ((first + rows.length : Nat) : Int)
  block : EpisodeBlock arithmetic fps episode first rows

/-- The blocks of a dataset, and the rows of its episodes. -/
structure BlocksOf {ρ ω : Type} (arithmetic : Arithmetic) (fps : Nat) (blocks : List (List (WrittenRow ρ ω)))
    (dataRows : List (DataRow ω)) (episodes : List EpisodeRecord) : Prop where
  dataRows_eq : dataRows = blocks.flatten.map WrittenRow.data
  length_eq : episodes.length = blocks.length
  records : ∀ episode rows record, blocks[episode]? = some rows → episodes[episode]? = some record →
    RecordOfBlock arithmetic fps episode (blocks.take episode).flatten.length rows record

/-- **The frames of a dataset are numbered**, and its blocks are the rows of the input, in their order. -/
def FramesNumbered {ρ ω : Type} (arithmetic : Arithmetic) (fps : Nat) (rows : List (InputRow ρ))
    (dataset : WrittenDataset ω) : Prop :=
  ∃ blocks, BlocksOf arithmetic fps blocks dataset.dataRows dataset.episodes ∧
    blocks.flatten.map WrittenRow.input = rows

section Blocks

variable {ρ ω : Type} {arithmetic : Arithmetic} {fps : Nat} {blocks : List (List (WrittenRow ρ ω))}
  {dataRows : List (DataRow ω)} {episodes : List EpisodeRecord}

theorem blocksOf_nil : BlocksOf arithmetic fps ([] : List (List (WrittenRow ρ ω))) [] [] where
  dataRows_eq := rfl
  length_eq := rfl
  records := by
    intro episode rows record hrows
    cases hrows

/-- Another episode. -/
theorem BlocksOf.concat (h : BlocksOf arithmetic fps blocks dataRows episodes) {rows : List (WrittenRow ρ ω)}
    {record : EpisodeRecord} (hrecord : RecordOfBlock arithmetic fps blocks.length dataRows.length rows record) :
    BlocksOf arithmetic fps (blocks ++ [rows]) (dataRows ++ rows.map WrittenRow.data) (episodes ++ [record]) where
  dataRows_eq := by rw [h.dataRows_eq, List.flatten_append, List.flatten_singleton, List.map_append]
  length_eq := by rw [List.length_append, List.length_append, h.length_eq, List.length_singleton, List.length_singleton]
  records := by
    refine forall_getElem?_concat₂ h.length_eq ?_ ?_
    · intro episode rows' record' hrows hrecord'
      have hlt : episode < blocks.length := (List.getElem?_eq_some_iff.mp hrows).1
      rw [List.take_append_of_le_length hlt.le]
      exact h.records episode rows' record' hrows hrecord'
    · rw [h.dataRows_eq, List.length_map] at hrecord
      rwa [List.take_left]

end Blocks

/-! ## The writer -/

/-- What holds of the host, of the blocks of the episodes that are finished, and of the columns of the current one, if
there is one. -/
structure HostInvariant {σ ρ ω : Type} (copyHost : CopyHost σ ρ ω)
    (holds : σ → List (List (WrittenRow ρ ω)) → Option (List (ρ × ω)) → Prop) : Prop where
  initial : holds copyHost.initial [] none
  startEpisode : ∀ host blocks next, holds host blocks none →
    copyHost.startEpisode host (blocks.length : Nat) = .ok next → holds next blocks (some [])
  appendVisuals : ∀ host blocks current columns next, holds host blocks (some current) →
    copyHost.appendVisuals host current.length columns = .ok next →
      holds next.1 blocks (some (current ++ [(columns, next.2)]))
  finishEpisode : ∀ host blocks rows next, holds host blocks (some (rows.map WrittenRow.columns)) → rows ≠ [] →
    copyHost.finishEpisode host (rows.map WrittenRow.data) = .ok next → holds next (blocks ++ [rows]) none

namespace CopyWriter

variable {σ ρ ω : Type} {copyHost : CopyHost σ ρ ω} {arithmetic : Arithmetic} {fps : Nat}
  {holds : σ → List (List (WrittenRow ρ ω)) → Option (List (ρ × ω)) → Prop} {writer writer' : CopyWriter σ ω}
  {rows : List (InputRow ρ)} {blocks : List (List (WrittenRow ρ ω))} {current : List (WrittenRow ρ ω)}

/-- The columns of the current episode, if there is one. -/
def openColumns (writer : CopyWriter σ ω) (current : List (WrittenRow ρ ω)) : Option (List (ρ × ω)) :=
  if writer.hasCurrentEpisode then some (current.map WrittenRow.columns) else none

/-- The writer after some rows of the input: the episodes that are finished are the blocks, and the rows of the current
one are the start of the next. -/
structure FramesInvariant (arithmetic : Arithmetic) (fps : Nat)
    (holds : σ → List (List (WrittenRow ρ ω)) → Option (List (ρ × ω)) → Prop) (rows : List (InputRow ρ))
    (blocks : List (List (WrittenRow ρ ω))) (current : List (WrittenRow ρ ω)) (writer : CopyWriter σ ω) : Prop where
  host : holds writer.host blocks (openColumns writer current)
  rows_eq : rows = (blocks.flatten ++ current).map WrittenRow.input
  blocksOf : BlocksOf arithmetic fps blocks writer.dataRows writer.episodes
  totalFrames : writer.totalFrames = writer.dataRows.length
  totalEpisodes : writer.totalEpisodes = blocks.length
  currentData : writer.currentData = current.map WrittenRow.data
  current_nil : writer.hasCurrentEpisode = false → current = []
  currentEpisode : writer.hasCurrentEpisode = true → writer.currentEpisode = writer.totalEpisodes
  currentFrames : writer.hasCurrentEpisode = true → writer.currentEpisodeFrames = current.length
  block : writer.hasCurrentEpisode = true →
    EpisodeBlock arithmetic fps writer.totalEpisodes writer.totalFrames current

/-- The blocks and the current rows are not said. -/
def Numbered (arithmetic : Arithmetic) (fps : Nat)
    (holds : σ → List (List (WrittenRow ρ ω)) → Option (List (ρ × ω)) → Prop) (rows : List (InputRow ρ)) (writer : CopyWriter σ ω) : Prop :=
  ∃ blocks current, FramesInvariant arithmetic fps holds rows blocks current writer

theorem framesInvariant_initial (hhost : HostInvariant copyHost holds) (arithmetic : Arithmetic) (fps : Nat) :
    FramesInvariant arithmetic fps holds [] [] [] ({ host := copyHost.initial } : CopyWriter σ ω) where
  host := hhost.initial
  rows_eq := rfl
  blocksOf := blocksOf_nil
  totalFrames := rfl
  totalEpisodes := rfl
  currentData := rfl
  current_nil := fun _ => rfl
  currentEpisode hopen := absurd hopen Bool.false_ne_true
  currentFrames hopen := absurd hopen Bool.false_ne_true
  block hopen := absurd hopen Bool.false_ne_true

/-- A row is appended to the current episode. -/
theorem FramesInvariant.appendRow (h : FramesInvariant arithmetic fps holds rows blocks current writer)
    (hhost : HostInvariant copyHost holds) {row : InputRow ρ} (hcurrent : writer.hasCurrentEpisode = true)
    (hepisode : row.episodeIndex = some writer.currentEpisode)
    (happend : appendRun copyHost arithmetic fps writer [row] = .ok writer') :
    Numbered arithmetic fps holds (rows ++ [row]) writer' := by
  obtain ⟨⟨last, output⟩, hfold, rfl⟩ := except_map_eq_ok.mp happend
  rw [List.zipIdx_singleton, List.foldlM_cons, except_bind_eq_ok] at hfold
  obtain ⟨state, hrow, hlast⟩ := hfold
  cases hlast
  simp only [appendRunRow, except_bind_eq_ok] at hrow
  obtain ⟨⟨host, columns⟩, hvisuals, task, -, ⟨taskIndex, taskTable⟩, -, frame, hframe, index, hindex, hrow⟩ := hrow
  cases hrow
  have hframes := h.currentFrames hcurrent
  obtain rfl := numericCast_eq_ok hframe
  obtain rfl := numericCast_eq_ok hindex
  rw [Nat.add_zero, hframes, ← List.length_map WrittenRow.columns] at hvisuals
  refine ⟨blocks, current ++ [⟨row, ⟨generatedTimestamp arithmetic (writer.currentEpisodeFrames + 0) fps,
    (writer.currentEpisodeFrames + 0 : Nat), writer.currentEpisode,
    (writer.totalFrames + (writer.currentEpisodeFrames + 0) : Nat), taskIndex, columns⟩⟩], ?_, ?_, h.blocksOf, h.totalFrames, h.totalEpisodes, ?_, ?_, h.currentEpisode,
    ?_, ?_⟩
  · have hholds := h.host
    rw [openColumns, if_pos hcurrent] at hholds
    rw [openColumns, if_pos hcurrent, List.map_append]
    exact hhost.appendVisuals _ _ _ _ _ hholds hvisuals
  · simp only [h.rows_eq, List.map_append, List.append_assoc]
    rfl
  · rw [List.map_append, h.currentData]
    rfl
  · intro hclosed
    rw [hcurrent] at hclosed
    cases hclosed
  · intro _
    dsimp only
    rw [List.length_append, List.length_singleton, List.length_singleton, hframes]
  · intro _
    refine forall_getElem?_concat (h.block hcurrent) ?_
    dsimp only
    rw [Nat.add_zero, hframes, h.currentEpisode hcurrent]
    exact ⟨rfl, rfl, rfl, rfl, by rw [hepisode, h.currentEpisode hcurrent]⟩

/-- `FinishEpisode`: the rows of the episode are the next block. -/
theorem FramesInvariant.finishEpisode (h : FramesInvariant arithmetic fps holds rows blocks current writer)
    (hhost : HostInvariant copyHost holds) (hfinish : CopyWriter.finishEpisode copyHost writer = .ok writer') :
    (∃ blocks', FramesInvariant arithmetic fps holds rows blocks' [] writer') ∧ writer'.hasCurrentEpisode = false := by
  rw [CopyWriter.finishEpisode] at hfinish
  cases hcurrent : writer.hasCurrentEpisode with
  | false =>
      rw [hcurrent] at hfinish
      cases hfinish
      rw [h.current_nil hcurrent] at h
      exact ⟨⟨blocks, h⟩, hcurrent⟩
  | true =>
      rw [hcurrent] at hfinish
      change Except.bind _ _ = _ at hfinish
      obtain ⟨_, hnonempty, hfinish⟩ := except_bind_eq_ok.mp hfinish
      simp only [except_bind_eq_ok] at hfinish
      obtain ⟨host, hended, length, hlength, first, hfirst, last, hlast, hfinish⟩ := hfinish
      cases hfinish
      obtain rfl := numericCast_eq_ok hlength
      obtain rfl := numericCast_eq_ok hfirst
      obtain rfl := numericCast_eq_ok hlast
      have hframes := h.currentFrames hcurrent
      have hne : current ≠ [] := by
        intro hnil
        rw [hnil] at hframes
        exact ensure_eq_ok.mp hnonempty hframes
      have hrecord : RecordOfBlock arithmetic fps blocks.length writer.dataRows.length current
          ⟨writer.currentEpisode, writer.episodeTasks.tasks, writer.currentEpisodeFrames, writer.totalFrames,
            (writer.totalFrames + writer.currentEpisodeFrames : Nat)⟩ := by
        rw [← h.totalEpisodes, ← h.totalFrames]
        exact
          { episodeIndex := h.currentEpisode hcurrent
            nonempty := hne
            length := congrArg Nat.cast hframes
            fromIndex := rfl
            toIndex := congrArg (fun frames => ((writer.totalFrames + frames : Nat) : Int)) hframes
            block := h.block hcurrent }
      have hblocks := h.blocksOf.concat hrecord
      rw [← h.currentData] at hblocks
      rw [h.currentData] at hended
      have hholds := h.host
      rw [openColumns, if_pos hcurrent] at hholds
      refine ⟨⟨blocks ++ [current], hhost.finishEpisode _ _ _ _ hholds hne hended, ?_, hblocks, ?_, ?_, rfl,
        fun _ => rfl, fun hopen => absurd hopen Bool.false_ne_true, fun hopen => absurd hopen Bool.false_ne_true,
        fun hopen => absurd hopen Bool.false_ne_true⟩, rfl⟩
      · rw [h.rows_eq, List.flatten_append, List.flatten_singleton, List.append_nil]
      · dsimp only
        rw [List.length_append, h.totalFrames, hframes, h.currentData, List.length_map]
      · dsimp only
        rw [List.length_append, h.totalEpisodes, List.length_singleton]

/-- `StartEpisode`, when no episode is open. -/
theorem FramesInvariant.startEpisode (h : FramesInvariant arithmetic fps holds rows blocks [] writer)
    (hhost : HostInvariant copyHost holds) (hclosed : writer.hasCurrentEpisode = false) {episodeIndex : Int}
    (hstart : CopyWriter.startEpisode copyHost writer episodeIndex = .ok writer') :
    FramesInvariant arithmetic fps holds rows blocks [] writer' := by
  simp only [CopyWriter.startEpisode, except_bind_eq_ok] at hstart
  obtain ⟨expected, hexpected, _, hcheck, host, hstarted, hstart⟩ := hstart
  cases hstart
  obtain rfl := numericCast_eq_ok hexpected
  have hindex := ensure_eq_ok.mp hcheck
  rw [hindex, h.totalEpisodes] at hstarted
  have hholds := h.host
  rw [openColumns, if_neg (Bool.eq_false_iff.mp hclosed)] at hholds
  refine ⟨hhost.startEpisode _ _ _ hholds hstarted, h.rows_eq, h.blocksOf, h.totalFrames, h.totalEpisodes, rfl,
    fun hopen => absurd hopen.symm Bool.false_ne_true, fun _ => hindex, fun _ => rfl, ?_⟩
  intro _ frame row hget
  cases hget

theorem Numbered.enterEpisode (h : Numbered arithmetic fps holds rows writer)
    (hhost : HostInvariant copyHost holds) {episodeIndex : Int}
    (henter : CopyWriter.enterEpisode copyHost writer episodeIndex = .ok writer') :
    Numbered arithmetic fps holds rows writer' := by
  obtain ⟨blocks, current, h⟩ := h
  rw [CopyWriter.enterEpisode] at henter
  split at henter
  · rename_i hclosed
    rw [Bool.not_eq_eq_eq_not, Bool.not_true] at hclosed
    rw [h.current_nil hclosed] at h
    exact ⟨blocks, [], h.startEpisode hhost hclosed henter⟩
  · split at henter
    · obtain ⟨between, hfinish, hstart⟩ := except_bind_eq_ok.mp henter
      obtain ⟨⟨blocks', hbetween⟩, hclosed⟩ := h.finishEpisode hhost hfinish
      exact ⟨blocks', [], hbetween.startEpisode hhost hclosed hstart⟩
    · cases henter
      exact ⟨blocks, current, h⟩

/-- A row of the input. -/
theorem Numbered.rowStep (h : Numbered arithmetic fps holds rows writer) (hhost : HostInvariant copyHost holds)
    {row : InputRow ρ} (hstep : CopyWriter.rowStep copyHost arithmetic fps writer row = .ok writer') :
    Numbered arithmetic fps holds (rows ++ [row]) writer' := by
  simp only [CopyWriter.rowStep, except_bind_eq_ok] at hstep
  obtain ⟨episodeIndex, hepisode, entered, henter, happend⟩ := hstep
  obtain ⟨hcurrent, hindex⟩ := enterEpisode_current henter
  obtain ⟨blocks, current, hentered⟩ := h.enterEpisode hhost henter
  refine hentered.appendRow hhost hcurrent ?_ happend
  rw [hindex]
  cases hrow : row.episodeIndex with
  | none =>
      rw [hrow] at hepisode
      cases hepisode
  | some value =>
      rw [hrow] at hepisode
      cases hepisode
      rfl

/-- The chunks of the input. -/
theorem numbered_chunks (hhost : HostInvariant copyHost holds) {chunks : List (List (InputRow ρ))}
    (h : chunks.foldlM (process copyHost arithmetic fps) { host := copyHost.initial } = .ok writer) :
    Numbered arithmetic fps holds chunks.flatten writer := by
  refine foldlM_ok (I := fun seen writer => Numbered arithmetic fps holds seen.flatten writer) h
    ⟨[], [], framesInvariant_initial hhost arithmetic fps⟩ ?_
  intro seen chunk rest before after _ hbefore hround
  rw [process_eq] at hround
  obtain ⟨_, -, hrows⟩ := except_bind_eq_ok.mp hround
  rw [List.flatten_append, List.flatten_singleton]
  refine foldlM_ok (I := fun prior writer => Numbered arithmetic fps holds (seen.flatten ++ prior) writer) hrows ?_ ?_
  · rwa [List.append_nil]
  · intro prior row _ middle middle' _ hmiddle hstep
    rw [← List.append_assoc]
    exact hmiddle.rowStep hhost hstep

/-! ## A whole copy -/

/-- `Finalize`, with what it leaves of the host. -/
def finalizeHost (copyHost : CopyHost σ ρ ω) (writer : CopyWriter σ ω) :
    Except CopyException (WrittenDataset ω × σ) := do
  let writer ← CopyWriter.finishEpisode copyHost writer
  let host ← copyHost.finalize writer.host
  let taskFile ← writeTasks writer.taskTable.tasks
  .ok (⟨writer.dataRows, writer.episodes, taskFile, writer.taskTable.tasks.length⟩, host)

/-- A copy of the chunks, with what it leaves of the host. -/
def copyHostRows (copyHost : CopyHost σ ρ ω) (arithmetic : Arithmetic) (fps : Nat)
    (chunks : List (List (InputRow ρ))) : Except CopyException (WrittenDataset ω × σ) :=
  chunks.foldlM (process copyHost arithmetic fps) { host := copyHost.initial } >>= finalizeHost copyHost

/-- The dataset is the one that is written without looking at the host. -/
theorem copyRows_eq_ok (copyHost : CopyHost σ ρ ω) (arithmetic : Arithmetic) (fps : Nat)
    (chunks : List (List (InputRow ρ))) (dataset : WrittenDataset ω) :
    copyRows copyHost arithmetic fps chunks = .ok dataset ↔
      ∃ host, copyHostRows copyHost arithmetic fps chunks = .ok (dataset, host) := by
  simp only [copyRows, copyHostRows, finalize, finalizeHost, except_bind_eq_ok, Except.ok.injEq, Prod.mk.injEq]
  constructor
  · rintro ⟨writer, hchunks, last, hfinish, host, hhost, taskFile, htasks, hdataset⟩
    exact ⟨host, writer, hchunks, last, hfinish, host, hhost, taskFile, htasks, hdataset, rfl⟩
  · rintro ⟨_, writer, hchunks, last, hfinish, host, hhost, taskFile, htasks, hdataset, -⟩
    exact ⟨writer, hchunks, last, hfinish, host, hhost, taskFile, htasks, hdataset⟩

/-- The blocks of a copy, and its host before and after `Finalize`. -/
theorem copyHostRows_blocks (hhost : HostInvariant copyHost holds) {chunks : List (List (InputRow ρ))}
    {dataset : WrittenDataset ω} {final : σ}
    (h : copyHostRows copyHost arithmetic fps chunks = .ok (dataset, final)) :
    ∃ blocks last, BlocksOf arithmetic fps blocks dataset.dataRows dataset.episodes ∧
      blocks.flatten.map WrittenRow.input = chunks.flatten ∧ holds last blocks none ∧
        copyHost.finalize last = .ok final := by
  obtain ⟨writer, hchunks, hfinalize⟩ := except_bind_eq_ok.mp h
  simp only [finalizeHost, except_bind_eq_ok] at hfinalize
  obtain ⟨last, hfinish, host, hlast, taskFile, -, hdataset⟩ := hfinalize
  cases hdataset
  obtain ⟨blocks, current, hinvariant⟩ := numbered_chunks hhost hchunks
  obtain ⟨⟨blocks', hfinished⟩, hclosed⟩ := hinvariant.finishEpisode hhost hfinish
  have hholds := hfinished.host
  rw [openColumns, if_neg (Bool.eq_false_iff.mp hclosed)] at hholds
  refine ⟨blocks', last.host, hfinished.blocksOf, ?_, hholds, hlast⟩
  rw [hfinished.rows_eq, List.append_nil]

end CopyWriter

open CopyWriter

/-- **Every copy numbers its frames.** The rows of the data are the blocks of the episodes, one after another; the
index of a row is its place among all rows, its frame index the place in its block, and its timestamp that of the frame;
the row of the episode `i` has the number `i`, the length of its block, which is not zero, and the first and the last
place of the block. The block has the rows of the input with this episode. -/
theorem copyRows_framesNumbered {σ ρ ω : Type} (copyHost : CopyHost σ ρ ω) (arithmetic : Arithmetic) (fps : Nat)
    (chunks : List (List (InputRow ρ))) (dataset : WrittenDataset ω)
    (h : copyRows copyHost arithmetic fps chunks = .ok dataset) :
    FramesNumbered arithmetic fps chunks.flatten dataset := by
  have hhost : HostInvariant copyHost fun _ _ _ => True := by constructor <;> intros <;> trivial
  obtain ⟨final, hcopy⟩ := (copyRows_eq_ok copyHost arithmetic fps chunks dataset).mp h
  obtain ⟨blocks, _, hblocks, hrows, -⟩ := copyHostRows_blocks hhost hcopy
  exact ⟨blocks, hblocks, hrows⟩

theorem sortingChunks_framesNumbered : ∃ dataset, copyRows silentHost .exact 30 sortingChunks = .ok dataset ∧
    FramesNumbered .exact 30 sortingChunks.flatten dataset := by
  cases h : copyRows silentHost .exact 30 sortingChunks with
  | error thrown =>
      have hok : (copyRows silentHost .exact 30 sortingChunks).isOk = true := by decide +kernel
      rw [h] at hok
      cases hok
  | ok dataset => exact ⟨dataset, rfl, copyRows_framesNumbered silentHost .exact 30 sortingChunks dataset h⟩

end DuckdbLerobot.Copy
