import DuckdbLerobot.Copy.FrameIndexes
import DuckdbLerobot.Copy.EpisodesWriter
import DuckdbLerobot.Library.BinPlaces

/-!
# The files of the data

At its end an episode writes its rows to the file of the data that is open. When this file is large enough, it is
closed before, and the episode opens the next one. So the files are bins of episodes: all rows of an episode are in one
file, behind those of the episodes before it in this file, and the row of the episode names the file
(`copyHostRows_dataFiles`).
-/

set_option autoImplicit false

namespace DuckdbLerobot.Copy

open DuckdbLerobot.Library DuckdbLerobot.Path

/-- What the files of the data depend on: DuckDB's writer, the option, and the answers of `SizeAtLeast`, for the file
that is open and the length of the episode. -/
structure DataContext (ω : Type) where
  function : ParquetFunction (DataRow ω)
  chunksSize : Nat
  sizeAtLeast : ParquetFile (DataRow ω) → Nat → Except CopyException Bool

/-- The part of `LerobotCopyGlobalData` with the files of the data. `episodeFiles` are the values of
`episode_data_chunk` and `episode_data_file`, which the rows of the episodes get. -/
structure DataFiles (ω : Type) where
  dataWriter : DelegatedParquetWriter (DataRow ω) := {}
  dataIndex : FileIndex := {}
  episodeFiles : List FileIndex := []

/-- The rest of the writer, apart from the files of the data. `computeEpisodeStats` is what `FinishEpisode` does before
it writes the data of the episode, `encodeEpisode` what it does afterwards, with the file of the data; `flushEpisodes`
and `closeEpisodes` are the steps of `Finalize` before and after the file of the data is closed. -/
structure EpisodeHost (σ ρ ω : Type) where
  initial : σ
  checkChunk : List (InputRow ρ) → Except CopyException Unit
  startEpisode : σ → Int → Except CopyException σ
  appendVisuals : σ → Nat → ρ → Except CopyException (σ × ω)
  computeEpisodeStats : σ → List (DataRow ω) → Except CopyException σ
  encodeEpisode : σ → FileIndex → Except CopyException σ
  flushEpisodes : σ → Except CopyException σ
  closeEpisodes : σ → Except CopyException σ

section Writer

variable {σ ρ ω : Type}

namespace DataFiles

variable (context : DataContext ω)

/-- The first part of `EnsureDataWriter`: a file that is large enough is closed. -/
def rotate (episodeLength : Nat) (files : DataFiles ω) : Except CopyException (DataFiles ω) :=
  match files.dataWriter.globalData with
  | none => .ok files
  | some file => do
      if ← context.sizeAtLeast file episodeLength then
        let writer ← files.dataWriter.close context.function
        .ok { files with
              dataWriter := writer
              dataIndex := advanceFileIndex context.chunksSize files.dataIndex }
      else .ok files

/-- The second part of `EnsureDataWriter`: there is an open file. -/
def openData (files : DataFiles ω) : Except CopyException (DelegatedParquetWriter (DataRow ω)) :=
  if files.dataWriter.globalData.isNone then
    files.dataWriter.openFile context.function
      (dataRelativePath files.dataIndex.chunkIndex files.dataIndex.fileIndex)
  else .ok files.dataWriter

/-- `EnsureDataWriter`, and the rows of the episode. -/
def writeEpisode (rows : List (DataRow ω)) (files : DataFiles ω) : Except CopyException (DataFiles ω) := do
  let files ← files.rotate context rows.length
  let writer ← files.openData context
  let writer ← writer.flush context.function rows
  .ok { files with dataWriter := writer, episodeFiles := files.episodeFiles ++ [files.dataIndex] }

end DataFiles

/-- The host of a copy, with the files of the data. -/
def EpisodeHost.withDataFiles (context : DataContext ω) (episodeHost : EpisodeHost σ ρ ω) :
    CopyHost (σ × DataFiles ω) ρ ω where
  initial := (episodeHost.initial, {})
  checkChunk := episodeHost.checkChunk
  startEpisode host episodeIndex := (episodeHost.startEpisode host.1 episodeIndex).map fun inner => (inner, host.2)
  appendVisuals host frameIndex columns :=
    (episodeHost.appendVisuals host.1 frameIndex columns).map fun result => ((result.1, host.2), result.2)
  finishEpisode host rows := do
    let inner ← episodeHost.computeEpisodeStats host.1 rows
    let files ← host.2.writeEpisode context rows
    let inner ← episodeHost.encodeEpisode inner files.dataIndex
    .ok (inner, files)
  finalize host := do
    let inner ← episodeHost.flushEpisodes host.1
    let writer ← host.2.dataWriter.close context.function
    let inner ← episodeHost.closeEpisodes inner
    .ok (inner, { host.2 with dataWriter := writer })

/-! ## The bins of the episodes -/

/-- The path of a file of the data. -/
def dataPath (index : FileIndex) : StagedPath := dataRelativePath index.chunkIndex index.fileIndex

/-- The file of a bin with its number: the rows of its episodes. -/
def dataFile (chunksSize : Nat) (bin : List (List (DataRow ω)) × Nat) : ParquetFile (DataRow ω) :=
  ⟨dataPath (numberedFile chunksSize bin.2), bin.1.flatten⟩

/-- The files are those of the bins, and the rows of the episodes name the bins of their places. -/
structure DataPacked (chunksSize : Nat) (packing : Packing (List (DataRow ω)))
    (places : List (BinPlace (List (DataRow ω)))) (files : DataFiles ω) : Prop where
  closed : files.dataWriter.closed = packing.closed.zipIdx.map (dataFile chunksSize)
  globalData : files.dataWriter.globalData =
    if packing.pending = [] then none else some (dataFile chunksSize (packing.pending, packing.closed.length))
  dataIndex : files.dataIndex = numberedFile chunksSize packing.closed.length
  episodeFiles : files.episodeFiles = places.map fun place => numberedFile chunksSize place.bin

section Steps

variable {context : DataContext ω} {chunksSize : Nat} {packing : Packing (List (DataRow ω))}
  {places : List (BinPlace (List (DataRow ω)))} {files files' : DataFiles ω}

theorem dataPacked_initial (chunksSize : Nat) : DataPacked chunksSize {} [] ({} : DataFiles ω) where
  closed := rfl
  globalData := rfl
  dataIndex := by
    rw [List.length_nil, numberedFile, Nat.zero_div, Nat.zero_mod]
  episodeFiles := rfl

/-- There is an open file if and only if the open bin has an episode. -/
theorem DataPacked.pending_eq_nil (h : DataPacked chunksSize packing places files) :
    files.dataWriter.globalData = none ↔ packing.pending = [] := by
  rw [h.globalData]
  split
  · rename_i hpending
    exact iff_of_true rfl hpending
  · rename_i hpending
    exact iff_of_false (Option.some_ne_none _) hpending

/-- The files when the open one has been closed. -/
theorem DataPacked.closed_file (h : DataPacked chunksSize packing places files) {file : ParquetFile (DataRow ω)}
    (hopen : files.dataWriter.globalData = some file) :
    files.dataWriter.closed ++ [file] = (packing.closed ++ [packing.pending]).zipIdx.map (dataFile chunksSize) := by
  have hdata := h.globalData
  rw [hopen] at hdata
  split at hdata
  · cases hdata
  · rw [List.zipIdx_append, List.map_append, ← h.closed, Option.some.inj hdata, Nat.zero_add]
    rfl

/-- A file that is large enough is closed, and the next episode has the next number. -/
theorem DataPacked.rotate (h : DataPacked context.chunksSize packing places files) (hchunks : 0 < context.chunksSize)
    {episodeLength : Nat} (hrotate : files.rotate context episodeLength = .ok files') :
    ∃ close, (close = true → packing.pending ≠ []) ∧
      DataPacked context.chunksSize (packing.rotate close) places files' := by
  rw [DataFiles.rotate] at hrotate
  cases hopen : files.dataWriter.globalData with
  | none =>
      rw [hopen] at hrotate
      cases hrotate
      exact ⟨false, fun hclose => absurd hclose Bool.false_ne_true, h⟩
  | some file =>
      rw [hopen] at hrotate
      obtain ⟨close, -, hclose⟩ := except_bind_eq_ok.mp hrotate
      cases close with
      | false =>
          cases hclose
          exact ⟨false, fun hclose => absurd hclose Bool.false_ne_true, h⟩
      | true =>
          rw [if_pos rfl, DelegatedParquetWriter.close, hopen] at hclose
          obtain ⟨writer, hwriter, hfiles⟩ := except_bind_eq_ok.mp hclose
          obtain ⟨_, -, rfl⟩ := except_map_eq_ok.mp hwriter
          cases hfiles
          refine ⟨true, ?_, h.closed_file hopen, rfl, ?_, h.episodeFiles⟩
          · rintro - hpending
            rw [h.pending_eq_nil.mpr hpending] at hopen
            cases hopen
          · rw [h.dataIndex, advanceFileIndex_numberedFile hchunks, Packing.rotate, if_pos rfl, List.length_append,
              List.length_singleton]

/-- **The rows of an episode.** They are in the open file, which is the file of the last bin. -/
theorem DataPacked.flush (h : DataPacked context.chunksSize packing places files) {rows : List (DataRow ω)}
    {opened writer : DelegatedParquetWriter (DataRow ω)} (hopened : files.openData context = .ok opened)
    (hflush : opened.flush context.function rows = .ok writer) :
    DataPacked context.chunksSize { packing with pending := packing.pending ++ [rows] }
      (places ++ [⟨packing.closed.length, packing.pending⟩])
      { files with dataWriter := writer, episodeFiles := files.episodeFiles ++ [files.dataIndex] } := by
  have hfile : opened.closed = files.dataWriter.closed ∧
      opened.globalData = some (dataFile context.chunksSize (packing.pending, packing.closed.length)) := by
    rw [DataFiles.openData] at hopened
    split at hopened
    · rename_i hnone
      simp only [DelegatedParquetWriter.openFile, except_bind_eq_ok] at hopened
      obtain ⟨_, -, _, -, hopened⟩ := hopened
      cases hopened
      refine ⟨rfl, ?_⟩
      rw [h.pending_eq_nil.mp (Option.isNone_iff_eq_none.mp hnone), h.dataIndex]
      rfl
    · rename_i hsome
      cases hopened
      refine ⟨rfl, ?_⟩
      have hpending : packing.pending ≠ [] := fun hnil =>
        hsome (Option.isNone_iff_eq_none.mpr (h.pending_eq_nil.mpr hnil))
      rw [h.globalData, if_neg hpending]
  rw [DelegatedParquetWriter.flush, hfile.2] at hflush
  dsimp only at hflush
  split at hflush
  · cases hflush
  · obtain ⟨_, -, rfl⟩ := except_map_eq_ok.mp hflush
    constructor
    · exact hfile.1.trans h.closed
    · rw [if_neg (List.append_ne_nil_of_right_ne_nil _ (List.cons_ne_nil _ _)), dataFile, dataFile,
        List.flatten_append, List.flatten_singleton]
    · exact h.dataIndex
    · rw [List.map_append, h.episodeFiles, h.dataIndex]
      rfl

/-- An episode is put into the bin of its file. -/
theorem DataPacked.writeEpisode (h : DataPacked context.chunksSize packing places files)
    (hchunks : 0 < context.chunksSize) {rows : List (DataRow ω)}
    (hwrite : files.writeEpisode context rows = .ok files') :
    ∃ close, (close = true → packing.pending ≠ []) ∧
      DataPacked context.chunksSize (packing.put close rows) (places ++ [packing.nextPlace close]) files' := by
  simp only [DataFiles.writeEpisode, except_bind_eq_ok] at hwrite
  obtain ⟨rotated, hrotate, opened, hopened, writer, hflush, hfiles⟩ := hwrite
  cases hfiles
  obtain ⟨close, hclose, hrotated⟩ := h.rotate hchunks hrotate
  exact ⟨close, hclose, hrotated.flush hopened hflush⟩

/-- At last the open file is closed, if there is one. -/
theorem DataPacked.close (h : DataPacked chunksSize packing places files)
    {writer : DelegatedParquetWriter (DataRow ω)} (hclose : files.dataWriter.close context.function = .ok writer) :
    writer.globalData = none ∧ writer.closed = packing.bins.zipIdx.map (dataFile chunksSize) := by
  rw [DelegatedParquetWriter.close] at hclose
  cases hopen : files.dataWriter.globalData with
  | none =>
      rw [hopen] at hclose
      cases hclose
      rw [Packing.bins, if_pos (h.pending_eq_nil.mp hopen)]
      exact ⟨hopen, h.closed⟩
  | some file =>
      rw [hopen] at hclose
      obtain ⟨_, -, rfl⟩ := except_map_eq_ok.mp hclose
      rw [Packing.bins, if_neg, ← h.closed_file hopen]
      · exact ⟨rfl, rfl⟩
      · intro hpending
        rw [h.pending_eq_nil.mpr hpending] at hopen
        cases hopen

end Steps

/-! ## A whole copy -/

/-- What holds of the rest of the writer, of the blocks of the episodes that are finished, and of the columns of the
current one, if there is one. -/
structure EpisodeHostInvariant (episodeHost : EpisodeHost σ ρ ω)
    (holds : σ → List (List (WrittenRow ρ ω)) → Option (List (ρ × ω)) → Prop) : Prop where
  initial : holds episodeHost.initial [] none
  startEpisode : ∀ inner blocks next, holds inner blocks none →
    episodeHost.startEpisode inner (blocks.length : Nat) = .ok next → holds next blocks (some [])
  appendVisuals : ∀ inner blocks current columns next, holds inner blocks (some current) →
    episodeHost.appendVisuals inner current.length columns = .ok next →
      holds next.1 blocks (some (current ++ [(columns, next.2)]))
  finishEpisode : ∀ inner blocks rows computed index next, holds inner blocks (some (rows.map WrittenRow.columns)) →
    rows ≠ [] → episodeHost.computeEpisodeStats inner (rows.map WrittenRow.data) = .ok computed →
      episodeHost.encodeEpisode computed index = .ok next → holds next (blocks ++ [rows]) none

/-- The rows of the data in the blocks. -/
def dataBlocks (blocks : List (List (WrittenRow ρ ω))) : List (List (DataRow ω)) :=
  blocks.map (List.map WrittenRow.data)

/-- The files of the data keep the invariant of the rest of the writer, and they are bins of the episodes. -/
theorem EpisodeHostInvariant.withDataFiles {episodeHost : EpisodeHost σ ρ ω}
    {holds : σ → List (List (WrittenRow ρ ω)) → Option (List (ρ × ω)) → Prop} (hinner : EpisodeHostInvariant episodeHost holds)
    {context : DataContext ω} (hchunks : 0 < context.chunksSize) :
    HostInvariant (episodeHost.withDataFiles context) fun host blocks current => holds host.1 blocks current ∧
      ∃ packing places, PlacesOf packing (dataBlocks blocks) places ∧
        DataPacked context.chunksSize packing places host.2 where
  initial := ⟨hinner.initial, {}, [], placesOf_nil, dataPacked_initial context.chunksSize⟩
  startEpisode := by
    rintro host blocks next ⟨hholds, hpacked⟩ hstart
    obtain ⟨inner, hinnerStart, rfl⟩ := except_map_eq_ok.mp hstart
    exact ⟨hinner.startEpisode _ _ _ hholds hinnerStart, hpacked⟩
  appendVisuals := by
    rintro host blocks current columns next ⟨hholds, hpacked⟩ happend
    obtain ⟨result, hresult, rfl⟩ := except_map_eq_ok.mp happend
    exact ⟨hinner.appendVisuals _ _ _ _ _ hholds hresult, hpacked⟩
  finishEpisode := by
    rintro host blocks rows next ⟨hholds, packing, places, hplaced, hpacked⟩ hrows hfinish
    simp only [EpisodeHost.withDataFiles, except_bind_eq_ok] at hfinish
    obtain ⟨computed, hcomputed, files, hwrite, encoded, hencoded, hnext⟩ := hfinish
    cases hnext
    obtain ⟨close, hclose, hfiles⟩ := hpacked.writeEpisode hchunks hwrite
    refine ⟨hinner.finishEpisode _ _ _ _ _ _ hholds hrows hcomputed hencoded, _, _, ?_, hfiles⟩
    rw [dataBlocks, List.map_append, List.map_singleton]
    exact hplaced.put hclose (rows.map WrittenRow.data)

/-- The files of the data, for the blocks of the episodes. The file with the number `k` has the rows of the bin `k`. -/
structure DataWritten (chunksSize : Nat) (blocks : List (List (DataRow ω))) (bins : List (List (List (DataRow ω))))
    (files : DataFiles ω) : Prop where
  flatten_eq : bins.flatten = blocks
  nonempty : ∀ bin ∈ bins, bin ≠ []
  globalData : files.dataWriter.globalData = none
  closed : files.dataWriter.closed = bins.zipIdx.map (dataFile chunksSize)
  length_eq : files.episodeFiles.length = blocks.length
  /-- The episode is in the file that its row names, behind the episodes before it. -/
  episodes : ∀ episode rows, blocks[episode]? = some rows → ∃ place, PlacedAt bins episode rows place ∧
    files.episodeFiles[episode]? = some (numberedFile chunksSize place.bin)

section Written

variable {chunksSize : Nat} {blocks : List (List (DataRow ω))} {bins : List (List (List (DataRow ω)))}
  {files : DataFiles ω}

/-- The rows of the files are those of the episodes, in their order. -/
theorem DataWritten.rows_eq (h : DataWritten chunksSize blocks bins files) :
    files.dataWriter.closed.flatMap ParquetFile.rows = blocks.flatten := by
  rw [h.closed, List.flatMap_map, ← h.flatten_eq, List.flatten_flatten, List.flatMap_def]
  have hrows : (bins.zipIdx.map fun bin => (dataFile chunksSize bin).rows) = bins.map List.flatten := by
    conv_rhs => rw [← List.zipIdx_map_fst 0 bins, List.map_map]
    rfl
  rw [hrows]

/-- The files are numbered, and there are no two with one path. -/
theorem DataWritten.paths (h : DataWritten chunksSize blocks bins files) :
    files.dataWriter.closed.map ParquetFile.path =
        (List.range files.dataWriter.closed.length).map (fun number => dataPath (numberedFile chunksSize number)) ∧
      (files.dataWriter.closed.map ParquetFile.path).Nodup := by
  have hpaths : files.dataWriter.closed.map ParquetFile.path =
      (List.range files.dataWriter.closed.length).map fun number => dataPath (numberedFile chunksSize number) := by
    rw [h.closed, List.map_map, List.length_map, List.length_zipIdx, List.range_eq_range', ← List.zipIdx_map_snd 0 bins,
      List.map_map]
    rfl
  have hinjective : Function.Injective dataPath := by
    rintro ⟨chunkIndex, fileIndex⟩ ⟨chunkIndex', fileIndex'⟩ heq
    cases heq
    rfl
  refine ⟨hpaths, ?_⟩
  rw [hpaths]
  exact List.nodup_range.map (hinjective.comp numberedFile_injective)

/-- **A row is in the file that the row of its episode names.** -/
theorem DataWritten.row_file {written : List (List (WrittenRow ρ ω))}
    (h : DataWritten chunksSize (dataBlocks written) bins files) {arithmetic : Arithmetic} {fps : Nat}
    {dataRows : List (DataRow ω)} {records : List EpisodeRecord}
    (hblocks : BlocksOf arithmetic fps written dataRows records) {file : ParquetFile (DataRow ω)}
    (hfile : file ∈ files.dataWriter.closed) {row : DataRow ω} (hrow : row ∈ file.rows) :
    ∃ (episode : Nat) (index : FileIndex), row.episodeIndex = (episode : Int) ∧
      files.episodeFiles[episode]? = some index ∧ file.path = dataPath index := by
  rw [h.closed] at hfile
  obtain ⟨⟨bin, number⟩, hbin, rfl⟩ := List.mem_map.mp hfile
  obtain ⟨rows, hrows, hrow⟩ := List.mem_flatten.mp hrow
  obtain ⟨episode, before, hplace⟩ := exists_placedAt (List.mem_zipIdx_iff_getElem?.mp hbin) hrows
  have hepisode : (dataBlocks written)[episode]? = some rows := h.flatten_eq ▸ hplace.getElem?_flatten
  obtain ⟨place, hplace', hindex⟩ := h.episodes episode rows hepisode
  refine ⟨episode, _, ?_, hindex, ?_⟩
  · rw [dataBlocks, List.getElem?_map, Option.map_eq_some_iff] at hepisode
    obtain ⟨block, hblock, rfl⟩ := hepisode
    obtain ⟨hlt, hget⟩ := List.getElem?_eq_some_iff.mp hblock
    have hrecord := hblocks.records episode block _ hblock (List.getElem?_eq_getElem (hblocks.length_eq ▸ hlt))
    obtain ⟨written, hwritten, rfl⟩ := List.mem_map.mp hrow
    obtain ⟨frame, hframe⟩ := List.mem_iff_getElem?.mp hwritten
    exact (hrecord.block frame written hframe).2.2.1
  · rw [hplace'.bin_eq hplace]
    rfl

end Written

open CopyWriter

/-- What a copy leaves: the blocks of its rows, the files of the data with their bins, and the rest of the writer before
`Finalize`. -/
theorem copyHostRows_written {episodeHost : EpisodeHost σ ρ ω}
    {holds : σ → List (List (WrittenRow ρ ω)) → Option (List (ρ × ω)) → Prop} (hinner : EpisodeHostInvariant episodeHost holds)
    {context : DataContext ω} (hchunks : 0 < context.chunksSize) {arithmetic : Arithmetic} {fps : Nat}
    {chunks : List (List (InputRow ρ))} {dataset : WrittenDataset ω} {host : σ × DataFiles ω}
    (h : copyHostRows (episodeHost.withDataFiles context) arithmetic fps chunks = .ok (dataset, host)) :
    ∃ blocks bins last flushed, BlocksOf arithmetic fps blocks dataset.dataRows dataset.episodes ∧
      blocks.flatten.map WrittenRow.input = chunks.flatten ∧
      DataWritten context.chunksSize (dataBlocks blocks) bins host.2 ∧ holds last blocks none ∧
      episodeHost.flushEpisodes last = .ok flushed ∧ episodeHost.closeEpisodes flushed = .ok host.1 := by
  obtain ⟨blocks, last, hblocks, hrows, ⟨hholds, packing, places, hplaced, hpacked⟩, hfinalize⟩ :=
    copyHostRows_blocks (hinner.withDataFiles hchunks) h
  simp only [EpisodeHost.withDataFiles, except_bind_eq_ok] at hfinalize
  obtain ⟨flushed, hflush, writer, hclose, closed, hclosed, hhost⟩ := hfinalize
  cases hhost
  obtain ⟨hnone, hfiles⟩ := hpacked.close hclose
  refine ⟨blocks, packing.bins, last.1, flushed, hblocks, hrows, ?_, hholds, hflush, hclosed⟩
  exact
    { flatten_eq := hplaced.flatten_eq
      nonempty := hplaced.nonempty
      globalData := hnone
      closed := hfiles
      length_eq := by rw [hpacked.episodeFiles, List.length_map, hplaced.length_eq]
      episodes := by
        intro episode rows hepisode
        obtain ⟨hlt, -⟩ := List.getElem?_eq_some_iff.mp hepisode
        have hplace := List.getElem?_eq_getElem (hplaced.length_eq ▸ hlt)
        refine ⟨_, hplaced.placed episode rows _ hepisode hplace, ?_⟩
        rw [hpacked.episodeFiles, List.getElem?_map, hplace]
        rfl }

/-- **Every copy writes each row once, to the file that the row of its episode names.** The rows of the files of the
data, from the first file to the last, are the rows of the dataset, which are numbered; the files have the numbers from
zero on, and each has the episodes of a bin. For any host that does the rest, and for any answers of `SizeAtLeast`. -/
theorem copyHostRows_dataFiles (episodeHost : EpisodeHost σ ρ ω) (context : DataContext ω)
    (hchunks : 0 < context.chunksSize) (arithmetic : Arithmetic) (fps : Nat) (chunks : List (List (InputRow ρ)))
    (dataset : WrittenDataset ω) (host : σ × DataFiles ω)
    (h : copyHostRows (episodeHost.withDataFiles context) arithmetic fps chunks = .ok (dataset, host)) :
    ∃ blocks bins, BlocksOf arithmetic fps blocks dataset.dataRows dataset.episodes ∧
      blocks.flatten.map WrittenRow.input = chunks.flatten ∧
      DataWritten context.chunksSize (dataBlocks blocks) bins host.2 ∧
      host.2.dataWriter.closed.flatMap ParquetFile.rows = dataset.dataRows ∧
      (host.2.dataWriter.closed.map ParquetFile.path).Nodup ∧
      ∀ file ∈ host.2.dataWriter.closed, ∀ row ∈ file.rows, ∃ (episode : Nat) (index : FileIndex),
        row.episodeIndex = (episode : Int) ∧ host.2.episodeFiles[episode]? = some index ∧
          file.path = dataPath index := by
  have hinner : EpisodeHostInvariant episodeHost fun _ _ _ => True := by constructor <;> intros <;> trivial
  obtain ⟨blocks, bins, _, _, hblocks, hrows, hwritten, -⟩ := copyHostRows_written hinner hchunks h
  refine ⟨blocks, bins, hblocks, hrows, hwritten, ?_, hwritten.paths.2, ?_⟩
  · rw [hwritten.rows_eq, hblocks.dataRows_eq, dataBlocks, List.map_flatten]
  · intro file hfile row hrow
    exact hwritten.row_file hblocks hfile hrow

end Writer

/-- A host that does nothing besides. -/
def silentEpisodes : EpisodeHost Unit Nat Nat where
  initial := ()
  checkChunk _ := .ok ()
  startEpisode _ _ := .ok ()
  appendVisuals _ _ columns := .ok ((), columns)
  computeEpisodeStats _ _ := .ok ()
  encodeEpisode _ _ := .ok ()
  flushEpisodes _ := .ok ()
  closeEpisodes _ := .ok ()

/-- Files that are large enough with three rows. -/
def threeRowFiles (ω : Type) : DataContext ω where
  function := ⟨fun _ => .ok (), fun _ _ => .ok (), fun _ => .ok ()⟩
  chunksSize := 1
  sizeAtLeast file _ := .ok (decide (3 ≤ file.rows.length))

open CopyWriter in
theorem sortingChunks_dataFiles : ∃ dataset host,
    copyHostRows (silentEpisodes.withDataFiles (threeRowFiles Nat)) .exact 30 sortingChunks = .ok (dataset, host) ∧
      host.2.dataWriter.closed.flatMap ParquetFile.rows = dataset.dataRows ∧
      host.2.dataWriter.closed.map ParquetFile.path = [.data 0 0, .data 1 0] := by
  have hpaths : (copyHostRows (silentEpisodes.withDataFiles (threeRowFiles Nat)) .exact 30 sortingChunks).toOption.map
      (fun result => result.2.2.dataWriter.closed.map ParquetFile.path) = some [.data 0 0, .data 1 0] := by
    decide +kernel
  cases h : copyHostRows (silentEpisodes.withDataFiles (threeRowFiles Nat)) .exact 30 sortingChunks with
  | error thrown =>
      rw [h] at hpaths
      cases hpaths
  | ok result =>
      obtain ⟨dataset, host⟩ := result
      obtain ⟨_, _, -, -, -, hrows, -⟩ := copyHostRows_dataFiles silentEpisodes (threeRowFiles Nat) Nat.one_pos .exact 30
        sortingChunks dataset host h
      rw [h] at hpaths
      exact ⟨dataset, host, rfl, hrows, Option.some.inj hpaths⟩

end DuckdbLerobot.Copy
