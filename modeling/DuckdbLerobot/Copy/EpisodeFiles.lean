import DuckdbLerobot.Copy.EpisodeSchema
import DuckdbLerobot.Copy.EpisodesWriter

/-!
# The files of the episodes and the columns that name them

The last two columns of an episode name the file of its row. The row is in the file that they name, once, and
the files are in the order of the episodes (`episodes_writtenOnce`).
-/

set_option autoImplicit false

namespace DuckdbLerobot.Copy

open DuckdbLerobot.Library DuckdbLerobot.Path DuckdbLerobot.Storage DuckdbLerobot.Video

variable {α : Type}

/-- The values of the last two columns of a row. -/
def metadataValues (index : FileIndex) : List (EpisodeValue α) :=
  [.integer .bigint index.chunkIndex, .integer .bigint index.fileIndex]

/-- The last two columns of a row, with their values. -/
def metadataColumns (index : FileIndex) : List (Text × EpisodeValue α) :=
  [("meta/episodes/chunk_index".toList, .integer .bigint index.chunkIndex),
    ("meta/episodes/file_index".toList, .integer .bigint index.fileIndex)]

theorem bigintValue_eq_ok {value : Nat} {result : EpisodeValue α} (h : bigintValue value = .ok result) :
    result = .integer .bigint value := by
  have hyields := bigintValue_yields (α := α) value
  rw [h] at hyields
  exact hyields

/-- A row ends in the file that it was made for. -/
theorem checkedEpisodeRow_eq_ok {bind : LerobotCopyBindData} {episode : EpisodeMetadata α}
    {index : FileIndex} {row : List (EpisodeValue α)} (h : checkedEpisodeRow bind episode index = .ok row) :
    row.length = bind.episodeTypes.length ∧ ∃ values, row = values ++ metadataValues index := by
  rw [checkedEpisodeRow] at h
  obtain ⟨built, hbuilt, h⟩ := except_bind_eq_ok.mp h
  obtain ⟨_, hsize, h⟩ := except_bind_eq_ok.mp h
  cases h
  refine ⟨ensure_eq_ok.mp hsize, ?_⟩
  rw [episodeRow] at hbuilt
  obtain ⟨base, -, hbuilt⟩ := except_bind_eq_ok.mp hbuilt
  obtain ⟨routes, -, hbuilt⟩ := except_bind_eq_ok.mp hbuilt
  obtain ⟨values, -, hbuilt⟩ := except_bind_eq_ok.mp hbuilt
  obtain ⟨chunkIndex, hchunk, hbuilt⟩ := except_bind_eq_ok.mp hbuilt
  obtain ⟨fileIndex, hfile, hbuilt⟩ := except_bind_eq_ok.mp hbuilt
  cases hbuilt
  rw [bigintValue_eq_ok hchunk, bigintValue_eq_ok hfile]
  exact ⟨values, rfl⟩

/-- The names of the columns end in those two. -/
theorem BoundColumns.metadataNames {arithmetic : Arithmetic} {log : ℚ → ℚ} {bind : LerobotCopyBindData}
    (h : BoundColumns arithmetic log bind) : bind.episodeNames.length = bind.episodeTypes.length ∧
      ∃ names, bind.episodeNames =
        names ++ ["meta/episodes/chunk_index".toList, "meta/episodes/file_index".toList] := by
  obtain ⟨statistics, -, hcolumns⟩ := h.episodes
  constructor
  · rw [hcolumns.names, hcolumns.types, List.length_map, List.length_map]
  · rw [hcolumns.names, readerEpisodeColumns, List.map_append]
    exact ⟨_, rfl⟩

/-- A row names its file in the columns for that. -/
theorem metadataColumns_of_row {arithmetic : Arithmetic} {log : ℚ → ℚ} {bind : LerobotCopyBindData}
    (h : BoundColumns arithmetic log bind) {episode : EpisodeMetadata α} {index : FileIndex}
    {row : List (EpisodeValue α)} (hrow : checkedEpisodeRow bind episode index = .ok row) :
    ∃ columns, bind.episodeNames.zip row = columns ++ metadataColumns index := by
  obtain ⟨hlength, values, rfl⟩ := checkedEpisodeRow_eq_ok hrow
  obtain ⟨hsame, names, hnames⟩ := h.metadataNames
  rw [← hsame, hnames, metadataValues, List.length_append, List.length_append] at hlength
  have hbefore : names.length = values.length := (Nat.add_right_cancel hlength).symm
  rw [hnames, List.zip_append hbefore]
  exact ⟨_, rfl⟩

/-- What the files of the episodes are at the end. -/
structure EpisodesWritten (bind : LerobotCopyBindData) (chunksSize : Nat)
    (episodes : List (EpisodeMetadata α)) (files : List (ParquetFile (List (EpisodeValue α)))) :
    Prop where
  /-- The rows, over the files in their order, are those of the episodes in their order. -/
  rows : List.Forall₂ (fun episode row => ∃ index, checkedEpisodeRow bind episode index = .ok row)
    episodes (files.flatMap ParquetFile.rows)
  /-- A row is in the file that it names. -/
  named : ∀ file ∈ files, ∀ row ∈ file.rows, ∃ index columns,
    file.path = episodesPath index ∧ bind.episodeNames.zip row = columns ++ metadataColumns index
  paths : files.map ParquetFile.path =
    (List.range files.length).map fun number => episodesPath (numberedFile chunksSize number)
  nodup : (files.map fun file => file.path.render).Nodup
  nonempty : ∀ file ∈ files, file.rows ≠ []

/-- The rows of the files, without the numbers of the files. -/
theorem map_snd_placedRows {ρ : Type} (chunksSize : Nat) (files : List (ParquetFile ρ)) :
    (files.zipIdx.flatMap (placedRows chunksSize)).map Prod.snd = files.flatMap ParquetFile.rows := by
  have hfile : ∀ file : ParquetFile ρ × Nat, (placedRows chunksSize file).map Prod.snd = file.1.rows := by
    intro file
    simp [placedRows, Function.comp_def]
  have hmap := congrArg (List.flatMap ParquetFile.rows) (List.zipIdx_map_fst 0 files)
  rw [List.flatMap_map] at hmap
  rw [List.map_flatMap, ← hmap]
  simp only [hfile]

theorem WrittenOnce.episodesWritten {arithmetic : Arithmetic} {log : ℚ → ℚ} {bind : LerobotCopyBindData}
    (hbound : BoundColumns arithmetic log bind) {chunksSize : Nat} {episodes : List (EpisodeMetadata α)}
    {files : List (ParquetFile (List (EpisodeValue α)))}
    (h : WrittenOnce chunksSize (episodes.map (checkedEpisodeRow bind)) files) :
    EpisodesWritten bind chunksSize episodes files where
  rows := by
    have hplaced := (List.forall₂_map_left_iff).mp h.placed
    rw [← map_snd_placedRows chunksSize, List.forall₂_map_right_iff]
    exact hplaced.imp fun episode placed hmade => ⟨placed.1, hmade⟩
  named := by
    intro file hfile row hrow
    obtain ⟨number, hnumber⟩ := List.mem_iff_getElem?.mp hfile
    have hmem := List.mk_mem_zipIdx_iff_getElem?.mpr hnumber
    have hplaced : (numberedFile chunksSize number, row) ∈ files.zipIdx.flatMap (placedRows chunksSize) :=
      List.mem_flatMap.mpr ⟨_, hmem, List.mem_map_of_mem hrow⟩
    obtain ⟨builder, hbuilder, hmade⟩ := exists_left_of_forall₂ h.placed hplaced
    obtain ⟨episode, -, rfl⟩ := List.mem_map.mp hbuilder
    obtain ⟨columns, hcolumns⟩ := metadataColumns_of_row hbound hmade
    exact ⟨_, columns, (h.files _ hmem).1, hcolumns⟩
  paths := h.paths
  nodup := by
    have hrendered := h.nodup.map StagedPath.render_injective
    rwa [List.map_map] at hrendered
  nonempty := by
    intro file hfile
    obtain ⟨number, hnumber⟩ := List.mem_iff_getElem?.mp hfile
    exact (h.files _ (List.mk_mem_zipIdx_iff_getElem?.mpr hnumber)).2

/-- **Episode metadata is written once, and where it says.** Whatever `SizeAtLeast` answers, at the end nothing
is buffered and no file is open; the rows of the episodes are in the files in their order, each once and in
the file that it names. No file is opened twice or left without rows. What is thrown comes from the Parquet
function or from making a row. -/
theorem episodes_writtenOnce {arithmetic : Arithmetic} {log : ℚ → ℚ} {printType : LogicalType → String}
    {options : CopyOptions} {inputColumns : List (Text × LogicalType)} {bind : LerobotCopyBindData}
    (h : lerobotCopyBind arithmetic log printType options inputColumns = .ok bind)
    (context : EpisodesContext (List (EpisodeValue α))) (hchunks : 1 ≤ context.chunksSize)
    (episodes : List (EpisodeMetadata α × Bool)) :
    Yields (fun final => final.metadataBuffer = [] ∧ final.episodesWriter.globalData = none ∧
        EpisodesWritten bind context.chunksSize (episodes.map Prod.fst) final.episodesWriter.closed)
      (AppendThrows context (episodes.map fun episode => checkedEpisodeRow bind episode.1))
      (writeEpisodes context (episodes.map fun episode => (checkedEpisodeRow bind episode.1, episode.2))) := by
  have hyields := writeEpisodes_yields hchunks
    (episodes.map fun episode => (checkedEpisodeRow bind episode.1, episode.2))
  rw [List.map_map] at hyields
  apply hyields.mono _ fun _ hthrows => hthrows
  rintro final ⟨hbuffer, hopen, hwritten⟩
  refine ⟨hbuffer, hopen, WrittenOnce.episodesWritten (boundColumns_of_bind h) ?_⟩
  rwa [List.map_map]

/-- A Parquet function that never throws. -/
def silentParquet (ρ : Type) : ParquetFunction ρ where
  copyToInitializeGlobal _ := .ok ()
  flushBatch _ _ := .ok ()
  copyToFinalize _ := .ok ()

/-- Three episodes of some features. The file is large enough before the third. -/
def threeEpisodes (features : List LerobotFeature) : List (EpisodeMetadata ℚ × Bool) :=
  [(zeroEpisode features, false), (zeroEpisode features, false), (zeroEpisode features, true)]

/-- What is written for them. -/
def writeThree (bind : LerobotCopyBindData) : Except CopyException (EpisodesWriter (List (EpisodeValue ℚ))) :=
  writeEpisodes ⟨silentParquet _, 1, 1⟩
    ((threeEpisodes bind.features).map fun episode => (checkedEpisodeRow bind episode.1, episode.2))

/-- A writer without an exception and with some number of files. -/
def hasFiles {ρ : Type} (count : Nat) : Except CopyException (EpisodesWriter ρ) → Bool
  | .ok final => final.episodesWriter.closed.length == count
  | .error _ => false

/-- Three episodes in two files, the second of which is in another chunk. -/
theorem armEpisodes_writtenOnce :
    ∃ bind final, lerobotCopyBind .exact (fun _ => 0) (fun _ => "")
        ⟨some [some 10], some [some armFeatures], none, none, none, none⟩ armColumns = .ok bind ∧
      writeThree bind = .ok final ∧ final.episodesWriter.closed.length = 2 ∧
        EpisodesWritten bind 1 ((threeEpisodes bind.features).map Prod.fst)
          final.episodesWriter.closed := by
  have hfiles : ((lerobotCopyBind .exact (fun _ => 0) (fun _ => "")
      ⟨some [some 10], some [some armFeatures], none, none, none, none⟩ armColumns).toOption.any
        fun bind => hasFiles 2 (writeThree bind)) = true := by
    decide +kernel
  obtain ⟨bind, hbind⟩ := armFeatures_bound
  have hwritten := episodes_writtenOnce hbind ⟨silentParquet _, 1, 1⟩ (Nat.le_refl 1)
    (threeEpisodes bind.features)
  rw [hbind] at hfiles
  change hasFiles 2 (writeThree bind) = true at hfiles
  change Yields _ _ (writeThree bind) at hwritten
  cases hrun : writeThree bind with
  | error e =>
      rw [hrun] at hfiles
      cases hfiles
  | ok final =>
      rw [hrun] at hfiles hwritten
      exact ⟨bind, final, hbind, hrun, beq_iff_eq.mp hfiles, hwritten.2.2⟩

end DuckdbLerobot.Copy
