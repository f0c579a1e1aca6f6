import DuckdbLerobot.Copy.EpisodeRow

/-!
# The files of the episodes

The rows of the episodes are buffered and written to Parquet files. A row names the file that it will be in
when it is appended to the buffer. The file is opened when the buffer is written for the first time, and it
is closed when the writer finds it large enough: the buffer is written to it before, and the row that is
appended next belongs to the next file.
-/

set_option autoImplicit false

namespace DuckdbLerobot.Copy

open DuckdbLerobot.Library DuckdbLerobot.Path

/-! ## A Parquet writer -/

/-- A Parquet file, with the rows that were flushed to it. -/
structure ParquetFile (ρ : Type) where
  path : StagedPath
  rows : List ρ := []

/-- `CopyFunction` for Parquet: what its calls throw. -/
structure ParquetFunction (ρ : Type) where
  copyToInitializeGlobal : StagedPath → Except CopyException Unit
  flushBatch : ParquetFile ρ → List ρ → Except CopyException Unit
  copyToFinalize : ParquetFile ρ → Except CopyException Unit

/-- `DelegatedParquetWriter`: the file that it has open, and those that it has closed, oldest first. -/
structure DelegatedParquetWriter (ρ : Type) where
  globalData : Option (ParquetFile ρ) := none
  closed : List (ParquetFile ρ) := []

section Writer

variable {ρ : Type}

namespace DelegatedParquetWriter

variable (function : ParquetFunction ρ)

/-- `DelegatedParquetWriter::Open`. -/
def openFile (path : StagedPath) (writer : DelegatedParquetWriter ρ) :
    Except CopyException (DelegatedParquetWriter ρ) := do
  ensure (writer.globalData.isNone) <|
    .internal "LeRobot delegated Parquet writer is already open"
  function.copyToInitializeGlobal path
  .ok { writer with globalData := some ⟨path, []⟩ }

/-- `DelegatedParquetWriter::Flush`. -/
def flush (collection : List ρ) (writer : DelegatedParquetWriter ρ) :
    Except CopyException (DelegatedParquetWriter ρ) :=
  match writer.globalData with
  | none => unopened
  | some file =>
      if collection = [] then unopened
      else
        (function.flushBatch file collection).map fun _ =>
          { writer with globalData := some { file with rows := file.rows ++ collection } }
where
  /-- There is no file or no row. -/
  unopened : Except CopyException (DelegatedParquetWriter ρ) :=
    .error (.internal "Cannot flush an empty or unopened LeRobot Parquet writer")

/-- `DelegatedParquetWriter::Close`. -/
def close (writer : DelegatedParquetWriter ρ) : Except CopyException (DelegatedParquetWriter ρ) :=
  match writer.globalData with
  | none => .ok writer
  | some file => (function.copyToFinalize file).map fun _ => ⟨none, writer.closed ++ [file]⟩

end DelegatedParquetWriter

/-! ## Episodes -/

/-- The part of `LerobotCopyGlobalData` with the rows of the episodes. -/
structure EpisodesWriter (ρ : Type) where
  episodesWriter : DelegatedParquetWriter ρ := {}
  metadataBuffer : List ρ := []
  metadataBufferRows : Nat := 0
  metadataIndex : FileIndex := {}

/-- The options that it depends on. -/
structure EpisodesContext (ρ : Type) where
  function : ParquetFunction ρ
  metadataBufferSize : Nat
  chunksSize : Nat

namespace EpisodesWriter

variable (context : EpisodesContext ρ)

/-- The file of the buffered rows. -/
def openEpisodes (state : EpisodesWriter ρ) : Except CopyException (DelegatedParquetWriter ρ) :=
  if state.episodesWriter.globalData.isNone then
    state.episodesWriter.openFile context.function
      (episodesRelativePath state.metadataIndex.chunkIndex state.metadataIndex.fileIndex)
  else .ok state.episodesWriter

/-- `FlushMetadataBuffer`. -/
def flushMetadataBuffer (state : EpisodesWriter ρ) : Except CopyException (EpisodesWriter ρ) :=
  if state.metadataBufferRows = 0 then .ok state
  else do
    let writer ← state.openEpisodes context
    let writer ← writer.flush context.function state.metadataBuffer
    .ok { state with episodesWriter := writer, metadataBuffer := [], metadataBufferRows := 0 }

/-- `MaybeRotateEpisodesWriter`, with the answer of `SizeAtLeast`. -/
def maybeRotateEpisodesWriter (sizeAtLeast : Bool) (state : EpisodesWriter ρ) :
    Except CopyException (EpisodesWriter ρ) :=
  if state.episodesWriter.globalData.isNone then .ok state
  else if !sizeAtLeast then .ok state
  else do
    let state ← state.flushMetadataBuffer context
    let writer ← state.episodesWriter.close context.function
    .ok { state with
          episodesWriter := writer
          metadataIndex := advanceFileIndex context.chunksSize state.metadataIndex }

/-- `AppendEpisodeMetadata`, with the answer of `SizeAtLeast`. The row is made for the file that it will be
in. -/
def appendEpisodeMetadata (sizeAtLeast : Bool) (row : FileIndex → Except CopyException ρ)
    (state : EpisodesWriter ρ) : Except CopyException (EpisodesWriter ρ) := do
  let state ← state.maybeRotateEpisodesWriter context sizeAtLeast
  let row ← row state.metadataIndex
  let state := { state with
    metadataBuffer := state.metadataBuffer ++ [row]
    metadataBufferRows := state.metadataBufferRows + 1 }
  if context.metadataBufferSize ≤ state.metadataBufferRows then state.flushMetadataBuffer context
  else .ok state

/-- What `Finalize` does with the rows of the episodes. -/
def finalizeEpisodes (state : EpisodesWriter ρ) : Except CopyException (EpisodesWriter ρ) := do
  let state ← state.flushMetadataBuffer context
  let writer ← state.episodesWriter.close context.function
  .ok { state with episodesWriter := writer }

end EpisodesWriter

/-! ## Where the rows are -/

/-- The rows of a file, each with the number of the file. -/
def placedRows (chunksSize : Nat) (file : ParquetFile ρ × Nat) : List (FileIndex × ρ) :=
  file.1.rows.map fun row => (numberedFile chunksSize file.2, row)

/-- The files of a writer, oldest first. -/
def DelegatedParquetWriter.files (writer : DelegatedParquetWriter ρ) : List (ParquetFile ρ) :=
  writer.closed ++ writer.globalData.toList

/-- The rows that were appended, with the numbers of the files that they are in or will be in. -/
def EpisodesWriter.placed (chunksSize : Nat) (state : EpisodesWriter ρ) : List (FileIndex × ρ) :=
  state.episodesWriter.files.zipIdx.flatMap (placedRows chunksSize) ++
    state.metadataBuffer.map fun row => (state.metadataIndex, row)

/-- The path of a file of the episodes. -/
def episodesPath (index : FileIndex) : StagedPath :=
  episodesRelativePath index.chunkIndex index.fileIndex

/-- A file has the place of its number, and it has rows. -/
def WellPlaced (chunksSize : Nat) (file : ParquetFile ρ × Nat) : Prop :=
  file.1.path = episodesPath (numberedFile chunksSize file.2) ∧ file.1.rows ≠ []

/-- A row was made for the file that it is in. -/
def MadeFor (row : FileIndex → Except CopyException ρ) (placed : FileIndex × ρ) : Prop :=
  row placed.1 = .ok placed.2

/-- What holds of the files and of the buffer. -/
structure EpisodesPlaced (chunksSize : Nat) (rows : List (FileIndex → Except CopyException ρ))
    (state : EpisodesWriter ρ) : Prop where
  rows_eq : state.metadataBufferRows = state.metadataBuffer.length
  /-- The buffered rows are for the file that is open, or for the next one. -/
  index_eq : state.metadataIndex = numberedFile chunksSize state.episodesWriter.closed.length
  files : ∀ file ∈ state.episodesWriter.files.zipIdx, WellPlaced chunksSize file
  placed : List.Forall₂ MadeFor rows (state.placed chunksSize)

/-- An exception of the Parquet function. -/
def ParquetFunction.Throws (function : ParquetFunction ρ) (exception : CopyException) : Prop :=
  (∃ path, function.copyToInitializeGlobal path = .error exception) ∨
    (∃ file rows, function.flushBatch file rows = .error exception) ∨
      ∃ file, function.copyToFinalize file = .error exception

/-- The rows of the file that is open. -/
def DelegatedParquetWriter.openRows (writer : DelegatedParquetWriter ρ) : List ρ :=
  (writer.globalData.map ParquetFile.rows).getD []

section Steps

variable {context : EpisodesContext ρ} {chunksSize : Nat} {state state' : EpisodesWriter ρ}
  {rows : List (FileIndex → Except CopyException ρ)} {file : ParquetFile ρ}

theorem zipIdx_files (writer : DelegatedParquetWriter ρ) :
    writer.files.zipIdx = writer.closed.zipIdx ++
      writer.globalData.toList.map fun file => (file, writer.closed.length) := by
  rw [DelegatedParquetWriter.files, List.zipIdx_append]
  cases writer.globalData with
  | none => rfl
  | some file => simp

/-- The rows of the closed files come first. Those of the open file and of the buffer belong together. -/
theorem placed_eq (h : state.metadataIndex = numberedFile chunksSize state.episodesWriter.closed.length) :
    state.placed chunksSize = state.episodesWriter.closed.zipIdx.flatMap (placedRows chunksSize) ++
      (state.episodesWriter.openRows ++ state.metadataBuffer).map fun row =>
        (state.metadataIndex, row) := by
  rw [EpisodesWriter.placed, zipIdx_files, List.flatMap_append, List.append_assoc, List.map_append]
  congr 2
  rw [DelegatedParquetWriter.openRows]
  cases state.episodesWriter.globalData with
  | none => rfl
  | some file => simp [placedRows, h]

/-- A step that closes no file and adds no row. -/
theorem EpisodesPlaced.of_rows_eq (h : EpisodesPlaced chunksSize rows state)
    (hrows : state'.metadataBufferRows = state'.metadataBuffer.length)
    (hindex : state'.metadataIndex = state.metadataIndex)
    (hclosed : state'.episodesWriter.closed = state.episodesWriter.closed)
    (hopen : ∀ file ∈ state'.episodesWriter.globalData,
      file.path = episodesPath state.metadataIndex ∧ file.rows ≠ [])
    (hcurrent : state'.episodesWriter.openRows ++ state'.metadataBuffer =
      state.episodesWriter.openRows ++ state.metadataBuffer) :
    EpisodesPlaced chunksSize rows state' := by
  have hnumber := hindex.trans h.index_eq
  rw [← hclosed] at hnumber
  refine ⟨hrows, hnumber, ?_, ?_⟩
  · intro file hfile
    rw [zipIdx_files] at hfile
    rcases List.mem_append.mp hfile with hfile | hfile
    · apply h.files
      rw [zipIdx_files]
      rw [hclosed] at hfile
      exact List.mem_append_left _ hfile
    · obtain ⟨opened, hopened, rfl⟩ := List.mem_map.mp hfile
      obtain ⟨hpath, hne⟩ := hopen opened (Option.mem_toList.mp hopened)
      refine ⟨?_, hne⟩
      rw [hpath, ← hnumber, hindex]
  · have hplaced := h.placed
    rw [placed_eq h.index_eq, ← hclosed, ← hcurrent, ← hindex] at hplaced
    rwa [placed_eq hnumber]

/-- The open file is the one that the buffered rows are for. -/
theorem EpisodesPlaced.open_path (h : EpisodesPlaced chunksSize rows state)
    (hopen : state.episodesWriter.globalData = some file) :
    file.path = episodesPath state.metadataIndex ∧ file.rows ≠ [] := by
  have hfile := h.files (file, state.episodesWriter.closed.length) (by
    rw [zipIdx_files, hopen]
    simp)
  rw [WellPlaced, ← h.index_eq] at hfile
  exact hfile

/-- The file of the buffered rows is open. -/
theorem openEpisodes_yields (h : EpisodesPlaced chunksSize rows state) :
    Yields (fun writer => writer.closed = state.episodesWriter.closed ∧
        ∃ file, writer.globalData = some file ∧ file.path = episodesPath state.metadataIndex ∧
          file.rows = state.episodesWriter.openRows) context.function.Throws
      (state.openEpisodes context) := by
  rw [EpisodesWriter.openEpisodes, DelegatedParquetWriter.openRows]
  cases hdata : state.episodesWriter.globalData with
  | none =>
      rw [if_pos (by rfl), DelegatedParquetWriter.openFile, ensure, if_pos (by rw [hdata]; rfl)]
      change Yields _ _ (context.function.copyToInitializeGlobal _ >>= _)
      cases hinit : context.function.copyToInitializeGlobal
          (episodesRelativePath state.metadataIndex.chunkIndex state.metadataIndex.fileIndex) with
      | error e => exact .inl ⟨_, hinit⟩
      | ok _ => exact ⟨rfl, _, rfl, rfl, rfl⟩
  | some file =>
      rw [if_neg (by simp)]
      exact ⟨rfl, file, hdata, (h.open_path hdata).1, rfl⟩

/-- **Writing the buffer.** The buffered rows are now in the file that they were made for. -/
theorem flushMetadataBuffer_yields (h : EpisodesPlaced chunksSize rows state) :
    Yields (fun state' => EpisodesPlaced chunksSize rows state' ∧ state'.metadataBuffer = [] ∧
        (state.episodesWriter.globalData.isSome → state'.episodesWriter.globalData.isSome))
      context.function.Throws (state.flushMetadataBuffer context) := by
  rw [EpisodesWriter.flushMetadataBuffer]
  split
  · rename_i hzero
    exact ⟨h, List.length_eq_zero_iff.mp (h.rows_eq.symm.trans hzero), id⟩
  · rename_i hrows
    have hne : state.metadataBuffer ≠ [] := by
      intro hnil
      exact hrows (h.rows_eq.trans (List.length_eq_zero_iff.mpr hnil))
    apply (openEpisodes_yields h).bind
    rintro writer ⟨hclosed, file, hfile, hpath, hfileRows⟩
    rw [DelegatedParquetWriter.flush, hfile]
    dsimp only
    rw [if_neg hne]
    cases hflush : context.function.flushBatch file state.metadataBuffer with
    | error e => exact .inr (.inl ⟨_, _, hflush⟩)
    | ok _ =>
        refine ⟨h.of_rows_eq rfl rfl hclosed ?_ ?_, rfl, fun _ => rfl⟩
        · intro opened hopened
          cases hopened
          exact ⟨hpath, by simp [hne]⟩
        · simp [DelegatedParquetWriter.openRows, hfileRows]

/-- The files and the rows after the open file was closed. -/
theorem EpisodesPlaced.close (h : EpisodesPlaced chunksSize rows state) (hchunks : 0 < chunksSize)
    (hbuffer : state.metadataBuffer = []) (hopen : state.episodesWriter.globalData = some file) :
    EpisodesPlaced chunksSize rows { state with
      episodesWriter := ⟨none, state.episodesWriter.closed ++ [file]⟩
      metadataIndex := advanceFileIndex chunksSize state.metadataIndex } where
  rows_eq := h.rows_eq
  index_eq := by
    rw [h.index_eq, advanceFileIndex_numberedFile hchunks]
    simp
  files := by
    have hfiles := h.files
    rw [DelegatedParquetWriter.files, hopen] at hfiles
    simpa [DelegatedParquetWriter.files] using hfiles
  placed := by
    have hplaced := h.placed
    rw [EpisodesWriter.placed, DelegatedParquetWriter.files, hopen, hbuffer] at hplaced
    simpa [EpisodesWriter.placed, DelegatedParquetWriter.files, hbuffer] using hplaced

/-- The file is closed when it is large enough. The rows that follow are for the next one. -/
theorem maybeRotateEpisodesWriter_yields (h : EpisodesPlaced context.chunksSize rows state)
    (hchunks : 0 < context.chunksSize) (sizeAtLeast : Bool) :
    Yields (EpisodesPlaced context.chunksSize rows) context.function.Throws
      (state.maybeRotateEpisodesWriter context sizeAtLeast) := by
  rw [EpisodesWriter.maybeRotateEpisodesWriter]
  split
  · exact h
  · rename_i hopen
    split
    · exact h
    · apply (flushMetadataBuffer_yields h).bind
      rintro flushed ⟨hflushed, hbuffer, hsome⟩
      have hstill : flushed.episodesWriter.globalData.isSome := by
        apply hsome
        simpa [Option.isSome_iff_ne_none] using hopen
      obtain ⟨file, hfile⟩ := Option.isSome_iff_exists.mp hstill
      rw [DelegatedParquetWriter.close, hfile]
      dsimp only
      cases hclose : context.function.copyToFinalize file with
      | error e => exact .inr (.inr ⟨_, hclose⟩)
      | ok _ => exact hflushed.close hchunks hbuffer hfile

/-- A row is appended to the buffer. -/
theorem EpisodesPlaced.push (h : EpisodesPlaced chunksSize rows state) {row : FileIndex → Except CopyException ρ}
    {values : ρ} (hvalues : row state.metadataIndex = .ok values) :
    EpisodesPlaced chunksSize (rows ++ [row]) { state with
      metadataBuffer := state.metadataBuffer ++ [values]
      metadataBufferRows := state.metadataBufferRows + 1 } where
  rows_eq := by simp [h.rows_eq]
  index_eq := h.index_eq
  files := h.files
  placed := by
    have hnext : List.Forall₂ MadeFor [row] [(state.metadataIndex, values)] := .cons hvalues .nil
    have hplaced := List.rel_append h.placed hnext
    simpa [EpisodesWriter.placed] using hplaced

/-- What is thrown when a row is appended. -/
def AppendThrows (context : EpisodesContext ρ) (rows : List (FileIndex → Except CopyException ρ))
    (exception : CopyException) : Prop :=
  context.function.Throws exception ∨ ∃ row ∈ rows, ∃ index, row index = .error exception

/-- **A row.** It is made for the file that it will be in. -/
theorem appendEpisodeMetadata_yields (h : EpisodesPlaced context.chunksSize rows state)
    (hchunks : 0 < context.chunksSize) (sizeAtLeast : Bool) (row : FileIndex → Except CopyException ρ) :
    Yields (EpisodesPlaced context.chunksSize (rows ++ [row])) (AppendThrows context [row])
      (state.appendEpisodeMetadata context sizeAtLeast row) := by
  rw [EpisodesWriter.appendEpisodeMetadata]
  apply Yields.bind ((maybeRotateEpisodesWriter_yields h hchunks sizeAtLeast).mono
    (fun _ hplaced => hplaced) fun _ hthrows => .inl hthrows)
  intro rotated hrotated
  cases hrow : row rotated.metadataIndex with
  | error e => exact .inr ⟨row, List.mem_singleton_self row, _, hrow⟩
  | ok values =>
      change Yields _ _ (if _ then _ else _)
      split
      · exact (flushMetadataBuffer_yields (hrotated.push hrow)).mono (fun _ hflushed => hflushed.1)
          fun _ hthrows => .inl hthrows
      · exact hrotated.push hrow

end Steps

/-! ## A whole run -/

/-- Every episode appends its row, with an answer of `SizeAtLeast`. At last the writer is finalized. -/
def writeEpisodes (context : EpisodesContext ρ)
    (rows : List ((FileIndex → Except CopyException ρ) × Bool)) :
    Except CopyException (EpisodesWriter ρ) := do
  let state ← rows.foldlM (fun (state : EpisodesWriter ρ) row =>
    state.appendEpisodeMetadata context row.2 row.1) {}
  state.finalizeEpisodes context

/-- Each row is once in the files, in the order of the rows and of the files. -/
structure WrittenOnce (chunksSize : Nat) (rows : List (FileIndex → Except CopyException ρ))
    (files : List (ParquetFile ρ)) : Prop where
  placed : List.Forall₂ MadeFor rows (files.zipIdx.flatMap (placedRows chunksSize))
  files : ∀ file ∈ files.zipIdx, WellPlaced chunksSize file

theorem finalizeEpisodes_yields {context : EpisodesContext ρ} {state : EpisodesWriter ρ}
    {rows : List (FileIndex → Except CopyException ρ)} (h : EpisodesPlaced context.chunksSize rows state) :
    Yields (fun final => final.metadataBuffer = [] ∧ final.episodesWriter.globalData = none ∧
        WrittenOnce context.chunksSize rows final.episodesWriter.closed) context.function.Throws
      (state.finalizeEpisodes context) := by
  rw [EpisodesWriter.finalizeEpisodes]
  apply (flushMetadataBuffer_yields h).bind
  rintro flushed ⟨hflushed, hbuffer, -⟩
  have hplaced := hflushed.placed
  have hfiles := hflushed.files
  rw [EpisodesWriter.placed, hbuffer, List.map_nil, List.append_nil] at hplaced
  rw [DelegatedParquetWriter.close]
  cases hopen : flushed.episodesWriter.globalData with
  | none =>
      rw [DelegatedParquetWriter.files, hopen, Option.toList_none, List.append_nil] at hplaced hfiles
      exact ⟨hbuffer, hopen, hplaced, hfiles⟩
  | some file =>
      rw [DelegatedParquetWriter.files, hopen] at hplaced hfiles
      dsimp only
      cases hclose : context.function.copyToFinalize file with
      | error e => exact .inr (.inr ⟨_, hclose⟩)
      | ok _ => exact ⟨hbuffer, rfl, hplaced, hfiles⟩

/-- **The rows of the episodes** are written once. What is thrown comes from the Parquet function or from
making a row. -/
theorem writeEpisodes_yields {context : EpisodesContext ρ} (hchunks : 0 < context.chunksSize)
    (rows : List ((FileIndex → Except CopyException ρ) × Bool)) :
    Yields (fun final => final.metadataBuffer = [] ∧ final.episodesWriter.globalData = none ∧
        WrittenOnce context.chunksSize (rows.map Prod.fst) final.episodesWriter.closed)
      (AppendThrows context (rows.map Prod.fst)) (writeEpisodes context rows) := by
  rw [writeEpisodes]
  have hrun : Yields (fun state => EpisodesPlaced context.chunksSize (rows.map Prod.fst) state)
      (AppendThrows context (rows.map Prod.fst)) (rows.foldlM (fun (state : EpisodesWriter ρ) row =>
        state.appendEpisodeMetadata context row.2 row.1) {}) := by
    apply foldlM_rule (I := fun seen state =>
      EpisodesPlaced context.chunksSize (seen.map Prod.fst) state)
    · refine ⟨rfl, ?_, ?_, .nil⟩
      · simp [numberedFile]
      · simp [DelegatedParquetWriter.files]
    · intro seen row rest state hsplit hstate
      rw [List.map_append]
      apply (appendEpisodeMetadata_yields hstate hchunks row.2 row.1).mono fun _ hnext => hnext
      rintro exception (hthrows | ⟨builder, hbuilder, hthrows⟩)
      · exact .inl hthrows
      · cases List.mem_singleton.mp hbuilder
        exact .inr ⟨row.1, List.mem_map_of_mem (by simp [hsplit]), hthrows⟩
  apply hrun.bind
  intro state hstate
  exact (finalizeEpisodes_yields hstate).mono (fun _ hfinal => hfinal) fun _ hthrows => .inl hthrows

section Files

variable {chunksSize : Nat} {rows : List (FileIndex → Except CopyException ρ)}
  {files : List (ParquetFile ρ)}

/-- The files have the numbers from zero on. -/
theorem WrittenOnce.paths (h : WrittenOnce chunksSize rows files) :
    files.map ParquetFile.path =
      (List.range files.length).map fun number => episodesPath (numberedFile chunksSize number) := by
  apply List.ext_getElem (by simp)
  intro k hk hk'
  rw [List.getElem_map, List.getElem_map, List.getElem_range]
  rw [List.length_map] at hk
  exact (h.files (files[k], k) (List.mk_mem_zipIdx_iff_getElem?.mpr (List.getElem?_eq_getElem hk))).1

theorem episodesPath_injective : Function.Injective episodesPath := by
  rintro ⟨chunkIndex, fileIndex⟩ ⟨chunkIndex', fileIndex'⟩ heq
  cases heq
  rfl

/-- No file is opened twice. -/
theorem WrittenOnce.nodup (h : WrittenOnce chunksSize rows files) :
    (files.map ParquetFile.path).Nodup := by
  rw [h.paths]
  apply List.Nodup.map _ List.nodup_range
  exact episodesPath_injective.comp numberedFile_injective

end Files

end Writer

end DuckdbLerobot.Copy
