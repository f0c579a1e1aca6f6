import DuckdbLerobot.Copy.EpisodeRow
import DuckdbLerobot.Copy.GeneratedTimestamps
import DuckdbLerobot.Library.FirstOccurrences

/-!
# The table of tasks

Each row of the input names its task. The writer numbers the tasks in the order in which they first appear, and a row of
the data has the number; the row of an episode has the tasks of this episode. The input comes in chunks that are cut
anywhere, also inside an episode.

`TasksWritten` says what the dataset has in it, and `copyRows_tasksWritten` that a copy which returns has written it,
for every sequence of rows and every cutting into chunks.
-/

set_option autoImplicit false

namespace DuckdbLerobot.Copy

open DuckdbLerobot.Library DuckdbLerobot.Path DuckdbLerobot.Storage DuckdbLerobot.Video

/-! ## Rows -/

/-- A row of the input. The columns of the features are a parameter. -/
structure InputRow (ρ : Type) where
  episodeIndex : Option Int
  task : Option Text
  columns : ρ

/-- A row of the data, with the columns that the writer generates. -/
structure DataRow (ω : Type) where
  timestamp : Double
  frameIndex : Int
  episodeIndex : Int
  index : Int
  taskIndex : Int
  columns : ω

/-- The columns of the row of an episode that this module is about. -/
structure EpisodeRecord where
  episodeIndex : Int
  tasks : List Text
  length : Int
  fromIndex : Int
  toIndex : Int

/-- The rest of the writer: what it does with the columns of the features and with the files of an episode. Each step
may throw. -/
structure CopyHost (σ ρ ω : Type) where
  initial : σ
  checkChunk : List (InputRow ρ) → Except CopyException Unit
  startEpisode : σ → Int → Except CopyException σ
  appendVisuals : σ → Nat → ρ → Except CopyException (σ × ω)
  finishEpisode : σ → List (DataRow ω) → Except CopyException σ
  finalize : σ → Except CopyException σ

/-- `tasks` and `task_indexes`. -/
structure TaskTable where
  taskIndexes : List (Text × Int) := []
  tasks : List Text := []

/-- `current_episode_tasks` and `current_episode_task_set`. -/
structure EpisodeTasks where
  taskSet : List Text := []
  tasks : List Text := []

/-- The fields of `LerobotCopyGlobalData` that this module is about. The data of the episodes that are finished is in
`dataRows`, and their rows in `episodes`. -/
structure CopyWriter (σ ω : Type) where
  host : σ
  taskTable : TaskTable := {}
  episodeTasks : EpisodeTasks := {}
  currentEpisode : Int := -1
  currentEpisodeFrames : Nat := 0
  currentData : List (DataRow ω) := []
  hasCurrentEpisode : Bool := false
  totalEpisodes : Nat := 0
  totalFrames : Nat := 0
  dataRows : List (DataRow ω) := []
  episodes : List EpisodeRecord := []

/-- What a copy has written. There is no file of tasks without a task. -/
structure WrittenDataset (ω : Type) where
  dataRows : List (DataRow ω)
  episodes : List EpisodeRecord
  taskFile : Option (List (Int × Text))
  totalTasks : Nat

namespace CopyWriter

variable {σ ρ ω : Type}

/-! ## The writer -/

/-- `NumericCast<int64_t>`. -/
def numericCast (value : Nat) : Except CopyException Int :=
  if (value : Int) ≤ int64Maximum then .ok value else .error (.internal (numericCastMessage value))

/-- `GetTaskIndex`. -/
def getTaskIndex (table : TaskTable) (task : Text) : Except CopyException (Int × TaskTable) :=
  match table.taskIndexes.lookup task with
  | some index => .ok (index, table)
  | none => (numericCast table.tasks.length).map fun index =>
      (index, ⟨(task, index) :: table.taskIndexes, table.tasks ++ [task]⟩)

/-- `AddEpisodeTask`. -/
def addEpisodeTask (episodeTasks : EpisodeTasks) (task : Text) : EpisodeTasks :=
  if episodeTasks.taskSet.contains task then episodeTasks
  else ⟨task :: episodeTasks.taskSet, episodeTasks.tasks ++ [task]⟩

/-- What `StartEpisode` throws when an episode is missing or comes twice. -/
def episodeOrderMessage (expected : Nat) (episodeIndex : Int) : String :=
  s!"LeRobot episodes must be contiguous and ordered from zero: expected {expected}, got {episodeIndex}"

/-- `StartEpisode`. -/
def startEpisode (copyHost : CopyHost σ ρ ω) (writer : CopyWriter σ ω) (episodeIndex : Int) :
    Except CopyException (CopyWriter σ ω) := do
  let expected ← numericCast writer.totalEpisodes
  ensure (episodeIndex = expected) (.invalidInput (episodeOrderMessage writer.totalEpisodes episodeIndex))
  let host ← copyHost.startEpisode writer.host episodeIndex
  .ok { writer with
    host := host
    currentEpisode := episodeIndex
    currentEpisodeFrames := 0
    episodeTasks := {}
    currentData := []
    hasCurrentEpisode := true }

/-- A round of the loop of `AppendRun`. The second part of the state is the output. -/
def appendRunRow (copyHost : CopyHost σ ρ ω) (arithmetic : Arithmetic) (fps : Nat)
    (state : CopyWriter σ ω × List (DataRow ω)) (input : InputRow ρ × Nat) :
    Except CopyException (CopyWriter σ ω × List (DataRow ω)) := do
  let writer := state.1
  let frameIndex := writer.currentEpisodeFrames + input.2
  let (host, columns) ← copyHost.appendVisuals writer.host frameIndex input.1.columns
  let task ← input.1.task.elim (.error (.invalidInput "LeRobot task values must not be NULL")) .ok
  let (taskIndex, taskTable) ← getTaskIndex writer.taskTable task
  let frame ← numericCast frameIndex
  let index ← numericCast (writer.totalFrames + frameIndex)
  let row : DataRow ω :=
    ⟨generatedTimestamp arithmetic frameIndex fps, frame, writer.currentEpisode, index, taskIndex, columns⟩
  .ok ({ writer with
    host := host
    taskTable := taskTable
    episodeTasks := addEpisodeTask writer.episodeTasks task }, state.2 ++ [row])

/-- `AppendRun`, for the rows of a run. -/
def appendRun (copyHost : CopyHost σ ρ ω) (arithmetic : Arithmetic) (fps : Nat) (writer : CopyWriter σ ω)
    (run : List (InputRow ρ)) : Except CopyException (CopyWriter σ ω) :=
  (run.zipIdx.foldlM (appendRunRow copyHost arithmetic fps) (writer, [])).map fun result =>
    { result.1 with
      currentData := result.1.currentData ++ result.2
      currentEpisodeFrames := result.1.currentEpisodeFrames + run.length }

/-- `FinishEpisode`, with the row of `AppendEpisodeMetadata`. -/
def finishEpisode (copyHost : CopyHost σ ρ ω) (writer : CopyWriter σ ω) : Except CopyException (CopyWriter σ ω) :=
  if !writer.hasCurrentEpisode then .ok writer
  else do
    ensure (writer.currentEpisodeFrames ≠ 0) (.invalidInput "LeRobot episodes cannot be empty")
    let host ← copyHost.finishEpisode writer.host writer.currentData
    let toIndex := writer.totalFrames + writer.currentEpisodeFrames
    let length ← numericCast writer.currentEpisodeFrames
    let first ← numericCast writer.totalFrames
    let last ← numericCast toIndex
    .ok { writer with
      host := host
      dataRows := writer.dataRows ++ writer.currentData
      currentData := []
      episodes := writer.episodes ++ [⟨writer.currentEpisode, writer.episodeTasks.tasks, length, first, last⟩]
      totalFrames := toIndex
      totalEpisodes := writer.totalEpisodes + 1
      hasCurrentEpisode := false }

/-- The episode that a run belongs to is started, after the one before it. -/
def enterEpisode (copyHost : CopyHost σ ρ ω) (writer : CopyWriter σ ω) (episodeIndex : Int) :
    Except CopyException (CopyWriter σ ω) :=
  if !writer.hasCurrentEpisode then startEpisode copyHost writer episodeIndex
  else if episodeIndex ≠ writer.currentEpisode then
    finishEpisode copyHost writer >>= fun writer => startEpisode copyHost writer episodeIndex
  else .ok writer

/-- The loop of `Process`. Each round takes a run of rows of one episode. -/
def processRuns (copyHost : CopyHost σ ρ ω) (arithmetic : Arithmetic) (fps : Nat) :
    Nat → CopyWriter σ ω → List (InputRow ρ) → Except CopyException (CopyWriter σ ω)
  | 0, writer, _ => .ok writer
  | _ + 1, writer, [] => .ok writer
  | fuel + 1, writer, first :: rest => do
      let episodeIndex ← first.episodeIndex.elim
        (.error (.invalidInput "LeRobot episode_index must not be NULL")) .ok
      let writer ← enterEpisode copyHost writer episodeIndex
      let sameEpisode (next : InputRow ρ) : Bool := next.episodeIndex == some episodeIndex
      let writer ← appendRun copyHost arithmetic fps writer (first :: rest.takeWhile sameEpisode)
      processRuns copyHost arithmetic fps fuel writer (rest.dropWhile sameEpisode)

/-- `Process`. -/
def process (copyHost : CopyHost σ ρ ω) (arithmetic : Arithmetic) (fps : Nat) (writer : CopyWriter σ ω)
    (chunk : List (InputRow ρ)) : Except CopyException (CopyWriter σ ω) :=
  copyHost.checkChunk chunk >>= fun _ => processRuns copyHost arithmetic fps chunk.length writer chunk

/-- A chunk of the loop of `WriteTasks`. -/
def taskChunk (tasks : List Text) (offset count : Nat) : Except CopyException (List (Int × Text)) :=
  (List.range count).mapM fun row =>
    (numericCast (offset + row)).map fun index => (index, tasks.getD (offset + row) [])

/-- The loop of `WriteTasks`: the chunks of the collection. -/
def taskChunks (tasks : List Text) : Nat → Nat → Except CopyException (List (List (Int × Text)))
  | 0, _ => .ok []
  | fuel + 1, offset =>
      if offset < tasks.length then do
        let count := min standardVectorSize (tasks.length - offset)
        let chunk ← taskChunk tasks offset count
        let chunks ← taskChunks tasks fuel (offset + count)
        .ok (chunk :: chunks)
      else .ok []

/-- `WriteTasks`. -/
def writeTasks (tasks : List Text) : Except CopyException (Option (List (Int × Text))) :=
  if tasks = [] then .ok none
  else (taskChunks tasks tasks.length 0).map fun chunks => some chunks.flatten

/-- `Finalize`, with the `total_tasks` of `InfoJSON`. -/
def finalize (copyHost : CopyHost σ ρ ω) (writer : CopyWriter σ ω) : Except CopyException (WrittenDataset ω) := do
  let writer ← finishEpisode copyHost writer
  let _ ← copyHost.finalize writer.host
  let taskFile ← writeTasks writer.taskTable.tasks
  .ok ⟨writer.dataRows, writer.episodes, taskFile, writer.taskTable.tasks.length⟩

/-- A copy of the chunks. -/
def copyRows (copyHost : CopyHost σ ρ ω) (arithmetic : Arithmetic) (fps : Nat) (chunks : List (List (InputRow ρ))) :
    Except CopyException (WrittenDataset ω) :=
  chunks.foldlM (process copyHost arithmetic fps) { host := copyHost.initial } >>= finalize copyHost

/-! ## What has been written -/

/-- The text of the task of a row. -/
def taskText (row : InputRow ρ) : Text := row.task.getD []

/-- A row of the data, for a row of the input: its index is that of the task in the table. -/
structure RowOf (tasks : List Text) (input : InputRow ρ) (row : DataRow ω) : Prop where
  hasTask : input.task = some (taskText input)
  episodeIndex : input.episodeIndex = some row.episodeIndex
  taskIndex : ∃ position : Nat, row.taskIndex = position ∧ tasks[position]? = some (taskText input)

/-- The tasks of an episode, in the order in which they first appear. -/
def tasksOfEpisode (rows : List (InputRow ρ)) (episode : Nat) : List Text :=
  ((rows.filter fun row => row.episodeIndex == some (episode : Int)).map taskText).eraseDups

/-- The row of an episode. -/
structure RecordOf (rows : List (InputRow ρ)) (episode : Nat) (record : EpisodeRecord) : Prop where
  episodeIndex : record.episodeIndex = episode
  tasks : record.tasks = tasksOfEpisode rows episode

/-- The writer between two rows: `finished` are the rows of the episodes that are finished, `current` those of the
current one. `output` is what `AppendRun` has not appended yet. The tasks of an episode stay behind until the next one
starts. -/
structure Invariant (writer : CopyWriter σ ω) (output : List (DataRow ω)) (finished current : List (InputRow ρ)) :
    Prop where
  tasks : writer.taskTable.tasks = ((finished ++ current).map taskText).eraseDups
  positions : Positions writer.taskTable.taskIndexes writer.taskTable.tasks
  finishedRows : List.Forall₂ (RowOf writer.taskTable.tasks) finished writer.dataRows
  currentRows : List.Forall₂ (RowOf writer.taskTable.tasks) current (writer.currentData ++ output)
  episodeTasks : writer.hasCurrentEpisode = true → writer.episodeTasks.tasks = (current.map taskText).eraseDups
  episodeSet : writer.hasCurrentEpisode = true → ∀ task, task ∈ writer.episodeTasks.taskSet ↔ task ∈ current.map taskText
  finishedEpisodes : ∀ row ∈ finished, ∃ episode < writer.totalEpisodes, row.episodeIndex = some (episode : Int)
  currentEpisode : ∀ row ∈ current, row.episodeIndex = some (writer.totalEpisodes : Int)
  records : List.Forall₂ (RecordOf finished) (List.range writer.totalEpisodes) writer.episodes

variable {copyHost : CopyHost σ ρ ω} {arithmetic : Arithmetic} {fps : Nat} {writer writer' : CopyWriter σ ω}
  {output output' : List (DataRow ω)} {finished current : List (InputRow ρ)}

theorem numericCast_eq_ok {value : Nat} {result : Int} (h : numericCast value = .ok result) : result = value := by
  rw [numericCast] at h
  split at h
  · exact (Except.ok.inj h).symm
  · cases h

theorem RowOf.mono {tasks tasks' : List Text} (hinitial : tasks <+: tasks') {input : InputRow ρ} {row : DataRow ω}
    (h : RowOf tasks input row) : RowOf tasks' input row where
  hasTask := h.hasTask
  episodeIndex := h.episodeIndex
  taskIndex := by
    obtain ⟨position, hposition, hget⟩ := h.taskIndex
    exact ⟨position, hposition, getElem?_of_prefix hinitial hget⟩

/-- `GetTaskIndex` keeps the table: the index is that of the task in the new list. -/
theorem getTaskIndex_spec {table table' : TaskTable} {texts : List Text} {task : Text} {index : Int}
    (h : getTaskIndex table task = .ok (index, table')) (htasks : table.tasks = texts.eraseDups)
    (hpositions : Positions table.taskIndexes table.tasks) :
    table'.tasks = (texts ++ [task]).eraseDups ∧ Positions table'.taskIndexes table'.tasks ∧
      ∃ position : Nat, index = position ∧ table'.tasks[position]? = some task := by
  rw [getTaskIndex] at h
  rw [eraseDups_concat]
  cases hlookup : table.taskIndexes.lookup task with
  | some found =>
      rw [hlookup] at h
      obtain ⟨rfl, rfl⟩ := Prod.mk.inj (Except.ok.inj h)
      obtain ⟨position, hposition, hget⟩ := (hpositions task _).mp hlookup
      have hmem : task ∈ texts := by
        rw [htasks] at hget
        exact List.mem_eraseDups.mp (List.mem_of_getElem? hget)
      rw [if_pos hmem]
      exact ⟨htasks, hpositions, position, hposition, hget⟩
  | none =>
      rw [hlookup] at h
      obtain ⟨cast, hcast, heq⟩ := except_map_eq_ok.mp h
      obtain ⟨rfl, rfl⟩ := Prod.mk.inj heq
      obtain rfl := numericCast_eq_ok hcast
      have hnew : task ∉ table.tasks := hpositions.lookup_eq_none.mp hlookup
      have hmem : task ∉ texts := by
        rwa [htasks, List.mem_eraseDups] at hnew
      rw [if_neg hmem, ← htasks]
      exact ⟨rfl, hpositions.cons hnew, _, rfl, List.getElem?_concat_length⟩

/-- `AddEpisodeTask` keeps the set and the list of an episode. -/
theorem addEpisodeTask_spec {episodeTasks : EpisodeTasks} {texts : List Text} (task : Text)
    (htasks : episodeTasks.tasks = texts.eraseDups) (hset : ∀ other, other ∈ episodeTasks.taskSet ↔ other ∈ texts) :
    (addEpisodeTask episodeTasks task).tasks = (texts ++ [task]).eraseDups ∧
      ∀ other, other ∈ (addEpisodeTask episodeTasks task).taskSet ↔ other ∈ texts ++ [task] := by
  have hcontains : episodeTasks.taskSet.contains task = true ↔ task ∈ texts := by
    rw [List.contains_iff_mem, hset task]
  rw [addEpisodeTask, eraseDups_concat]
  by_cases hmem : task ∈ texts
  · rw [if_pos (hcontains.mpr hmem), if_pos hmem]
    refine ⟨htasks, fun other => ?_⟩
    rw [hset other, List.mem_append, List.mem_singleton]
    constructor
    · exact .inl
    · rintro (hother | rfl)
      · exact hother
      · exact hmem
  · rw [if_neg fun h => hmem (hcontains.mp h), if_neg hmem, htasks]
    refine ⟨rfl, fun other => ?_⟩
    rw [List.mem_cons, hset other, List.mem_append, List.mem_singleton, or_comm]

/-- A row of the current episode. -/
theorem Invariant.appendRunRow {input : InputRow ρ × Nat} (h : Invariant writer output finished current)
    (hepisode : writer.currentEpisode = writer.totalEpisodes)
    (hinput : input.1.episodeIndex = some (writer.totalEpisodes : Int))
    (hround : CopyWriter.appendRunRow copyHost arithmetic fps (writer, output) input = .ok (writer', output')) :
    Invariant writer' output' finished (current ++ [input.1]) ∧
      writer'.currentEpisode = writer'.totalEpisodes ∧ writer'.totalEpisodes = writer.totalEpisodes ∧
      writer'.hasCurrentEpisode = writer.hasCurrentEpisode := by
  simp only [CopyWriter.appendRunRow, except_bind_eq_ok] at hround
  obtain ⟨⟨host, columns⟩, -, task, htask, ⟨taskIndex, taskTable⟩, hindex, frame, -, index, -, hround⟩ := hround
  obtain ⟨rfl, rfl⟩ := Prod.mk.inj (Except.ok.inj hround)
  have hsome : input.1.task = some task := by
    cases hinputTask : input.1.task with
    | none =>
        rw [hinputTask] at htask
        cases htask
    | some text =>
        rw [hinputTask] at htask
        rw [Except.ok.inj htask]
  have htext : taskText input.1 = task := by rw [taskText, hsome, Option.getD_some]
  obtain ⟨htasks, hpositions, hposition⟩ := getTaskIndex_spec hindex h.tasks h.positions
  have hepisodeTasks : writer.hasCurrentEpisode = true →
      (addEpisodeTask writer.episodeTasks task).tasks = (current.map taskText ++ [task]).eraseDups ∧
        ∀ other, other ∈ (addEpisodeTask writer.episodeTasks task).taskSet ↔ other ∈ current.map taskText ++ [task] :=
    fun hactive => addEpisodeTask_spec task (h.episodeTasks hactive) (h.episodeSet hactive)
  have hall : ((finished ++ (current ++ [input.1])).map taskText) = (finished ++ current).map taskText ++ [task] := by
    rw [← List.append_assoc, List.map_append, List.map_singleton, htext]
  have hcurrent : (current ++ [input.1]).map taskText = current.map taskText ++ [task] := by
    rw [List.map_append, List.map_singleton, htext]
  have hprefix : writer.taskTable.tasks <+: taskTable.tasks := by
    rw [h.tasks, htasks]
    exact eraseDups_prefix ((finished ++ current).map taskText) task
  refine ⟨?_, hepisode, rfl, rfl⟩
  constructor
  case tasks => rw [hall, htasks]
  case positions => exact hpositions
  case finishedRows => exact h.finishedRows.imp fun _ _ => RowOf.mono hprefix
  case currentRows =>
    have hold := h.currentRows.imp fun _ _ => RowOf.mono hprefix
    rw [← List.append_assoc]
    apply List.rel_append hold
    refine .cons ⟨hsome.trans (congrArg some htext.symm), ?_, ?_⟩ .nil
    · rw [hinput, hepisode]
    · rw [htext]
      exact hposition
  case episodeTasks =>
    intro hactive
    rw [hcurrent]
    exact (hepisodeTasks hactive).1
  case episodeSet =>
    intro hactive other
    rw [hcurrent]
    exact (hepisodeTasks hactive).2 other
  case finishedEpisodes => exact h.finishedEpisodes
  case currentEpisode =>
    intro row hrow
    obtain hrow | hrow := List.mem_append.mp hrow
    · exact h.currentEpisode row hrow
    · rw [List.mem_singleton.mp hrow]
      exact hinput
  case records => exact h.records

/-! ## Runs -/

/-- The writer after some rows. Without a current episode, all of them are in episodes that are finished. -/
def After (writer : CopyWriter σ ω) (rows : List (InputRow ρ)) : Prop :=
  ∃ finished current, rows = finished ++ current ∧ Invariant writer [] finished current ∧
    (writer.hasCurrentEpisode = true → writer.currentEpisode = writer.totalEpisodes) ∧
    (writer.hasCurrentEpisode = false → current = [] ∧ writer.currentData = [])

theorem after_initial (copyHost : CopyHost σ ρ ω) :
    After ({ host := copyHost.initial } : CopyWriter σ ω) ([] : List (InputRow ρ)) := by
  refine ⟨[], [], rfl, ?_, nofun, fun _ => ⟨rfl, rfl⟩⟩
  exact
    { tasks := rfl
      positions := positions_nil
      finishedRows := .nil
      currentRows := .nil
      episodeTasks := nofun
      episodeSet := nofun
      finishedEpisodes := fun _ hrow => by cases hrow
      currentEpisode := fun _ hrow => by cases hrow
      records := .nil }

/-- `AppendRun`, for rows of the current episode. -/
theorem After.appendRun {rows run : List (InputRow ρ)} (h : After writer rows) (hcurrent : writer.hasCurrentEpisode = true)
    (hrun : ∀ row ∈ run, row.episodeIndex = some writer.currentEpisode)
    (happend : CopyWriter.appendRun copyHost arithmetic fps writer run = .ok writer') :
    After writer' (rows ++ run) := by
  obtain ⟨finished, current, rfl, hinvariant, hepisode, -⟩ := h
  have hepisode := hepisode hcurrent
  obtain ⟨⟨last, output⟩, hfold, rfl⟩ := except_map_eq_ok.mp happend
  have hrows : Invariant last output finished (current ++ run.zipIdx.map Prod.fst) ∧
      last.currentEpisode = last.totalEpisodes ∧ last.totalEpisodes = writer.totalEpisodes ∧
      last.hasCurrentEpisode = writer.hasCurrentEpisode := by
    refine foldlM_ok (I := fun seen (state : CopyWriter σ ω × List (DataRow ω)) =>
      Invariant state.1 state.2 finished (current ++ seen.map Prod.fst) ∧
        state.1.currentEpisode = state.1.totalEpisodes ∧ state.1.totalEpisodes = writer.totalEpisodes ∧
        state.1.hasCurrentEpisode = writer.hasCurrentEpisode) hfold ?_ ?_
    · rw [List.map_nil, List.append_nil]
      exact ⟨hinvariant, hepisode, rfl, rfl⟩
    · rintro seen input rest ⟨before, outputBefore⟩ ⟨after, outputAfter⟩ hsplit ⟨hbefore, hindex, htotal, hhas⟩ hround
      have hmem : input.1 ∈ run := by
        have hmap : run = (seen ++ input :: rest).map Prod.fst := by rw [← hsplit, List.zipIdx_map_fst]
        rw [hmap]
        exact List.mem_map_of_mem (List.mem_append_right _ List.mem_cons_self)
      have hinput : input.1.episodeIndex = some (before.totalEpisodes : Int) := by
        rw [hrun input.1 hmem, hepisode, htotal]
      obtain ⟨hafter, hindex', htotal', hhas'⟩ := hbefore.appendRunRow hindex hinput hround
      rw [List.map_append, List.map_singleton, ← List.append_assoc]
      exact ⟨hafter, hindex', htotal'.trans htotal, hhas'.trans hhas⟩
  obtain ⟨hlast, hindex, -, hhas⟩ := hrows
  rw [List.zipIdx_map_fst] at hlast
  refine ⟨finished, current ++ run, List.append_assoc _ _ _, ?_, fun _ => hindex, ?_⟩
  · exact
      { tasks := hlast.tasks
        positions := hlast.positions
        finishedRows := hlast.finishedRows
        currentRows := by
          rw [List.append_nil]
          exact hlast.currentRows
        episodeTasks := hlast.episodeTasks
        episodeSet := hlast.episodeSet
        finishedEpisodes := hlast.finishedEpisodes
        currentEpisode := hlast.currentEpisode
        records := hlast.records }
  · intro hnone
    rw [hhas, hcurrent] at hnone
    cases hnone

/-- The rows of an episode that is finished are those with its index. -/
theorem tasksOfEpisode_append {episode : Nat} (hfinished : ∀ row ∈ finished, row.episodeIndex ≠ some (episode : Int))
    (hcurrent : ∀ row ∈ current, row.episodeIndex = some (episode : Int)) :
    tasksOfEpisode (finished ++ current) episode = (current.map taskText).eraseDups := by
  have hnone : finished.filter (fun row => row.episodeIndex == some (episode : Int)) = [] := by
    rw [List.filter_eq_nil_iff]
    intro row hrow heq
    exact hfinished row hrow (eq_of_beq heq)
  have hall : current.filter (fun row => row.episodeIndex == some (episode : Int)) = current := by
    rw [List.filter_eq_self]
    intro row hrow
    rw [hcurrent row hrow, beq_self_eq_true]
  rw [tasksOfEpisode, List.filter_append, hnone, hall, List.nil_append]

theorem tasksOfEpisode_finished {episode : Nat} (hcurrent : ∀ row ∈ current, row.episodeIndex ≠ some (episode : Int)) :
    tasksOfEpisode (finished ++ current) episode = tasksOfEpisode finished episode := by
  have hnone : current.filter (fun row => row.episodeIndex == some (episode : Int)) = [] := by
    rw [List.filter_eq_nil_iff]
    intro row hrow heq
    exact hcurrent row hrow (eq_of_beq heq)
  rw [tasksOfEpisode, tasksOfEpisode, List.filter_append, hnone, List.append_nil]

/-- `FinishEpisode`. -/
theorem After.finishEpisode {rows : List (InputRow ρ)} (h : After writer rows)
    (hfinish : CopyWriter.finishEpisode copyHost writer = .ok writer') :
    After writer' rows ∧ writer'.hasCurrentEpisode = false := by
  rw [CopyWriter.finishEpisode] at hfinish
  cases hcurrent : writer.hasCurrentEpisode with
  | false =>
      rw [hcurrent] at hfinish
      obtain rfl := Except.ok.inj hfinish
      exact ⟨h, hcurrent⟩
  | true =>
      rw [hcurrent] at hfinish
      change Except.bind _ _ = _ at hfinish
      obtain ⟨finished, current, rfl, hinvariant, hepisode, -⟩ := h
      have hepisode := hepisode hcurrent
      obtain ⟨_, -, hfinish⟩ := except_bind_eq_ok.mp hfinish
      simp only [except_bind_eq_ok] at hfinish
      obtain ⟨host, -, length, -, first, -, last, -, hfinish⟩ := hfinish
      obtain rfl := Except.ok.inj hfinish
      have hcurrentRows := hinvariant.currentRows
      rw [List.append_nil] at hcurrentRows
      have hold : ∀ row ∈ finished, row.episodeIndex ≠ some (writer.totalEpisodes : Int) := by
        intro row hrow heq
        obtain ⟨episode, hlt, hindex⟩ := hinvariant.finishedEpisodes row hrow
        rw [hindex] at heq
        have hcast := Option.some.inj heq
        omega
      refine ⟨⟨finished ++ current, [], (List.append_nil _).symm, ?_, nofun, fun _ => ⟨rfl, rfl⟩⟩, rfl⟩
      constructor
      case tasks =>
        rw [List.append_nil]
        exact hinvariant.tasks
      case positions => exact hinvariant.positions
      case finishedRows => exact List.rel_append hinvariant.finishedRows hcurrentRows
      case currentRows => exact .nil
      case episodeTasks => exact nofun
      case episodeSet => exact nofun
      case finishedEpisodes =>
        intro row hrow
        obtain hrow | hrow := List.mem_append.mp hrow
        · obtain ⟨episode, hlt, hindex⟩ := hinvariant.finishedEpisodes row hrow
          exact ⟨episode, Nat.lt_succ_of_lt hlt, hindex⟩
        · exact ⟨_, Nat.lt_succ_self _, hinvariant.currentEpisode row hrow⟩
      case currentEpisode => exact nofun
      case records =>
        rw [List.range_succ]
        apply List.rel_append
        · -- the rows of the last episode are not in those before it
          apply List.forall₂_iff_get.mpr
          have hrecords := List.forall₂_iff_get.mp hinvariant.records
          refine ⟨hrecords.1, fun i h₁ h₂ => ?_⟩
          have hrecord := hrecords.2 i h₁ h₂
          have hlt : (List.range writer.totalEpisodes).get ⟨i, h₁⟩ < writer.totalEpisodes :=
            List.mem_range.mp (List.get_mem _ _)
          refine ⟨hrecord.episodeIndex, ?_⟩
          rw [hrecord.tasks, tasksOfEpisode_finished]
          intro row hrow heq
          rw [hinvariant.currentEpisode row hrow] at heq
          have hcast := Option.some.inj heq
          omega
        · refine .cons ⟨hepisode, ?_⟩ .nil
          rw [tasksOfEpisode_append hold hinvariant.currentEpisode]
          exact hinvariant.episodeTasks hcurrent

/-- `StartEpisode`, when no episode is open. -/
theorem After.startEpisode {rows : List (InputRow ρ)} {episodeIndex : Int} (h : After writer rows)
    (hidle : writer.hasCurrentEpisode = false)
    (hstart : CopyWriter.startEpisode copyHost writer episodeIndex = .ok writer') :
    After writer' rows ∧ writer'.hasCurrentEpisode = true ∧ writer'.currentEpisode = episodeIndex := by
  obtain ⟨finished, current, rfl, hinvariant, -, hnone⟩ := h
  obtain ⟨rfl, hdata⟩ := hnone hidle
  simp only [CopyWriter.startEpisode, except_bind_eq_ok] at hstart
  obtain ⟨expected, hexpected, _, hcheck, host, -, hstart⟩ := hstart
  obtain rfl := Except.ok.inj hstart
  obtain rfl := numericCast_eq_ok hexpected
  have hindex := ensure_eq_ok.mp hcheck
  refine ⟨⟨finished, [], rfl, ?_, fun _ => hindex, nofun⟩, rfl, rfl⟩
  exact
    { tasks := hinvariant.tasks
      positions := hinvariant.positions
      finishedRows := hinvariant.finishedRows
      currentRows := .nil
      episodeTasks := fun _ => rfl
      episodeSet := fun _ _ => Iff.rfl
      finishedEpisodes := hinvariant.finishedEpisodes
      currentEpisode := nofun
      records := hinvariant.records }

/-- The episode of the next run is open. -/
theorem After.enterEpisode {rows : List (InputRow ρ)} {episodeIndex : Int} (h : After writer rows)
    (henter : CopyWriter.enterEpisode copyHost writer episodeIndex = .ok writer') :
    After writer' rows ∧ writer'.hasCurrentEpisode = true ∧ writer'.currentEpisode = episodeIndex := by
  rw [CopyWriter.enterEpisode] at henter
  cases hcurrent : writer.hasCurrentEpisode with
  | false =>
      rw [hcurrent] at henter
      exact h.startEpisode hcurrent henter
  | true =>
      rw [hcurrent] at henter
      change (if episodeIndex ≠ writer.currentEpisode then _ else _) = _ at henter
      split at henter
      · obtain ⟨between, hfinish, hstart⟩ := except_bind_eq_ok.mp henter
        obtain ⟨hbetween, hidle⟩ := h.finishEpisode hfinish
        exact hbetween.startEpisode hidle hstart
      · next heq =>
        obtain rfl := Except.ok.inj henter
        exact ⟨h, hcurrent, (not_not.mp heq).symm⟩

/-- The loop of `Process`. The induction is on the fuel, one run for each round. -/
theorem After.processRuns (fuel : Nat) {rows : List (InputRow ρ)} (h : After writer rows) {chunk : List (InputRow ρ)}
    (hfuel : chunk.length ≤ fuel)
    (hprocess : CopyWriter.processRuns copyHost arithmetic fps fuel writer chunk = .ok writer') :
    After writer' (rows ++ chunk) := by
  induction fuel generalizing writer rows chunk with
  | zero =>
      obtain rfl := Except.ok.inj hprocess
      rwa [List.length_eq_zero_iff.mp (Nat.le_zero.mp hfuel), List.append_nil]
  | succ fuel ih =>
      cases chunk with
      | nil =>
          obtain rfl := Except.ok.inj hprocess
          rwa [List.append_nil]
      | cons first rest =>
          simp only [CopyWriter.processRuns, except_bind_eq_ok] at hprocess
          obtain ⟨episodeIndex, hepisode, entered, henter, appended, happend, hrest⟩ := hprocess
          have hfirst : first.episodeIndex = some episodeIndex := by
            cases hindex : first.episodeIndex with
            | none =>
                rw [hindex] at hepisode
                cases hepisode
            | some index =>
                rw [hindex] at hepisode
                rw [Except.ok.inj hepisode]
          obtain ⟨hentered, hactive, hopened⟩ := h.enterEpisode henter
          have hrun : ∀ row ∈ first :: rest.takeWhile (fun next => next.episodeIndex == some episodeIndex),
              row.episodeIndex = some entered.currentEpisode := by
            intro row hrow
            rw [hopened]
            obtain rfl | hrow := List.mem_cons.mp hrow
            · exact hfirst
            · have htest := List.mem_takeWhile_imp hrow
              exact eq_of_beq htest
          have happended := hentered.appendRun hactive hrun happend
          have hlength : (rest.dropWhile fun next => next.episodeIndex == some episodeIndex).length ≤ fuel := by
            have hle := List.length_dropWhile_le (fun next : InputRow ρ => next.episodeIndex == some episodeIndex) rest
            rw [List.length_cons] at hfuel
            omega
          have hfinal := ih happended hlength hrest
          rwa [List.append_assoc, List.cons_append, List.takeWhile_append_dropWhile] at hfinal

/-- The chunks of the input, one after another. -/
theorem after_chunks {chunks : List (List (InputRow ρ))}
    (h : chunks.foldlM (process copyHost arithmetic fps) { host := copyHost.initial } = .ok writer) :
    After writer chunks.flatten := by
  refine foldlM_ok (I := fun seen (writer : CopyWriter σ ω) => After writer seen.flatten) h
    (after_initial copyHost) ?_
  intro seen chunk rest before after _ hbefore hround
  obtain ⟨_, -, hround⟩ := except_bind_eq_ok.mp hround
  rw [List.flatten_append, List.flatten_singleton]
  exact hbefore.processRuns chunk.length le_rfl hround

/-! ## The file of tasks -/

/-- The rows of the file: the tasks with their numbers. -/
def numberedTasks (tasks : List Text) : List (Int × Text) := tasks.zipIdx.map fun entry => ((entry.2 : Int), entry.1)

theorem length_numberedTasks (tasks : List Text) : (numberedTasks tasks).length = tasks.length := by
  rw [numberedTasks, List.length_map, List.length_zipIdx]

theorem taskChunk_eq {tasks : List Text} {offset count : Nat} (hcount : offset + count ≤ tasks.length)
    {chunk : List (Int × Text)} (h : taskChunk tasks offset count = .ok chunk) :
    chunk = ((numberedTasks tasks).drop offset).take count := by
  have hrows := List.forall₂_iff_get.mp (mapM_eq_ok.mp h)
  obtain ⟨hlength, hrow⟩ := hrows
  rw [List.length_range] at hlength
  apply List.ext_getElem
  · rw [List.length_take, List.length_drop, length_numberedTasks]
    omega
  · intro i h₁ h₂
    have hi := hrow i (by rw [List.length_range, hlength]; exact h₁) h₁
    rw [List.get_eq_getElem, List.get_eq_getElem, List.getElem_range] at hi
    obtain ⟨index, hindex, heq⟩ := except_map_eq_ok.mp hi
    obtain rfl := numericCast_eq_ok hindex
    have hlt : offset + i < tasks.length := by omega
    rw [← heq, List.getElem_take, List.getElem_drop]
    simp only [numberedTasks, List.getElem_map, List.getElem_zipIdx, Nat.zero_add]
    rw [List.getD_eq_getElem _ _ hlt]

/-- The chunks of the file are pieces of the list, one after another. -/
theorem taskChunks_eq {tasks : List Text} (fuel : Nat) {offset : Nat} (hfuel : tasks.length ≤ offset + fuel)
    {chunks : List (List (Int × Text))} (h : taskChunks tasks fuel offset = .ok chunks) :
    chunks.flatten = (numberedTasks tasks).drop offset := by
  induction fuel generalizing offset chunks with
  | zero =>
      obtain rfl := Except.ok.inj h
      rw [List.drop_eq_nil_of_le (by rw [length_numberedTasks]; exact hfuel)]
      rfl
  | succ fuel ih =>
      rw [taskChunks] at h
      split at h
      · next hlt =>
        simp only [except_bind_eq_ok] at h
        obtain ⟨chunk, hchunk, rest, hrest, h⟩ := h
        obtain rfl := Except.ok.inj h
        have hpos : 0 < standardVectorSize := by rw [standardVectorSize]; omega
        have hcount : offset + min standardVectorSize (tasks.length - offset) ≤ tasks.length := by omega
        rw [List.flatten_cons, taskChunk_eq hcount hchunk, ih (by omega) hrest, ← List.drop_drop,
          List.take_append_drop]
      · next hle =>
        obtain rfl := Except.ok.inj h
        rw [List.drop_eq_nil_of_le (by rw [length_numberedTasks]; omega)]
        rfl

theorem writeTasks_eq {tasks : List Text} {file : Option (List (Int × Text))} (h : writeTasks tasks = .ok file) :
    file = if tasks = [] then none else some (numberedTasks tasks) := by
  rw [writeTasks] at h
  split at h
  · next hempty =>
    rw [if_pos hempty]
    exact (Except.ok.inj h).symm
  · next hempty =>
    obtain ⟨chunks, hchunks, rfl⟩ := except_map_eq_ok.mp h
    rw [if_neg hempty, taskChunks_eq tasks.length (by omega) hchunks, List.drop_zero]

end CopyWriter

/-! ## The dataset -/

open CopyWriter

/-- The tasks of the rows, in the order in which they first appear. -/
def distinctTasks {ρ : Type} (rows : List (InputRow ρ)) : List Text := (rows.map taskText).eraseDups

/-- What a dataset has of the tasks of its rows. -/
structure TasksWritten {ρ ω : Type} (rows : List (InputRow ρ)) (dataset : WrittenDataset ω) : Prop where
  distinct : (distinctTasks rows).Nodup
  taskFile : dataset.taskFile = if rows = [] then none else some (numberedTasks (distinctTasks rows))
  totalTasks : dataset.totalTasks = (distinctTasks rows).length
  dataRows : List.Forall₂ (RowOf (distinctTasks rows)) rows dataset.dataRows
  episodes : List.Forall₂ (RecordOf rows) (List.range dataset.episodes.length) dataset.episodes
  everyRow : ∀ row ∈ rows, ∃ episode < dataset.episodes.length, row.episodeIndex = some (episode : Int)

/-- **The table of tasks is right for every row.** The rows of the table are the tasks of the input in the order of
their first appearance, numbered from zero; each row of the data has the number of its own task, and each episode the
tasks of its rows. The chunks may be cut anywhere. -/
theorem copyRows_tasksWritten {σ ρ ω : Type} (copyHost : CopyHost σ ρ ω) (arithmetic : Arithmetic) (fps : Nat)
    (chunks : List (List (InputRow ρ))) (dataset : WrittenDataset ω)
    (h : copyRows copyHost arithmetic fps chunks = .ok dataset) : TasksWritten chunks.flatten dataset := by
  obtain ⟨writer, hchunks, hfinalize⟩ := except_bind_eq_ok.mp h
  simp only [finalize, except_bind_eq_ok] at hfinalize
  obtain ⟨last, hfinish, _, -, taskFile, htasks, hdataset⟩ := hfinalize
  obtain rfl := Except.ok.inj hdataset
  obtain ⟨⟨finished, current, hrows, hinvariant, -, hidle⟩, hnone⟩ := (after_chunks hchunks).finishEpisode hfinish
  obtain ⟨rfl, -⟩ := hidle hnone
  rw [List.append_nil] at hrows
  subst hrows
  have hlist : last.taskTable.tasks = distinctTasks chunks.flatten := by
    rw [hinvariant.tasks, List.append_nil, distinctTasks]
  have hepisodes : last.episodes.length = last.totalEpisodes := by
    rw [← hinvariant.records.length_eq, List.length_range]
  have hempty : distinctTasks chunks.flatten = [] ↔ chunks.flatten = [] := by
    rw [distinctTasks, eraseDups_eq_nil, List.map_eq_nil_iff]
  constructor
  case distinct => exact nodup_eraseDups _
  case taskFile =>
    rw [writeTasks_eq htasks, hlist]
    simp only [hempty]
  case totalTasks => rw [hlist]
  case dataRows =>
    rw [← hlist]
    exact hinvariant.finishedRows
  case episodes =>
    rw [hepisodes]
    exact hinvariant.records
  case everyRow =>
    rw [hepisodes]
    exact hinvariant.finishedEpisodes

/-- A host that does nothing. -/
def silentHost : CopyHost Unit Nat Nat where
  initial := ()
  checkChunk _ := .ok ()
  startEpisode _ _ := .ok ()
  appendVisuals _ _ columns := .ok ((), columns)
  finishEpisode _ _ := .ok ()
  finalize _ := .ok ()

/-- Two episodes in three chunks. The second chunk has rows of both. -/
def sortingChunks : List (List (InputRow Nat)) :=
  [[⟨some 0, some "pick".toList, 10⟩, ⟨some 0, some "place".toList, 11⟩],
    [⟨some 0, some "pick".toList, 12⟩, ⟨some 1, some "sort".toList, 13⟩],
    [⟨some 1, some "place".toList, 14⟩, ⟨some 1, some "sort".toList, 15⟩]]

theorem sortingChunks_tasksWritten : ∃ dataset, copyRows silentHost .exact 30 sortingChunks = .ok dataset ∧
    dataset.taskFile = some [(0, "pick".toList), (1, "place".toList), (2, "sort".toList)] ∧
    TasksWritten sortingChunks.flatten dataset := by
  cases h : copyRows silentHost .exact 30 sortingChunks with
  | error e =>
      have hok : (copyRows silentHost .exact 30 sortingChunks).isOk = true := by decide +kernel
      rw [h] at hok
      cases hok
  | ok dataset =>
      have hwritten := copyRows_tasksWritten silentHost .exact 30 sortingChunks dataset h
      refine ⟨dataset, rfl, ?_, hwritten⟩
      rw [hwritten.taskFile]
      decide

end DuckdbLerobot.Copy
