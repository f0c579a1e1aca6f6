import DuckdbLerobot.Library.Fallible
import DuckdbLerobot.Storage.DatasetInfo

/-!
# The files of the video writer

FFmpeg reads and writes a video through callbacks, which call the file system of DuckDB. A callback cannot throw: it
records the exception and returns a code, and FFmpeg may ignore the code. So an error that is recorded stays, every later
callback fails, and the writer looks for it when FFmpeg is done.

What the environment does is in the arguments of a call: whether the query is interrupted, what the file system returns,
and which callbacks a flush makes. `Sound` is what holds between two calls.
-/

set_option autoImplicit false

namespace DuckdbLerobot.Copy.VideoIO

open DuckdbLerobot.Library DuckdbLerobot.Storage

/-! ## Files -/

/-- An exception. -/
inductive VideoException
  | io (message : String)
  | interrupt
  | outOfMemory (message : String)
  | invalidInput (message : String)
  | fileSystem (message : String)
  deriving DecidableEq

/-- What is done with a file. -/
inductive FileOperationKind
  | openFile
  | read
  | write
  | seek
  | fileSize
  | flush
  | sync
  | close
  deriving DecidableEq

/-- An operation on a file, and whether it failed. -/
structure FileOperation where
  kind : FileOperationKind
  failed : Bool
  deriving DecidableEq

/-- What C++ leaves undefined: a context that is not open, or a signed overflow. -/
inductive Undefined
  | context
  | overflow
  deriving DecidableEq

/-- The least value of `int64_t`. -/
def int64Minimum : Int := -9223372036854775808

/-- A result of arithmetic in `int64_t`. -/
def int64 (value : Int) : Except Undefined Int :=
  if int64Minimum ≤ value ∧ value ≤ int64Maximum then .ok value else .error .overflow

/-- `AVERROR(EIO)`. -/
def averrorEIO : Int := -5

/-- `AVERROR(EINVAL)`. -/
def averrorEINVAL : Int := -22

/-- `AVERROR_EOF`. -/
def averrorEOF : Int := -541478725

/-- `AVSEEK_SIZE`. -/
def avseekSize : UInt32 := 0x10000

/-- `AVSEEK_FORCE`. -/
def avseekForce : UInt32 := 0x20000

/-! ## States -/

/-- `Handle`, with the position that its file really has. -/
structure Handle where
  writeFlag : Bool
  position : Int := 0
  filePosition : Int := 0

/-- `State`. The operations are those that its files have seen. -/
structure State where
  path : String
  error : Option VideoException := none
  handles : List (Nat × Handle) := []
  operations : List FileOperation := []

/-- `RecordError`: the first error stays. -/
def State.recordError (state : State) (exception : VideoException) : State :=
  { state with error := state.error.or (some exception) }

/-- `Check`, and `ThrowIfError`. -/
def State.check (state : State) (interrupted : Bool) : Except VideoException Unit :=
  match state.error with
  | some exception => .error exception
  | none => if interrupted then .error .interrupt else .ok ()

/-- Operations of the files. -/
def State.saw (state : State) (operations : List FileOperation) : State :=
  { state with operations := state.operations ++ operations }

/-- The end of an operation on a file, in a destructor. -/
def State.ended (state : State) (kind : FileOperationKind) (outcome : Except VideoException Unit) : State :=
  match outcome with
  | .ok () => state.saw [⟨kind, false⟩]
  | .error exception => (state.saw [⟨kind, true⟩]).recordError exception

/-- What a callback leaves behind. -/
structure CallbackResult where
  handle : Handle
  operations : List FileOperation := []
  outcome : Except VideoException Int

/-! ## Callbacks -/

/-- What the file system does when it is asked to read or to write: some bytes, or an exception at some position. -/
inductive Transfer
  | moved (count : Int64)
  | threw (exception : VideoException) (position : Int)

/-- The arguments of `Read` and of `Write`. -/
structure TransferCall where
  interrupted : Bool
  size : Int32
  file : Transfer

/-- The arguments of `Seek`. A file that throws is at some position. -/
structure SeekCall where
  interrupted : Bool
  offset : Int64
  whence : UInt32
  fileSize : Except VideoException Int64
  file : Except (VideoException × Int) Unit

/-- `Read`, up to its `catch`. -/
def read (state : State) (handle : Handle) (call : TransferCall) : Except Undefined CallbackResult :=
  match state.check call.interrupted with
  | .error exception => .ok { handle := handle, outcome := .error exception }
  | .ok () =>
      if call.size.toInt ≤ 0 then .ok { handle := handle, outcome := .ok averrorEINVAL }
      else
        let invalid := VideoException.io s!"Invalid read size for LeRobot video '{state.path}'"
        match call.file with
        | .threw exception position =>
            .ok { handle := { handle with filePosition := position }
                  operations := [⟨.read, true⟩]
                  outcome := .error exception }
        | .moved count =>
            let moved := { handle with filePosition := handle.filePosition + count.toInt }
            if count.toInt < 0 ∨ call.size.toInt < count.toInt then
              .ok { handle := moved, operations := [⟨.read, true⟩], outcome := .error invalid }
            else do
              let limit ← int64 (int64Maximum - count.toInt)
              if limit < handle.position then
                .ok { handle := moved, operations := [⟨.read, true⟩], outcome := .error invalid }
              else do
                let position ← int64 (handle.position + count.toInt)
                .ok { handle := { moved with position := position }
                      operations := [⟨.read, false⟩]
                      outcome := .ok (if count.toInt = 0 then averrorEOF else count.toInt) }

/-- What `Write` throws when the file took less. -/
def incompleteMessage (path : String) (count size : Int) : String :=
  s!"Failed to write complete LeRobot video data to '{path}': wrote {count} of {size} bytes"

/-- `Write`, up to its `catch`. -/
def write (state : State) (handle : Handle) (call : TransferCall) : Except Undefined CallbackResult :=
  match state.check call.interrupted with
  | .error exception => .ok { handle := handle, outcome := .error exception }
  | .ok () =>
      let invalid := VideoException.io s!"Invalid write size for LeRobot video '{state.path}'"
      if call.size.toInt < 0 then .ok { handle := handle, outcome := .error invalid }
      else do
        let limit ← int64 (int64Maximum - call.size.toInt)
        if limit < handle.position then .ok { handle := handle, outcome := .error invalid }
        else
          match call.file with
          | .threw exception position =>
              .ok { handle := { handle with filePosition := position }
                    operations := [⟨.write, true⟩]
                    outcome := .error exception }
          | .moved count =>
              let moved := { handle with filePosition := handle.filePosition + count.toInt }
              if count.toInt ≠ call.size.toInt then
                .ok { handle := moved
                      operations := [⟨.write, true⟩]
                      outcome := .error (.io (incompleteMessage state.path count.toInt call.size.toInt)) }
              else do
                let position ← int64 (handle.position + count.toInt)
                .ok { handle := { moved with position := position }
                      operations := [⟨.write, false⟩]
                      outcome := .ok call.size.toInt }

/-- `FileSize`. -/
def fileSize (path : String) (size : Except VideoException Int64) : Except VideoException Int :=
  size >>= fun size =>
    if size.toInt < 0 then .error (.io s!"Invalid file size for LeRobot video '{path}'") else .ok size.toInt

/-- The condition under which `Seek` refuses an offset from a base. -/
def seekOutside (offset base : Int) : Except Undefined Bool := do
  let negated ← int64 (-base)
  if offset < negated then .ok true
  else if 0 < offset then (int64 (int64Maximum - offset)).map fun limit => decide (limit < base)
  else .ok false

/-- The file is moved to a position. -/
def seekTo (handle : Handle) (call : SeekCall) (operations : List FileOperation) (position : Int) : CallbackResult :=
  match call.file with
  | .error (exception, left) =>
      { handle := { handle with filePosition := left }
        operations := operations ++ [⟨.seek, true⟩]
        outcome := .error exception }
  | .ok () =>
      { handle := { handle with position := position, filePosition := position }
        operations := operations ++ [⟨.seek, false⟩]
        outcome := .ok position }

/-- The end of `Seek`, from the base on. -/
def seekFrom (handle : Handle) (call : SeekCall) (operations : List FileOperation) (base : Int) :
    Except Undefined CallbackResult :=
  seekOutside call.offset.toInt base >>= fun outside =>
    if outside then .ok { handle := handle, operations := operations, outcome := .ok averrorEINVAL }
    else (int64 (base + call.offset.toInt)).map (seekTo handle call operations)

/-- `Seek`, up to its `catch`. -/
def seek (state : State) (handle : Handle) (call : SeekCall) : Except Undefined CallbackResult :=
  match state.check call.interrupted with
  | .error exception => .ok { handle := handle, outcome := .error exception }
  | .ok () =>
      let whence := call.whence &&& ~~~avseekForce
      if whence = avseekSize ∨ whence = 2 then
        match fileSize state.path call.fileSize with
        | .error exception => .ok { handle := handle, operations := [⟨.fileSize, true⟩], outcome := .error exception }
        | .ok size =>
            if whence = avseekSize then .ok { handle := handle, operations := [⟨.fileSize, false⟩], outcome := .ok size }
            else seekFrom handle call [⟨.fileSize, false⟩] size
      else if whence = 1 then seekFrom handle call [] handle.position
      else if whence ≠ 0 then .ok { handle := handle, outcome := .ok averrorEINVAL }
      else seekFrom handle call [] 0

/-- A callback of a context. -/
inductive Callback
  | read (call : TransferCall)
  | write (call : TransferCall)
  | seek (call : SeekCall)

/-- The body of a callback. A context for reading has no `Write`, and one for writing no `Read`. -/
def perform (state : State) (handle : Handle) : Callback → Except Undefined CallbackResult
  | .read call => if handle.writeFlag then .error .context else read state handle call
  | .write call => if handle.writeFlag then write state handle call else .error .context
  | .seek call => seek state handle call

/-- The handle of a context is replaced. -/
def setHandle (handles : List (Nat × Handle)) (context : Nat) (handle : Handle) : List (Nat × Handle) :=
  handles.map fun entry => if entry.1 = context then (context, handle) else entry

/-- The end of a callback, with its `catch`: the state and the code that FFmpeg is given. -/
def State.finish (state : State) (context : Nat) (result : CallbackResult) : State × Int :=
  let state := { state with handles := setHandle state.handles context result.handle }.saw result.operations
  match result.outcome with
  | .ok code => (state, code)
  | .error exception => (state.recordError exception, averrorEIO)

/-- A callback of FFmpeg. -/
def State.callback (state : State) (context : Nat) (callback : Callback) : Except Undefined (State × Int) :=
  match state.handles.lookup context with
  | none => .error .context
  | some handle => (perform state handle callback).map (state.finish context)

/-! ## Opening and closing -/

/-- What `OpenHandle` gets from the file system and from FFmpeg. The last field is for a handle that is destroyed
again. -/
structure OpenCall where
  interrupted : Bool
  openFile : Except VideoException Unit
  canSeek : Bool
  buffer : Bool
  allocated : Bool
  context : Nat
  close : Except VideoException Unit

/-- What `OpenHandle` throws after it has opened the file. -/
def openRefusal (path : String) (call : OpenCall) : Option VideoException :=
  if !call.canSeek then some (.io s!"LeRobot MP4 requires a seekable file: '{path}'")
  else if !call.buffer then some (.outOfMemory "Failed to allocate LeRobot video I/O buffer")
  else if !call.allocated then some (.outOfMemory "Failed to allocate LeRobot video I/O context")
  else none

/-- `OpenHandle`. -/
def State.openHandle (state : State) (write : Bool) (call : OpenCall) :
    Except Undefined (State × Except VideoException Nat) :=
  match state.check call.interrupted with
  | .error exception => .ok (state, .error exception)
  | .ok () =>
      match call.openFile with
      | .error exception => .ok (state.saw [⟨.openFile, true⟩], .error exception)
      | .ok () =>
          let opened := state.saw [⟨.openFile, false⟩]
          match openRefusal state.path call with
          | some exception => .ok (opened.ended .close call.close, .error exception)
          | none =>
              if (state.handles.lookup call.context).isSome then .error .context
              else .ok ({ opened with handles := opened.handles ++ [(call.context, { writeFlag := write })] },
                .ok call.context)

/-- `LerobotVideoIO::URL`. -/
def url : String := "lerobot-media.mp4"

/-- `OpenCallback`. `AVIO_FLAG_READ` is 1. -/
def State.openCallback (state : State) (requested : Option String) (flags : Int) (call : OpenCall) :
    Except Undefined (State × Int) :=
  if requested ≠ some url ∨ flags ≠ 1 then
    .ok (state.recordError
      (.io s!"Unexpected FFmpeg I/O request while writing LeRobot video '{state.path}'"), averrorEIO)
  else
    (state.openHandle false call).map fun result =>
      match result.2 with
      | .ok _ => (result.1, 0)
      | .error exception => (result.1.recordError exception, averrorEIO)

/-- What the destructor of a handle gets: the callbacks of `avio_flush`, the error of the context after it, and what the
file system does. -/
structure CloseCall where
  flush : List Callback
  contextError : Int
  sync : Except VideoException Unit
  close : Except VideoException Unit

/-- The part of the destructor for a context that writes. -/
def State.flushHandle (state : State) (context : Nat) (call : CloseCall) : Except Undefined State :=
  (call.flush.foldlM (fun (state : State) callback => (state.callback context callback).map Prod.fst) state).map
    fun state =>
      if call.contextError < 0 then
        state.ended .flush <| .error <| .io
          s!"Failed to flush LeRobot video '{state.path}' (FFmpeg error {call.contextError})"
      else if state.error.isNone then (state.saw [⟨.flush, false⟩]).ended .sync call.sync
      else state

/-- `Close`, with the destructor of the handle. -/
def State.close (state : State) (context : Nat) (call : CloseCall) : Except Undefined State :=
  match state.handles.lookup context with
  | none => .ok state
  | some handle =>
      (if handle.writeFlag then state.flushHandle context call else .ok state).map fun state =>
        { state with handles := state.handles.filter fun entry => entry.1 ≠ context }.ended .close call.close

/-- What FFmpeg does with a state. -/
inductive Event
  | callback (context : Nat) (callback : Callback)
  | openFile (requested : Option String) (flags : Int) (call : OpenCall)
  | close (context : Nat) (call : CloseCall)

/-- One call of FFmpeg, and the code that it is given. -/
def State.step (state : State) : Event → Except Undefined (State × Int)
  | .callback context callback => state.callback context callback
  | .openFile requested flags call => state.openCallback requested flags call
  | .close context call =>
      (state.close context call).map fun state => (state, if state.error.isSome then averrorEIO else 0)

/-- The calls of FFmpeg, one after another. It may ignore the codes. -/
def State.run (state : State) (events : List Event) : Except Undefined State :=
  events.foldlM (fun (state : State) event => (state.step event).map Prod.fst) state

/-! ## One callback -/

/-- A position that an `int64_t` can have. -/
structure Handle.InRange (handle : Handle) : Prop where
  nonnegative : 0 ≤ handle.position
  bounded : handle.position ≤ int64Maximum

/-- The body of a callback: a recorded error is thrown again, and a callback that returns has not seen a failure. -/
structure CallbackSound (state : State) (handle : Handle) (result : CallbackResult) : Prop where
  inRange : result.handle.InRange
  sticky : ∀ exception, state.error = some exception → result.outcome = .error exception
  succeeded : ∀ code, result.outcome = .ok code → ∀ operation ∈ result.operations, operation.failed = false
  position : ∀ code, result.outcome = .ok code → handle.position = handle.filePosition →
    result.handle.position = result.handle.filePosition

section Callbacks

variable {state : State} {handle : Handle}

theorem int64_eq {value : Int} (hlow : int64Minimum ≤ value) (hhigh : value ≤ int64Maximum) :
    int64 value = .ok value :=
  if_pos ⟨hlow, hhigh⟩

theorem check_of_error {exception : VideoException} (h : state.error = some exception) (interrupted : Bool) :
    state.check interrupted = .error exception := by
  rw [State.check, h]

theorem error_of_check {interrupted : Bool} (h : state.check interrupted = .ok ()) : state.error = none := by
  cases herror : state.error with
  | none => rfl
  | some exception =>
      rw [check_of_error herror] at h
      cases h

/-- A callback that throws, for a handle whose position is kept. -/
theorem CallbackSound.thrown (hrange : handle.InRange) {operations : List FileOperation} {exception : VideoException}
    {left : Int} (hsticky : ∀ recorded, state.error = some recorded → recorded = exception) :
    CallbackSound state handle ⟨{ handle with filePosition := left }, operations, .error exception⟩ where
  inRange := ⟨hrange.nonnegative, hrange.bounded⟩
  sticky := by
    intro recorded hrecorded
    rw [hsticky recorded hrecorded]
  succeeded := by
    intro code hcode
    cases hcode
  position := by
    intro code hcode
    cases hcode

/-- A callback that returns without touching the file. -/
theorem CallbackSound.kept (hrange : handle.InRange) (hnone : state.error = none) {operations : List FileOperation}
    (hoperations : ∀ operation ∈ operations, operation.failed = false) (code : Int) :
    CallbackSound state handle ⟨handle, operations, .ok code⟩ where
  inRange := hrange
  sticky := by
    intro recorded hrecorded
    rw [hnone] at hrecorded
    cases hrecorded
  succeeded := fun _ _ => hoperations
  position := fun _ _ hposition => hposition

/-- A callback that refuses because of `Check`. -/
theorem CallbackSound.refused (hrange : handle.InRange) {interrupted : Bool} {exception : VideoException}
    (hcheck : state.check interrupted = .error exception) :
    CallbackSound state handle ⟨handle, [], .error exception⟩ := by
  apply CallbackSound.thrown hrange
  intro recorded hrecorded
  rw [check_of_error hrecorded] at hcheck
  exact Except.error.inj hcheck

theorem not_recorded (hnone : state.error = none) {exception : VideoException} :
    ∀ recorded, state.error = some recorded → recorded = exception := by
  intro recorded hrecorded
  rw [hnone] at hrecorded
  cases hrecorded

/-- A callback that moves both positions by the same number of bytes. -/
theorem CallbackSound.moved (hnone : state.error = none) {position left : Int} (hlow : 0 ≤ position)
    (hhigh : position ≤ int64Maximum) {operations : List FileOperation}
    (hoperations : ∀ operation ∈ operations, operation.failed = false) {code : Int}
    (hleft : handle.position = handle.filePosition → position = left) :
    CallbackSound state handle
      ⟨{ handle with position := position, filePosition := left }, operations, .ok code⟩ where
  inRange := ⟨hlow, hhigh⟩
  sticky := by
    intro recorded hrecorded
    rw [hnone] at hrecorded
    cases hrecorded
  succeeded := fun _ _ => hoperations
  position := fun _ _ hposition => hleft hposition

theorem not_failed (kind : FileOperationKind) :
    ∀ operation ∈ [FileOperation.mk kind false], operation.failed = false := by
  intro operation hoperation
  rw [List.mem_singleton.mp hoperation]

theorem read_yields (hrange : handle.InRange) (call : TransferCall) :
    Yields (CallbackSound state handle) (fun undefined => undefined = .context) (read state handle call) := by
  rw [read]
  cases hcheck : state.check call.interrupted with
  | error exception => exact CallbackSound.refused hrange hcheck
  | ok _ =>
      have hnone := error_of_check hcheck
      dsimp only
      split
      · exact CallbackSound.kept hrange hnone (fun _ h => absurd h List.not_mem_nil) _
      · cases hfile : call.file with
        | threw exception position => exact CallbackSound.thrown hrange (not_recorded hnone)
        | moved count =>
            dsimp only
            split
            · exact CallbackSound.thrown hrange (not_recorded hnone)
            · next hcount =>
              have hsize := Int32.toInt_lt call.size
              have hnonnegative := hrange.nonnegative
              rw [int64_eq (by simp only [int64Minimum, int64Maximum]; omega) (by omega)]
              change Yields _ _ (if int64Maximum - count.toInt < handle.position then _ else _)
              split
              · exact CallbackSound.thrown hrange (not_recorded hnone)
              · next hlimit =>
                rw [int64_eq (by simp only [int64Minimum]; omega) (by omega)]
                exact CallbackSound.moved hnone (by omega) (by omega) (not_failed .read) fun h => by rw [h]

theorem write_yields (hrange : handle.InRange) (call : TransferCall) :
    Yields (CallbackSound state handle) (fun undefined => undefined = .context) (write state handle call) := by
  rw [write]
  cases hcheck : state.check call.interrupted with
  | error exception => exact CallbackSound.refused hrange hcheck
  | ok _ =>
      have hnone := error_of_check hcheck
      dsimp only
      split
      · exact CallbackSound.thrown hrange (not_recorded hnone)
      · next hsize =>
        have hnonnegative := hrange.nonnegative
        have hfits := Int32.toInt_lt call.size
        rw [int64_eq (by simp only [int64Minimum, int64Maximum]; omega) (by omega)]
        change Yields _ _ (if int64Maximum - call.size.toInt < handle.position then _ else _)
        split
        · exact CallbackSound.thrown hrange (not_recorded hnone)
        · next hlimit =>
          cases hfile : call.file with
          | threw exception position => exact CallbackSound.thrown hrange (not_recorded hnone)
          | moved count =>
              dsimp only
              split
              · exact CallbackSound.thrown hrange (not_recorded hnone)
              · next hcount =>
                have hcount : count.toInt = call.size.toInt := not_not.mp hcount
                rw [int64_eq (by simp only [int64Minimum]; omega) (by omega)]
                exact CallbackSound.moved hnone (by omega) (by omega) (not_failed .write) fun h => by rw [h]

theorem seekOutside_eq {offset base : Int} (hoffset : offset ≤ int64Maximum) (hlow : 0 ≤ base)
    (hhigh : base ≤ int64Maximum) :
    seekOutside offset base = .ok (decide (base + offset < 0 ∨ int64Maximum < base + offset)) := by
  have hbounds : int64Minimum = -int64Maximum - 1 := rfl
  rw [seekOutside, int64_eq (by omega) (by omega)]
  change (if offset < -base then _ else _) = _
  split
  · exact congrArg Except.ok (decide_eq_true (.inl (by omega))).symm
  · split
    · rw [int64_eq (by omega) (by omega)]
      exact congrArg Except.ok (decide_eq_decide.mpr (by omega))
    · exact congrArg Except.ok (decide_eq_false (by omega)).symm

/-- **`Seek` does not overflow**, from any base that an `int64_t` can have. -/
theorem seekFrom_yields (hrange : handle.InRange) (hnone : state.error = none) (call : SeekCall)
    {operations : List FileOperation} (hoperations : ∀ operation ∈ operations, operation.failed = false) {base : Int}
    (hlow : 0 ≤ base) (hhigh : base ≤ int64Maximum) :
    Yields (CallbackSound state handle) (fun undefined => undefined = .context)
      (seekFrom handle call operations base) := by
  have hbounds : int64Minimum = -int64Maximum - 1 := rfl
  rw [seekFrom, seekOutside_eq (Int64.toInt_le call.offset) hlow hhigh]
  change Yields _ _ (if decide _ = true then _ else _)
  split
  · exact CallbackSound.kept hrange hnone hoperations _
  · next hwithin =>
    rw [decide_eq_true_eq] at hwithin
    rw [int64_eq (by omega) (by omega)]
    change CallbackSound state handle (seekTo handle call operations (base + call.offset.toInt))
    rw [seekTo]
    cases hfile : call.file with
    | error left => exact CallbackSound.thrown hrange (not_recorded hnone)
    | ok _ =>
        apply CallbackSound.moved hnone (by omega) (by omega) _ fun _ => rfl
        intro operation hoperation
        obtain hoperation | hoperation := List.mem_append.mp hoperation
        · exact hoperations operation hoperation
        · exact not_failed .seek operation hoperation

theorem seek_yields (hrange : handle.InRange) (call : SeekCall) :
    Yields (CallbackSound state handle) (fun undefined => undefined = .context) (seek state handle call) := by
  rw [seek]
  cases hcheck : state.check call.interrupted with
  | error exception => exact CallbackSound.refused hrange hcheck
  | ok _ =>
      have hnone := error_of_check hcheck
      have hempty : ∀ operation ∈ ([] : List FileOperation), operation.failed = false :=
        fun _ h => absurd h List.not_mem_nil
      dsimp only
      split
      · cases hsize : fileSize state.path call.fileSize with
        | error exception => exact CallbackSound.thrown hrange (not_recorded hnone)
        | ok size =>
            obtain ⟨reported, hreported, hchecked⟩ := except_bind_eq_ok.mp hsize
            have hbounds : 0 ≤ size ∧ size ≤ int64Maximum := by
              split at hchecked
              · cases hchecked
              · next hnonnegative =>
                rw [← Except.ok.inj hchecked]
                exact ⟨by omega, Int64.toInt_le reported⟩
            dsimp only
            split
            · exact CallbackSound.kept hrange hnone (not_failed .fileSize) _
            · exact seekFrom_yields hrange hnone call (not_failed .fileSize) hbounds.1 hbounds.2
      · split
        · exact seekFrom_yields hrange hnone call hempty hrange.nonnegative hrange.bounded
        · split
          · exact CallbackSound.kept hrange hnone hempty _
          · exact seekFrom_yields hrange hnone call hempty le_rfl (by simp only [int64Maximum]; omega)

theorem perform_yields (hrange : handle.InRange) (callback : Callback) :
    Yields (CallbackSound state handle) (fun undefined => undefined = .context) (perform state handle callback) := by
  cases callback with
  | read call =>
      rw [perform]
      split
      · exact rfl
      · exact read_yields hrange call
  | write call =>
      rw [perform]
      split
      · exact write_yields hrange call
      · exact rfl
  | seek call => exact seek_yields hrange call

end Callbacks

/-! ## Runs -/

/-- What holds between two calls: without a recorded error, nothing has failed, and the handles know where their files
are. -/
structure Sound (state : State) : Prop where
  inRange : ∀ entry ∈ state.handles, entry.2.InRange
  positions : state.error = none → ∀ entry ∈ state.handles, entry.2.position = entry.2.filePosition
  operations : state.error = none → ∀ operation ∈ state.operations, operation.failed = false

/-- An error that is recorded stays. -/
def Keeps (state state' : State) : Prop := ∀ exception, state.error = some exception → state'.error = some exception

section Runs

variable {state state' : State}

theorem Keeps.trans {state'' : State} (h : Keeps state state') (h' : Keeps state' state'') : Keeps state state'' :=
  fun exception hexception => h' exception (h exception hexception)

theorem keeps_recordError (exception : VideoException) : Keeps state (state.recordError exception) := by
  intro recorded hrecorded
  rw [State.recordError, hrecorded]
  rfl

theorem recordError_ne_none (exception : VideoException) : (state.recordError exception).error ≠ none := by
  rw [State.recordError]
  cases state.error with
  | none => exact Option.some_ne_none _
  | some recorded => exact Option.some_ne_none _

/-- With a recorded error, only the ranges are left to show. -/
theorem sound_of_recorded (hrange : ∀ entry ∈ state.handles, entry.2.InRange) (hrecorded : state.error ≠ none) :
    Sound state where
  inRange := hrange
  positions := fun hnone => absurd hnone hrecorded
  operations := fun hnone => absurd hnone hrecorded

theorem Sound.recordError (h : Sound state) (exception : VideoException) : Sound (state.recordError exception) :=
  sound_of_recorded h.inRange (recordError_ne_none exception)

theorem Sound.saw (h : Sound state) {operations : List FileOperation}
    (hoperations : ∀ operation ∈ operations, operation.failed = false) : Sound (state.saw operations) where
  inRange := h.inRange
  positions := h.positions
  operations := by
    intro hnone operation hoperation
    obtain hoperation | hoperation := List.mem_append.mp hoperation
    · exact h.operations hnone operation hoperation
    · exact hoperations operation hoperation

theorem Sound.ended (h : Sound state) (kind : FileOperationKind) (outcome : Except VideoException Unit) :
    Sound (state.ended kind outcome) ∧ Keeps state (state.ended kind outcome) := by
  cases outcome with
  | ok _ => exact ⟨h.saw (not_failed kind), fun _ => id⟩
  | error exception =>
      exact ⟨sound_of_recorded h.inRange (recordError_ne_none exception), keeps_recordError exception⟩

theorem mem_of_lookup {handles : List (Nat × Handle)} {context : Nat} {handle : Handle}
    (h : handles.lookup context = some handle) : (context, handle) ∈ handles := by
  rw [List.lookup_eq_some_iff] at h
  obtain ⟨before, after, rfl, -⟩ := h
  exact List.mem_append_right _ List.mem_cons_self

theorem mem_setHandle {handles : List (Nat × Handle)} {context : Nat} {handle : Handle} {entry : Nat × Handle}
    (h : entry ∈ setHandle handles context handle) : entry.2 = handle ∨ entry ∈ handles := by
  obtain ⟨old, hold, rfl⟩ := List.mem_map.mp h
  split
  · exact .inl rfl
  · exact .inr hold

/-- **A callback** keeps the state sound, and fails when an error is recorded. -/
theorem Sound.callback (h : Sound state) (context : Nat) (callback : Callback) :
    Yields (fun result => Sound result.1 ∧ Keeps state result.1 ∧
      ∀ exception, state.error = some exception → result.2 = averrorEIO)
      (fun undefined => undefined = .context) (state.callback context callback) := by
  rw [State.callback]
  cases hlookup : state.handles.lookup context with
  | none => exact rfl
  | some handle =>
      have hmem := mem_of_lookup hlookup
      have hperform : Yields (CallbackSound state handle) (fun undefined => undefined = .context)
          (perform state handle callback) := perform_yields (h.inRange _ hmem) callback
      apply hperform.map
      intro result hresult
      have hrange : ∀ entry ∈ setHandle state.handles context result.handle, entry.2.InRange := by
        intro entry hentry
        obtain heq | hold := mem_setHandle hentry
        · rw [heq]
          exact hresult.inRange
        · exact h.inRange entry hold
      rw [State.finish]
      cases houtcome : result.outcome with
      | error exception =>
          refine ⟨sound_of_recorded hrange (recordError_ne_none exception), keeps_recordError exception, fun _ _ => rfl⟩
      | ok code =>
          refine ⟨⟨hrange, ?_, ?_⟩, fun _ => id, ?_⟩
          · intro hnone entry hentry
            obtain heq | hold := mem_setHandle hentry
            · rw [heq]
              exact hresult.position code houtcome (h.positions hnone _ hmem)
            · exact h.positions hnone entry hold
          · intro hnone operation hoperation
            obtain hoperation | hoperation := List.mem_append.mp hoperation
            · exact h.operations hnone operation hoperation
            · exact hresult.succeeded code houtcome operation hoperation
          · intro exception hexception
            rw [hresult.sticky exception hexception] at houtcome
            cases houtcome

/-- `OpenHandle`. An exception is recorded by the callback, or thrown to the writer. -/
theorem Sound.openHandle (h : Sound state) (write : Bool) (call : OpenCall) :
    Yields (fun result => Keeps state result.1 ∧
      (∀ exception, state.error = some exception → result.2 = .error exception) ∧
      (∀ context, result.2 = .ok context → Sound result.1) ∧
      ∀ exception, result.2 = .error exception → Sound (result.1.recordError exception))
      (fun undefined => undefined = .context) (state.openHandle write call) := by
  rw [State.openHandle]
  cases hcheck : state.check call.interrupted with
  | error exception =>
      refine ⟨fun _ => id, ?_, nofun, fun _ _ => h.recordError _⟩
      intro recorded hrecorded
      rw [check_of_error hrecorded] at hcheck
      exact congrArg Except.error (Except.error.inj hcheck).symm
  | ok _ =>
      have hnone := error_of_check hcheck
      have hsticky {α : Type} {outcome : Except VideoException α} :
          ∀ exception, state.error = some exception → outcome = .error exception := by
        intro exception hexception
        rw [hnone] at hexception
        cases hexception
      cases hopen : call.openFile with
      | error exception =>
          exact ⟨fun _ => id, hsticky, nofun, fun _ _ => sound_of_recorded h.inRange (recordError_ne_none _)⟩
      | ok _ =>
          dsimp only
          cases hrefusal : openRefusal state.path call with
          | some exception =>
              have hended := (h.saw (not_failed .openFile)).ended .close call.close
              exact ⟨hended.2, hsticky, nofun, fun _ _ => hended.1.recordError _⟩
          | none =>
              dsimp only
              split
              · exact rfl
              · refine ⟨fun _ => id, hsticky, fun _ _ => ?_, nofun⟩
                have hopened := h.saw (not_failed .openFile)
                have hentry : ∀ entry ∈ state.handles ++ [(call.context, ({ writeFlag := write } : Handle))],
                    entry ∈ state.handles ∨ entry.2 = { writeFlag := write } := by
                  intro entry hentry
                  obtain hold | hnew := List.mem_append.mp hentry
                  · exact .inl hold
                  · rw [List.mem_singleton.mp hnew]
                    exact .inr rfl
                refine ⟨?_, ?_, hopened.operations⟩
                · intro entry hmem
                  obtain hold | hnew := hentry entry hmem
                  · exact h.inRange entry hold
                  · rw [hnew]
                    exact ⟨le_rfl, by simp only [int64Maximum]; omega⟩
                · intro hnone entry hmem
                  obtain hold | hnew := hentry entry hmem
                  · exact h.positions hnone entry hold
                  · rw [hnew]

/-- `OpenCallback`. -/
theorem Sound.openCallback (h : Sound state) (requested : Option String) (flags : Int) (call : OpenCall) :
    Yields (fun result => Sound result.1 ∧ Keeps state result.1 ∧
      ∀ exception, state.error = some exception → result.2 = averrorEIO)
      (fun undefined => undefined = .context) (state.openCallback requested flags call) := by
  rw [State.openCallback]
  split
  · exact ⟨h.recordError _, keeps_recordError _, fun _ _ => rfl⟩
  · apply (h.openHandle false call).map
    rintro ⟨opened, outcome⟩ ⟨hkeeps, hsticky, hok, herror⟩
    cases outcome with
    | ok context =>
        refine ⟨hok context rfl, hkeeps, fun exception hexception => ?_⟩
        cases hsticky exception hexception
    | error exception => exact ⟨herror exception rfl, hkeeps.trans (keeps_recordError exception), fun _ _ => rfl⟩

/-- The flush of a handle, and what follows it. -/
theorem Sound.flushHandle (h : Sound state) (context : Nat) (call : CloseCall) :
    Yields (fun flushed => Sound flushed ∧ Keeps state flushed) (fun undefined => undefined = .context)
      (state.flushHandle context call) := by
  have hcallbacks : Yields (fun flushed => Sound flushed ∧ Keeps state flushed) (fun undefined => undefined = .context)
      (call.flush.foldlM (fun (state : State) callback => (state.callback context callback).map Prod.fst) state) := by
    apply foldlM_rule (I := fun _ (flushed : State) => Sound flushed ∧ Keeps state flushed) ⟨h, fun _ => id⟩
    rintro seen callback rest before - ⟨hbefore, hkeeps⟩
    apply (hbefore.callback context callback).map
    intro result hresult
    exact ⟨hresult.1, hkeeps.trans hresult.2.1⟩
  rw [State.flushHandle]
  apply hcallbacks.map
  rintro flushed ⟨hflushed, hkeeps⟩
  split
  · have hended := hflushed.ended .flush (.error
      (.io s!"Failed to flush LeRobot video '{flushed.path}' (FFmpeg error {call.contextError})"))
    exact ⟨hended.1, hkeeps.trans hended.2⟩
  · split
    · have hended := (hflushed.saw (not_failed .flush)).ended .sync call.sync
      exact ⟨hended.1, hkeeps.trans hended.2⟩
    · exact ⟨hflushed, hkeeps⟩

/-- `Close`, with the destructor. -/
theorem Sound.close (h : Sound state) (context : Nat) (call : CloseCall) :
    Yields (fun closed => Sound closed ∧ Keeps state closed) (fun undefined => undefined = .context)
      (state.close context call) := by
  rw [State.close]
  cases hlookup : state.handles.lookup context with
  | none => exact ⟨h, fun _ => id⟩
  | some handle =>
      have hflushed : Yields (fun flushed => Sound flushed ∧ Keeps state flushed)
          (fun undefined => undefined = .context)
          (if handle.writeFlag then state.flushHandle context call else .ok state) := by
        split
        · exact h.flushHandle context call
        · exact ⟨h, fun _ => id⟩
      apply hflushed.map
      rintro flushed ⟨hsound, hkeeps⟩
      have hremoved : Sound { flushed with handles := flushed.handles.filter fun entry => entry.1 ≠ context } :=
        { inRange := fun entry hentry => hsound.inRange entry (List.mem_of_mem_filter hentry)
          positions := fun hnone entry hentry => hsound.positions hnone entry (List.mem_of_mem_filter hentry)
          operations := hsound.operations }
      have hended := hremoved.ended .close call.close
      exact ⟨hended.1, hkeeps.trans hended.2⟩

/-- An event that is a callback other than the one that closes. -/
def Event.isCallback : Event → Bool
  | .close _ _ => false
  | _ => true

/-- **One call of FFmpeg.** -/
theorem Sound.step (h : Sound state) (event : Event) :
    Yields (fun result => Sound result.1 ∧ Keeps state result.1 ∧
      ∀ exception, state.error = some exception → event.isCallback = true → result.2 = averrorEIO)
      (fun undefined => undefined = .context) (state.step event) := by
  cases event with
  | callback context callback =>
      apply (h.callback context callback).mono _ fun _ => id
      rintro result ⟨hsound, hkeeps, hfails⟩
      exact ⟨hsound, hkeeps, fun exception hexception _ => hfails exception hexception⟩
  | openFile requested flags call =>
      apply (h.openCallback requested flags call).mono _ fun _ => id
      rintro result ⟨hsound, hkeeps, hfails⟩
      exact ⟨hsound, hkeeps, fun exception hexception _ => hfails exception hexception⟩
  | close context call =>
      apply (h.close context call).map
      rintro closed ⟨hsound, hkeeps⟩
      exact ⟨hsound, hkeeps, fun _ _ => nofun⟩

/-- **The calls of FFmpeg, in any order.** -/
theorem Sound.run (h : Sound state) (events : List Event) :
    Yields (fun result => Sound result ∧ Keeps state result) (fun undefined => undefined = .context)
      (state.run events) := by
  apply foldlM_rule (I := fun _ (result : State) => Sound result ∧ Keeps state result) ⟨h, fun _ => id⟩
  rintro seen event rest before - ⟨hbefore, hkeeps⟩
  apply (hbefore.step event).map
  intro result hresult
  exact ⟨hresult.1, hkeeps.trans hresult.2.1⟩

/-- A new adapter. -/
theorem sound_initial (path : String) : Sound { path := path } where
  inRange := fun _ h => absurd h List.not_mem_nil
  positions := fun _ _ h => absurd h List.not_mem_nil
  operations := fun _ _ h => absurd h List.not_mem_nil

end Runs

end DuckdbLerobot.Copy.VideoIO
