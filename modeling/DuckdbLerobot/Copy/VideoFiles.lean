import DuckdbLerobot.Copy.VideoIO

/-!
# Writing and joining videos

`EncodeVideo` writes a video through FFmpeg, and `ConcatenateVideos` copies the packets of its fragments. Both look for
a recorded error after each call of FFmpeg that can use the files, and again when the output is flushed, synced and
closed. What FFmpeg does is a script: the callbacks that each of its functions makes, and the status that it returns.

`videoIO_errors` says that an error stays, that the positions are right without one, and that no error is lost when a
video is returned. A handle that is still open then is closed after the last check, so FFmpeg has to have closed its own.
-/

set_option autoImplicit false

namespace DuckdbLerobot.Copy.VideoIO

open DuckdbLerobot.Library DuckdbLerobot.Storage

/-! ## Calls of FFmpeg -/

/-- Why a video is not written. The last one is for a loop that goes on. -/
inductive VideoStop
  | undefined (undefined : Undefined)
  | threw (exception : VideoException)
  | running

/-- What C++ defines. -/
def defined {α : Type} (result : Except Undefined α) : Except VideoStop α := result.mapError .undefined

/-- An exception is passed on. -/
def thrown {α : Type} (result : Except VideoException α) : Except VideoStop α := result.mapError .threw

/-- A function of FFmpeg: its calls, its status with the text of `av_strerror`, and whether the query is interrupted when
it returns. -/
structure FFmpegCall where
  events : List Event
  status : Int
  description : String
  interrupted : Bool

/-- `ThrowOnFFmpegError`, without files. -/
def throwOnStatus (operation path : String) (call : FFmpegCall) : Except VideoStop Unit :=
  if call.status < 0 then
    .error (.threw (.io s!"FFmpeg failed to {operation} LeRobot visual '{path}': {call.description}"))
  else .ok ()

/-- A function of FFmpeg that uses the files, and the `ThrowOnFFmpegError` after it. -/
def State.ffmpeg (state : State) (operation path : String) (call : FFmpegCall) : Except VideoStop State := do
  let state ← defined (state.run call.events)
  thrown (state.check call.interrupted)
  throwOnStatus operation path call
  .ok state

/-- `Open`: the context of the format. -/
def State.openFormat (state : State) (writable : Bool) (call : OpenCall) : Except VideoStop (State × Nat) := do
  let opened ← defined (state.openHandle writable call)
  let context ← thrown opened.2
  .ok (opened.1, context)

/-- `~State`: the handles that are left. -/
def State.destroy (state : State) (calls : Nat → CloseCall) : Except VideoStop State :=
  defined (state.handles.foldlM (fun (state : State) entry => state.close entry.1 (calls entry.1)) state)

/-- An adapter when its owner returns, and after its destructor. -/
structure Finished where
  returned : State
  destroyed : State

/-! ## `EncodeVideo` -/

/-- A packet of the encoder: what comes before it is muxed, and the muxing. -/
structure PacketScript where
  received : Except VideoException Unit
  mux : FFmpegCall

/-- A frame: what comes before `DrainEncoder`, and its packets. -/
structure FrameScript where
  submitted : Except VideoException Unit
  packets : List PacketScript

/-- What `EncodeVideo` meets, in order. The steps without files only return or throw. -/
structure EncodeScript (ι : Type) where
  prepared : Except VideoException Unit
  openOutput : OpenCall
  header : FFmpegCall
  started : Except VideoException Unit
  frames : List FrameScript
  flushed : Except VideoException Unit
  lastPackets : List PacketScript
  finished : Except VideoException Unit
  trailer : FFmpegCall
  close : CloseCall
  interrupted : Bool
  info : Except VideoException ι
  destroy : Nat → CloseCall

/-- `DrainEncoder`. -/
def drainEncoder (path : String) (state : State) (packets : List PacketScript) : Except VideoStop State :=
  packets.foldlM (fun (state : State) packet =>
    thrown packet.received >>= fun _ => state.ffmpeg "mux" path packet.mux) state

/-- `EncodeVideo`. -/
def encodeVideo {ι : Type} (path : String) (script : EncodeScript ι) : Except VideoStop (ι × Finished) := do
  thrown script.prepared
  let (state, context) ← State.openFormat { path := path } true script.openOutput
  let state ← state.ffmpeg "write the MP4 header for" path script.header
  thrown script.started
  let state ← script.frames.foldlM (fun (state : State) frame =>
    thrown frame.submitted >>= fun _ => drainEncoder path state frame.packets) state
  thrown script.flushed
  let state ← drainEncoder path state script.lastPackets
  thrown script.finished
  let state ← state.ffmpeg "write the MP4 trailer for" path script.trailer
  let state ← defined (state.close context script.close)
  thrown (state.check script.interrupted)
  let info ← thrown script.info
  let destroyed ← state.destroy script.destroy
  .ok (info, ⟨state, destroyed⟩)

/-! ## `ConcatenateVideos` -/

/-- A packet of a fragment: it is read, checked and muxed. -/
structure ReadScript where
  read : FFmpegCall
  checked : Except VideoException Unit
  mux : FFmpegCall

/-- The output, which the first fragment opens. -/
structure OutputScript where
  prepared : Except VideoException Unit
  openOutput : OpenCall
  header : FFmpegCall

/-- What a round of the loop over the fragments meets. A fragment after the first has the format of the output, or
throws. -/
structure FragmentScript where
  path : String
  allocated : Except VideoException Unit
  openInput : OpenCall
  openFormat : FFmpegCall
  streamInfo : FFmpegCall
  inspected : Except VideoException Unit
  output : OutputScript
  matched : Except VideoException Unit
  timestamps : Except VideoException Unit
  packets : List ReadScript
  advanced : Except VideoException Unit
  closeFormat : List Event
  close : CloseCall
  interrupted : Bool
  destroy : Nat → CloseCall

/-- What `ConcatenateVideos` meets, in order. -/
structure ConcatScript where
  prepared : Except VideoException Unit
  fragments : List FragmentScript
  trailer : FFmpegCall
  close : CloseCall
  interrupted : Bool
  destroy : Nat → CloseCall

/-- The loop over the packets of a fragment, with its files and those of the output. -/
def copyPackets (outputPath : String) : List ReadScript → State × State → Except VideoStop (State × State)
  | [], _ => .error .running
  | script :: scripts, (input, output) => do
      let input ← defined (input.run script.read.events)
      thrown (input.check script.read.interrupted)
      if script.read.status = averrorEOF then .ok (input, output)
      else do
        throwOnStatus "read a video fragment for" outputPath script.read
        thrown script.checked
        let output ← output.ffmpeg "mux a concatenated packet for" outputPath script.mux
        copyPackets outputPath scripts (input, output)

/-- The output, its context after it is open, and the fragments that have been copied. -/
structure Concatenation where
  output : State
  context : Option Nat := none
  fragments : List Finished := []

/-- The output is opened for the first fragment, and compared with the others. -/
def openOutput (outputPath : String) (concatenation : Concatenation) (script : FragmentScript) :
    Except VideoStop Concatenation :=
  match concatenation.context with
  | some _ => thrown script.matched >>= fun _ => .ok concatenation
  | none => do
      thrown script.output.prepared
      let (output, context) ← concatenation.output.openFormat true script.output.openOutput
      let output ← output.ffmpeg "write the MP4 header for" outputPath script.output.header
      .ok { concatenation with output := output, context := some context }

/-- A round of the loop over the fragments. -/
def appendFragment (outputPath : String) (concatenation : Concatenation) (script : FragmentScript) :
    Except VideoStop Concatenation := do
  thrown script.allocated
  let (input, context) ← State.openFormat { path := script.path } false script.openInput
  let input ← input.ffmpeg "open a video fragment for" outputPath script.openFormat
  let input ← input.ffmpeg "inspect a video fragment for" outputPath script.streamInfo
  thrown script.inspected
  let concatenation ← openOutput outputPath concatenation script
  thrown script.timestamps
  let (input, output) ← copyPackets outputPath script.packets (input, concatenation.output)
  thrown script.advanced
  let input ← defined (input.run script.closeFormat)
  let input ← defined (input.close context script.close)
  thrown (input.check script.interrupted)
  let destroyed ← input.destroy script.destroy
  .ok { concatenation with output := output, fragments := concatenation.fragments ++ [⟨input, destroyed⟩] }

/-- `ConcatenateVideos`: its output and its fragments. -/
def concatenateVideos (outputPath : String) (script : ConcatScript) :
    Except VideoStop (Finished × List Finished) := do
  if script.fragments = [] then .error (.threw (.invalidInput "Cannot concatenate an empty LeRobot video list"))
  else do
    thrown script.prepared
    let concatenation ← script.fragments.foldlM (appendFragment outputPath) { output := { path := outputPath } }
    let output ← concatenation.output.ffmpeg "write the MP4 trailer for" outputPath script.trailer
    let output ← defined (concatenation.context.elim (.ok output) fun context => output.close context script.close)
    thrown (output.check script.interrupted)
    let destroyed ← output.destroy script.destroy
    .ok (⟨output, destroyed⟩, concatenation.fragments)

/-! ## Errors are not lost -/

/-- An adapter that has seen no failure. -/
def NoFailure (state : State) : Prop := ∀ operation ∈ state.operations, operation.failed = false

section Programs

variable {state state' : State} {path outputPath : String}

theorem defined_eq_ok {α : Type} {result : Except Undefined α} {value : α} (h : defined result = .ok value) :
    result = .ok value := by
  cases result with
  | error undefined => cases h
  | ok found => rw [Except.ok.inj h]

theorem thrown_eq_ok {α : Type} {result : Except VideoException α} {value : α} (h : thrown result = .ok value) :
    result = .ok value := by
  cases result with
  | error exception => cases h
  | ok found => rw [Except.ok.inj h]

theorem Sound.of_run (h : Sound state) {events : List Event} (hrun : state.run events = .ok state') : Sound state' := by
  have hyields := h.run events
  rw [hrun] at hyields
  exact hyields.1

theorem Sound.of_close (h : Sound state) {context : Nat} {call : CloseCall} (hclose : state.close context call = .ok state') :
    Sound state' := by
  have hyields := h.close context call
  rw [hclose] at hyields
  exact hyields.1

theorem Sound.of_ffmpeg (h : Sound state) {operation : String} {call : FFmpegCall}
    (hffmpeg : state.ffmpeg operation path call = .ok state') : Sound state' := by
  simp only [State.ffmpeg, except_bind_eq_ok] at hffmpeg
  obtain ⟨after, hrun, _, -, _, -, hend⟩ := hffmpeg
  rw [← Except.ok.inj hend]
  exact h.of_run (defined_eq_ok hrun)

theorem Sound.of_openFormat (h : Sound state) {writable : Bool} {call : OpenCall} {context : Nat}
    (hopen : state.openFormat writable call = .ok (state', context)) : Sound state' := by
  simp only [State.openFormat, except_bind_eq_ok] at hopen
  obtain ⟨opened, hopened, found, hfound, hend⟩ := hopen
  have hyields := h.openHandle writable call
  rw [defined_eq_ok hopened] at hyields
  obtain ⟨rfl, -⟩ := Prod.mk.inj (Except.ok.inj hend)
  exact hyields.2.2.1 found (thrown_eq_ok hfound)

/-- After a check that does not throw, nothing has failed. -/
theorem Sound.noFailure (h : Sound state) {interrupted : Bool} (hcheck : state.check interrupted = .ok ()) :
    NoFailure state :=
  h.operations (error_of_check hcheck)

/-- A destructor without handles does nothing. -/
theorem destroy_eq (hclosed : state.handles = []) {calls : Nat → CloseCall} (h : state.destroy calls = .ok state') :
    state' = state := by
  rw [State.destroy, hclosed] at h
  exact (Except.ok.inj (defined_eq_ok h)).symm

theorem Sound.of_drainEncoder (h : Sound state) {packets : List PacketScript}
    (hdrain : drainEncoder path state packets = .ok state') : Sound state' := by
  refine foldlM_ok (I := fun _ (state : State) => Sound state) hdrain h ?_
  intro seen packet rest before after _ hbefore hround
  obtain ⟨_, -, hffmpeg⟩ := except_bind_eq_ok.mp hround
  exact hbefore.of_ffmpeg hffmpeg

/-- **A video that is returned has been written without a failure**, up to the handles that FFmpeg has left open. -/
theorem encodeVideo_noFailure {ι : Type} {script : EncodeScript ι} {info : ι} {finished : Finished}
    (h : encodeVideo path script = .ok (info, finished)) (hclosed : finished.returned.handles = []) :
    NoFailure finished.destroyed := by
  simp only [encodeVideo, except_bind_eq_ok] at h
  obtain ⟨_, -, ⟨opened, context⟩, hopen, headed, hheader, _, -, encoded, hframes, _, -, drained, hdrain, _, -, trailed,
    htrailer, closed, hclose, _, hcheck, found, -, destroyed, hdestroy, hend⟩ := h
  obtain ⟨-, rfl⟩ := Prod.mk.inj (Except.ok.inj hend)
  have hheaded : Sound headed := ((sound_initial path).of_openFormat hopen).of_ffmpeg hheader
  have hencoded : Sound encoded := by
    refine foldlM_ok (I := fun _ (state : State) => Sound state) hframes hheaded ?_
    intro seen frame rest before after _ hbefore hround
    obtain ⟨_, -, hdrain⟩ := except_bind_eq_ok.mp hround
    exact hbefore.of_drainEncoder hdrain
  have hsound : Sound closed := ((hencoded.of_drainEncoder hdrain).of_ffmpeg htrailer).of_close (defined_eq_ok hclose)
  change NoFailure destroyed
  rw [destroy_eq hclosed hdestroy]
  exact hsound.noFailure (thrown_eq_ok hcheck)

/-- The loop over the packets of a fragment. The induction is on the packets. -/
theorem sound_copyPackets {scripts : List ReadScript} {input output input' output' : State} (hinput : Sound input)
    (houtput : Sound output) (h : copyPackets outputPath scripts (input, output) = .ok (input', output')) :
    Sound input' ∧ Sound output' := by
  induction scripts generalizing input output with
  | nil => cases h
  | cons script scripts ih =>
      simp only [copyPackets, except_bind_eq_ok] at h
      obtain ⟨read, hread, _, -, h⟩ := h
      have hreadSound : Sound read := hinput.of_run (defined_eq_ok hread)
      split at h
      · obtain ⟨rfl, rfl⟩ := Prod.mk.inj (Except.ok.inj h)
        exact ⟨hreadSound, houtput⟩
      · simp only [except_bind_eq_ok] at h
        obtain ⟨_, -, _, -, muxed, hmux, h⟩ := h
        exact ih hreadSound (houtput.of_ffmpeg hmux) h

/-- The output is sound, and the fragments were read without a failure, up to the handles that FFmpeg has left open. -/
structure Concatenation.Sound (concatenation : Concatenation) : Prop where
  output : VideoIO.Sound concatenation.output
  fragments : ∀ fragment ∈ concatenation.fragments, fragment.returned.handles = [] → NoFailure fragment.destroyed

theorem Concatenation.Sound.openOutput {concatenation concatenation' : Concatenation} (h : concatenation.Sound)
    {script : FragmentScript} (hopen : VideoIO.openOutput outputPath concatenation script = .ok concatenation') :
    concatenation'.Sound := by
  rw [ VideoIO.openOutput] at hopen
  split at hopen
  · obtain ⟨_, -, hend⟩ := except_bind_eq_ok.mp hopen
    rw [← Except.ok.inj hend]
    exact h
  · simp only [except_bind_eq_ok] at hopen
    obtain ⟨_, -, ⟨opened, context⟩, hopened, headed, hheader, hend⟩ := hopen
    rw [← Except.ok.inj hend]
    exact ⟨(h.output.of_openFormat hopened).of_ffmpeg hheader, h.fragments⟩

/-- One fragment. -/
theorem Concatenation.Sound.appendFragment {concatenation concatenation' : Concatenation} (h : concatenation.Sound)
    {script : FragmentScript} (happend : VideoIO.appendFragment outputPath concatenation script = .ok concatenation') :
    concatenation'.Sound := by
  simp only [ VideoIO.appendFragment, except_bind_eq_ok] at happend
  obtain ⟨_, -, ⟨opened, context⟩, hopen, found, hfound, inspected, hinspected, _, -, prepared, hprepared, _, -,
    ⟨read, muxed⟩, hpackets, _, -, ended, hended, closed, hclose, _, hcheck, destroyed, hdestroy, hend⟩ := happend
  rw [← Except.ok.inj hend]
  have hprepared := h.openOutput hprepared
  have hinput : VideoIO.Sound inspected :=
    (((sound_initial script.path).of_openFormat hopen).of_ffmpeg hfound).of_ffmpeg hinspected
  obtain ⟨hread, hmuxed⟩ := sound_copyPackets hinput hprepared.output hpackets
  have hclosed : VideoIO.Sound closed := (hread.of_run (defined_eq_ok hended)).of_close (defined_eq_ok hclose)
  refine ⟨hmuxed, ?_⟩
  intro fragment hfragment hhandles
  obtain hold | hnew := List.mem_append.mp hfragment
  · exact hprepared.fragments fragment hold hhandles
  · obtain rfl := List.mem_singleton.mp hnew
    change NoFailure destroyed
    rw [destroy_eq hhandles hdestroy]
    exact hclosed.noFailure (thrown_eq_ok hcheck)

/-- **A concatenation that returns has read and written without a failure.** -/
theorem concatenateVideos_noFailure {script : ConcatScript} {output : Finished} {fragments : List Finished}
    (h : concatenateVideos outputPath script = .ok (output, fragments)) (hclosed : output.returned.handles = [])
    (hfragments : ∀ fragment ∈ fragments, fragment.returned.handles = []) :
    NoFailure output.destroyed ∧ ∀ fragment ∈ fragments, NoFailure fragment.destroyed := by
  rw [concatenateVideos] at h
  split at h
  · cases h
  · simp only [except_bind_eq_ok] at h
    obtain ⟨_, -, concatenation, hloop, trailed, htrailer, closed, hclose, _, hcheck, destroyed, hdestroy, hend⟩ := h
    obtain ⟨rfl, rfl⟩ := Prod.mk.inj (Except.ok.inj hend)
    have hsound : concatenation.Sound := by
      refine foldlM_ok (I := fun _ (concatenation : Concatenation) => concatenation.Sound) hloop ?_ ?_
      · exact ⟨sound_initial outputPath, fun _ hfragment => absurd hfragment List.not_mem_nil⟩
      · intro seen fragment rest before after _ hbefore hround
        exact hbefore.appendFragment hround
    have htrailed : VideoIO.Sound trailed := hsound.output.of_ffmpeg htrailer
    have hclosedSound : VideoIO.Sound closed := by
      cases hcontext : concatenation.context with
      | none =>
          rw [hcontext] at hclose
          rw [← Except.ok.inj (defined_eq_ok hclose)]
          exact htrailed
      | some context =>
          rw [hcontext] at hclose
          exact htrailed.of_close (defined_eq_ok hclose)
    refine ⟨?_, fun fragment hfragment => hsound.fragments fragment hfragment (hfragments fragment hfragment)⟩
    change NoFailure destroyed
    rw [destroy_eq hclosed hdestroy]
    exact hclosedSound.noFailure (thrown_eq_ok hcheck)

end Programs

/-- **Errors of a video stay and are not lost.** Whatever callbacks FFmpeg makes and however the files answer: a recorded
error is thrown by every later check, fails every later callback and is never replaced; without one the handles are where
their files are; and no callback overflows. A video is returned, or a concatenation returns, only when nothing has
failed, where FFmpeg has closed what it opened itself. -/
theorem videoIO_errors :
    (∀ path writable call opened context events state,
      State.openHandle { path := path } writable call = .ok (opened, .ok context) → opened.run events = .ok state →
      (∀ exception, state.error = some exception →
        (∀ interrupted, state.check interrupted = .error exception) ∧
        (∀ event state' code, state.step event = .ok (state', code) → event.isCallback = true → code = averrorEIO) ∧
        ∀ later state', state.run later = .ok state' → state'.error = some exception) ∧
      (state.error = none → ∀ entry ∈ state.handles, entry.2.position = entry.2.filePosition) ∧
      ∀ event, state.step event ≠ .error .overflow) ∧
    (∀ (ι : Type) (path : String) (script : EncodeScript ι) info finished,
      encodeVideo path script = .ok (info, finished) → finished.returned.handles = [] →
      NoFailure finished.destroyed) ∧
    ∀ outputPath script output fragments, concatenateVideos outputPath script = .ok (output, fragments) →
      output.returned.handles = [] → (∀ fragment ∈ fragments, fragment.returned.handles = []) →
      NoFailure output.destroyed ∧ ∀ fragment ∈ fragments, NoFailure fragment.destroyed := by
  refine ⟨?_, fun ι path script info finished => encodeVideo_noFailure,
    fun outputPath script output fragments => concatenateVideos_noFailure⟩
  intro path writable call opened context events state hopen hrun
  have hopened := (sound_initial path).openHandle writable call
  rw [hopen] at hopened
  have hsound : Sound state := (hopened.2.2.1 context rfl).of_run hrun
  refine ⟨?_, hsound.positions, ?_⟩
  · intro exception hexception
    refine ⟨check_of_error hexception, ?_, ?_⟩
    · intro event state' code hstep hcallback
      have hyields := hsound.step event
      rw [hstep] at hyields
      exact hyields.2.2 exception hexception hcallback
    · intro later state' hlater
      have hyields := hsound.run later
      rw [hlater] at hyields
      exact hyields.2 exception hexception
  · intro event hoverflow
    have hyields := hsound.step event
    rw [hoverflow] at hyields
    cases hyields

/-- A file system that does what it is asked. -/
def workingOpen (context : Nat) : OpenCall := ⟨false, .ok (), true, true, true, context, .ok ()⟩

/-- A write that takes all bytes but some. -/
def writeCall (size missing : Nat) : Callback :=
  .write ⟨false, Int32.ofNat size, .moved (Int64.ofNat (size - missing))⟩

/-- A function of FFmpeg that succeeds. -/
def workingCall (events : List Event) : FFmpegCall := ⟨events, 0, "", false⟩

/-- A handle that is flushed with one write, synced and closed. -/
def workingClose : CloseCall := ⟨[writeCall 16 0], 0, .ok (), .ok ()⟩

/-- One frame, and a trailer for which FFmpeg reads the output again. -/
def faststartScript : EncodeScript Nat where
  prepared := .ok ()
  openOutput := workingOpen 1
  header := workingCall [.callback 1 (writeCall 32 0)]
  started := .ok ()
  frames := [⟨.ok (), [⟨.ok (), workingCall [.callback 1 (writeCall 1000 0)]⟩]⟩]
  flushed := .ok ()
  lastPackets := []
  finished := .ok ()
  trailer := workingCall [.openFile (some url) 1 (workingOpen 2),
    .callback 2 (.read ⟨false, 4096, .moved 1032⟩), .callback 1 (.seek ⟨false, -1000, 1, .ok 0, .ok ()⟩),
    .close 2 ⟨[], 0, .ok (), .ok ()⟩, .callback 1 (writeCall 1000 0)]
  close := workingClose
  interrupted := false
  info := .ok 1
  destroy _ := workingClose

/-- An adapter that has opened its output. -/
def openedVideo : State where
  path := "video.mp4"
  handles := [(1, { writeFlag := true })]
  operations := [⟨.openFile, false⟩]

theorem shortWrite_stays :
    (∃ state, openedVideo.run [.callback 1 (writeCall 1000 1)] = .ok state ∧
      (∀ interrupted, state.check interrupted = .error (.io (incompleteMessage "video.mp4" 999 1000))) ∧
      ∀ state' code, state.step (.callback 1 (writeCall 1000 0)) = .ok (state', code) → code = averrorEIO) ∧
    ∃ finished, encodeVideo "video.mp4" faststartScript = .ok (1, finished) ∧ NoFailure finished.destroyed := by
  constructor
  · have hopen : State.openHandle { path := "video.mp4" } true (workingOpen 1) = .ok (openedVideo, .ok 1) := rfl
    have herror : (openedVideo.run [.callback 1 (writeCall 1000 1)]).map State.error =
        .ok (some (.io (incompleteMessage "video.mp4" 999 1000))) := rfl
    obtain ⟨state, hrun, hstate⟩ := except_map_eq_ok.mp herror
    obtain ⟨hcheck, hcallbacks, -⟩ := (videoIO_errors.1 _ _ _ _ _ _ state hopen hrun).1 _ hstate
    exact ⟨state, hrun, hcheck, fun state' code hstep => hcallbacks _ state' code hstep rfl⟩
  · have hreturned : (encodeVideo "video.mp4" faststartScript).map
        (fun result => (result.1, result.2.returned.handles.length)) = .ok (1, 0) := rfl
    obtain ⟨⟨info, finished⟩, hencode, hresult⟩ := except_map_eq_ok.mp hreturned
    obtain ⟨rfl, hlength⟩ := Prod.mk.inj hresult
    have hclosed := List.length_eq_zero_iff.mp hlength
    exact ⟨finished, hencode, videoIO_errors.2.1 Nat "video.mp4" faststartScript 1 finished hencode hclosed⟩

end DuckdbLerobot.Copy.VideoIO
