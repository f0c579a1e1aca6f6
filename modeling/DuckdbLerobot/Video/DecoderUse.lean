import DuckdbLerobot.Video.ShardDecoder

/-!
# Decoders in use

A consumer gets a decoder from the decoder cache, which may have served other buffers before. `Used`
are the decoders of one scan: opened, and then used by `BeginBuffer` and `Next` only. The frames that
they return have pixels exactly when the scan needs pixels (`Used.next_pixels`).
-/

set_option autoImplicit false

namespace DuckdbLerobot.Video

open DuckdbLerobot.Library DuckdbLerobot.Path DuckdbLerobot.Storage

variable {ψ φ : Type}

/-- A frame has pixels exactly when they are needed. -/
def DecodedVideoFrame.PixelsSound (needsPixels : Bool) (result : DecodedVideoFrame) : Prop :=
  if needsPixels then ∃ pixels, result.pixels = some pixels ∧ pixels ≠ [] else result.pixels = none

namespace LerobotShardDecoder

/-- The decoders of a scan. -/
inductive Used (media : Media ψ φ) (needsPixels : Bool) : LerobotShardDecoder ψ φ → Prop
  | opened (options : LerobotVideoOptions) (shardIndex : Nat) (videoPath : Text) (isDepthMap : Bool)
      (contexts : ψ) :
      Used media needsPixels { options, shardIndex, videoPath, isDepthMap, needsPixels, contexts }
  | begun {decoder decoder' : LerobotShardDecoder ψ φ}
      {buffer : LerobotDecodeBuffer LerobotDecodeTarget} (h : Used media needsPixels decoder)
      (hbegin : decoder.beginBuffer media buffer = .ok decoder') : Used media needsPixels decoder'
  | advanced {decoder decoder' : LerobotShardDecoder ψ φ}
      {buffer : LerobotDecodeBuffer LerobotDecodeTarget} {served : Option DecodedVideoFrame}
      (h : Used media needsPixels decoder)
      (hnext : decoder.next media buffer = .ok (served, decoder')) : Used media needsPixels decoder'

/-- What the conversion of frames relies on: the converted frame is not empty. -/
structure PixelsReady (needsPixels : Bool) (decoder : LerobotShardDecoder ψ φ) : Prop where
  needsPixels_eq : decoder.needsPixels = needsPixels
  converted : ∀ converted, decoder.converted = some converted → converted.pixels ≠ []

section Pixels

variable {media : Media ψ φ} {buffer : LerobotDecodeBuffer LerobotDecodeTarget} {needsPixels : Bool}

theorem PixelsReady.startCluster {decoder decoder' : LerobotShardDecoder ψ φ}
    (h : decoder.PixelsReady needsPixels)
    (hstart : startCluster media buffer decoder = .ok decoder') : decoder'.PixelsReady needsPixels := by
  simp only [LerobotShardDecoder.startCluster] at hstart
  split at hstart
  · cases hstart
  · cases hstart
    refine ⟨h.needsPixels_eq, ?_⟩
    intro converted hconverted
    cases hconverted

theorem PixelsReady.beginBuffer {decoder decoder' : LerobotShardDecoder ψ φ}
    (h : decoder.PixelsReady needsPixels)
    (hbegin : beginBuffer media buffer decoder = .ok decoder') : decoder'.PixelsReady needsPixels := by
  unfold LerobotShardDecoder.beginBuffer at hbegin
  obtain ⟨-, hbegin⟩ := except_check_eq_ok.mp hbegin
  dsimp only at hbegin
  split at hbegin
  · cases hbegin
    exact ⟨h.needsPixels_eq, h.converted⟩
  · have hready : PixelsReady needsPixels
        { decoder with clusterPosition := 0, targetPosition := 0 } := ⟨h.needsPixels_eq, h.converted⟩
    exact hready.startCluster hbegin

theorem PixelsReady.readFrame {decoder decoder' : LerobotShardDecoder ψ φ} {more : Bool}
    (h : decoder.PixelsReady needsPixels) (hread : readFrame media decoder = .ok (more, decoder')) :
    decoder'.PixelsReady needsPixels := by
  unfold LerobotShardDecoder.readFrame at hread
  split at hread
  · cases hread
  · cases hread
    exact ⟨h.needsPixels_eq, h.converted⟩
  · obtain ⟨-, hread⟩ := except_check_eq_ok.mp hread
    obtain ⟨-, hread⟩ := except_check_eq_ok.mp hread
    cases hread
    exact ⟨h.needsPixels_eq, h.converted⟩

variable (hconvert : ∀ frame width height pixels,
  media.convert frame width height = .ok pixels → pixels ≠ [])

include hconvert

theorem PixelsReady.convertPixels {decoder decoder' : LerobotShardDecoder ψ φ} {frame : Frame φ}
    {width height : Int} {pixels : List UInt8} (h : decoder.PixelsReady needsPixels)
    (hpixels : convertPixels media decoder frame width height = .ok (pixels, decoder')) :
    decoder'.PixelsReady needsPixels ∧ pixels ≠ [] := by
  unfold LerobotShardDecoder.convertPixels at hpixels
  split at hpixels
  · rename_i converted hconverted
    cases hpixels
    exact ⟨h, h.converted converted (Option.filter_eq_some_iff.mp hconverted).1⟩
  · split at hpixels
    · cases hpixels
    · rename_i hnew
      cases hpixels
      have hne := hconvert _ _ _ _ hnew
      refine ⟨⟨h.needsPixels_eq, ?_⟩, hne⟩
      intro converted hconverted
      cases hconverted
      exact hne

theorem PixelsReady.convertFrame {decoder decoder' : LerobotShardDecoder ψ φ} {frame : Frame φ}
    {targetIndex : Nat} {result : DecodedVideoFrame} (h : decoder.PixelsReady needsPixels)
    (hframe : convertFrame media decoder frame targetIndex = .ok (result, decoder')) :
    decoder'.PixelsReady needsPixels ∧ result.PixelsSound needsPixels := by
  simp only [LerobotShardDecoder.convertFrame, except_check_eq_ok] at hframe
  obtain ⟨-, -, hframe⟩ := hframe
  unfold DecodedVideoFrame.PixelsSound
  rw [← h.needsPixels_eq]
  split at hframe
  · rename_i hneeds
    cases hframe
    refine ⟨⟨rfl, h.converted⟩, ?_⟩
    rw [if_neg (Bool.eq_false_iff.mp hneeds)]
  · rename_i hneeds
    rw [if_pos (Bool.of_not_eq_false hneeds)]
    split at hframe
    · cases hframe
    · rename_i hpixels
      cases hframe
      obtain ⟨hready, hne⟩ := h.convertPixels hconvert hpixels
      exact ⟨h.needsPixels_eq ▸ hready, _, rfl, hne⟩

/-- What a round leaves: a decoder that is ready, and a frame that is sound. -/
def Round.PixelsSound (needsPixels : Bool) : Round ψ φ → Prop
  | .again decoder => decoder.PixelsReady needsPixels
  | .finished decoder => decoder.PixelsReady needsPixels
  | .returned result decoder => decoder.PixelsReady needsPixels ∧ result.PixelsSound needsPixels

theorem PixelsReady.serve {decoder : LerobotShardDecoder ψ φ} {frame : Frame φ} {targetIndex : Nat}
    {result : Round ψ φ} (h : decoder.PixelsReady needsPixels)
    (hserve : serve media buffer decoder frame targetIndex = .ok result) :
    result.PixelsSound needsPixels := by
  simp only [LerobotShardDecoder.serve] at hserve
  split at hserve
  · cases hserve
  · split at hserve
    · cases hserve
    · rename_i hframe
      cases hserve
      obtain ⟨hready, hsound⟩ := h.convertFrame hconvert hframe
      exact ⟨⟨hready.needsPixels_eq, hready.converted⟩, hsound⟩

theorem PixelsReady.serveLast {decoder : LerobotShardDecoder ψ φ} {targetIndex : Nat}
    {result : Round ψ φ} (h : decoder.PixelsReady needsPixels)
    (hserve : serveLast media buffer decoder targetIndex = .ok result) :
    result.PixelsSound needsPixels := by
  unfold LerobotShardDecoder.serveLast at hserve
  split at hserve
  · cases hserve
  · have hready : PixelsReady needsPixels { decoder with decoderEof := true } :=
      ⟨h.needsPixels_eq, h.converted⟩
    exact hready.serve hconvert hserve

theorem PixelsReady.readMore {decoder : LerobotShardDecoder ψ φ} {targetIndex : Nat}
    {result : Round ψ φ} (h : decoder.PixelsReady needsPixels)
    (hread : readMore media buffer decoder targetIndex = .ok result) :
    result.PixelsSound needsPixels := by
  unfold LerobotShardDecoder.readMore at hread
  split at hread
  · exact h.serveLast hconvert hread
  · split at hread
    · cases hread
    · rename_i hframe
      cases hread
      exact h.readFrame hframe
    · rename_i hframe
      exact (h.readFrame hframe).serveLast hconvert hread

/-- **A round leaves a decoder that is ready, and its frame is sound.** -/
theorem PixelsReady.round {decoder : LerobotShardDecoder ψ φ} {result : Round ψ φ}
    (h : decoder.PixelsReady needsPixels) (hround : round media buffer decoder = .ok result) :
    result.PixelsSound needsPixels := by
  unfold LerobotShardDecoder.round at hround
  split at hround
  · cases hround
    exact h
  · split at hround
    · simp only [nextCluster] at hround
      have hready : PixelsReady needsPixels
          { decoder with clusterPosition := decoder.clusterPosition + 1 } :=
        ⟨h.needsPixels_eq, h.converted⟩
      split at hround
      · cases hround
        exact hready
      · obtain ⟨decoder', hstart, rfl⟩ := except_map_eq_ok.mp hround
        exact hready.startCluster hstart
    · simp only [alignTarget] at hround
      split at hround
      · exact h.readMore hconvert hround
      · split at hround
        · exact h.serve hconvert hround
        · rename_i current _ _
          have hready : PixelsReady needsPixels
              { decoder with previous := some current, current := none } :=
            ⟨h.needsPixels_eq, h.converted⟩
          exact hready.readMore hconvert hround

theorem PixelsReady.next {decoder decoder' : LerobotShardDecoder ψ φ}
    {served : Option DecodedVideoFrame} (h : decoder.PixelsReady needsPixels)
    (hnext : next media buffer decoder = .ok (served, decoder')) :
    decoder'.PixelsReady needsPixels ∧
      ∀ result, served = some result → result.PixelsSound needsPixels := by
  induction decoder using next.induct media buffer with
  | case1 decoder e hround =>
      rw [LerobotShardDecoder.next, hround] at hnext
      cases hnext
  | case2 decoder decoder'' hround =>
      rw [LerobotShardDecoder.next, hround] at hnext
      cases hnext
      exact ⟨h.round hconvert hround, fun result hnone => by cases hnone⟩
  | case3 decoder result decoder'' hround =>
      rw [LerobotShardDecoder.next, hround] at hnext
      cases hnext
      obtain ⟨hready, hsound⟩ := h.round hconvert hround
      refine ⟨hready, ?_⟩
      intro result' hresult
      cases hresult
      exact hsound
  | case4 decoder again hround ih =>
      rw [LerobotShardDecoder.next, hround] at hnext
      exact ih (h.round hconvert hround) hnext

/-- Every decoder of a scan is ready. -/
theorem Used.pixelsReady {decoder : LerobotShardDecoder ψ φ}
    (h : decoder.Used media needsPixels) : decoder.PixelsReady needsPixels := by
  induction h with
  | opened options shardIndex videoPath isDepthMap contexts =>
      refine ⟨rfl, ?_⟩
      intro converted hconverted
      cases hconverted
  | begun h hbegin ih => exact ih.beginBuffer hbegin
  | advanced h hnext ih => exact (ih.next hconvert hnext).1

/-- **The frames of the decoders of a scan are sound.** -/
theorem Used.next_pixels {decoder decoder' : LerobotShardDecoder ψ φ} {result : DecodedVideoFrame}
    (h : decoder.Used media needsPixels)
    (hnext : decoder.next media buffer = .ok (some result, decoder')) :
    result.PixelsSound needsPixels :=
  ((h.pixelsReady hconvert).next hconvert hnext).2 result rfl

end Pixels

end LerobotShardDecoder

end DuckdbLerobot.Video
