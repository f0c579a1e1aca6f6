import DuckdbLerobot.Copy.ReaderErrors
import DuckdbLerobot.Image.VisualStats
import Mathlib.Data.Prod.Lex

/-!
# The pixels that the visual statistics visit

The reader of the visual statistics yields the pixels of the sampled frames whose coordinates are
multiples of the step, row by row, each of them once (`visualStatsReader_grid`). All elements that it reads
are inside of the frame.
-/

set_option autoImplicit false

namespace DuckdbLerobot.Image

open DuckdbLerobot.Library DuckdbLerobot.Path DuckdbLerobot.Storage DuckdbLerobot.Copy

/-! ## The spool -/

/-- A spool holds these frames. -/
structure LerobotVisualSpool.Holds (spool : LerobotVisualSpool) (frames : List Bytes) : Prop where
  frameCount_eq : spool.frameCount = frames.length
  length_eq : ∀ frame ∈ frames, frame.length = spool.frameSize
  file_eq : spool.file = frames.flatten
  size_le : spool.frameSize * spool.frameCount ≤ idxMaximum

theorem length_flatten_of_length_eq {frames : List Bytes} {size : Nat}
    (h : ∀ frame ∈ frames, frame.length = size) : frames.flatten.length = frames.length * size := by
  induction frames with
  | nil => simp
  | cons frame frames ih =>
      rw [List.flatten_cons, List.length_append, h frame List.mem_cons_self,
        ih fun other hother => h other (List.mem_cons_of_mem frame hother), List.length_cons,
        Nat.succ_mul, Nat.add_comm]

/-- A frame, at its place in the file. -/
theorem take_drop_flatten {frames : List Bytes} {size : Nat}
    (h : ∀ frame ∈ frames, frame.length = size) {i : Nat} (hi : i < frames.length) :
    (frames.flatten.drop (i * size)).take size = frames[i] := by
  induction frames generalizing i with
  | nil => exact absurd hi (Nat.not_lt_zero i)
  | cons frame frames ih =>
      have hframe := h frame List.mem_cons_self
      have hrest : ∀ other ∈ frames, other.length = size :=
        fun other hother => h other (List.mem_cons_of_mem frame hother)
      cases i with
      | zero =>
          rw [Nat.zero_mul, List.drop_zero, List.flatten_cons, ← hframe, List.take_left]
          rfl
      | succ i =>
          have hplace : (i + 1) * size = frame.length + i * size := by
            rw [hframe, Nat.succ_mul, Nat.add_comm]
          rw [List.flatten_cons, hplace, List.drop_append, List.drop_of_length_le (by omega),
            Nat.add_sub_cancel_left, List.nil_append]
          exact ih hrest (Nat.lt_of_succ_lt_succ hi)

/-- An empty spool. -/
theorem holds_nil (path : Text) : LerobotVisualSpool.Holds { path := path } [] :=
  ⟨rfl, by simp, rfl, Nat.zero_le _⟩

/-- The frames that are appended to a spool. -/
theorem LerobotVisualSpool.Holds.append {spool spool' : LerobotVisualSpool} {frames : List Bytes}
    {frame : Bytes} (h : spool.Holds frames) (happend : spool.append frame = .ok spool') :
    spool'.Holds (frames ++ [frame]) := by
  simp only [LerobotVisualSpool.append, except_bind_eq_ok, reject_eq_ok] at happend
  obtain ⟨_, hlength, _, hlarge, hok⟩ := happend
  cases hok
  rw [not_not] at hlength
  constructor
  · simp [h.frameCount_eq]
  · intro other hother
    rcases List.mem_append.mp hother with hold | hnew
    · have hne : spool.frameCount ≠ 0 := by
        rw [h.frameCount_eq]
        exact (List.length_pos_of_mem hold).ne'
      exact (h.length_eq other hold).trans (if_neg hne).symm
    · rw [List.mem_singleton.mp hnew]
      exact hlength
  · simp [h.file_eq]
  · have hle := Nat.le_of_not_lt fun hlt => hlarge (.inr hlt)
    exact (Nat.le_div_iff_mul_le (Nat.succ_pos spool.frameCount)).mp hle

theorem LerobotVisualSpool.Holds.read {spool : LerobotVisualSpool} {frames : List Bytes}
    (h : spool.Holds frames) {i : Nat} (hi : i < frames.length) :
    spool.read spool.frameSize (i * spool.frameSize) = .ok frames[i] := by
  have hend : i * spool.frameSize + spool.frameSize ≤ spool.file.length := by
    rw [h.file_eq, length_flatten_of_length_eq h.length_eq, ← Nat.succ_mul]
    exact Nat.mul_le_mul_right _ hi
  rw [LerobotVisualSpool.read, if_pos hend, h.file_eq, take_drop_flatten h.length_eq hi]

/-! ## A sample of an episode -/

/-- The frames of an episode, and the indexes of those that are sampled. The type of the frames is the
one that was inferred from their size. -/
structure VisualSample (feature : LerobotFeature) (spool : LerobotVisualSpool) (frames : List Bytes)
    (rawType : LerobotRawVisualType) (sampledIndices : List Nat) (step : Nat) : Prop where
  wellFormed : feature.WellFormed
  visual : isVisual feature.dtype = true
  holds : spool.Holds frames
  inferred : inferRawVisualType feature spool.frameSize = .ok rawType
  sampled_ne_nil : sampledIndices ≠ []
  increasing : sampledIndices.Pairwise (· < ·)
  sampled_lt : ∀ i ∈ sampledIndices, i < frames.length
  step_pos : 0 < step

section Sample

variable {feature : LerobotFeature} {spool : LerobotVisualSpool} {frames : List Bytes}
  {rawType : LerobotRawVisualType} {sampledIndices : List Nat} {step : Nat}

theorem throwIf_of_not {condition : Prop} [Decidable condition] (exception : StatsException)
    (h : ¬condition) : throwIf condition exception = .ok () :=
  if_neg h

/-- The type of a frame says its size, and whether it has colours. -/
theorem inferRawVisualType_spec {size : Nat} (h : inferRawVisualType feature size = .ok rawType) :
    expectedFrameBytes (frameWidth feature) (frameHeight feature) rawType = .ok size ∧
      visualChannels feature.isDepth * elementBytes rawType = bytesPerPixel rawType := by
  rw [inferRawVisualType] at h
  cases hdepth : feature.isDepth with
  | false =>
      rw [hdepth] at h
      simp only [Bool.not_false, if_true, except_bind_eq_ok, reject_eq_ok, not_not] at h
      obtain ⟨expected, hexpected, _, rfl, hok⟩ := h
      cases hok
      exact ⟨hexpected, rfl⟩
  | true =>
      rw [hdepth] at h
      simp only [Bool.not_true, Bool.false_eq_true, if_false, except_bind_eq_ok] at h
      obtain ⟨uint16Size, huint16, float32Size, hfloat32, hok⟩ := h
      split at hok
      · rename_i hsize
        cases hok
        rw [hsize]
        exact ⟨huint16, rfl⟩
      · split at hok
        · rename_i hsize
          cases hok
          rw [hsize]
          exact ⟨hfloat32, rfl⟩
        · cases hok

/-- The number of multiples of a step below a size. -/
def gridSize (size step : Nat) : Nat := 1 + (size - 1) / step

theorem mul_lt_of_lt_gridSize {size step i : Nat} (hsize : 0 < size) (hi : i < gridSize size step) :
    i * step < size := by
  rw [gridSize] at hi
  have hle : i ≤ (size - 1) / step := by omega
  have hmul := (Nat.mul_le_mul_right step hle).trans (Nat.div_mul_le_self (size - 1) step)
  omega

theorem lt_gridSize_of_mul_lt {size step i : Nat} (hstep : 0 < step) (hi : i * step < size) :
    i < gridSize size step := by
  have hle := (Nat.le_div_iff_mul_le hstep).mpr (show i * step ≤ size - 1 by omega)
  rw [gridSize]
  omega

theorem gridSize_le {size step : Nat} (hsize : 0 < size) : gridSize size step ≤ size := by
  have hle := Nat.div_le_self (size - 1) step
  rw [gridSize]
  omega

theorem length_le_of_increasing {n : Nat} {indices : List Nat} (h : indices.Pairwise (· < ·))
    (hlt : ∀ i ∈ indices, i < n) : indices.length ≤ n := by
  have hnodup : indices.Nodup := h.imp fun h => h.ne
  have hsubset : indices ⊆ List.range n := fun i hi => List.mem_range.mpr (hlt i hi)
  have hle := (List.subperm_of_subset hnodup hsubset).length_le
  rwa [List.length_range] at hle

/-- The reader that the constructor builds. -/
def VisualSample.reader (_ : VisualSample feature spool frames rawType sampledIndices step) :
    LerobotVisualStatsReader where
  feature := feature
  spool := spool
  rawType := rawType
  sampledIndices := sampledIndices
  step := step
  sampledHeight := gridSize (frameHeight feature) step
  sampledWidth := gridSize (frameWidth feature) step
  valuesPerFrame := gridSize (frameHeight feature) step * gridSize (frameWidth feature) step
  count := gridSize (frameHeight feature) step * gridSize (frameWidth feature) step *
    sampledIndices.length

namespace VisualSample

variable (h : VisualSample feature spool frames rawType sampledIndices step)

include h

theorem channels_eq : frameChannels feature = visualChannels feature.isDepth := by
  rw [frameChannels, List.getD_eq_getElem?_getD, h.wellFormed.visual_channels h.visual,
    Option.getD_some]

theorem size_pos : 0 < frameWidth feature ∧ 0 < frameHeight feature := by
  obtain ⟨hexpected, -⟩ := inferRawVisualType_spec h.inferred
  obtain ⟨hwidth, hheight, -⟩ := expectedFrameBytes_eq_ok.mp hexpected
  exact ⟨hwidth, hheight⟩

theorem channels_pos : 0 < frameChannels feature := by
  rw [h.channels_eq, visualChannels]
  split <;> decide

/-- The elements of a frame fill it. -/
theorem frameSize_eq : spool.frameSize = frameHeight feature * frameWidth feature *
    frameChannels feature * elementBytes rawType := by
  obtain ⟨hexpected, hchannels⟩ := inferRawVisualType_spec h.inferred
  obtain ⟨-, -, -, hsize⟩ := expectedFrameBytes_eq_ok.mp hexpected
  rw [hsize, Nat.mul_assoc _ (frameChannels feature), h.channels_eq, hchannels,
    Nat.mul_comm (frameWidth feature)]

theorem frameSize_pos : 0 < spool.frameSize := by
  obtain ⟨hwidth, hheight⟩ := h.size_pos
  have helement : 0 < elementBytes rawType := by cases rawType <;> decide
  rw [h.frameSize_eq]
  exact Nat.mul_pos (Nat.mul_pos (Nat.mul_pos hheight hwidth) h.channels_pos) helement

theorem sampled_length_le : sampledIndices.length ≤ frames.length :=
  length_le_of_increasing h.increasing h.sampled_lt

/-- The pixels of a frame are at most its bytes. -/
theorem grid_le : gridSize (frameHeight feature) step * gridSize (frameWidth feature) step ≤
    spool.frameSize := by
  obtain ⟨hwidth, hheight⟩ := h.size_pos
  have helement : 0 < elementBytes rawType := by cases rawType <;> decide
  calc gridSize (frameHeight feature) step * gridSize (frameWidth feature) step
      ≤ frameHeight feature * frameWidth feature :=
        Nat.mul_le_mul (gridSize_le hheight) (gridSize_le hwidth)
    _ ≤ frameHeight feature * frameWidth feature * frameChannels feature :=
        Nat.le_mul_of_pos_right _ h.channels_pos
    _ ≤ frameHeight feature * frameWidth feature * frameChannels feature * elementBytes rawType :=
        Nat.le_mul_of_pos_right _ helement
    _ = spool.frameSize := h.frameSize_eq.symm

/-- The constructor of the reader does not throw. -/
theorem create_eq :
    LerobotVisualStatsReader.create feature spool rawType sampledIndices step =
      .ok h.reader := by
  obtain ⟨hexpected, -⟩ := inferRawVisualType_spec h.inferred
  have hgrid := h.grid_le
  have hsize := h.holds.size_le
  have hcount := h.holds.frameCount_eq
  have hlength := h.sampled_length_le
  have hsampled := List.length_pos_of_ne_nil h.sampled_ne_nil
  have hwidth : 0 < gridSize (frameWidth feature) step := Nat.add_pos_left Nat.one_pos _
  have hall : gridSize (frameHeight feature) step * gridSize (frameWidth feature) step *
      sampledIndices.length ≤ idxMaximum := by
    calc gridSize (frameHeight feature) step * gridSize (frameWidth feature) step *
          sampledIndices.length
        ≤ spool.frameSize * spool.frameCount := Nat.mul_le_mul hgrid (by omega)
      _ ≤ idxMaximum := hsize
  have hframe : gridSize (frameHeight feature) step * gridSize (frameWidth feature) step ≤
      idxMaximum := (Nat.le_mul_of_pos_right _ hsampled).trans hall
  rw [LerobotVisualStatsReader.create, hexpected]
  change (throwIf (spool.frameSize ≠ spool.frameSize ∨ spool.frameCount = 0) _ >>= _) = _
  rw [throwIf_of_not _ (by omega)]
  change (throwIf (sampledIndices = []) _ >>= _) = _
  rw [throwIf_of_not _ h.sampled_ne_nil]
  change (throwIf (idxMaximum / gridSize (frameWidth feature) step <
    gridSize (frameHeight feature) step ∨ idxMaximum / sampledIndices.length <
      gridSize (frameHeight feature) step * gridSize (frameWidth feature) step) _ >>= _) = _
  rw [throwIf_of_not]
  · change (throwIf (idxMaximum / spool.frameSize < spool.frameCount ∨
      spool.file.length ≠ spool.frameCount * spool.frameSize) _ >>= _) = _
    rw [throwIf_of_not]
    · rfl
    · rw [not_or, not_lt, not_not, Nat.le_div_iff_mul_le h.frameSize_pos, Nat.mul_comm, h.holds.file_eq,
        length_flatten_of_length_eq h.holds.length_eq, hcount]
      exact ⟨hcount ▸ hsize, Nat.mul_comm _ _⟩
  · rw [not_or, not_lt, not_lt, Nat.le_div_iff_mul_le hwidth, Nat.le_div_iff_mul_le hsampled]
    exact ⟨hframe, hall⟩

end VisualSample

end Sample

/-! ## The rows -/

/-- The place that the reader visits at a position: the sampled frame, the row and the column. -/
def visitedPoint (reader : LerobotVisualStatsReader) (position : Nat) : Nat ×ₗ Nat ×ₗ Nat :=
  toLex (position / reader.valuesPerFrame,
    toLex (position % reader.valuesPerFrame / reader.sampledWidth * reader.step,
      position % reader.valuesPerFrame % reader.sampledWidth * reader.step))

/-- The channels of a pixel. -/
def pixelRow {α : Type} [Field α] (feature : LerobotFeature) (rawType : LerobotRawVisualType)
    (frame : Bytes) (y x : Nat) : List (Value α) :=
  (List.range (frameChannels feature)).map fun channel =>
    .floating (readRawVisualValue frame rawType
      ((y * frameWidth feature + x) * frameChannels feature + channel))

/-- The frame of a sample. -/
def sampledFrame (frames : List Bytes) (sampledIndices : List Nat) (sample : Nat) : Bytes :=
  frames.getD (sampledIndices.getD sample 0) []

/-- The row at a position of the reader. -/
def visitedRow {α : Type} [Field α] (reader : LerobotVisualStatsReader) (frames : List Bytes)
    (position : Nat) : List (Value α) :=
  let point := ofLex (visitedPoint reader position)
  pixelRow reader.feature reader.rawType (sampledFrame frames reader.sampledIndices point.1)
    (ofLex point.2).1 (ofLex point.2).2

/-- The state of the reader before a position. -/
def visitedState (reader : LerobotVisualStatsReader) (frames : List Bytes) :
    Nat → VisualReaderState
  | 0 => {}
  | position + 1 =>
      ⟨position + 1, some (position / reader.valuesPerFrame),
        sampledFrame frames reader.sampledIndices (position / reader.valuesPerFrame)⟩

namespace VisualSample

variable {α : Type} [Field α] {feature : LerobotFeature} {spool : LerobotVisualSpool}
  {frames : List Bytes} {rawType : LerobotRawVisualType} {sampledIndices : List Nat} {step : Nat}
  (h : VisualSample feature spool frames rawType sampledIndices step)

include h

/-- A sampled frame is one of the spool. -/
theorem sampledFrame_eq {sample : Nat} (hsample : sample < sampledIndices.length) :
    ∃ hlt : sampledIndices[sample] < frames.length,
      sampledFrame frames sampledIndices sample = frames[sampledIndices[sample]] := by
  have hlt := h.sampled_lt _ (List.getElem_mem hsample)
  refine ⟨hlt, ?_⟩
  rw [sampledFrame, List.getD_eq_getElem _ 0 hsample, List.getD_eq_getElem _ [] hlt]

theorem length_sampledFrame {sample : Nat} (hsample : sample < sampledIndices.length) :
    (sampledFrame frames sampledIndices sample).length = spool.frameSize := by
  obtain ⟨hlt, heq⟩ := h.sampledFrame_eq hsample
  rw [heq]
  exact h.holds.length_eq _ (List.getElem_mem hlt)

/-- The sample of a position. -/
theorem sample_lt {position : Nat} (hposition : position < h.reader.count) :
    position / h.reader.valuesPerFrame < sampledIndices.length :=
  Nat.div_lt_of_lt_mul hposition

/-- The buffer has the frame of the position after a read, or still has it. -/
theorem loadFrame_eq {position : Nat} (hposition : position < h.reader.count) :
    h.reader.loadFrame (position / h.reader.valuesPerFrame) (visitedState h.reader frames position) =
      .ok (sampledFrame frames sampledIndices (position / h.reader.valuesPerFrame)) := by
  have hsample := h.sample_lt hposition
  generalize hn : position / h.reader.valuesPerFrame = sample at hsample ⊢
  obtain ⟨hlt, hframe⟩ := h.sampledFrame_eq hsample
  rw [LerobotVisualStatsReader.loadFrame]
  split
  · -- the frame is in the buffer
    rename_i hloaded
    cases position with
    | zero => cases hloaded
    | succ position =>
        have heq : position / h.reader.valuesPerFrame = sample := Option.some.inj hloaded
        rw [← heq]
        rfl
  · have hsize : (if (visitedState h.reader frames position).frame = [] then
        h.reader.spool.frameSize else (visitedState h.reader frames position).frame.length) =
          spool.frameSize := by
      split
      · rfl
      · cases position with
        | zero => exact absurd rfl ‹_›
        | succ position => exact h.length_sampledFrame (h.sample_lt (Nat.lt_of_succ_lt hposition))
    have hindex : h.reader.sampledIndices.getD sample 0 = sampledIndices[sample] :=
      List.getD_eq_getElem _ 0 hsample
    have hcount : ¬h.reader.spool.frameCount ≤ sampledIndices[sample] := by
      change ¬spool.frameCount ≤ _
      rw [h.holds.frameCount_eq]
      exact not_le.mpr hlt
    dsimp only
    rw [hsize, hindex, if_neg hcount, hframe]
    exact h.holds.read hlt

/-- **One call of `Next`.** -/
theorem next_eq {position : Nat} (hposition : position < h.reader.count) :
    h.reader.next (visitedState h.reader frames position) =
      .ok (visitedRow (α := α) h.reader frames position,
        visitedState h.reader frames (position + 1)) := by
  have hstate : (visitedState h.reader frames position).position = position := by
    cases position <;> rfl
  rw [LerobotVisualStatsReader.next, hstate, if_neg (not_le.mpr hposition)]
  dsimp only
  rw [h.loadFrame_eq hposition]
  rfl

/-- All calls before a position. -/
theorem stateAfter_eq (position : Nat) :
    position ≤ h.reader.count →
      h.reader.stateAfter α position = .ok (visitedState h.reader frames position) := by
  induction position with
  | zero => exact fun _ => rfl
  | succ position ih =>
      intro hposition
      rw [LerobotVisualStatsReader.stateAfter, ih (Nat.le_of_succ_le hposition)]
      change (h.reader.next (α := α) _).map _ = _
      rw [h.next_eq hposition]
      rfl

/-- The row at a position. -/
theorem rows_next {position : Nat} (hposition : position < h.reader.count) :
    h.reader.rows.next position = .ok (visitedRow (α := α) h.reader frames position) := by
  rw [LerobotVisualStatsReader.rows]
  dsimp only
  rw [h.stateAfter_eq position hposition.le]
  change (h.reader.next (α := α) _).map _ = _
  rw [h.next_eq hposition]
  rfl

/-! ## The grid -/

theorem valuesPerFrame_pos : 0 < h.reader.valuesPerFrame :=
  Nat.mul_pos (Nat.add_pos_left Nat.one_pos _) (Nat.add_pos_left Nat.one_pos _)

/-- A visited pixel is inside of its frame. -/
theorem visitedPoint_lt {position : Nat} (hposition : position < h.reader.count) :
    (ofLex (visitedPoint h.reader position)).1 < sampledIndices.length ∧
      (ofLex (ofLex (visitedPoint h.reader position)).2).1 < frameHeight feature ∧
      (ofLex (ofLex (visitedPoint h.reader position)).2).2 < frameWidth feature := by
  obtain ⟨hwidth, hheight⟩ := h.size_pos
  have hpixel := Nat.mod_lt position h.valuesPerFrame_pos
  refine ⟨h.sample_lt hposition, ?_, ?_⟩
  · apply mul_lt_of_lt_gridSize hheight
    apply Nat.div_lt_of_lt_mul
    rw [Nat.mul_comm]
    exact hpixel
  · apply mul_lt_of_lt_gridSize hwidth
    exact Nat.mod_lt _ (Nat.add_pos_left Nat.one_pos _)

/-- **Every byte that is read lies inside of the frame.** -/
theorem element_lt {position channel : Nat} (hposition : position < h.reader.count)
    (hchannel : channel < frameChannels feature) :
    (((ofLex (ofLex (visitedPoint h.reader position)).2).1 * frameWidth feature +
        (ofLex (ofLex (visitedPoint h.reader position)).2).2) * frameChannels feature + channel + 1) *
          elementBytes rawType ≤
      (sampledFrame frames sampledIndices (ofLex (visitedPoint h.reader position)).1).length := by
  obtain ⟨hsample, hy, hx⟩ := h.visitedPoint_lt hposition
  rw [h.length_sampledFrame hsample, h.frameSize_eq]
  generalize (ofLex (ofLex (visitedPoint h.reader position)).2).1 = y at hy ⊢
  generalize (ofLex (ofLex (visitedPoint h.reader position)).2).2 = x at hx ⊢
  have hpixel : y * frameWidth feature + x + 1 ≤ frameHeight feature * frameWidth feature := by
    calc y * frameWidth feature + x + 1
        ≤ y * frameWidth feature + frameWidth feature := by omega
      _ = (y + 1) * frameWidth feature := (Nat.succ_mul _ _).symm
      _ ≤ frameHeight feature * frameWidth feature := Nat.mul_le_mul_right _ hy
  apply Nat.mul_le_mul_right
  calc (y * frameWidth feature + x) * frameChannels feature + channel + 1
      ≤ (y * frameWidth feature + x) * frameChannels feature + frameChannels feature := by omega
    _ = (y * frameWidth feature + x + 1) * frameChannels feature := (Nat.succ_mul _ _).symm
    _ ≤ frameHeight feature * frameWidth feature * frameChannels feature :=
        Nat.mul_le_mul_right _ hpixel

/-- The pixels of the sampled frames whose coordinates are multiples of the step. -/
def grid (_ : VisualSample feature spool frames rawType sampledIndices step) :
    Set (Nat ×ₗ Nat ×ₗ Nat) :=
  {point | (ofLex point).1 < sampledIndices.length ∧
    (step ∣ (ofLex (ofLex point).2).1 ∧ (ofLex (ofLex point).2).1 < frameHeight feature) ∧
    step ∣ (ofLex (ofLex point).2).2 ∧ (ofLex (ofLex point).2).2 < frameWidth feature}

/-- **The pixels are visited in row-major order**, none of them twice. -/
theorem visitedPoint_strictMono : StrictMono (visitedPoint h.reader) := by
  intro position other hlt
  have hstep := h.step_pos
  have hstep' : 0 < h.reader.step := hstep
  rw [visitedPoint, visitedPoint, Prod.Lex.toLex_lt_toLex]
  have hsamples := Nat.div_le_div_right (c := h.reader.valuesPerFrame) hlt.le
  rcases hsamples.lt_or_eq with hsample | hsample
  · exact .inl hsample
  · -- in one frame, the pixels are compared
    refine .inr ⟨hsample, ?_⟩
    have hpixel : position % h.reader.valuesPerFrame < other % h.reader.valuesPerFrame := by
      have hposition := Nat.div_add_mod position h.reader.valuesPerFrame
      have hother := Nat.div_add_mod other h.reader.valuesPerFrame
      rw [hsample] at hposition
      omega
    generalize position % h.reader.valuesPerFrame = pixel at hpixel ⊢
    generalize other % h.reader.valuesPerFrame = otherPixel at hpixel ⊢
    rw [Prod.Lex.toLex_lt_toLex]
    have hrows := Nat.div_le_div_right (c := h.reader.sampledWidth) hpixel.le
    rcases hrows.lt_or_eq with hrow | hrow
    · exact .inl (Nat.mul_lt_mul_of_pos_right hrow hstep')
    · refine .inr ⟨by rw [hrow], ?_⟩
      apply Nat.mul_lt_mul_of_pos_right ?_ hstep'
      have hposition := Nat.div_add_mod pixel h.reader.sampledWidth
      have hother := Nat.div_add_mod otherPixel h.reader.sampledWidth
      rw [hrow] at hposition
      omega

/-- **All pixels of the grid are visited**, and no others. -/
theorem visitedPoint_image :
    Set.image (visitedPoint h.reader) {position | position < h.reader.count} = h.grid := by
  have hstep := h.step_pos
  have hwidth : 0 < h.reader.sampledWidth := Nat.add_pos_left Nat.one_pos _
  have hframe := h.valuesPerFrame_pos
  ext point
  constructor
  · rintro ⟨position, hposition, rfl⟩
    obtain ⟨hsample, hy, hx⟩ := h.visitedPoint_lt hposition
    exact ⟨hsample, ⟨Dvd.intro_left _ rfl, hy⟩, Dvd.intro_left _ rfl, hx⟩
  · rintro ⟨hsample, ⟨⟨row, hrow⟩, hy⟩, ⟨column, hcolumn⟩, hx⟩
    rw [hrow, Nat.mul_comm] at hy
    rw [hcolumn, Nat.mul_comm] at hx
    have hrowLt := lt_gridSize_of_mul_lt hstep hy
    have hcolumnLt : column < h.reader.sampledWidth := lt_gridSize_of_mul_lt hstep hx
    have hpixel : row * h.reader.sampledWidth + column < h.reader.valuesPerFrame := by
      calc row * h.reader.sampledWidth + column
          < row * h.reader.sampledWidth + h.reader.sampledWidth := by omega
        _ = (row + 1) * h.reader.sampledWidth := (Nat.succ_mul _ _).symm
        _ ≤ gridSize (frameHeight feature) step * h.reader.sampledWidth :=
            Nat.mul_le_mul_right _ hrowLt
    refine ⟨(ofLex point).1 * h.reader.valuesPerFrame + (row * h.reader.sampledWidth + column), ?_, ?_⟩
    · calc (ofLex point).1 * h.reader.valuesPerFrame + (row * h.reader.sampledWidth + column)
          < (ofLex point).1 * h.reader.valuesPerFrame + h.reader.valuesPerFrame := by omega
        _ = ((ofLex point).1 + 1) * h.reader.valuesPerFrame := (Nat.succ_mul _ _).symm
        _ ≤ sampledIndices.length * h.reader.valuesPerFrame := Nat.mul_le_mul_right _ hsample
        _ = h.reader.count := Nat.mul_comm _ _
    · have hdiv : ((ofLex point).1 * h.reader.valuesPerFrame +
          (row * h.reader.sampledWidth + column)) / h.reader.valuesPerFrame = (ofLex point).1 := by
        rw [Nat.add_comm, Nat.add_mul_div_right _ _ hframe, Nat.div_eq_of_lt hpixel, Nat.zero_add]
      have hmod : ((ofLex point).1 * h.reader.valuesPerFrame +
          (row * h.reader.sampledWidth + column)) % h.reader.valuesPerFrame =
            row * h.reader.sampledWidth + column := by
        rw [Nat.add_comm, Nat.add_mul_mod_self_right, Nat.mod_eq_of_lt hpixel]
      have hrowEq : (row * h.reader.sampledWidth + column) / h.reader.sampledWidth = row := by
        rw [Nat.add_comm, Nat.add_mul_div_right _ _ hwidth, Nat.div_eq_of_lt hcolumnLt, Nat.zero_add]
      have hcolumnEq : (row * h.reader.sampledWidth + column) % h.reader.sampledWidth = column := by
        rw [Nat.add_comm, Nat.add_mul_mod_self_right, Nat.mod_eq_of_lt hcolumnLt]
      rw [visitedPoint, hdiv, hmod, hrowEq, hcolumnEq]
      change toLex ((ofLex point).1, toLex (row * step, column * step)) = point
      rw [Nat.mul_comm row, Nat.mul_comm column, ← hrow, ← hcolumn]
      rfl

/-! ## The statistics -/

/-- The rows of the reader have the channels of a pixel. -/
theorem rows_readable : (h.reader.rows (α := α)).Readable (frameChannels feature) := by
  intro position hposition
  refine ⟨_, h.rows_next hposition, ?_⟩
  simp [visitedRow, pixelRow, reader]

/-- There are no exact extrema of colours and depths. -/
theorem hasIntegerExtrema_eq : hasIntegerExtrema feature = .ok false := by
  have hvisual := h.visual
  rw [hasIntegerExtrema, lerobotHasIntegerExtrema, if_pos (by simp [hvisual])]
  rfl

/-- The statistics throw nothing that the reader throws. -/
theorem computeStats_own [LinearOrder α] (arithmetic : StatsArithmetic α) :
    Yields (fun _ => True) OwnException
      (computeStats arithmetic h.reader.rows (frameChannels feature) sampledIndices.length feature) := by
  apply computeStats_yields h.rows_readable h.channels_pos
  · exact List.length_pos_of_ne_nil h.sampled_ne_nil
  · exact h.hasIntegerExtrema_eq

end VisualSample

/-- **The visual statistics visit the sampling grid.** The rows of the reader are the pixels of the grid in
row-major order, each of them once, and all that is read is inside of the frames. The statistics end with
one of their own exceptions or with none. -/
theorem visualStatsReader_grid {α : Type} [Field α] [LinearOrder α] {feature : LerobotFeature}
    {spool : LerobotVisualSpool} {frames : List Bytes} {rawType : LerobotRawVisualType}
    {sampledIndices : List Nat} {step : Nat}
    (h : VisualSample feature spool frames rawType sampledIndices step)
    (arithmetic : StatsArithmetic α) :
    LerobotVisualStatsReader.create feature spool rawType sampledIndices step = .ok h.reader ∧
    h.reader.count = (1 + (frameHeight feature - 1) / step) * (1 + (frameWidth feature - 1) / step) *
      sampledIndices.length ∧
    (∀ position, position < h.reader.count →
      h.reader.rows.next position = .ok (visitedRow (α := α) h.reader frames position)) ∧
    StrictMono (visitedPoint h.reader) ∧
    Set.image (visitedPoint h.reader) {position | position < h.reader.count} = h.grid ∧
    (∀ position channel, position < h.reader.count → channel < frameChannels feature →
      (((ofLex (ofLex (visitedPoint h.reader position)).2).1 * frameWidth feature +
          (ofLex (ofLex (visitedPoint h.reader position)).2).2) * frameChannels feature + channel + 1) *
            elementBytes rawType ≤
        (sampledFrame frames sampledIndices (ofLex (visitedPoint h.reader position)).1).length) ∧
    ∀ exception,
      (LerobotVisualStatsReader.create feature spool rawType sampledIndices step >>= fun reader =>
        computeStats arithmetic reader.rows (frameChannels feature) sampledIndices.length feature) =
          .error exception → exception ∈ statsExceptions := by
  refine ⟨h.create_eq, rfl, fun _ hposition => h.rows_next hposition, h.visitedPoint_strictMono,
    h.visitedPoint_image, fun _ _ hposition hchannel => h.element_lt hposition hchannel, ?_⟩
  intro exception herror
  have hyields := h.computeStats_own arithmetic
  rw [h.create_eq] at herror
  change computeStats _ _ _ _ _ = _ at herror
  rw [herror] at hyields
  exact hyields

/-- An image of two rows and three columns. -/
def cameraFeature : LerobotFeature where
  name := "camera".toList
  dtype := "image"
  shape := [2, 3, 3]
  storageType := .blob
  outputType := imageType
  isImage := true

/-- Its frames. -/
def cameraFrames : List Bytes := [List.replicate 18 7, List.replicate 18 9]

/-- The spool after both frames. -/
def cameraSpool : LerobotVisualSpool where
  path := "camera.raw".toList
  frameSize := 18
  frameCount := 2
  file := cameraFrames.flatten

theorem cameraFeature_wellFormed : cameraFeature.WellFormed := by
  have hparse : parseUserFeatures
      [⟨"camera".toList, some "image", some [some 2, some 3, some 3], false⟩] =
        .ok [cameraFeature] := by rfl
  exact (userFeatures_of_parse hparse).each cameraFeature List.mem_cons_self

theorem cameraSample : VisualSample cameraFeature cameraSpool cameraFrames .rgb24 [1] 2 where
  wellFormed := cameraFeature_wellFormed
  visual := by rfl
  holds :=
    { frameCount_eq := rfl
      length_eq := by
        intro frame hframe
        rcases List.mem_cons.mp hframe with rfl | hframe
        · rfl
        · rw [List.mem_singleton.mp hframe]
          rfl
      file_eq := rfl
      size_le := by decide }
  inferred := by
    have hexpected : expectedFrameBytes 3 2 .rgb24 = .ok 18 :=
      expectedFrameBytes_eq_ok.mpr ⟨by decide, by decide, ⟨by decide, by decide⟩, rfl⟩
    exact except_bind_eq_ok.mpr ⟨18, hexpected, rfl⟩
  sampled_ne_nil := by simp
  increasing := by simp
  sampled_lt := by simp [cameraFrames]
  step_pos := by decide

/-- The second frame is read at two pixels. -/
theorem cameraSample_grid :
    cameraSample.reader.count = 2 ∧
    cameraSample.reader.rows.next 1 =
      .ok (visitedRow (α := Rat) cameraSample.reader cameraFrames 1) := by
  obtain ⟨-, hcount, hrows, -⟩ :=
    visualStatsReader_grid cameraSample (⟨id, id, id⟩ : StatsArithmetic Rat)
  exact ⟨hcount, hrows 1 (by decide)⟩

end DuckdbLerobot.Image
