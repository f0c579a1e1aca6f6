import DuckdbLerobot.Reader.TorchCodecReader

/-!
# Batches do not matter

What a target decodes to depends on the target alone (`TargetAnswer`). A batch of targets is decoded if each of its
targets is, to the same images and times, whatever the other targets are and whichever decoders are open:
`batches_independent`. The cache has an invariant for this: an open decoder is the one that its key would open now.
-/

set_option autoImplicit false

namespace DuckdbLerobot.Reader

open DuckdbLerobot.Library DuckdbLerobot.Path

section Independence

variable {Decoder Image : Type} {reader : TorchCodecReader} {env : Environment Decoder Image}
  {answer : VideoSource → Int → Except PythonError (Image × Double)}

/-- What the libraries document: a resolved path is absolute, and what a decoder answers for an index depends on its
source and the index only. -/
structure StableVideos (env : Environment Decoder Image)
    (answer : VideoSource → Int → Except PythonError (Image × Double)) : Prop where
  resolve_absolute : ∀ path resolved, env.resolve path = .ok resolved → ¬"lance-blob://".toList <+: resolved
  getFramesAt : ∀ source decoder, env.videoDecoder source = .ok decoder → ∀ indices frames,
    env.getFramesAt decoder indices = .ok frames ↔
      ∃ answers, indices.mapM (answer source) = .ok answers ∧ frames = ⟨answers.map Prod.fst, answers.map Prod.snd⟩

/-! ## Steps that can raise -/

theorem raising_eq_ok {α : Type} {decoders : Decoders Decoder} {x : Except PythonError α} {a : α} :
    raising decoders x = .ok a ↔ x = .ok a := by
  cases x with
  | error e =>
      constructor
      · intro h
        cases h
      · intro h
        cases h
  | ok b =>
      constructor
      · intro h
        exact congrArg Except.ok (Except.ok.inj h)
      · intro h
        exact congrArg Except.ok (Except.ok.inj h)

theorem raiseIf_eq_ok {condition : Prop} [Decidable condition] {error : PythonError} :
    raiseIf condition error = .ok () ↔ ¬condition := by
  rw [raiseIf, except_check_eq_ok]
  exact and_iff_left rfl

theorem required_eq_ok {α : Type} {error : PythonError} {value? : Option α} {value : α} :
    required error value? = .ok value ↔ value? = some value := by
  cases value? with
  | none =>
      constructor
      · intro h
        cases h
      · intro h
        cases h
  | some a =>
      constructor
      · intro h
        exact congrArg some (Except.ok.inj h)
      · intro h
        exact congrArg Except.ok (Option.some.inj h)

/-- A step that raises leaves the decoders in their state. -/
theorem yields_raising {α β : Type} {P : Decoders Decoder → Prop} {decoders : Decoders Decoder}
    {x : Except PythonError α} {f : α → Except (PythonError × Decoders Decoder) (β × Decoders Decoder)}
    (h : P decoders) (hnext : ∀ a, Yields (fun result => P result.2) (fun e => P e.2) (f a)) :
    Yields (fun result => P result.2) (fun e => P e.2) (raising decoders x >>= f) := by
  cases x with
  | error e => exact h
  | ok a => exact hnext a

/-! ## Open decoders -/

/-- A path can be opened, with this decoder. -/
structure Opens (reader : TorchCodecReader) (env : Environment Decoder Image) (path : Text) (key : Text)
    (source : VideoSource) (decoder : Decoder) : Prop where
  key : decoderKey reader env path = .ok (key, source)
  loads : env.torchcodecLoads = true
  videoDecoder : env.videoDecoder source = .ok decoder

/-- Decoders that are still those of their keys. -/
def Consistent (reader : TorchCodecReader) (env : Environment Decoder Image) (decoders : Decoders Decoder) : Prop :=
  ∀ entry ∈ decoders, ∀ path source, decoderKey reader env path = .ok (entry.1, source) →
    Opens reader env path entry.1 source entry.2

/-- **A key stands for one source.** The key of a blob is its path, and the key of a file is no path of a blob. -/
theorem decoderKey_source (h : StableVideos env answer) {path path' key : Text} {source source' : VideoSource}
    (hkey : decoderKey reader env path = .ok (key, source))
    (hkey' : decoderKey reader env path' = .ok (key, source')) : source = source' := by
  have hresolved : ∀ path resolved, resolvedFile env path = .ok resolved → ¬"lance-blob://".toList <+: resolved := by
    intro path resolved hfile
    simp only [resolvedFile, except_bind_eq_ok] at hfile
    obtain ⟨_, _, found, hfound, _, _, hok⟩ := hfile
    obtain rfl := Except.ok.inj hok
    exact h.resolve_absolute path found hfound
  rw [decoderKey] at hkey hkey'
  split at hkey
  · next hblob =>
    obtain ⟨payload, hpayload, hentry⟩ := except_map_eq_ok.mp hkey
    obtain ⟨rfl, rfl⟩ := Prod.mk.inj hentry
    split at hkey'
    · obtain ⟨payload', hpayload', hentry'⟩ := except_map_eq_ok.mp hkey'
      obtain ⟨rfl, rfl⟩ := Prod.mk.inj hentry'
      rw [hpayload] at hpayload'
      exact congrArg VideoSource.payload (Except.ok.inj hpayload')
    · obtain ⟨resolved, hfile, hentry'⟩ := except_map_eq_ok.mp hkey'
      obtain ⟨rfl, -⟩ := Prod.mk.inj hentry'
      exact absurd hblob (hresolved _ _ hfile)
  · obtain ⟨resolved, hfile, hentry⟩ := except_map_eq_ok.mp hkey
    obtain ⟨rfl, rfl⟩ := Prod.mk.inj hentry
    split at hkey'
    · next hblob =>
      obtain ⟨payload, _, hentry'⟩ := except_map_eq_ok.mp hkey'
      obtain ⟨rfl, -⟩ := Prod.mk.inj hentry'
      exact absurd hblob (hresolved _ _ hfile)
    · obtain ⟨resolved', _, hentry'⟩ := except_map_eq_ok.mp hkey'
      obtain ⟨rfl, rfl⟩ := Prod.mk.inj hentry'
      rfl

theorem mem_of_lookup {decoders : Decoders Decoder} {key : Text} {decoder : Decoder}
    (h : decoders.lookup key = some decoder) : (key, decoder) ∈ decoders := by
  induction decoders with
  | nil => cases h
  | cons entry decoders ih =>
      rw [List.lookup_cons] at h
      by_cases heq : (key == entry.1) = true
      · rw [heq] at h
        obtain rfl := Option.some.inj h
        obtain rfl := eq_of_beq heq
        exact List.mem_cons_self
      · rw [Bool.eq_false_iff.mpr heq] at h
        exact List.mem_cons_of_mem entry (ih h)

/-- The decoders after a call of `_decoder`, which may have raised an exception. -/
inductive ReachableDecoders (reader : TorchCodecReader) (env : Environment Decoder Image) : Decoders Decoder → Prop
  /-- A new reader, or one that was closed. -/
  | empty : ReachableDecoders reader env []
  | returned (path : Text) (result : Decoder) (decoders decoders' : Decoders Decoder) :
      ReachableDecoders reader env decoders → decoder reader env path decoders = .ok (result, decoders') →
      ReachableDecoders reader env decoders'
  | raised (path : Text) (error : PythonError) (decoders decoders' : Decoders Decoder) :
      ReachableDecoders reader env decoders → decoder reader env path decoders = .error (error, decoders') →
      ReachableDecoders reader env decoders'

/-- What holds of the decoders: they are those of their keys, and not too many. -/
structure DecodersInvariant (reader : TorchCodecReader) (env : Environment Decoder Image)
    (decoders : Decoders Decoder) : Prop where
  consistent : Consistent reader env decoders
  bounded : decoders.length ≤ reader.maxCachedDecoders

section Cache

variable {decoders : Decoders Decoder} {path key : Text} {source : VideoSource}

theorem Consistent.subset {decoders' : Decoders Decoder} (h : Consistent reader env decoders)
    (hsubset : ∀ entry ∈ decoders', entry ∈ decoders) : Consistent reader env decoders' :=
  fun entry hentry => h entry (hsubset entry hentry)

theorem Consistent.concat (h : StableVideos env answer) (hconsistent : Consistent reader env decoders)
    {decoder : Decoder} (hopens : Opens reader env path key source decoder) :
    Consistent reader env (decoders ++ [(key, decoder)]) := by
  intro entry hentry
  rcases List.mem_append.mp hentry with hold | hnew
  · exact hconsistent entry hold
  · obtain rfl := List.mem_singleton.mp hnew
    intro path' source' hkey'
    obtain rfl := decoderKey_source h hopens.key hkey'
    exact ⟨hkey', hopens.loads, hopens.videoDecoder⟩

/-- A decoder that was found becomes the last one. -/
theorem length_moveToEnd {decoder : Decoder} (h : decoders.lookup key = some decoder) :
    (decoders.filter (fun entry => entry.1 ≠ key) ++ [(key, decoder)]).length ≤ decoders.length := by
  have hlt : (decoders.filter (fun entry => entry.1 ≠ key)).length < decoders.length := by
    apply List.length_filter_lt_length_iff_exists.mpr
    exact ⟨(key, decoder), mem_of_lookup h, by simp⟩
  rw [List.length_append, List.length_singleton]
  exact hlt

/-- There is room for a new decoder. -/
theorem length_evicted (reader : TorchCodecReader) (h : decoders.length ≤ reader.maxCachedDecoders) :
    (if reader.maxCachedDecoders ≤ decoders.length then decoders.tail else decoders).length + 1 ≤
      reader.maxCachedDecoders := by
  have hpos := reader.maxCachedDecoders_pos
  split
  · rw [List.length_tail]
    omega
  · omega

theorem mem_evicted {entry : Text × Decoder}
    (h : entry ∈ if reader.maxCachedDecoders ≤ decoders.length then decoders.tail else decoders) :
    entry ∈ decoders := by
  split at h
  · exact List.mem_of_mem_tail h
  · exact h

/-- **A call of `_decoder`** keeps the invariant, and its result is what the path opens. -/
theorem decoder_yields (h : StableVideos env answer) (path : Text)
    (hinvariant : DecodersInvariant reader env decoders) :
    Yields (fun result => DecodersInvariant reader env result.2 ∧
        ∃ key source, Opens reader env path key source result.1)
      (fun error => DecodersInvariant reader env error.2 ∧
        ∀ key source decoder, ¬Opens reader env path key source decoder)
      (decoder reader env path decoders) := by
  rw [decoder]
  cases hkey : decoderKey reader env path with
  | error error =>
      refine ⟨hinvariant, ?_⟩
      intro key source decoder hopens
      cases hkey.symm.trans hopens.key
  | ok entry =>
      obtain ⟨key, source⟩ := entry
      change Yields _ _ (cachedDecoder reader env key source decoders)
      rw [cachedDecoder]
      cases hlookup : decoders.lookup key with
      | some decoder =>
          have hopens := hinvariant.consistent (key, decoder) (mem_of_lookup hlookup) path source hkey
          refine ⟨⟨?_, (length_moveToEnd hlookup).trans hinvariant.bounded⟩, key, source, hopens⟩
          apply Consistent.concat h _ hopens
          exact hinvariant.consistent.subset fun entry hentry => (List.mem_filter.mp hentry).1
      | none =>
          cases hloads : env.torchcodecLoads with
          | false =>
              refine ⟨hinvariant, ?_⟩
              intro key' source' decoder hopens
              cases hloads.symm.trans hopens.loads
          | true =>
              have hkept : Consistent reader env
                  (if reader.maxCachedDecoders ≤ decoders.length then decoders.tail else decoders) :=
                hinvariant.consistent.subset fun entry hentry => mem_evicted hentry
              have hroom := length_evicted reader hinvariant.bounded
              cases hopen : env.videoDecoder source with
              | error error =>
                  refine ⟨⟨hkept, (Nat.le_succ _).trans hroom⟩, ?_⟩
                  intro key' source' decoder hopens
                  obtain ⟨rfl, rfl⟩ := Prod.mk.inj (Except.ok.inj (hkey.symm.trans hopens.key))
                  cases hopen.symm.trans hopens.videoDecoder
              | ok decoder =>
                  have hopens : Opens reader env path key source decoder := ⟨hkey, hloads, hopen⟩
                  refine ⟨⟨hkept.concat h hopens, ?_⟩, key, source, hopens⟩
                  rw [List.length_append, List.length_singleton]
                  exact hroom

/-- **At every moment the open decoders are those of their keys, and at most as many as the reader allows.** -/
theorem ReachableDecoders.invariant (h : StableVideos env answer) (hreachable : ReachableDecoders reader env decoders) :
    DecodersInvariant reader env decoders := by
  induction hreachable with
  | empty => exact ⟨fun entry hentry => absurd hentry List.not_mem_nil, Nat.zero_le _⟩
  | returned path result decoders decoders' _ hcall ih =>
      have hstep := decoder_yields h path ih
      rw [hcall] at hstep
      exact hstep.1
  | raised path error decoders decoders' _ hcall ih =>
      have hstep := decoder_yields h path ih
      rw [hcall] at hstep
      exact hstep.1

/-- A call of `_decoder` leads to reachable decoders. -/
theorem ReachableDecoders.decoder (hreachable : ReachableDecoders reader env decoders) (path : Text) :
    Yields (fun result => ReachableDecoders reader env result.2) (fun error => ReachableDecoders reader env error.2)
      (Reader.decoder reader env path decoders) := by
  cases hcall : Reader.decoder reader env path decoders with
  | error error => exact .raised path error.1 decoders error.2 hreachable hcall
  | ok result => exact .returned path result.1 decoders result.2 hreachable hcall

/-- What is returned is opened by the path, -/
theorem opens_of_decoder (h : StableVideos env answer) (hreachable : ReachableDecoders reader env decoders)
    {result : Decoder × Decoders Decoder} (hcall : decoder reader env path decoders = .ok result) :
    ∃ key source, Opens reader env path key source result.1 := by
  have hstep := decoder_yields h path (hreachable.invariant h)
  rw [hcall] at hstep
  exact hstep.2

/-- and a path that can be opened is returned. -/
theorem decoder_of_opens (h : StableVideos env answer) (hreachable : ReachableDecoders reader env decoders)
    {result : Decoder} (hopens : Opens reader env path key source result) :
    ∃ decoders', decoder reader env path decoders = .ok (result, decoders') := by
  have hstep := decoder_yields h path (hreachable.invariant h)
  cases hcall : decoder reader env path decoders with
  | error error =>
      rw [hcall] at hstep
      exact absurd hopens (hstep.2 key source result)
  | ok found =>
      rw [hcall] at hstep
      obtain ⟨_, key', source', hopens'⟩ := hstep
      obtain ⟨rfl, rfl⟩ := Prod.mk.inj (Except.ok.inj (hopens.key.symm.trans hopens'.key))
      obtain rfl := Except.ok.inj (hopens.videoDecoder.symm.trans hopens'.videoDecoder)
      exact ⟨found.2, rfl⟩

end Cache

/-! ## One target -/

/-- What a target decodes to. -/
structure TargetAnswer (reader : TorchCodecReader) (env : Environment Decoder Image)
    (answer : VideoSource → Int → Except PythonError (Image × Double)) (target : VideoTarget) (image : Image)
    (actual : Double) : Prop where
  channels : target.channels = 3
  frame : ∃ key source decoder fps streamBegin index, Opens reader env target.videoPath key source decoder ∧
    frameRate env target.videoPath decoder = .ok (fps, streamBegin) ∧
    frameIndex fps streamBegin target = .ok index ∧ answer source index = .ok (image, actual)
  timestamp : checkTimestamp reader target.videoPath target actual = .ok ()

/-- The time and the image of a target are those of its frame. -/
theorem TargetAnswer.eq_of_answer {target : VideoTarget} {image : Image} {actual : Double}
    (h : TargetAnswer reader env answer target image actual) {key : Text} {source : VideoSource} {decoder : Decoder}
    {fps : ℚ} {streamBegin : Double} {index : Int} (hopens : Opens reader env target.videoPath key source decoder)
    (hrate : frameRate env target.videoPath decoder = .ok (fps, streamBegin))
    (hindex : frameIndex fps streamBegin target = .ok index) : answer source index = .ok (image, actual) := by
  obtain ⟨key', source', decoder', fps', streamBegin', index', hopens', hrate', hindex', hanswer⟩ := h.frame
  obtain ⟨rfl, rfl⟩ := Prod.mk.inj (Except.ok.inj (hopens.key.symm.trans hopens'.key))
  obtain rfl := Except.ok.inj (hopens.videoDecoder.symm.trans hopens'.videoDecoder)
  obtain ⟨rfl, rfl⟩ := Prod.mk.inj (Except.ok.inj (hrate.symm.trans hrate'))
  obtain rfl := Except.ok.inj (hindex.symm.trans hindex')
  exact hanswer

/-! ## The frames of a group -/

theorem mem_sortedSet {indices : List Int} {index : Int} : index ∈ sortedSet indices ↔ index ∈ indices := by
  rw [sortedSet, (List.perm_insertionSort _ _).mem_iff, List.mem_dedup]

/-- The offset of an index leads to its own frame. -/
theorem frame_at_offset {source : VideoSource} {unique : List Int} {answers : List (Image × Double)}
    (h : unique.mapM (answer source) = .ok answers) {index : Int} {offset : Nat}
    (hoffset : unique.idxOf? index = some offset) :
    ∃ image actual, answer source index = .ok (image, actual) ∧ (answers.map Prod.fst)[offset]? = some image ∧
      (answers.map Prod.snd)[offset]? = some actual := by
  have hforall := mapM_eq_ok.mp h
  obtain ⟨hlt, hget, -⟩ := List.idxOf?_eq_some_iff.mp hoffset
  have hlt' : offset < answers.length := hforall.length_eq ▸ hlt
  have hanswer := hforall.get hlt hlt'
  rw [List.get_eq_getElem, List.get_eq_getElem, hget] at hanswer
  refine ⟨answers[offset].1, answers[offset].2, hanswer, ?_, ?_⟩
  · rw [List.getElem?_map, List.getElem?_eq_getElem hlt', Option.map_some]
  · rw [List.getElem?_map, List.getElem?_eq_getElem hlt', Option.map_some]

/-- A row that has the image and the time of its target. -/
def Placed (reader : TorchCodecReader) (env : Environment Decoder Image)
    (answer : VideoSource → Int → Except PythonError (Image × Double)) (targets : List VideoTarget)
    (rows : DecodedRows Image) (position : Nat) : Prop :=
  ∃ target image actual, targets[position]? = some target ∧ TargetAnswer reader env answer target image actual ∧
    rows.images[position]? = some (some image) ∧ rows.timestamps[position]? = some actual

/-- The rows of a batch, some of which have been decoded. -/
structure RowsOf (reader : TorchCodecReader) (env : Environment Decoder Image)
    (answer : VideoSource → Int → Except PythonError (Image × Double)) (targets : List VideoTarget)
    (decoded : Nat → Prop) (rows : DecodedRows Image) : Prop where
  images_length : rows.images.length = targets.length
  timestamps_length : rows.timestamps.length = targets.length
  placed : ∀ position, decoded position → Placed reader env answer targets rows position

section Group

variable {targets : List VideoTarget} {group : Text × List Nat}

/-- What a round of the loop over the positions returns. -/
theorem placeFrame_eq_ok {path : Text} {unique : List Int} {frames : FrameBatch Image} {rows rows' : DecodedRows Image}
    {entry : Nat × Int} : placeFrame reader targets path unique frames rows entry = .ok rows' ↔
      ∃ offset, unique.idxOf? entry.2 = some offset ∧ ∃ actual, frames.ptsSeconds[offset]? = some actual ∧
        ∃ target, targets[entry.1]? = some target ∧ checkTimestamp reader path target actual = .ok () ∧
          ∃ image, frames.data[offset]? = some image ∧
            rows' = ⟨rows.images.set entry.1 (some image), rows.timestamps.set entry.1 actual⟩ := by
  simp only [placeFrame, except_bind_eq_ok, required_eq_ok]
  constructor
  · rintro ⟨offset, hoffset, actual, hactual, target, htarget, _, hcheck, image, himage, hok⟩
    exact ⟨offset, hoffset, actual, hactual, target, htarget, hcheck, image, himage, (Except.ok.inj hok).symm⟩
  · rintro ⟨offset, hoffset, actual, hactual, target, htarget, hcheck, image, himage, rfl⟩
    exact ⟨offset, hoffset, actual, hactual, target, htarget, (), hcheck, image, himage, rfl⟩

/-- **One row is placed**, and the rows that were placed stay. -/
theorem RowsOf.set {decoded : Nat → Prop} {rows : DecodedRows Image}
    (h : RowsOf reader env answer targets decoded rows) {position : Nat} {target : VideoTarget} {image : Image}
    {actual : Double} (htarget : targets[position]? = some target)
    (hanswer : TargetAnswer reader env answer target image actual) :
    RowsOf reader env answer targets (fun p => decoded p ∨ p = position)
      ⟨rows.images.set position (some image), rows.timestamps.set position actual⟩ where
  images_length := by rw [List.length_set, h.images_length]
  timestamps_length := by rw [List.length_set, h.timestamps_length]
  placed := by
    have hlt : position < targets.length := (List.getElem?_eq_some_iff.mp htarget).1
    intro p hp
    by_cases heq : p = position
    · subst heq
      refine ⟨target, image, actual, htarget, hanswer, ?_, ?_⟩
      · rw [List.getElem?_set_self (h.images_length.symm ▸ hlt)]
      · rw [List.getElem?_set_self (h.timestamps_length.symm ▸ hlt)]
    · obtain ⟨target', image', actual', htarget', hanswer', himage', htimestamp'⟩ :=
        h.placed p (hp.resolve_right heq)
      refine ⟨target', image', actual', htarget', hanswer', ?_, ?_⟩
      · rw [List.getElem?_set_ne (Ne.symm heq)]
        exact himage'
      · rw [List.getElem?_set_ne (Ne.symm heq)]
        exact htimestamp'

/-- The positions of a group are those of color targets of its file. -/
structure GroupOf (targets : List VideoTarget) (group : Text × List Nat) : Prop where
  nonempty : group.2 ≠ []
  target : ∀ position ∈ group.2, ∃ target, targets[position]? = some target ∧ target.videoPath = group.1 ∧
    target.channels = 3

/-- What the steps of a group before the last loop returned. -/
structure GroupFrames (reader : TorchCodecReader) (env : Environment Decoder Image)
    (answer : VideoSource → Int → Except PythonError (Image × Double)) (targets : List VideoTarget)
    (group : Text × List Nat) (fps : ℚ) (streamBegin : Double) (indices : List Int) (answers : List (Image × Double)) :
    Prop where
  opened : ∃ key source decoder, Opens reader env group.1 key source decoder ∧
    frameRate env group.1 decoder = .ok (fps, streamBegin) ∧
    (sortedSet indices).mapM (answer source) = .ok answers
  indices : List.Forall₂ (fun position index => ∃ target, targets[position]? = some target ∧
    frameIndex fps streamBegin target = .ok index) group.2 indices

theorem decodeGroup_eq_ok (h : StableVideos env answer) {state result : DecodedRows Image × Decoders Decoder}
    (hreachable : ReachableDecoders reader env state.2) :
    decodeGroup reader env targets state group = .ok result →
      ∃ fps streamBegin indices answers, GroupFrames reader env answer targets group fps streamBegin indices answers ∧
        (group.2.zip indices).foldlM (placeFrame reader targets group.1 (sortedSet indices)
          ⟨answers.map Prod.fst, answers.map Prod.snd⟩) state.1 = .ok result.1 ∧
        ReachableDecoders reader env result.2 := by
  intro hok
  simp only [decodeGroup, except_bind_eq_ok, raising_eq_ok] at hok
  obtain ⟨found, hfound, rate, hrate, indices, hindices, frames, hframes, rows, hrows, hresult⟩ := hok
  obtain rfl := Except.ok.inj hresult
  obtain ⟨key, source, hopens⟩ := opens_of_decoder h hreachable hfound
  obtain ⟨answers, hanswers, rfl⟩ := (h.getFramesAt source found.1 hopens.videoDecoder _ _).mp hframes
  have hreached := hreachable.decoder group.1
  rw [hfound] at hreached
  refine ⟨rate.1, rate.2, indices, answers, ⟨⟨key, source, found.1, hopens, hrate, hanswers⟩, ?_⟩, hrows, hreached⟩
  apply (mapM_eq_ok.mp hindices).imp
  intro position index hindex
  obtain ⟨target, htarget, hframe⟩ := except_bind_eq_ok.mp hindex
  exact ⟨target, required_eq_ok.mp htarget, hframe⟩

/-- **A group that is decoded** has the images and times of its targets, each in its row. -/
theorem decodeGroup_placed (h : StableVideos env answer) (hgroup : GroupOf targets group) {decoded : Nat → Prop}
    {state result : DecodedRows Image × Decoders Decoder} (hreachable : ReachableDecoders reader env state.2)
    (hrows : RowsOf reader env answer targets decoded state.1)
    (hok : decodeGroup reader env targets state group = .ok result) :
    RowsOf reader env answer targets (fun p => decoded p ∨ p ∈ group.2) result.1 ∧
      ReachableDecoders reader env result.2 := by
  obtain ⟨fps, streamBegin, indices, answers, hframes, hloop, hreached⟩ := decodeGroup_eq_ok h hreachable hok
  obtain ⟨key, source, decoder, hopens, hrate, hanswers⟩ := hframes.opened
  refine ⟨?_, hreached⟩
  have hplaced := foldlM_ok (I := fun (seen : List (Nat × Int)) (rows : DecodedRows Image) =>
    RowsOf reader env answer targets (fun p => decoded p ∨ p ∈ seen.map Prod.fst) rows) hloop
    ⟨hrows.images_length, hrows.timestamps_length, fun p hp => hrows.placed p (hp.resolve_right List.not_mem_nil)⟩ (by
      intro seen entry rest rows rows' hzip hseen hround
      obtain ⟨offset, hoffset, actual, hactual, target, htarget, hcheck, image, himage, rfl⟩ :=
        placeFrame_eq_ok.mp hround
      -- the frame at the offset is the one of the target
      have hentry : entry ∈ group.2.zip indices := hzip ▸ List.mem_append_right seen List.mem_cons_self
      obtain ⟨target', htarget', hindex⟩ := List.forall₂_iff_zip.mp hframes.indices |>.2 hentry
      obtain ⟨target'', htarget'', hpath, hchannels⟩ := hgroup.target entry.1 (List.of_mem_zip hentry).1
      obtain rfl := Option.some.inj (htarget.symm.trans htarget')
      obtain rfl := Option.some.inj (htarget.symm.trans htarget'')
      obtain ⟨image', actual', hanswer, himage', hactual'⟩ := frame_at_offset hanswers hoffset
      obtain rfl := Option.some.inj (himage.symm.trans himage')
      obtain rfl := Option.some.inj (hactual.symm.trans hactual')
      have htargetAnswer : TargetAnswer reader env answer target image actual := by
        refine ⟨hchannels, ?_, hpath.symm ▸ hcheck⟩
        rw [hpath]
        exact ⟨key, source, decoder, fps, streamBegin, entry.2, hopens, hrate, hindex, hanswer⟩
      have hset := hseen.set htarget htargetAnswer
      refine ⟨hset.images_length, hset.timestamps_length, fun p hp => hset.placed p ?_⟩
      rw [List.map_append, List.mem_append, List.map_singleton, List.mem_singleton] at hp
      exact or_assoc.mpr hp)
  refine ⟨hplaced.images_length, hplaced.timestamps_length, fun p hp => hplaced.placed p ?_⟩
  rw [List.map_fst_zip hframes.indices.length_eq.le]
  exact hp

/-- **A group is decoded if each of its targets can be.** -/
theorem decodeGroup_total (h : StableVideos env answer) (hgroup : GroupOf targets group)
    {state : DecodedRows Image × Decoders Decoder} (hreachable : ReachableDecoders reader env state.2)
    (hanswers : ∀ position ∈ group.2, ∀ target, targets[position]? = some target →
      ∃ image actual, TargetAnswer reader env answer target image actual) :
    ∃ result, decodeGroup reader env targets state group = .ok result := by
  -- the file is opened as for the first target
  obtain ⟨first, hfirst⟩ := List.exists_mem_of_ne_nil group.2 hgroup.nonempty
  obtain ⟨target₀, htarget₀, hpath₀, -⟩ := hgroup.target first hfirst
  obtain ⟨image₀, actual₀, hanswer₀⟩ := hanswers first hfirst target₀ htarget₀
  obtain ⟨key, source, decoder, fps, streamBegin, -, hopens, hrate, -⟩ := hanswer₀.frame
  rw [hpath₀] at hopens hrate
  obtain ⟨decoders', hcall⟩ := decoder_of_opens h hreachable hopens
  have hposition : ∀ position ∈ group.2, ∃ target index, targets[position]? = some target ∧
      target.videoPath = group.1 ∧ frameIndex fps streamBegin target = .ok index ∧
      ∃ image actual, answer source index = .ok (image, actual) ∧
        checkTimestamp reader group.1 target actual = .ok () := by
    intro position hmem
    obtain ⟨target, htarget, hpath, -⟩ := hgroup.target position hmem
    obtain ⟨image, actual, hanswer⟩ := hanswers position hmem target htarget
    obtain ⟨key', source', decoder', fps', streamBegin', index, hopens', hrate', hindex, -⟩ := hanswer.frame
    rw [hpath] at hopens' hrate'
    obtain ⟨rfl, rfl⟩ := Prod.mk.inj (Except.ok.inj (hopens.key.symm.trans hopens'.key))
    obtain rfl := Except.ok.inj (hopens.videoDecoder.symm.trans hopens'.videoDecoder)
    obtain ⟨rfl, rfl⟩ := Prod.mk.inj (Except.ok.inj (hrate.symm.trans hrate'))
    have htimestamp := hanswer.timestamp
    rw [hpath] at htimestamp
    exact ⟨target, index, htarget, hpath, hindex, image, actual,
      hanswer.eq_of_answer (hpath.symm ▸ hopens) (hpath.symm ▸ hrate) hindex, htimestamp⟩
  obtain ⟨indices, hindices⟩ : ∃ indices, (group.2.mapM fun position =>
      required .indexError targets[position]? >>= frameIndex fps streamBegin) = .ok indices := by
    apply mapM_total
    intro position hmem
    obtain ⟨target, index, htarget, -, hindex, -⟩ := hposition position hmem
    exact ⟨index, except_bind_eq_ok.mpr ⟨target, required_eq_ok.mpr htarget, hindex⟩⟩
  have hindexOf : ∀ (position : Nat) (index : Int) (target : VideoTarget), targets[position]? = some target →
      (required .indexError targets[position]? >>= frameIndex fps streamBegin) = .ok index →
      frameIndex fps streamBegin target = .ok index := by
    intro position index target htarget hok
    obtain ⟨target', htarget', hindex⟩ := except_bind_eq_ok.mp hok
    obtain rfl := Option.some.inj (htarget.symm.trans (required_eq_ok.mp htarget'))
    exact hindex
  obtain ⟨answers, hmap⟩ : ∃ answers, (sortedSet indices).mapM (answer source) = .ok answers := by
    apply mapM_total
    intro index hindex
    obtain ⟨position, hmem, hok⟩ := exists_mem_of_mapM hindices (mem_sortedSet.mp hindex)
    obtain ⟨target, index', htarget, -, hindex', image, actual, hanswer, -⟩ := hposition position hmem
    obtain rfl := Except.ok.inj (hindex'.symm.trans (hindexOf position index target htarget hok))
    exact ⟨_, hanswer⟩
  obtain ⟨rows, hloop, -⟩ := foldlM_total
    (f := placeFrame reader targets group.1 (sortedSet indices) ⟨answers.map Prod.fst, answers.map Prod.snd⟩)
    (I := fun _ _ => True) (l := group.2.zip indices) (b := state.1) trivial (by
      intro seen entry rest rows hzip _
      have hentry : entry ∈ group.2.zip indices := hzip ▸ List.mem_append_right seen List.mem_cons_self
      obtain ⟨target, index, htarget, -, hindex, image, actual, hanswer, hcheck⟩ :=
        hposition entry.1 (List.of_mem_zip hentry).1
      have hok := (List.forall₂_iff_zip.mp (mapM_eq_ok.mp hindices)).2 hentry
      obtain rfl := Except.ok.inj (hindex.symm.trans (hindexOf entry.1 entry.2 target htarget hok))
      obtain ⟨offset, hoffset⟩ : ∃ offset, (sortedSet indices).idxOf? entry.2 = some offset := by
        apply Option.isSome_iff_exists.mp
        rw [List.isSome_idxOf?]
        exact mem_sortedSet.mpr (List.of_mem_zip hentry).2
      obtain ⟨image', actual', hanswer', himage, hactual⟩ := frame_at_offset hmap hoffset
      obtain ⟨rfl, rfl⟩ := Prod.mk.inj (Except.ok.inj (hanswer.symm.trans hanswer'))
      exact ⟨_, placeFrame_eq_ok.mpr ⟨offset, hoffset, actual, hactual, target, htarget, hcheck, image, himage, rfl⟩,
        trivial⟩)
  refine ⟨(rows, decoders'), ?_⟩
  simp only [decodeGroup, except_bind_eq_ok, raising_eq_ok]
  exact ⟨(decoder, decoders'), hcall, (fps, streamBegin), hrate, indices, hindices, _,
    (h.getFramesAt source decoder hopens.videoDecoder _ _).mpr ⟨answers, hmap, rfl⟩, rows, hloop, rfl⟩

/-- The decoders after a group, which may have raised an exception. -/
theorem decodeGroup_reachable {state : DecodedRows Image × Decoders Decoder}
    (hreachable : ReachableDecoders reader env state.2) :
    Yields (fun result => ReachableDecoders reader env result.2) (fun error => ReachableDecoders reader env error.2)
      (decodeGroup reader env targets state group) := by
  apply (hreachable.decoder group.1).bind
  intro found hfound
  apply yields_raising hfound
  intro rate
  apply yields_raising hfound
  intro indices
  apply yields_raising hfound
  intro frames
  apply yields_raising hfound
  intro rows
  exact hfound

end Group

/-! ## The groups of a batch -/

section Groups

/-- The new position is in a group of its path, and the groups keep their positions. -/
theorem mem_appendPosition {path : Text} {position : Nat} {groups : List (Text × List Nat)} {group : Text × List Nat}
    (h : group ∈ appendPosition path position groups) :
    group ∈ groups ∨ group.1 = path ∧ ∃ positions, group.2 = positions ++ [position] ∧
      ∀ p ∈ positions, ∃ old ∈ groups, old.1 = path ∧ p ∈ old.2 := by
  induction groups with
  | nil =>
      obtain rfl := List.mem_singleton.mp h
      exact .inr ⟨rfl, [], rfl, fun p hp => absurd hp List.not_mem_nil⟩
  | cons first groups ih =>
      rw [appendPosition] at h
      split at h
      · next hpath =>
        rcases List.mem_cons.mp h with rfl | hrest
        · exact .inr ⟨hpath, first.2, rfl, fun p hp => ⟨first, List.mem_cons_self, hpath, hp⟩⟩
        · exact .inl (List.mem_cons_of_mem first hrest)
      · rcases List.mem_cons.mp h with rfl | hrest
        · exact .inl List.mem_cons_self
        · rcases ih hrest with hold | ⟨hpath, positions, hpositions, hmem⟩
          · exact .inl (List.mem_cons_of_mem first hold)
          · refine .inr ⟨hpath, positions, hpositions, fun p hp => ?_⟩
            obtain ⟨old, hold, hrest⟩ := hmem p hp
            exact ⟨old, List.mem_cons_of_mem first hold, hrest⟩

/-- No position is lost. -/
theorem covered_appendPosition (path : Text) (position : Nat) (groups : List (Text × List Nat)) :
    (∃ group ∈ appendPosition path position groups, position ∈ group.2) ∧
      ∀ group ∈ groups, ∃ group' ∈ appendPosition path position groups, ∀ p ∈ group.2, p ∈ group'.2 := by
  induction groups with
  | nil => exact ⟨⟨_, List.mem_singleton_self _, List.mem_singleton_self _⟩, fun _ h => absurd h List.not_mem_nil⟩
  | cons first groups ih =>
      rw [appendPosition]
      split
      · constructor
        · exact ⟨_, List.mem_cons_self, List.mem_append_right _ (List.mem_singleton_self _)⟩
        · intro group hgroup
          rcases List.mem_cons.mp hgroup with rfl | hrest
          · exact ⟨_, List.mem_cons_self, fun p hp => List.mem_append_left _ hp⟩
          · exact ⟨group, List.mem_cons_of_mem _ hrest, fun p hp => hp⟩
      · constructor
        · obtain ⟨group, hgroup, hposition⟩ := ih.1
          exact ⟨group, List.mem_cons_of_mem _ hgroup, hposition⟩
        · intro group hgroup
          rcases List.mem_cons.mp hgroup with rfl | hrest
          · exact ⟨group, List.mem_cons_self, fun p hp => hp⟩
          · obtain ⟨group', hgroup', hsubset⟩ := ih.2 group hrest
            exact ⟨group', List.mem_cons_of_mem _ hgroup', hsubset⟩

/-- The groups of some targets with their positions. -/
structure GroupsOf (entries : List (VideoTarget × Nat)) (groups : List (Text × List Nat)) : Prop where
  nonempty : ∀ group ∈ groups, group.2 ≠ []
  sound : ∀ group ∈ groups, ∀ position ∈ group.2, ∃ target, (target, position) ∈ entries ∧
    target.videoPath = group.1 ∧ target.channels = 3
  covers : ∀ entry ∈ entries, ∃ group ∈ groups, entry.2 ∈ group.2
  channels : ∀ entry ∈ entries, entry.1.channels = 3

/-- One target is added to its group. -/
theorem GroupsOf.append {entries : List (VideoTarget × Nat)} {groups : List (Text × List Nat)}
    (h : GroupsOf entries groups) {entry : VideoTarget × Nat} (hchannels : entry.1.channels = 3) :
    GroupsOf (entries ++ [entry]) (appendPosition entry.1.videoPath entry.2 groups) where
  nonempty := by
    intro group hgroup
    rcases mem_appendPosition hgroup with hold | ⟨-, positions, hpositions, -⟩
    · exact h.nonempty group hold
    · rw [hpositions]
      exact List.append_ne_nil_of_right_ne_nil positions (List.cons_ne_nil _ _)
  sound := by
    intro group hgroup position hposition
    have hkept : ∀ old ∈ groups, position ∈ old.2 → old.1 = group.1 → ∃ target,
        (target, position) ∈ entries ++ [entry] ∧ target.videoPath = group.1 ∧ target.channels = 3 := by
      intro old hold hmem hpath
      obtain ⟨target, htarget, hvideo, hcolor⟩ := h.sound old hold position hmem
      exact ⟨target, List.mem_append_left _ htarget, hvideo.trans hpath, hcolor⟩
    rcases mem_appendPosition hgroup with hold | ⟨hpath, positions, hpositions, hmem⟩
    · exact hkept group hold hposition rfl
    · rw [hpositions] at hposition
      rcases List.mem_append.mp hposition with hbefore | hnew
      · obtain ⟨old, hold, holdPath, hpositionOld⟩ := hmem position hbefore
        exact hkept old hold hpositionOld (holdPath.trans hpath.symm)
      · obtain rfl := List.mem_singleton.mp hnew
        exact ⟨entry.1, List.mem_append_right _ (List.mem_singleton_self _), hpath.symm, hchannels⟩
  covers := by
    have hcovered := covered_appendPosition entry.1.videoPath entry.2 groups
    intro entry' hentry'
    rcases List.mem_append.mp hentry' with hold | hnew
    · obtain ⟨group, hgroup, hmem⟩ := h.covers entry' hold
      obtain ⟨group', hgroup', hsubset⟩ := hcovered.2 group hgroup
      exact ⟨group', hgroup', hsubset _ hmem⟩
    · obtain rfl := List.mem_singleton.mp hnew
      exact hcovered.1
  channels := by
    intro entry' hentry'
    rcases List.mem_append.mp hentry' with hold | hnew
    · exact h.channels entry' hold
    · obtain rfl := List.mem_singleton.mp hnew
      exact hchannels

theorem groupTarget_eq_ok {groups groups' : List (Text × List Nat)} {entry : VideoTarget × Nat} :
    groupTarget groups entry = .ok groups' ↔
      entry.1.channels = 3 ∧ groups' = appendPosition entry.1.videoPath entry.2 groups := by
  simp only [groupTarget, except_bind_eq_ok]
  constructor
  · rintro ⟨_, hchannels, hok⟩
    exact ⟨not_not.mp (raiseIf_eq_ok.mp hchannels), (Except.ok.inj hok).symm⟩
  · rintro ⟨hchannels, rfl⟩
    exact ⟨(), raiseIf_eq_ok.mpr (not_not.mpr hchannels), rfl⟩

/-- The loop over the targets of a batch, -/
theorem groupsOf_of_foldlM {entries : List (VideoTarget × Nat)} {groups : List (Text × List Nat)}
    (h : entries.foldlM groupTarget [] = .ok groups) : GroupsOf entries groups := by
  apply foldlM_ok (I := GroupsOf) h
  · exact ⟨fun _ h => absurd h List.not_mem_nil, fun _ h => absurd h List.not_mem_nil,
      fun _ h => absurd h List.not_mem_nil, fun _ h => absurd h List.not_mem_nil⟩
  · intro seen entry rest groups groups' _ hgroups hround
    obtain ⟨hchannels, rfl⟩ := groupTarget_eq_ok.mp hround
    exact hgroups.append hchannels

/-- which returns if they are color targets. -/
theorem groups_total {entries : List (VideoTarget × Nat)} (h : ∀ entry ∈ entries, entry.1.channels = 3) :
    ∃ groups, entries.foldlM groupTarget [] = .ok groups := by
  obtain ⟨groups, hgroups, -⟩ := foldlM_total (f := groupTarget) (I := fun _ _ => True) (l := entries) (b := []) trivial
    (by
      intro seen entry rest groups hentries _
      have hchannels := h entry (hentries ▸ List.mem_append_right seen List.mem_cons_self)
      exact ⟨_, groupTarget_eq_ok.mpr ⟨hchannels, rfl⟩, trivial⟩)
  exact ⟨groups, hgroups⟩

end Groups

/-! ## A batch -/

section Batch

variable {targets : List VideoTarget} {decoders : Decoders Decoder}

theorem groupOf_of_groupsOf {groups : List (Text × List Nat)} (h : GroupsOf targets.zipIdx groups)
    {group : Text × List Nat} (hgroup : group ∈ groups) : GroupOf targets group where
  nonempty := h.nonempty group hgroup
  target := by
    intro position hposition
    obtain ⟨target, hmem, hpath, hchannels⟩ := h.sound group hgroup position hposition
    exact ⟨target, List.mem_zipIdx_iff_getElem?.mp hmem, hpath, hchannels⟩

/-- **A batch that is decoded** has the image and the time of each target in its row. -/
theorem decode_placed (h : StableVideos env answer) (hreachable : ReachableDecoders reader env decoders)
    {result : DecodedBatch Image × Decoders Decoder} (hok : decode reader env targets decoders = .ok result) :
    result.1.targets = targets ∧ ReachableDecoders reader env result.2 ∧
      RowsOf reader env answer targets (· < targets.length) ⟨result.1.images, result.1.decodedTimestamps⟩ := by
  simp only [decode, except_bind_eq_ok, raising_eq_ok] at hok
  obtain ⟨groups, hgroups, state, hloop, hresult⟩ := hok
  obtain rfl := Except.ok.inj hresult
  have hgroupsOf := groupsOf_of_foldlM hgroups
  have hstate := foldlM_ok (I := fun (seen : List (Text × List Nat)) (state : DecodedRows Image × Decoders Decoder) =>
    RowsOf reader env answer targets (fun p => ∃ group ∈ seen, p ∈ group.2) state.1 ∧
      ReachableDecoders reader env state.2) hloop
    ⟨⟨List.length_replicate, List.length_replicate, by
      rintro p ⟨group, hgroup, -⟩
      cases hgroup⟩, hreachable⟩ (by
      intro seen group rest state state' hsplit hseen hround
      have hgroup : group ∈ groups := hsplit ▸ List.mem_append_right seen List.mem_cons_self
      obtain ⟨hrows, hreached⟩ := decodeGroup_placed h (groupOf_of_groupsOf hgroupsOf hgroup) hseen.2 hseen.1 hround
      refine ⟨⟨hrows.images_length, hrows.timestamps_length, ?_⟩, hreached⟩
      rintro p ⟨group', hgroup', hp⟩
      apply hrows.placed p
      rcases List.mem_append.mp hgroup' with hbefore | hlast
      · exact .inl ⟨group', hbefore, hp⟩
      · obtain rfl := List.mem_singleton.mp hlast
        exact .inr hp)
  refine ⟨rfl, hstate.2, hstate.1.images_length, hstate.1.timestamps_length, fun p hp => hstate.1.placed p ?_⟩
  exact hgroupsOf.covers (targets[p], p) (List.mem_zipIdx_iff_getElem?.mpr (List.getElem?_eq_getElem hp))

/-- **A batch is decoded if each of its targets can be.** -/
theorem decode_total (h : StableVideos env answer) (hreachable : ReachableDecoders reader env decoders)
    (hanswers : ∀ target ∈ targets, ∃ image actual, TargetAnswer reader env answer target image actual) :
    ∃ result, decode reader env targets decoders = .ok result := by
  obtain ⟨groups, hgroups⟩ : ∃ groups, targets.zipIdx.foldlM groupTarget [] = .ok groups := groups_total (by
    intro entry hentry
    have hget := List.mem_zipIdx_iff_getElem?.mp hentry
    obtain ⟨image, actual, hanswer⟩ := hanswers entry.1 (List.mem_of_getElem? hget)
    exact hanswer.channels)
  have hgroupsOf := groupsOf_of_foldlM hgroups
  obtain ⟨state, hloop, -⟩ := foldlM_total (f := decodeGroup reader env targets)
    (I := fun _ (state : DecodedRows Image × Decoders Decoder) => ReachableDecoders reader env state.2) (l := groups)
    (b := (⟨List.replicate targets.length none, List.replicate targets.length 0⟩, decoders)) hreachable (by
      intro seen group rest state hsplit hseen
      have hgroup : group ∈ groups := hsplit ▸ List.mem_append_right seen List.mem_cons_self
      obtain ⟨result, hresult⟩ := decodeGroup_total h (groupOf_of_groupsOf hgroupsOf hgroup) hseen
        fun position _ target htarget => hanswers target (List.mem_of_getElem? htarget)
      have hreached : Yields (fun result => ReachableDecoders reader env result.2)
          (fun error => ReachableDecoders reader env error.2) (decodeGroup reader env targets state group) :=
        decodeGroup_reachable hseen
      rw [hresult] at hreached
      exact ⟨result, hresult, hreached⟩)
  refine ⟨(⟨targets, state.1.images, state.1.timestamps⟩, state.2), ?_⟩
  simp only [decode, except_bind_eq_ok, raising_eq_ok]
  exact ⟨groups, hgroups, state, hloop, rfl⟩

/-- The decoders after a batch, which may have raised an exception. -/
theorem decode_reachable (hreachable : ReachableDecoders reader env decoders) :
    Yields (fun result => ReachableDecoders reader env result.2) (fun error => ReachableDecoders reader env error.2)
      (decode reader env targets decoders) := by
  apply yields_raising hreachable
  intro groups
  have hloop := foldlM_rule (f := decodeGroup reader env targets)
    (I := fun _ (state : DecodedRows Image × Decoders Decoder) => ReachableDecoders reader env state.2)
    (E := fun error => ReachableDecoders reader env error.2) (l := groups)
    (b := (⟨List.replicate targets.length none, List.replicate targets.length 0⟩, decoders)) hreachable
    fun _ _ _ _ _ hstate => decodeGroup_reachable hstate
  exact hloop.bind fun state hstate => hstate

end Batch

/-! ## A target alone -/

/-- A target decodes to an image and a time when it is the only one, and no decoder is open. -/
def DecodesAlone (reader : TorchCodecReader) (env : Environment Decoder Image) (target : VideoTarget) (image : Image)
    (timestamp : Double) : Prop :=
  ∃ decoders, decode reader env [target] [] = .ok (⟨[target], [some image], [timestamp]⟩, decoders)

/-- Decoding a target alone raises an exception. -/
def FailsAlone (reader : TorchCodecReader) (env : Environment Decoder Image) (target : VideoTarget) : Prop :=
  ∃ error, decode reader env [target] [] = .error error

section Alone

variable {target : VideoTarget}

theorem TargetAnswer.unique {image image' : Image} {actual actual' : Double}
    (h : TargetAnswer reader env answer target image actual)
    (h' : TargetAnswer reader env answer target image' actual') : image' = image ∧ actual' = actual := by
  obtain ⟨key, source, decoder, fps, streamBegin, index, hopens, hrate, hindex, hanswer⟩ := h.frame
  have hsame := h'.eq_of_answer hopens hrate hindex
  exact Prod.mk.inj (Except.ok.inj (hsame.symm.trans hanswer))

/-- What a target decodes to is what it decodes to alone. -/
theorem TargetAnswer.decodesAlone (h : StableVideos env answer) {image : Image} {actual : Double}
    (hanswer : TargetAnswer reader env answer target image actual) : DecodesAlone reader env target image actual := by
  have hanswers : ∀ target' ∈ [target], ∃ image actual, TargetAnswer reader env answer target' image actual := by
    intro target' htarget'
    rw [List.mem_singleton.mp htarget']
    exact ⟨image, actual, hanswer⟩
  obtain ⟨result, hresult⟩ := decode_total h .empty hanswers
  obtain ⟨htargets, -, hrows⟩ := decode_placed h .empty hresult
  obtain ⟨target', image', actual', htarget', hanswer', himage, htimestamp⟩ := hrows.placed 0 Nat.zero_lt_one
  obtain rfl : target = target' := Option.some.inj htarget'
  obtain ⟨rfl, rfl⟩ := hanswer.unique hanswer'
  have himages : result.1.images = [some image'] := by
    obtain ⟨first, hfirst⟩ := List.length_eq_one_iff.mp hrows.images_length
    dsimp only at hfirst himage
    rw [hfirst] at himage ⊢
    rw [Option.some.inj himage]
  have htimestamps : result.1.decodedTimestamps = [actual'] := by
    obtain ⟨first, hfirst⟩ := List.length_eq_one_iff.mp hrows.timestamps_length
    dsimp only at hfirst htimestamp
    rw [hfirst] at htimestamp ⊢
    rw [Option.some.inj htimestamp]
  refine ⟨result.2, ?_⟩
  rw [hresult, ← htargets, ← himages, ← htimestamps]

theorem failsAlone_iff (h : StableVideos env answer) :
    FailsAlone reader env target ↔ ¬∃ image actual, TargetAnswer reader env answer target image actual := by
  constructor
  · rintro ⟨error, herror⟩ ⟨image, actual, hanswer⟩
    obtain ⟨decoders, hok⟩ := hanswer.decodesAlone h
    cases herror.symm.trans hok
  · intro hnone
    cases hdecode : decode reader env [target] [] with
    | error error => exact ⟨error, hdecode⟩
    | ok result =>
        obtain ⟨-, -, hrows⟩ := decode_placed h .empty hdecode
        obtain ⟨target', image, actual, htarget', hanswer, -⟩ := hrows.placed 0 Nat.zero_lt_one
        obtain rfl : target = target' := Option.some.inj htarget'
        exact absurd ⟨image, actual, hanswer⟩ hnone

end Alone

/-! ## All batches -/

/-- The rows of a batch. -/
def DecodedBatch.rows (batch : DecodedBatch Image) : List (VideoTarget × Option Image × Double) :=
  batch.targets.zip (batch.images.zip batch.decodedTimestamps)

/-- A row with its target, and what this decodes to alone. -/
def AloneRow (reader : TorchCodecReader) (env : Environment Decoder Image) (target : VideoTarget)
    (row : VideoTarget × Option Image × Double) : Prop :=
  row.1 = target ∧ ∃ image, row.2.1 = some image ∧ DecodesAlone reader env target image row.2.2

/-- What holds of a run: it is as if each target was decoded alone. -/
structure IndependentRun (reader : TorchCodecReader) (env : Environment Decoder Image) (targets : List VideoTarget)
    (run : BatchRun Decoder Image) : Prop where
  error : run.error ≠ none ↔ ∃ target ∈ targets, FailsAlone reader env target
  rows : run.error = none →
    List.Forall₂ (AloneRow reader env) targets (run.yielded.flatMap fun yielded => yielded.1.rows)
  /-- The rows that were yielded before an exception. -/
  before : ∃ count, List.Forall₂ (AloneRow reader env) (targets.take count)
    (run.yielded.flatMap fun yielded => yielded.1.rows)
  sizes : ∀ yielded ∈ run.yielded, yielded.1.targets.length ≤ reader.batchSize ∧
    yielded.1.images.length = yielded.1.targets.length ∧
    yielded.1.decodedTimestamps.length = yielded.1.targets.length
  reachable : (∀ yielded ∈ run.yielded, ReachableDecoders reader env yielded.2) ∧
    ReachableDecoders reader env run.decoders

section Batches

variable {targets : List VideoTarget} {decoders : Decoders Decoder}

theorem aloneRows_of_rowsOf (h : StableVideos env answer) {batch : DecodedBatch Image}
    (htargets : batch.targets = targets)
    (hrows : RowsOf reader env answer targets (· < targets.length) ⟨batch.images, batch.decodedTimestamps⟩) :
    List.Forall₂ (AloneRow reader env) targets batch.rows := by
  have himages := hrows.images_length
  have htimestamps := hrows.timestamps_length
  dsimp only at himages htimestamps
  have hlength : targets.length = batch.rows.length := by
    simp only [DecodedBatch.rows, List.length_zip, himages, htimestamps, htargets, min_self]
  apply List.forall₂_iff_get.mpr
  refine ⟨hlength, ?_⟩
  intro i hi hi'
  obtain ⟨target, image, actual, htarget, hanswer, himage, htimestamp⟩ := hrows.placed i hi
  have htargetEq := (List.getElem?_eq_some_iff.mp htarget).2
  have himageEq := (List.getElem?_eq_some_iff.mp himage).2
  have htimestampEq := (List.getElem?_eq_some_iff.mp htimestamp).2
  simp only [DecodedBatch.rows, List.get_eq_getElem, List.getElem_zip, htargets, AloneRow]
  refine ⟨trivial, image, himageEq, ?_⟩
  rw [htargetEq, htimestampEq]
  exact hanswer.decodesAlone h

/-- **The loop over the batches.** The induction is on what the calls of `fetchmany` return. -/
theorem yieldBatches_independent (h : StableVideos env answer) {fetched : List (List VideoTarget)}
    (hsizes : ∀ targets ∈ fetched, targets.length ≤ reader.batchSize)
    (hreachable : ReachableDecoders reader env decoders) :
    IndependentRun reader env fetched.flatten (yieldBatches reader env fetched decoders) := by
  induction fetched generalizing decoders with
  | nil =>
      refine ⟨⟨fun herror => absurd rfl herror, ?_⟩, fun _ => .nil, ⟨0, .nil⟩, ?_, ?_, hreachable⟩
      · rintro ⟨target, htarget, -⟩
        cases htarget
      · intro yielded hyielded
        cases hyielded
      · intro yielded hyielded
        cases hyielded
  | cons targets fetched ih =>
      have hreached : Yields (fun result => ReachableDecoders reader env result.2)
          (fun error => ReachableDecoders reader env error.2) (decode reader env targets decoders) :=
        decode_reachable hreachable
      rw [yieldBatches]
      cases hdecode : decode reader env targets decoders with
      | error error =>
          rw [hdecode] at hreached
          have hfails : ∃ target ∈ (targets :: fetched).flatten, FailsAlone reader env target := by
            by_contra hnone
            have hanswers : ∀ target ∈ targets, ∃ image actual, TargetAnswer reader env answer target image actual := by
              intro target htarget
              by_contra hanswer
              exact hnone ⟨target, List.mem_append_left _ htarget, (failsAlone_iff h).mpr hanswer⟩
            obtain ⟨result, hresult⟩ := decode_total h hreachable hanswers
            cases hdecode.symm.trans hresult
          constructor
          · exact ⟨fun _ => hfails, fun _ => Option.some_ne_none _⟩
          · intro hnone
            cases hnone
          · exact ⟨0, .nil⟩
          · intro yielded hyielded
            cases hyielded
          · refine ⟨?_, hreached⟩
            intro yielded hyielded
            cases hyielded
      | ok result =>
          rw [hdecode] at hreached
          obtain ⟨htargets, -, hrows⟩ := decode_placed h hreachable hdecode
          have hrest := ih (fun targets' htargets' => hsizes targets' (List.mem_cons_of_mem targets htargets')) hreached
          have halone := aloneRows_of_rowsOf h htargets hrows
          have hsucceeds : ∀ target ∈ targets, ¬FailsAlone reader env target := by
            intro target htarget hfails
            obtain ⟨i, hi, rfl⟩ := List.getElem_of_mem htarget
            obtain ⟨target', image, actual, htarget', hanswer, -⟩ := hrows.placed i hi
            rw [List.getElem?_eq_getElem hi] at htarget'
            obtain rfl := Option.some.inj htarget'
            exact (failsAlone_iff h).mp hfails ⟨image, actual, hanswer⟩
          constructor
          · refine hrest.error.trans ⟨?_, ?_⟩
            · rintro ⟨target, htarget, hfails⟩
              exact ⟨target, List.mem_append_right _ htarget, hfails⟩
            · rintro ⟨target, htarget, hfails⟩
              rcases List.mem_append.mp htarget with hfirst | hlater
              · exact absurd hfails (hsucceeds target hfirst)
              · exact ⟨target, hlater, hfails⟩
          · intro hnone
            exact List.rel_append halone (hrest.rows hnone)
          · obtain ⟨count, hbefore⟩ := hrest.before
            refine ⟨targets.length + count, ?_⟩
            rw [List.flatten_cons, List.take_length_add_append]
            exact List.rel_append halone hbefore
          · intro yielded hyielded
            rcases List.mem_cons.mp hyielded with rfl | hlater
            · rw [htargets]
              exact ⟨hsizes targets List.mem_cons_self, hrows.images_length, hrows.timestamps_length⟩
            · exact hrest.sizes yielded hlater
          · refine ⟨?_, hrest.reachable.2⟩
            intro yielded hyielded
            rcases List.mem_cons.mp hyielded with rfl | hlater
            · exact hreached
            · exact hrest.reachable.1 yielded hlater

/-- **Decoding does not depend on batches**: the rows of all batches are those of the targets decoded alone, an
exception is raised if one of these raises one, and the cache is never larger than its bound. -/
theorem batches_independent (h : StableVideos env answer) (hreachable : ReachableDecoders reader env decoders)
    (targets : List VideoTarget) :
    IndependentRun reader env targets (batches reader env targets decoders) ∧
      ∀ reached, ReachableDecoders reader env reached → reached.length ≤ reader.maxCachedDecoders := by
  constructor
  · have hrun : IndependentRun reader env (splitEvery reader.batchSize targets).flatten
        (batches reader env targets decoders) :=
      yieldBatches_independent h (fun part hpart => length_of_mem_splitEvery reader.batchSize_pos hpart) hreachable
    rwa [splitEvery_flatten] at hrun
  · intro reached hreached
    exact (hreached.invariant h).bounded

end Batches

end Independence

/-! ## Two cameras -/

/-- Videos of ten frames a second, where the image of a frame is its index. -/
def tenPerSecond : Environment VideoSource Int where
  blobSize _ := .ok none
  blobContent _ := .ok none
  resolve path := .ok ('/' :: path)
  isRelativeToDataset _ := true
  torchcodecLoads := true
  videoDecoder source := .ok source
  averageFps _ := some (.finite 10)
  beginStreamSeconds _ := some 0
  getFramesAt _ indices := .ok ⟨indices, indices.map fun index : Int => .finite (index / 10)⟩

theorem tenPerSecond_stable : StableVideos tenPerSecond fun _ index => .ok (index, .finite (index / 10)) where
  resolve_absolute := by
    intro path resolved hresolve hprefix
    obtain rfl := Except.ok.inj hresolve
    obtain ⟨rest, hrest⟩ := hprefix
    have hscheme : ("lance-blob://".toList ++ rest).head? = some 'l' := rfl
    rw [hrest] at hscheme
    exact absurd (Option.some.inj hscheme) (by decide)
  getFramesAt := by
    intro source decoder _ indices frames
    have hmap : (indices.mapM fun index : Int =>
        (.ok (index, .finite (index / 10)) : Except PythonError (Int × Double))) =
          .ok (indices.map fun index => (index, .finite (index / 10))) := by
      apply mapM_eq_ok.mpr
      induction indices with
      | nil => exact .nil
      | cons index indices ih => exact .cons rfl ih
    rw [hmap]
    constructor
    · intro hframes
      obtain rfl := Except.ok.inj hframes
      refine ⟨_, rfl, ?_⟩
      rw [List.map_map, List.map_map]
      exact congrArg₂ FrameBatch.mk (List.map_id indices).symm rfl
    · rintro ⟨answers, hanswers, rfl⟩
      obtain rfl := Except.ok.inj hanswers
      rw [List.map_map, List.map_map]
      exact congrArg Except.ok (congrArg₂ FrameBatch.mk (List.map_id indices).symm rfl)

/-- A reader with one decoder. -/
def oneDecoder : TorchCodecReader where
  batchSize := 2
  maxCachedDecoders := 1
  tolerance := .finite (1 / 10000)
  batchSize_pos := Nat.two_pos
  maxCachedDecoders_pos := Nat.zero_lt_one

theorem twoCameras_independent :
    StableVideos tenPerSecond (fun _ index => .ok (index, .finite (index / 10))) ∧
    ReachableDecoders oneDecoder tenPerSecond [] ∧
    IndependentRun oneDecoder tenPerSecond
      [⟨1, "front.mp4".toList, .finite (2 / 5), 3, 0⟩, ⟨1, "wrist.mp4".toList, .finite (1 / 5), 3, 1⟩,
        ⟨2, "front.mp4".toList, .finite (1 / 10), 3, 2⟩, ⟨2, "front.mp4".toList, .finite (2 / 5), 3, 3⟩]
      (batches oneDecoder tenPerSecond
        [⟨1, "front.mp4".toList, .finite (2 / 5), 3, 0⟩, ⟨1, "wrist.mp4".toList, .finite (1 / 5), 3, 1⟩,
          ⟨2, "front.mp4".toList, .finite (1 / 10), 3, 2⟩, ⟨2, "front.mp4".toList, .finite (2 / 5), 3, 3⟩] []) :=
  ⟨tenPerSecond_stable, .empty, (batches_independent tenPerSecond_stable .empty _).1⟩

end DuckdbLerobot.Reader
