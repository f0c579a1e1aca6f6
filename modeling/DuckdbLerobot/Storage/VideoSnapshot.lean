import DuckdbLerobot.Storage.MetadataSnapshot

/-!
# Video metadata reads are snapshot-consistent

`LerobotVideoMetadata::Get` reads the dataset metadata before and after it loads the routes. Both
reads are consistent each (`LerobotDatasetMetadata.get_snapshot`), and the fingerprint of the manifest
ties them together.
-/

set_option autoImplicit false

namespace DuckdbLerobot.Storage

open DuckdbLerobot.Library DuckdbLerobot.Path

namespace LerobotVideoMetadata

theorem keyOf_injective {a b : Text} (h : keyOf a = keyOf b) : a = b :=
  List.append_cancel_left h

/-- Loaded video metadata keeps what identifies its dataset. -/
theorem load_fields {sort : StdSort videoRouteLess} {dataset : LerobotDatasetMetadata}
    {lanceRows : List LanceVideoRow} {rows : List EpisodeRow} {metadata : LerobotVideoMetadata}
    (h : load sort dataset lanceRows rows = .ok metadata) :
    metadata.root = dataset.root ∧ metadata.infoFingerprint = dataset.infoFingerprint := by
  unfold load at h
  split at h
  · cases h
    exact ⟨rfl, rfl⟩
  · obtain ⟨lanceVideos, -, h⟩ := except_bind_eq_ok.mp h
    obtain ⟨table, -, h⟩ := except_bind_eq_ok.mp h
    dsimp only at h
    split at h
    · cases h
    · cases h
      exact ⟨rfl, rfl⟩

section Get

variable {host : Host} {s t : World} {moves : Moves} {key root : Text}
  {dataset : LerobotDatasetMetadata} {metadata : LerobotVideoMetadata} {version : DatasetVersion}

theorem fingerprint_of_content (h : VideoContent host version metadata) :
    metadata.infoFingerprint = version.infoFingerprint := by
  obtain ⟨dataset, lanceRows, rows, hdataset, -, -, hload⟩ := h
  exact (load_fields hload).2.trans hdataset.fingerprint

theorem cacheKey_read (h : Run (service host) cacheKey s moves (.ok key) t) :
    ∃ w ∈ instants s moves, key = keyOf w.accessKey := by
  obtain ⟨accessKey, moves₁, u, moves₂, rfl, hread, hdone⟩ := h.bind_ok
  cases hdone.done_inv.1
  obtain ⟨w, hw, rfl⟩ := accessKey_read hread
  exact ⟨w, Run.mem_left hw, rfl⟩

theorem isValid_iff : metadata.isValid dataset = true ↔
    metadata.root = dataset.root ∧ metadata.infoFingerprint = dataset.infoFingerprint ∧
      metadata.episodeFiles = dataset.episodeFiles := by
  rw [isValid, Bool.and_eq_true, Bool.and_eq_true, decide_eq_true_iff, decide_eq_true_iff,
    decide_eq_true_iff, and_assoc]

theorem lookUp_read {refresh : Bool}
    (h : Run (service host) (lookUp key dataset refresh) s moves (.ok (some metadata)) t) :
    (∃ w ∈ instants s moves, w.objectCache key = some (.video metadata)) ∧
      metadata.isValid dataset = true := by
  unfold lookUp at h
  split at h
  · cases h.done_inv.1
  · obtain ⟨cached, moves₁, u, moves₂, rfl, hget, h⟩ := h.bind_ok
    cases cached with
    | none => cases h.done_inv.1
    | some cached =>
        have hreturned := Except.ok.inj h.done_inv.1
        split at hreturned
        · rename_i hvalid
          cases hreturned
          refine ⟨?_, hvalid⟩
          obtain ⟨object, moves₃, u', moves₄, rfl, hread, hdone⟩ := hget.bind_ok
          obtain ⟨w, hw, hobject⟩ := cacheGet_read hread
          refine ⟨w, Run.mem_left (Run.mem_left hw), ?_⟩
          rcases object with _ | ⟨_ | _⟩
          · cases hdone.done_inv.1
          · cases hdone.done_inv.1
          · cases hdone.done_inv.1
            exact hobject
        · cases hreturned

theorem loadFrom_fields
    (h : Run (service host) (loadFrom host dataset) s moves (.ok metadata) t) :
    metadata.root = dataset.root ∧ metadata.infoFingerprint = dataset.infoFingerprint := by
  unfold loadFrom at h
  split at h
  · exact load_fields (compute_ok h)
  · obtain ⟨lanceRows, moves₁, s₁, rest, rfl, -, h⟩ := h.bind_ok
    obtain ⟨rows, moves₂, s₂, moves₃, rfl, -, h⟩ := h.bind_ok
    exact load_fields (compute_ok h)

/-- The query over `videos.lance` returns the rows of the version. -/
theorem queryLanceVideos_content {rows : List LanceVideoRow}
    (h : Run (service host) (queryLanceVideos dataset) s moves (.ok rows) t)
    (hstays : ∀ u ∈ instants s moves, u.version dataset.root = some version)
    (hlance : dataset.info.isLance = true) : version.lanceVideos = .ok rows := by
  rw [queryLanceVideos, if_pos hlance] at h
  obtain ⟨w, hw, hanswer⟩ := h.perform_answer
  exact stable_read (hstays w hw) hanswer

/-- **`Load` while the version stays** returns its content. -/
theorem loadFrom_content
    (h : Run (service host) (loadFrom host dataset) s moves (.ok metadata) t)
    (hstays : ∀ u ∈ instants s moves, u.version dataset.root = some version)
    (hdataset : DatasetContent host version dataset) : VideoContent host version metadata := by
  unfold loadFrom at h
  split at h
  · rename_i hempty
    have hresult := compute_ok h
    refine ⟨dataset, [], [], hdataset, (load_fields hresult).1.symm, ?_, hresult⟩
    intro hepisodes hkeys
    exact (hempty.elim hepisodes hkeys).elim
  · obtain ⟨lanceRows, moves₁, s₁, rest, rfl, hlance, h⟩ := h.bind_ok
    obtain ⟨rows, moves₂, s₂, moves₃, rfl, hrows, h⟩ := h.bind_ok
    have hresult := compute_ok h
    refine ⟨dataset, lanceRows, rows, hdataset, (load_fields hresult).1.symm, ?_, hresult⟩
    intro _ _
    constructor
    · exact queryLanceVideos_content hlance fun u hu => hstays u (Run.mem_left hu)
    · exact queryEpisodeRows_content hrows fun u hu =>
        hstays u (hlance.mem_right (Run.mem_left hu))

/-- **The second half of an attempt.** The dataset was current at an earlier read of the manifest
under the key, and it is still current when the routes are loaded. -/
theorem reload_snapshot {result : Except Exception (Option LerobotVideoMetadata)}
    (h : Run (service host) (reload host key root dataset) s moves result t) (hs : CacheSound host s)
    {w : World} (hw : Later w s) (hkey : key = keyOf w.accessKey)
    (hversion : w.version dataset.root = some version)
    (hdataset : DatasetContent host version dataset) :
    SnapshotCall host LerobotVideoMetadata.root
      (fun metadata version => VideoContent host version metadata) s moves
      fun metadata => result = .ok (some metadata) := by
  have hquiet := (plain_loadFrom host dataset).mono Plain.quiet
  rcases h.bind_inv with ⟨e, rfl, hload⟩ | ⟨loaded, moves₁, s₁, rest, rfl, hload, h⟩
  · exact ⟨stored_of_quiet hquiet hload, fun a ha => by cases ha⟩
  have hstored₁ := stored_of_quiet hquiet hload
  have hs₁ := cacheSound_instants hload hstored₁ hs s₁ hload.end_mem
  have hfinish := hload.finish_eq
  subst hfinish
  rcases h.bind_inv with ⟨e, rfl, hcurrent⟩ | ⟨current, moves₂, s₂, moves₃, rfl, hcurrent, h⟩
  · have hcall := LerobotDatasetMetadata.get_snapshot hcurrent hs₁
    exact ⟨stored_append hstored₁ hcall.stored, fun a ha => by cases ha⟩
  obtain ⟨hstored₂, hsnapshot⟩ := LerobotDatasetMetadata.get_snapshot hcurrent hs₁
  have hfinish := hcurrent.finish_eq
  subst hfinish
  split at h
  · rename_i hvalid
    have hquietKey := plain_cacheKey.mono Plain.quiet
    rcases h.bind_inv with ⟨e, rfl, hkeyRead⟩ | ⟨currentKey, moves₄, s₄, moves₅, rfl, hkeyRead, h⟩
    · exact ⟨stored_append hstored₁ (stored_append hstored₂ (stored_of_quiet hquietKey hkeyRead)),
        fun a ha => by cases ha⟩
    have hstored₄ := stored_of_quiet hquietKey hkeyRead
    have hfinish := hkeyRead.finish_eq
    subst hfinish
    split at h
    · rename_i hkeys
      obtain ⟨hroot, hfingerprint, -⟩ := isValid_iff.mp hvalid
      obtain ⟨hloadRoot, hloadFingerprint⟩ := loadFrom_fields hload
      obtain ⟨⟨wr, hwr, hresolved⟩, w₂, v₂, hread, hversion₂, hcontent₂⟩ := hsnapshot current rfl
      obtain ⟨wk, hwk, hkey'⟩ := cacheKey_read hkeyRead
      have hw₂ := hcurrent.later (ordered host) w₂ (lastInfoRead_mem hread)
      have hwk' := hkeyRead.later (ordered host) wk hwk
      have hs₁' := hload.start_later (ordered host)
      have hsame : w.accessKey = wk.accessKey :=
        keyOf_injective (hkey.symm.trans (hkeys.trans hkey'))
      have hkey₂ : w.accessKey = w₂.accessKey :=
        ((hw.trans (hs₁'.trans hw₂.1)).same_key (hw₂.2.trans hwk'.1) hsame).symm
      rw [← hroot, hloadRoot] at hversion₂
      -- the dataset was not replaced while the routes were loaded
      have hfingerprints : version.infoFingerprint = v₂.infoFingerprint := by
        rw [← hdataset.fingerprint, ← hloadFingerprint, hfingerprint, hcontent₂.fingerprint]
      have hstays : ∀ u ∈ instants s moves₁, u.version dataset.root = some version := by
        intro u hu
        have hbetween := hload.later (ordered host) u hu
        exact ((hw.trans hbetween.1).same_version (hbetween.2.trans hw₂.1) hkey₂ hversion hversion₂
          hfingerprints).1
      have hcontent := loadFrom_content hload hstays hdataset
      obtain ⟨hversion₂', -⟩ := (hw.trans (hs₁'.trans hw₂.1)).same_version (Later.refl w₂) hkey₂
        hversion hversion₂ hfingerprints
      have hkeyStart : w.accessKey = s.accessKey := (hw.same_key
        (hs₁'.trans (hw₂.1.trans (hw₂.2.trans hwk'.1))) hsame).symm
      have hpublished : ReturnedBetween (service host) s (moves₁ ++ (moves₂ ++ moves₄))
          (loadFrom host dataset) loaded fun u => key = keyOf u.accessKey := by
        refine ⟨[], moves₁, moves₂ ++ moves₄, _, rfl, hload, ⟨s, start_mem_instants, ?_⟩, wk, ?_, ?_⟩
        · exact hkey.trans (congrArg keyOf hkeyStart)
        · exact hcurrent.mem_right hwk
        · exact hkeys.trans hkey'
      obtain ⟨hstored₅, hblind, hreturned⟩ := store_moves h
        (P := fun before => Stored host s (moves₁ ++ (moves₂ ++ moves₄) ++ before)) (by
          intro before hbefore
          refine ⟨⟨dataset, hpublished.append⟩, w₂.accessKey, version, ?_, ?_, hcontent⟩
          · exact hkey.trans (congrArg keyOf hkey₂)
          · rw [hloadRoot, finish_append, finish_append, finish_append]
            exact (hw₂.2.trans ((hkeyRead.start_later (ordered host)).trans hbefore)).mem_versions
              (World.mem_of_version hversion₂'))
      refine ⟨?_, ?_⟩
      · have hall := (stored_append hstored₁ (stored_append hstored₂ hstored₄)).append hstored₅
        simpa only [List.append_assoc] using hall
      · intro metadata hmetadata
        obtain rfl := hreturned metadata hmetadata
        have hblind' : lastInfoRead (moves₄ ++ moves₅) = none := by
          rw [lastInfoRead_append, hblind, lastInfoRead_plain plain_cacheKey hkeyRead]
          rfl
        rw [hroot]
        refine (Snapshot.append ⟨⟨wr, hwr, hresolved⟩, w₂, version, hread, ?_, hcontent⟩
          hblind').prepend
        rw [← hroot, hloadRoot]
        exact hversion₂'
    · obtain ⟨rfl, -⟩ := h.done_inv
      exact ⟨stored_append hstored₁ (stored_append hstored₂ (stored_append hstored₄
        (stored_of_quiet (Program.uses_pure _) h))), fun a ha => by cases ha⟩
  · obtain ⟨rfl, -⟩ := h.done_inv
    exact ⟨stored_append hstored₁ (stored_append hstored₂
      (stored_of_quiet (Program.uses_pure _) h)), fun a ha => by cases ha⟩

theorem attempt_snapshot {refresh : Bool} {index : Nat}
    {result : Except Exception (Option LerobotVideoMetadata)}
    (h : Run (service host) (attempt host root refresh index) s moves result t)
    (hs : CacheSound host s) :
    SnapshotCall host LerobotVideoMetadata.root
      (fun metadata version => VideoContent host version metadata) s moves
      fun metadata => result = .ok (some metadata) := by
  have hquietKey := plain_cacheKey.mono Plain.quiet
  rcases h.bind_inv with ⟨e, rfl, hfirstKey⟩ | ⟨key, moves₁, s₁, rest, rfl, hfirstKey, h⟩
  · exact ⟨stored_of_quiet hquietKey hfirstKey, fun a ha => by cases ha⟩
  have hstored₁ := stored_of_quiet hquietKey hfirstKey
  have hs₁ := cacheSound_instants hfirstKey hstored₁ hs s₁ hfirstKey.end_mem
  obtain ⟨u, hu, hkey⟩ := cacheKey_read hfirstKey
  have hu₁ := (hfirstKey.later (ordered host) u hu).2
  have hfinish := hfirstKey.finish_eq
  subst hfinish
  rcases h.bind_inv with ⟨e, rfl, hdataset⟩ | ⟨dataset, moves₂, s₂, rest, rfl, hdataset, h⟩
  · have hcall := LerobotDatasetMetadata.get_snapshot hdataset hs₁
    exact ⟨stored_append hstored₁ hcall.stored, fun a ha => by cases ha⟩
  obtain ⟨hstored₂, hsnapshot₂⟩ := LerobotDatasetMetadata.get_snapshot hdataset hs₁
  have hs₂ := cacheSound_instants hdataset hstored₂ hs₁ s₂ hdataset.end_mem
  obtain ⟨⟨wr, hwr, hresolved⟩, w, version, hread, hversion, hcontent⟩ := hsnapshot₂ dataset rfl
  have hw := hdataset.later (ordered host) w (lastInfoRead_mem hread)
  have hfinish := hdataset.finish_eq
  subst hfinish
  rcases h.bind_inv with ⟨e, rfl, hsecondKey⟩ | ⟨currentKey, moves₃, s₃, rest, rfl, hsecondKey, h⟩
  · exact ⟨stored_append hstored₁ (stored_append hstored₂ (stored_of_quiet hquietKey hsecondKey)),
      fun a ha => by cases ha⟩
  have hstored₃ := stored_of_quiet hquietKey hsecondKey
  have hs₃ := cacheSound_instants hsecondKey hstored₃ hs₂ s₃ hsecondKey.end_mem
  obtain ⟨wk, hwk, hkey'⟩ := cacheKey_read hsecondKey
  have hwk' := hsecondKey.later (ordered host) wk hwk
  have hfinish := hsecondKey.finish_eq
  subst hfinish
  split at h
  · obtain ⟨rfl, -⟩ := h.done_inv
    exact ⟨stored_append hstored₁ (stored_append hstored₂ (stored_append hstored₃
      (stored_of_quiet (Program.uses_pure _) h))), fun a ha => by cases ha⟩
  · rename_i hkeys
    -- the dataset was read under the key
    have hkeyRead : w.accessKey = u.accessKey := (hu₁.trans hw.1).same_key (hw.2.trans hwk'.1)
      (keyOf_injective (hkey.symm.trans ((not_not.mp hkeys).trans hkey')))
    have hquietLookUp := (plain_lookUp key dataset refresh).mono Plain.quiet
    rcases h.bind_inv with ⟨e, rfl, hlookUp⟩ | ⟨found, moves₄, s₄, moves₅, rfl, hlookUp, h⟩
    · exact ⟨stored_append hstored₁ (stored_append hstored₂ (stored_append hstored₃
        (stored_of_quiet hquietLookUp hlookUp))), fun a ha => by cases ha⟩
    have hstored₄ := stored_of_quiet hquietLookUp hlookUp
    have hsound₄ := cacheSound_instants hlookUp hstored₄ hs₃
    have hs₄ := hsound₄ s₄ hlookUp.end_mem
    have hfinish := hlookUp.finish_eq
    subst hfinish
    cases found with
    | some cached =>
        obtain ⟨rfl, hothers⟩ := h.done_inv
        refine ⟨stored_append hstored₁ (stored_append hstored₂ (stored_append hstored₃
          (stored_append hstored₄ (stored_of_quiet (Program.uses_pure _) h)))), ?_⟩
        intro metadata hmetadata
        cases hmetadata
        obtain ⟨⟨w₄, hw₄, hobject⟩, hvalid⟩ := lookUp_read hlookUp
        obtain ⟨hroot, hfingerprint, -⟩ := isValid_iff.mp hvalid
        obtain ⟨accessKey, version', hkey₄, hmem, hcontent'⟩ := hsound₄ w₄ hw₄ key _ hobject
        -- the cached routes belong to the version of the dataset
        have hw₄' : Later w w₄ := hw.2.trans ((hsecondKey.start_later (ordered host)).trans
          (hlookUp.later (ordered host) w₄ hw₄).1)
        have hmem₀ : version ∈ w₄.versions accessKey cached.root := by
          rw [hroot, ← keyOf_injective (hkey.symm.trans hkey₄), ← hkeyRead]
          exact hw₄'.mem_versions (World.mem_of_version hversion)
        obtain rfl := World.version_unique hmem₀ hmem (by
          rw [← hcontent.fingerprint, ← hfingerprint, fingerprint_of_content hcontent'])
        have hblind : lastInfoRead (moves₃ ++ (moves₄ ++ moves₅)) = none := by
          rw [lastInfoRead_append, lastInfoRead_append, lastInfoRead_others hothers,
            lastInfoRead_plain (plain_lookUp key dataset refresh) hlookUp,
            lastInfoRead_plain plain_cacheKey hsecondKey]
          rfl
        rw [hroot]
        exact (Snapshot.append ⟨⟨wr, hwr, hresolved⟩, w, version, hread, hversion, hcontent'⟩
          hblind).prepend
    | none =>
        have hcall := reload_snapshot h hs₄ (hw.2.trans ((hsecondKey.start_later (ordered host)).trans
          (hlookUp.start_later (ordered host)))) (hkey.trans (congrArg keyOf hkeyRead.symm)) hversion
          hcontent
        refine ⟨stored_append hstored₁ (stored_append hstored₂ (stored_append hstored₃
          (stored_append hstored₄ hcall.stored))), ?_⟩
        intro metadata hmetadata
        exact (((hcall.snapshot metadata hmetadata).prepend).prepend).prepend.prepend

/-- **`LerobotVideoMetadata::Get`.** -/
theorem get_snapshot {refresh : Bool} {result : Except Exception LerobotVideoMetadata}
    (h : Run (service host) (get host root refresh) s moves result t) (hs : CacheSound host s) :
    SnapshotCall host LerobotVideoMetadata.root
      (fun metadata version => VideoContent host version metadata) s moves
      fun metadata => result = .ok metadata := by
  refine attempts_snapshot ?_ h hs
  intro index s moves result t hbody hs
  exact attempt_snapshot hbody hs

end Get

end LerobotVideoMetadata

end DuckdbLerobot.Storage
