import DuckdbLerobot.Storage.ManifestReads

/-!
# Metadata reads are snapshot-consistent

A call reads the manifest, the episode files and the access key at different instants. It returns the
content of the version that is current when it reads the fingerprint of the manifest for the last
time, whatever the others do meanwhile (`Snapshot`), and it stores an object only under the key of
the access configuration that was there before and after the object was loaded (`Stored`).
-/

set_option autoImplicit false

namespace DuckdbLerobot.Storage

open DuckdbLerobot.Library DuckdbLerobot.Path

abbrev Moves : Type := List (Move Command Response Exception World)

/-- **What a call returns**: the content of the version that was current at the last read of the
manifest, below a root that was the resolved one. -/
structure Snapshot (s : World) (moves : Moves) (root : Text) (content : DatasetVersion → Prop) :
    Prop where
  resolved : ∃ w ∈ instants s moves, w.resolvedRoot = .ok root
  current : ∃ w version, lastInfoRead moves = some w ∧ w.version root = some version ∧
    content version

namespace Snapshot

variable {s t : World} {moves₁ moves₂ : Moves} {root : Text} {content : DatasetVersion → Prop}

theorem prepend (h : Snapshot (finish s moves₁) moves₂ root content) :
    Snapshot s (moves₁ ++ moves₂) root content := by
  obtain ⟨⟨w, hw, hroot⟩, w', version, hread, hversion, hcontent⟩ := h
  refine ⟨⟨w, mem_instants_append.mpr (.inr hw), hroot⟩, w', version, ?_, hversion, hcontent⟩
  rw [lastInfoRead_append, hread]
  rfl

theorem append (h : Snapshot s moves₁ root content) (hplain : lastInfoRead moves₂ = none) :
    Snapshot s (moves₁ ++ moves₂) root content := by
  obtain ⟨⟨w, hw, hroot⟩, w', version, hread, hversion, hcontent⟩ := h
  refine ⟨⟨w, Run.mem_left hw, hroot⟩, w', version, ?_, hversion, hcontent⟩
  rw [lastInfoRead_append, hplain, hread]
  rfl

end Snapshot

section Calls

variable {host : Host} {s t : World} {moves : Moves}

/-- An object that is stored was loaded while its key was the access key, before and after. -/
def Published (host : Host) (s : World) (before : Moves) (key : Text) : CachedObject → Prop
  | .dataset metadata => ∃ root fingerprint forVideo,
      ReturnedBetween (service host) s before
        (LerobotDatasetMetadata.loadFrom host root fingerprint forVideo) metadata
        fun w => key = LerobotDatasetMetadata.keyOf w.accessKey
  | .video metadata => ∃ dataset,
      ReturnedBetween (service host) s before (LerobotVideoMetadata.loadFrom host dataset) metadata
        fun w => key = LerobotVideoMetadata.keyOf w.accessKey

theorem Published.prepend {moves₁ moves₂ : Moves} {key : Text} {object : CachedObject}
    (h : Published host (finish s moves₁) moves₂ key object) :
    Published host s (moves₁ ++ moves₂) key object := by
  cases object with
  | dataset metadata =>
      obtain ⟨root, fingerprint, forVideo, hreturned⟩ := h
      exact ⟨root, fingerprint, forVideo, hreturned.prepend⟩
  | video metadata =>
      obtain ⟨dataset, hreturned⟩ := h
      exact ⟨dataset, hreturned.prepend⟩

/-- What a call does with an own command: what it stores is published and sound. -/
def Stored (host : Host) (s : World) (before : Moves) : Command → Prop
  | .cachePut key object => Published host s before key object ∧
      SoundObject host (finish s before) key object
  | _ => True

theorem Stored.prepend {moves₁ moves₂ : Moves} {command : Command}
    (h : Stored host (finish s moves₁) moves₂ command) :
    Stored host s (moves₁ ++ moves₂) command := by
  cases command with
  | cachePut key object =>
      obtain ⟨hpublished, hsound⟩ := h
      refine ⟨hpublished.prepend, ?_⟩
      rwa [finish_append]
  | _ => trivial

/-- The stores of two parts. -/
theorem stored_append {moves₁ moves₂ : Moves} (h₁ : OwnMoves (Stored host s) moves₁)
    (h₂ : OwnMoves (Stored host (finish s moves₁)) moves₂) :
    OwnMoves (Stored host s) (moves₁ ++ moves₂) :=
  h₁.append (h₂.mono fun _ _ => Stored.prepend)

theorem stored_of_quiet {α : Type} {p : Io α} {result : Except Exception α} (hp : p.Uses Quiet)
    (h : Run (service host) p s moves result t) : OwnMoves (Stored host s) moves := by
  refine h.ownMoves_of_uses hp ?_
  intro before command hquiet
  cases command with
  | cachePut key object => exact hquiet.elim
  | _ => trivial

/-- **The cache stays sound.** -/
theorem cacheSound_instants {α : Type} {p : Io α} {result : Except Exception α}
    (h : Run (service host) p s moves result t) (hstored : OwnMoves (Stored host s) moves)
    (hs : CacheSound host s) : ∀ u ∈ instants s moves, CacheSound host u := by
  refine h.invariant (Q := fun w command => ∀ key object, command = .cachePut key object →
    SoundObject host w key object) ?_ ?_ (hstored.mono ?_) hs
  · exact fun a b hinterferes ha => hinterferes.2 ha
  · intro a command response b hanswer hput ha key object hobject
    obtain ⟨-, rfl⟩ := Prod.mk.inj hanswer
    rcases answer_objectCache hobject with hold | rfl
    · exact (ha key object hold).later (answer_world command a)
    · exact (hput key object rfl).later (answer_world _ a)
  · rintro before command hcommand key object rfl
    exact hcommand.2

/-- The last part of an attempt that loaded an object. -/
theorem store_moves {α : Type} {key : Text} {object : CachedObject} {returned : α}
    {result : Except Exception (Option α)} {P : Moves → Command → Prop}
    (h : Run (service host) (store key object returned) s moves result t)
    (hput : ∀ before, Later s (finish s before) → P before (.cachePut key object)) :
    OwnMoves P moves ∧ lastInfoRead moves = none ∧
      ∀ a, result = .ok (some a) → a = returned := by
  have huses : (store key object returned).Uses (· = .cachePut key object) :=
    Program.Uses.bind (Program.uses_perform.mpr rfl) fun _ => trivial
  refine ⟨?_, ?_, ?_⟩
  · rintro before command response after rest rfl
    obtain rfl := h.uses_of_mem huses (List.mem_append_right before List.mem_cons_self)
    exact hput before (h.later (ordered host) _ (Run.mem_left finish_mem_instants)).1
  · refine lastInfoRead_blind (huses.mono ?_) h
    rintro command rfl
    trivial
  · rintro a rfl
    obtain ⟨_, moves₁, u, moves₂, rfl, -, hdone⟩ := h.bind_ok
    cases hdone.done_inv.1
    rfl

/-- **What a call guarantees**: for each value that it returns, and for what it stores. -/
structure SnapshotCall {α : Type} (host : Host) (rootOf : α → Text)
    (content : α → DatasetVersion → Prop) (s : World) (moves : Moves) (returns : α → Prop) :
    Prop where
  stored : OwnMoves (Stored host s) moves
  snapshot : ∀ a, returns a → Snapshot s moves (rootOf a) (content a)

/-- The loop of both calls. -/
theorem attempts_snapshot {α : Type} {rootOf : α → Text} {content : α → DatasetVersion → Prop}
    {body : Nat → Io (Option α)} {failure : Exception} {result : Except Exception α}
    (hbody : ∀ index s moves result t, Run (service host) (body index) s moves result t →
      CacheSound host s →
        SnapshotCall host rootOf content s moves fun a => result = .ok (some a))
    (h : Run (service host) (attempts body failure) s moves result t) (hs : CacheSound host s) :
    SnapshotCall host rootOf content s moves fun a => result = .ok a := by
  rcases h.bind_inv with ⟨e, rfl, hfirst⟩ | ⟨first, moves₁, s₁, rest, rfl, hfirst, h⟩
  · exact ⟨(hbody _ _ _ _ _ hfirst hs).stored, fun a ha => by cases ha⟩
  obtain ⟨hstored₁, hsnapshot₁⟩ := hbody _ _ _ _ _ hfirst hs
  have hs₁ := cacheSound_instants hfirst hstored₁ hs s₁ hfirst.end_mem
  have hfinish := hfirst.finish_eq
  subst hfinish
  cases first with
  | some a =>
      obtain ⟨rfl, hothers⟩ := h.done_inv
      refine ⟨stored_append hstored₁ (stored_of_quiet (Program.uses_pure a) h), ?_⟩
      intro a' ha'
      cases ha'
      exact (hsnapshot₁ a rfl).append (lastInfoRead_others hothers)
  | none =>
      rcases h.bind_inv with ⟨e, rfl, hsecond⟩ | ⟨second, moves₂, s₂, moves₃, rfl, hsecond, h⟩
      · refine ⟨stored_append hstored₁ (hbody _ _ _ _ _ hsecond hs₁).stored, fun a ha => by cases ha⟩
      obtain ⟨hstored₂, hsnapshot₂⟩ := hbody _ _ _ _ _ hsecond hs₁
      have hfinish := hsecond.finish_eq
      subst hfinish
      cases second with
      | some a =>
          obtain ⟨rfl, hothers⟩ := h.done_inv
          refine ⟨stored_append hstored₁ (stored_append hstored₂
            (stored_of_quiet (Program.uses_pure a) h)), ?_⟩
          intro a' ha'
          cases ha'
          exact ((hsnapshot₂ a rfl).append (lastInfoRead_others hothers)).prepend
      | none =>
          obtain ⟨rfl, -⟩ := h.done_inv
          exact ⟨stored_append hstored₁ (stored_append hstored₂
            (stored_of_quiet (Program.uses_done _) h)), fun a ha => by cases ha⟩

end Calls

/-! ## The dataset metadata -/

namespace LerobotDatasetMetadata

theorem keyOf_injective {a b : Text} (h : keyOf a = keyOf b) : a = b :=
  List.append_cancel_left h

section Get

variable {host : Host} {s t : World} {moves : Moves} {key root : Text} {forVideo : Bool}
  {metadata : LerobotDatasetMetadata}

theorem cacheKey_read (h : Run (service host) cacheKey s moves (.ok key) t) :
    ∃ w ∈ instants s moves, key = keyOf w.accessKey := by
  obtain ⟨accessKey, moves₁, u, moves₂, rfl, hread, hdone⟩ := h.bind_ok
  cases hdone.done_inv.1
  obtain ⟨w, hw, rfl⟩ := accessKey_read hread
  exact ⟨w, Run.mem_left hw, rfl⟩

/-- The version at the last read of the manifest, which happened under the key. -/
def ReadUnder (key : Text) (moves : Moves) (root : Text) (content : DatasetVersion → Prop) : Prop :=
  ∃ w version, lastInfoRead moves = some w ∧ key = keyOf w.accessKey ∧
    w.version root = some version ∧ content version

/-- What the parts of an attempt have found out under a key. -/
def Outcome (host : Host) (key root : Text) (s : World) (moves : Moves) :
    Attempt LerobotDatasetMetadata → Prop
  | .retry => True
  | .reuse cached => cached.root = root ∧ ReadUnder key moves root (DatasetContent host · cached)
  | .publish loaded => loaded.root = root ∧
      ReadUnder key moves root (DatasetContent host · loaded) ∧
        ∃ fingerprint forVideo, ReturnedBetween (service host) s moves
          (loadFrom host root fingerprint forVideo) loaded fun w => key = keyOf w.accessKey

theorem ReadUnder.prepend {moves₁ moves₂ : Moves} {content : DatasetVersion → Prop}
    (h : ReadUnder key moves₂ root content) : ReadUnder key (moves₁ ++ moves₂) root content := by
  obtain ⟨w, version, hread, hw⟩ := h
  refine ⟨w, version, ?_, hw⟩
  rw [lastInfoRead_append, hread]
  rfl

/-- The outcome after an earlier part. -/
theorem Outcome.after {α : Type} {p : Io α} {result : Except Exception α} {u : World}
    {moves₁ moves₂ : Moves} {outcome : Attempt LerobotDatasetMetadata}
    (h : Outcome host key root u moves₂ outcome) (hfirst : Run (service host) p s moves₁ result u) :
    Outcome host key root s (moves₁ ++ moves₂) outcome := by
  cases hfirst.finish_eq
  cases outcome with
  | retry => trivial
  | reuse cached =>
      obtain ⟨hroot, hread⟩ := h
      exact ⟨hroot, hread.prepend⟩
  | publish loaded =>
      obtain ⟨hroot, hread, fingerprint, forVideo, hreturned⟩ := h
      exact ⟨hroot, hread.prepend, fingerprint, forVideo, hreturned.prepend⟩

/-- **A loaded object.** The manifest has one fingerprint before and after `Load`, so the version was
the same all the time, as the access key was. -/
theorem reload_outcome {outcome : Attempt LerobotDatasetMetadata}
    (h : Run (service host) (reload host key root forVideo) s moves (.ok outcome) t) {u : World}
    (hu : Later u s) (hkey : key = keyOf u.accessKey) : Outcome host key root s moves outcome := by
  obtain ⟨before, moves₁, s₁, rest, rfl, hbefore, h⟩ := h.bind_ok
  obtain ⟨loaded, moves₂, s₂, rest, rfl, hload, h⟩ := h.bind_ok
  obtain ⟨filesValid, moves₃, s₃, rest, rfl, hfiles, h⟩ := h.bind_ok
  obtain ⟨after, moves₄, s₄, rest, rfl, hafter, h⟩ := h.bind_ok
  split at h
  · rename_i hsame
    obtain ⟨current, moves₅, s₅, moves₆, rfl, hcurrent, h⟩ := h.bind_ok
    split at h
    · rename_i hkeys
      cases h.done_inv.1
      obtain ⟨w₀, v₀, hread₀, hversion₀, hfingerprint₀⟩ := infoFingerprint_read hbefore
      obtain ⟨w₁, v₁, hread₁, hversion₁, hfingerprint₁⟩ := infoFingerprint_read hafter
      obtain ⟨wk, hwk, hkey'⟩ := cacheKey_read hcurrent
      have hw₀ := hbefore.later (ordered host) w₀ (lastInfoRead_mem hread₀)
      have hw₁ := hafter.later (ordered host) w₁ (lastInfoRead_mem hread₁)
      have hwk' := (hcurrent.later (ordered host) wk hwk).1
      have hs₂ := hload.start_later (ordered host)
      have hs₃ := hfiles.start_later (ordered host)
      -- the access key is the same up to the last check
      have hkeep : ∀ w, Later s w → Later w s₄ → w.accessKey = u.accessKey := by
        intro w hsw hws
        apply (hu.trans hsw).same_key (hws.trans hwk')
        exact keyOf_injective (hkey.symm.trans (hkeys.trans hkey'))
      have hkey₀ := hkeep w₀ hw₀.1 (hw₀.2.trans (hs₂.trans (hs₃.trans (hw₁.1.trans hw₁.2))))
      have hkey₁ := hkeep w₁ ((hbefore.start_later (ordered host)).trans
        (hs₂.trans (hs₃.trans hw₁.1))) hw₁.2
      -- and so is the version between the two reads of the manifest
      have hkeys₀₁ : w₀.accessKey = w₁.accessKey := hkey₀.trans hkey₁.symm
      have hfingerprints : v₀.infoFingerprint = v₁.infoFingerprint := by
        rw [hfingerprint₀, hfingerprint₁, hsame.1]
      have hstays : ∀ w ∈ instants s₁ moves₂, w.version root = some v₀ := by
        intro w hw
        have hbetween := hload.later (ordered host) w hw
        exact ((hw₀.2.trans hbetween.1).same_version (hbetween.2.trans (hs₃.trans hw₁.1)) hkeys₀₁
          hversion₀ hversion₁ hfingerprints).1
      obtain ⟨hcontent, hroot⟩ := loadFrom_content hload hstays hfingerprint₀.symm
      obtain ⟨hversion₁', -⟩ := (hw₀.2.trans (hs₂.trans (hs₃.trans hw₁.1))).same_version
        (Later.refl w₁) hkeys₀₁ hversion₀ hversion₁ hfingerprints
      refine ⟨hroot, ⟨w₁, v₀, ?_, hkey.trans (congrArg keyOf hkey₁.symm), hversion₁', hcontent⟩,
        before, forVideo, ?_⟩
      · simp only [lastInfoRead_append, hread₁, lastInfoRead_plain plain_cacheKey hcurrent,
          lastInfoRead_others h.done_inv.2, Option.none_or, Option.some_or]
      · have hkeyStart : s.accessKey = u.accessKey := hkeep s (Later.refl s)
          (hw₀.1.trans (hw₀.2.trans (hs₂.trans (hs₃.trans (hw₁.1.trans hw₁.2)))))
        refine ⟨moves₁, moves₂, moves₃ ++ (moves₄ ++ (moves₅ ++ moves₆)), s₂, ?_, ?_, ?_, ?_⟩
        · simp only [List.append_assoc]
        · rwa [hbefore.finish_eq]
        · exact ⟨s, start_mem_instants, hkey.trans (congrArg keyOf hkeyStart.symm)⟩
        · refine ⟨wk, ?_, hkeys.trans hkey'⟩
          exact hfiles.mem_right (hafter.mem_right (Run.mem_left hwk))
    · cases h.done_inv.1
      trivial
  · cases h.done_inv.1
    trivial

theorem getCached_read (h : Run (service host) (getCached key) s moves (.ok (some metadata)) t) :
    ∃ w ∈ instants s moves, w.objectCache key = some (.dataset metadata) := by
  obtain ⟨object, moves₁, u, moves₂, rfl, hread, hdone⟩ := h.bind_ok
  obtain ⟨w, hw, hobject⟩ := cacheGet_read hread
  refine ⟨w, Run.mem_left hw, ?_⟩
  rcases object with _ | ⟨_ | _⟩
  · cases hdone.done_inv.1
  · cases hdone.done_inv.1
    exact hobject
  · cases hdone.done_inv.1

/-- A valid object has the fingerprint of the version at the last read. -/
theorem isValid_read (h : Run (service host) metadata.isValid s moves (.ok true) t) :
    ∃ w version, lastInfoRead moves = some w ∧ w.version metadata.root = some version ∧
      metadata.infoFingerprint = version.infoFingerprint := by
  obtain ⟨fingerprint, moves₁, u, moves₂, rfl, hread, h⟩ := h.bind_ok
  obtain ⟨w, version, hlast, hversion, hfingerprint⟩ := infoFingerprint_read hread
  split at h
  · rename_i hsame
    refine ⟨w, version, ?_, hversion, hsame.trans hfingerprint.symm⟩
    rw [lastInfoRead_append, lastInfoRead_plain (plain_episodeFilesAreValid metadata) h, hlast]
    rfl
  · cases h.done_inv.1

/-- **A cached object.** It is the content of a version that the key has seen, and the manifest still
has the fingerprint of this version. -/
theorem revalidate_outcome {outcome : Attempt LerobotDatasetMetadata}
    (h : Run (service host) (revalidate host key root forVideo) s moves (.ok outcome) t) {u : World}
    (hu : Later u s) (hkey : key = keyOf u.accessKey) (hs : CacheSound host s) :
    Outcome host key root s moves outcome := by
  obtain ⟨found, moves₁, s₁, rest, rfl, hget, h⟩ := h.bind_ok
  have hs₁ := hu.trans (hget.start_later (ordered host))
  cases found with
  | none => exact (reload_outcome h hs₁ hkey).after hget
  | some cached =>
      dsimp only at h
      split at h
      · exact (reload_outcome h hs₁ hkey).after hget
      · rename_i hroot
        obtain ⟨valid, moves₂, s₂, rest, rfl, hvalid, h⟩ := h.bind_ok
        obtain ⟨current, moves₃, s₃, rest, rfl, hcurrent, h⟩ := h.bind_ok
        have hs₃ := (hs₁.trans (hvalid.start_later (ordered host))).trans
          (hcurrent.start_later (ordered host))
        split at h
        · cases h.done_inv.1
          trivial
        · rename_i hkeys
          split at h
          · rename_i hisValid
            rw [hisValid] at hvalid
            obtain ⟨_, moves₄, s₄, moves₅, rfl, hformat, h⟩ := h.bind_ok
            cases h.done_inv.1
            obtain ⟨w₀, hw₀, hobject⟩ := getCached_read hget
            obtain ⟨w₁, v₁, hread, hversion, hfingerprint⟩ := isValid_read hvalid
            obtain ⟨wk, hwk, hkey'⟩ := cacheKey_read hcurrent
            have hsound := cacheSound_instants hget
              (stored_of_quiet ((plain_getCached key).mono Plain.quiet) hget) hs w₀ hw₀ key _ hobject
            obtain ⟨accessKey, v₀, hkey₀, hmem, hcontent⟩ := hsound
            have hw₁ := hvalid.later (ordered host) w₁ (lastInfoRead_mem hread)
            -- the key of the cached object is the access key at the read of the manifest
            have hkey₁ : w₁.accessKey = u.accessKey := by
              apply (hs₁.trans hw₁.1).same_key
                (hw₁.2.trans (hcurrent.later (ordered host) wk hwk).1)
              exact keyOf_injective (hkey.symm.trans ((not_not.mp hkeys).trans hkey'))
            have hmem₁ : v₀ ∈ w₁.versions w₁.accessKey cached.root := by
              rw [hkey₁, keyOf_injective (hkey.symm.trans hkey₀)]
              exact ((hget.later (ordered host) w₀ hw₀).2.trans hw₁.1).mem_versions hmem
            obtain rfl := World.version_unique hmem₁ (World.mem_of_version hversion)
              (hcontent.fingerprint.symm.trans hfingerprint)
            refine ⟨not_not.mp hroot, w₁, v₀, ?_, hkey.trans (congrArg keyOf hkey₁.symm), ?_,
              hcontent⟩
            · simp only [lastInfoRead_append, hread, lastInfoRead_plain plain_cacheKey hcurrent,
                lastInfoRead_plain (plain_checkVideoStorageFormat _ _) hformat,
                lastInfoRead_others h.done_inv.2, Option.none_or, Option.some_or]
            · rw [← not_not.mp hroot]
              exact hversion
          · exact (((reload_outcome h hs₃ hkey).after hcurrent).after hvalid).after hget

theorem examine_outcome {refresh : Bool} {outcome : Attempt LerobotDatasetMetadata}
    (h : Run (service host) (examine host key refresh forVideo) s moves (.ok outcome) t) {u : World}
    (hu : Later u s) (hkey : key = keyOf u.accessKey) (hs : CacheSound host s) :
    ∃ root, (∃ w ∈ instants s moves, w.resolvedRoot = .ok root) ∧
      Outcome host key root s moves outcome := by
  obtain ⟨root, moves₁, s₁, rest, rfl, hresolve, h⟩ := h.bind_ok
  obtain ⟨w, hw, hroot⟩ := resolveRoot_read hresolve
  refine ⟨root, ⟨w, Run.mem_left hw, hroot⟩, ?_⟩
  have hs₁ := hu.trans (hresolve.start_later (ordered host))
  split at h
  · obtain ⟨_, moves₂, s₂, moves₃, rfl, hinvalidate, h⟩ := h.bind_ok
    have hs₂ := hs₁.trans (hinvalidate.start_later (ordered host))
    exact ((reload_outcome h hs₂ hkey).after hinvalidate).after hresolve
  · have hquiet : (step .resolveRoot).Uses Quiet := Program.uses_perform.mpr trivial
    have hsound := cacheSound_instants hresolve (stored_of_quiet hquiet hresolve) hs s₁
      hresolve.end_mem
    exact (revalidate_outcome h hs₁ hkey hsound).after hresolve

/-- A loaded object may be stored. -/
theorem Outcome.stored {u : World} {moves' : Moves}
    (h : Outcome host key root s moves (.publish metadata)) (hlater : ∀ w ∈ instants s moves, Later w u)
    (hu : finish s (moves ++ moves') = u) :
    Stored host s (moves ++ moves') (.cachePut key (.dataset metadata)) := by
  obtain ⟨rfl, ⟨w, version, hread, hkey, hversion, hcontent⟩, fingerprint, forVideo, hreturned⟩ := h
  refine ⟨⟨metadata.root, fingerprint, forVideo, hreturned.append⟩, w.accessKey, version, hkey, ?_,
    hcontent⟩
  rw [hu]
  exact (hlater w (lastInfoRead_mem hread)).mem_versions (World.mem_of_version hversion)

/-- What an attempt returns was read under its key. -/
theorem ReadUnder.snapshot {content : DatasetVersion → Prop} (h : ReadUnder key moves root content)
    (hresolved : ∃ w ∈ instants s moves, w.resolvedRoot = .ok root) :
    Snapshot s moves root content := by
  obtain ⟨w, version, hread, -, hversion, hcontent⟩ := h
  exact ⟨hresolved, w, version, hread, hversion, hcontent⟩

theorem attempt_snapshot {refresh : Bool} {result : Except Exception (Option LerobotDatasetMetadata)}
    (h : Run (service host) (attempt host refresh forVideo) s moves result t)
    (hs : CacheSound host s) :
    SnapshotCall host LerobotDatasetMetadata.root (fun metadata version => DatasetContent host version metadata) s moves
      fun metadata => result = .ok (some metadata) := by
  have hquiet := plain_cacheKey.mono Plain.quiet
  rcases h.bind_inv with ⟨e, rfl, hkeyRead⟩ | ⟨key, moves₁, s₁, rest, rfl, hkeyRead, h⟩
  · exact ⟨stored_of_quiet hquiet hkeyRead, fun a ha => by cases ha⟩
  have hstored₁ := stored_of_quiet hquiet hkeyRead
  have hs₁ := cacheSound_instants hkeyRead hstored₁ hs s₁ hkeyRead.end_mem
  obtain ⟨u, hu, hkey⟩ := cacheKey_read hkeyRead
  have hfinish := hkeyRead.finish_eq
  subst hfinish
  rcases h.bind_inv with ⟨e, rfl, hexamine⟩ | ⟨outcome, moves₂, s₂, moves₃, rfl, hexamine, h⟩
  · exact ⟨stored_append hstored₁ (stored_of_quiet (quiet_examine host key refresh forVideo) hexamine),
      fun a ha => by cases ha⟩
  have hstored₂ := stored_of_quiet (quiet_examine host key refresh forVideo) hexamine
  obtain ⟨root, ⟨w, hw, hroot⟩, houtcome⟩ := examine_outcome hexamine
    (hkeyRead.later (ordered host) u hu).2 hkey hs₁
  have hfinish := hexamine.finish_eq
  subst hfinish
  cases outcome with
  | retry =>
      obtain ⟨rfl, -⟩ := h.done_inv
      exact ⟨stored_append hstored₁ (stored_append hstored₂
        (stored_of_quiet (Program.uses_pure _) h)), fun a ha => by cases ha⟩
  | reuse cached =>
      obtain ⟨rfl, hothers⟩ := h.done_inv
      refine ⟨stored_append hstored₁ (stored_append hstored₂
        (stored_of_quiet (Program.uses_pure _) h)), ?_⟩
      intro metadata hmetadata
      cases hmetadata
      obtain ⟨rfl, hread⟩ := houtcome
      exact ((hread.snapshot ⟨w, hw, hroot⟩).append (lastInfoRead_others hothers)).prepend
  | publish loaded =>
      obtain ⟨hstored₃, hblind, hreturned⟩ := store_moves h
        (P := fun before => Stored host (finish s moves₁) (moves₂ ++ before)) fun before hbefore =>
          houtcome.stored (fun w hw => (hexamine.later (ordered host) w hw).2.trans hbefore)
            finish_append
      refine ⟨stored_append hstored₁ (hstored₂.append hstored₃), ?_⟩
      intro metadata hmetadata
      obtain rfl := hreturned metadata hmetadata
      obtain ⟨rfl, hread, -⟩ := houtcome
      exact ((hread.snapshot ⟨w, hw, hroot⟩).append hblind).prepend

/-- **`LerobotDatasetMetadata::Get`.** -/
theorem get_snapshot {refresh : Bool} {result : Except Exception LerobotDatasetMetadata}
    (h : Run (service host) (get host root refresh forVideo) s moves result t)
    (hs : CacheSound host s) :
    SnapshotCall host LerobotDatasetMetadata.root
      (fun metadata version => DatasetContent host version metadata) s moves
      fun metadata => result = .ok metadata := by
  refine attempts_snapshot ?_ h hs
  intro index s moves result t hbody hs
  exact attempt_snapshot hbody hs

end Get

end LerobotDatasetMetadata

end DuckdbLerobot.Storage
