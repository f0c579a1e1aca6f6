import DuckdbLerobot.Storage.SnapshotReads

/-!
# The last read of the manifest

Which parts of the calls store nothing (`Quiet`) and which do not even read the fingerprint of the
manifest (`Plain`). `lastInfoRead` is the state in which a run read this fingerprint for the last
time; a plain part does not change it.
-/

set_option autoImplicit false

namespace DuckdbLerobot.Storage

open DuckdbLerobot.Library DuckdbLerobot.Path

/-! ## Commands of the parts -/

/-- A command that does not store. -/
def Quiet : Command → Prop
  | .cachePut _ _ => False
  | _ => True

/-- A command that neither stores nor reads the fingerprint of the manifest. -/
def Plain : Command → Prop
  | .cachePut _ _ => False
  | .infoFingerprint _ => False
  | _ => True

/-- A command that does not read the fingerprint of the manifest. -/
def Blind : Command → Prop
  | .infoFingerprint _ => False
  | _ => True

theorem Plain.blind (command : Command) (h : Plain command) : Blind command := by
  cases command with
  | infoFingerprint root => exact h
  | _ => trivial

theorem Plain.quiet (command : Command) (h : Plain command) : Quiet command := by
  cases command with
  | cachePut key object => exact h
  | _ => trivial

section Uses

open Program

variable {P : Command → Prop}

theorem plain_readEpisodeFiles (root : Text) : (readEpisodeFiles root).Uses Plain := by
  apply Uses.bind (uses_perform.mpr trivial)
  intro files
  apply Uses.each
  intro path
  exact Uses.bind (uses_perform.mpr trivial) fun _ => trivial

theorem plain_queryEpisodeRows (root : Text) : (queryEpisodeRows root).Uses Plain := by
  apply Uses.bind (uses_perform.mpr trivial)
  intro files
  apply Uses.bind
  · apply Uses.each
    intro path
    exact uses_perform.mpr trivial
  · exact fun _ => uses_perform.mpr trivial

theorem plain_checkVideoStorageFormat (isLance forVideo : Bool) :
    (checkVideoStorageFormat isLance forVideo).Uses Plain :=
  Uses.ite (uses_perform.mpr trivial) trivial

namespace LerobotDatasetMetadata

theorem plain_cacheKey : cacheKey.Uses Plain :=
  Uses.bind (uses_perform.mpr trivial) fun _ => trivial

theorem plain_getCached (key : Text) : (getCached key).Uses Plain := by
  apply Uses.bind (uses_perform.mpr trivial)
  intro object
  rcases object with _ | ⟨_ | _⟩ <;> trivial

theorem plain_episodeFilesAreValid (metadata : LerobotDatasetMetadata) :
    metadata.episodeFilesAreValid.Uses Plain :=
  Uses.ite trivial (Uses.bind (plain_readEpisodeFiles _) fun _ => trivial)

theorem plain_loadFrom (host : Host) (root : Text) (fingerprint : FileFingerprint)
    (forVideo : Bool) : (loadFrom host root fingerprint forVideo).Uses Plain := by
  apply Uses.bind (uses_perform.mpr trivial)
  intro info
  apply Uses.bind (plain_checkVideoStorageFormat _ _)
  intro _
  apply Uses.ite (uses_done _)
  apply Uses.bind
  · exact Uses.ite (plain_readEpisodeFiles root) trivial
  · exact fun _ => Uses.bind (plain_queryEpisodeRows root) fun _ => uses_done _

theorem quiet_isValid (metadata : LerobotDatasetMetadata) : metadata.isValid.Uses Quiet := by
  apply Uses.bind (uses_perform.mpr trivial)
  intro fingerprint
  exact Uses.ite ((plain_episodeFilesAreValid metadata).mono Plain.quiet) trivial

theorem quiet_invalidate : invalidate.Uses Quiet := by
  apply Uses.bind (plain_cacheKey.mono Plain.quiet)
  intro key
  apply Uses.bind (uses_perform.mpr trivial)
  intro _
  exact Uses.bind (uses_perform.mpr trivial) fun _ => uses_perform.mpr trivial

theorem quiet_reload (host : Host) (key root : Text) (forVideo : Bool) :
    (reload host key root forVideo).Uses Quiet := by
  apply Uses.bind (uses_perform.mpr trivial)
  intro before
  apply Uses.bind ((plain_loadFrom host root before forVideo).mono Plain.quiet)
  intro loaded
  apply Uses.bind ((plain_episodeFilesAreValid loaded).mono Plain.quiet)
  intro filesValid
  apply Uses.bind (uses_perform.mpr trivial)
  intro after
  refine Uses.ite ?_ (uses_pure _)
  exact Uses.bind (plain_cacheKey.mono Plain.quiet) fun _ => Uses.ite trivial trivial

theorem quiet_revalidate (host : Host) (key root : Text) (forVideo : Bool) :
    (revalidate host key root forVideo).Uses Quiet := by
  apply Uses.bind ((plain_getCached key).mono Plain.quiet)
  intro cached
  cases cached with
  | none => exact quiet_reload host key root forVideo
  | some cached =>
      apply Uses.ite (quiet_reload host key root forVideo)
      apply Uses.bind (quiet_isValid cached)
      intro valid
      apply Uses.bind (plain_cacheKey.mono Plain.quiet)
      intro current
      apply Uses.ite (uses_pure _)
      refine Uses.ite ?_ (quiet_reload host key root forVideo)
      exact Uses.bind ((plain_checkVideoStorageFormat _ _).mono Plain.quiet) fun _ => trivial

theorem quiet_examine (host : Host) (key : Text) (refresh forVideo : Bool) :
    (examine host key refresh forVideo).Uses Quiet := by
  apply Uses.bind (uses_perform.mpr trivial)
  intro root
  refine Uses.ite ?_ (quiet_revalidate host key root forVideo)
  exact Uses.bind quiet_invalidate fun _ => quiet_reload host key root forVideo

end LerobotDatasetMetadata

namespace LerobotVideoMetadata

theorem plain_cacheKey : cacheKey.Uses Plain :=
  Uses.bind (uses_perform.mpr trivial) fun _ => trivial

theorem plain_loadFrom (host : Host) (dataset : LerobotDatasetMetadata) :
    (loadFrom host dataset).Uses Plain := by
  apply Uses.ite (uses_done _)
  apply Uses.bind
  · exact Uses.ite (uses_perform.mpr trivial) trivial
  · exact fun _ => Uses.bind (plain_queryEpisodeRows _) fun _ => uses_done _

theorem plain_lookUp (key : Text) (dataset : LerobotDatasetMetadata) (refresh : Bool) :
    (lookUp key dataset refresh).Uses Plain := by
  apply Uses.ite (uses_pure _)
  apply Uses.bind
  · apply Uses.bind (uses_perform.mpr trivial)
    intro object
    rcases object with _ | ⟨_ | _⟩ <;> trivial
  · intro cached
    cases cached <;> trivial

end LerobotVideoMetadata

end Uses

/-! ## The last read of the manifest -/

/-- The state in which a move read the fingerprint of the manifest. -/
def infoRead : Move Command Response Exception World → Option World
  | .own (.infoFingerprint _) (.ok _) after => some after
  | _ => none

/-- The state of the last such read. -/
def lastInfoRead (moves : List (Move Command Response Exception World)) : Option World :=
  (moves.filterMap infoRead).getLast?

section InfoRead

variable {host : Host} {s t w : World} {moves moves₁ moves₂ : List (Move Command Response Exception World)}

theorem lastInfoRead_append :
    lastInfoRead (moves₁ ++ moves₂) = (lastInfoRead moves₂).or (lastInfoRead moves₁) := by
  rw [lastInfoRead, List.filterMap_append, List.getLast?_append]
  rfl

theorem lastInfoRead_mem (h : lastInfoRead moves = some w) : w ∈ instants s moves := by
  obtain ⟨move, hmove, hread⟩ := List.mem_filterMap.mp (List.mem_of_mem_getLast? h)
  apply List.mem_cons_of_mem
  refine List.mem_map.mpr ⟨move, hmove, ?_⟩
  cases move with
  | other after => cases hread
  | own command response after =>
      cases command <;> cases response <;> cases hread
      rfl

theorem lastInfoRead_others (h : ∀ move ∈ moves, ∃ state, move = .other state) :
    lastInfoRead moves = none := by
  have hnil : moves.filterMap infoRead = [] := by
    apply List.filterMap_eq_nil_iff.mpr
    intro move hmove
    obtain ⟨state, rfl⟩ := h move hmove
    rfl
  rw [lastInfoRead, hnil]
  rfl

/-- Blind programs do not read it. -/
theorem lastInfoRead_blind {α : Type} {p : Io α} {result : Except Exception α} (hp : p.Uses Blind)
    (h : Run (service host) p s moves result t) : lastInfoRead moves = none := by
  have hnil : moves.filterMap infoRead = [] := by
    apply List.filterMap_eq_nil_iff.mpr
    intro move hmove
    cases move with
    | other after => rfl
    | own command response after =>
        have hblind := h.uses_of_mem hp hmove
        cases command <;> first | rfl | exact hblind.elim
  rw [lastInfoRead, hnil]
  rfl

theorem lastInfoRead_plain {α : Type} {p : Io α} {result : Except Exception α} (hp : p.Uses Plain)
    (h : Run (service host) p s moves result t) : lastInfoRead moves = none :=
  lastInfoRead_blind (hp.mono Plain.blind) h

/-- A read of the fingerprint is the last one of its run. -/
theorem infoFingerprint_read {root : Text} {fingerprint : FileFingerprint}
    (h : Run (service host) (step (.infoFingerprint root)) s moves (.ok fingerprint) t) :
    ∃ w version, lastInfoRead moves = some w ∧ w.version root = some version ∧
      version.infoFingerprint = fingerprint := by
  obtain ⟨before, after, rest, rfl, hanswer, hothers⟩ := h.perform_ok
  obtain ⟨hread, rfl⟩ := Prod.mk.inj hanswer
  obtain ⟨version, hversion, hfingerprint⟩ := World.readingVersion_ok hread
  refine ⟨_, version, ?_, hversion, Except.ok.inj hfingerprint⟩
  rw [List.append_cons, lastInfoRead_append, lastInfoRead_append,
    lastInfoRead_others fun move hmove => hothers move (List.mem_append_right _ hmove)]
  rfl

end InfoRead

end DuckdbLerobot.Storage
