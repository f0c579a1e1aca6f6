import DuckdbLerobot.Library.Netstring

/-!
# Paths of a dataset under construction

Every file that the writer makes is at one of a few kinds of path below its staging directory.
The file system of this model is keyed by the kind and its numbers. `render` gives the relative
path of the source, and no two files have one path (`render_injective`).
-/

set_option autoImplicit false

namespace DuckdbLerobot.Copy

open DuckdbLerobot.Library

/-- `PadIndex`: an index with at least three digits. -/
def padIndex (value : Nat) : String :=
  String.ofList (List.replicate (3 - value.repr.length) '0') ++ value.repr

/-- The directories that the writer creates below its staging directory. -/
inductive StagedDirectory
  | dataChunk (chunkIndex : Nat)
  | episodesChunk (chunkIndex : Nat)
  | videoChunk (videoKey : String) (chunkIndex : Nat)
  | metaRoot
  | temporaryRaw (featureIndex : Nat)
  | temporaryVideos (featureIndex : Nat)
  deriving DecidableEq

/-- The files that the writer creates. -/
inductive StagedPath
  | data (chunkIndex fileIndex : Nat)
  | episodes (chunkIndex fileIndex : Nat)
  | video (videoKey : String) (chunkIndex fileIndex : Nat)
  | tasks
  | stats
  | info
  /-- The spool of one visual feature and episode. -/
  | rawFrames (featureIndex : Nat) (episode : Int)
  /-- The encoded video of one episode. -/
  | fragment (featureIndex : Nat) (episode : Int)
  /-- Where fragments are concatenated. -/
  | shard (featureIndex chunkIndex fileIndex : Nat)
  deriving DecidableEq

namespace StagedDirectory

/-- The directories below `.tmp`. -/
def isTemporary : StagedDirectory → Bool
  | temporaryRaw _ => true
  | temporaryVideos _ => true
  | _ => false

/-- The path of a directory, relative to the staging directory. -/
def render : StagedDirectory → String
  | dataChunk chunkIndex => "data/chunk-" ++ padIndex chunkIndex
  | episodesChunk chunkIndex => "meta/episodes/chunk-" ++ padIndex chunkIndex
  | videoChunk videoKey chunkIndex => "videos/" ++ videoKey ++ "/chunk-" ++ padIndex chunkIndex
  | metaRoot => "meta"
  | temporaryRaw featureIndex => ".tmp/raw/" ++ featureIndex.repr
  | temporaryVideos featureIndex => ".tmp/videos/" ++ featureIndex.repr

end StagedDirectory

namespace StagedPath

/-- `StringUtil::GetFilePath`. -/
def directory : StagedPath → StagedDirectory
  | data chunkIndex _ => .dataChunk chunkIndex
  | episodes chunkIndex _ => .episodesChunk chunkIndex
  | video videoKey chunkIndex _ => .videoChunk videoKey chunkIndex
  | tasks => .metaRoot
  | stats => .metaRoot
  | info => .metaRoot
  | rawFrames featureIndex _ => .temporaryRaw featureIndex
  | fragment featureIndex _ => .temporaryVideos featureIndex
  | shard featureIndex _ _ => .temporaryVideos featureIndex

/-- The last component of a path. -/
def fileName : StagedPath → String
  | data _ fileIndex => "file-" ++ padIndex fileIndex ++ ".parquet"
  | episodes _ fileIndex => "file-" ++ padIndex fileIndex ++ ".parquet"
  | video _ _ fileIndex => "file-" ++ padIndex fileIndex ++ ".mp4"
  | tasks => "tasks.parquet"
  | stats => "stats.json"
  | info => "info.json"
  | rawFrames _ episode => "episode-" ++ episode.repr ++ ".raw"
  | fragment _ episode => "episode-" ++ episode.repr ++ ".mp4"
  | shard _ chunkIndex fileIndex => "shard-" ++ chunkIndex.repr ++ "-" ++ fileIndex.repr ++ ".mp4"

/-- The path of a file, relative to the staging directory. -/
def render (path : StagedPath) : String := path.directory.render ++ "/" ++ path.fileName

/-- Whether a file is below `.tmp`. -/
def isTemporary (path : StagedPath) : Bool := path.directory.isTemporary

end StagedPath

/-- `DataRelativePath`. -/
def dataRelativePath (chunkIndex fileIndex : Nat) : StagedPath := .data chunkIndex fileIndex

/-- `EpisodesRelativePath`. -/
def episodesRelativePath (chunkIndex fileIndex : Nat) : StagedPath := .episodes chunkIndex fileIndex

/-- `VideoRelativePath`. -/
def videoRelativePath (videoKey : String) (chunkIndex fileIndex : Nat) : StagedPath :=
  .video videoKey chunkIndex fileIndex

example : (dataRelativePath 0 12).render = "data/chunk-000/file-012.parquet" := by decide

example : (videoRelativePath "camera" 1000 2).render =
    "videos/camera/chunk-1000/file-002.mp4" := by decide

/-! ## Different files have different paths -/

theorem slash_notMem_repr (value : Nat) : '/' ∉ value.repr.toList := notMem_repr (by decide) value

theorem minus_notMem_repr (value : Nat) : '-' ∉ value.repr.toList := notMem_repr (by decide) value

theorem toList_padIndex (value : Nat) :
    (padIndex value).toList = List.replicate (3 - value.repr.length) '0' ++ value.repr.toList := by
  simp [padIndex]

theorem padIndex_injective : Function.Injective padIndex := by
  intro m n h
  have hlist := congrArg String.toList h
  rw [toList_padIndex, toList_padIndex, Nat.toList_repr, Nat.toList_repr] at hlist
  -- leading zeros do not change the number that the digits stand for
  have hvalue := congrArg (Nat.ofDigitChars 10 · 0) hlist
  simpa [Nat.ofDigitChars_append] using hvalue

theorem slash_notMem_padIndex (value : Nat) : '/' ∉ (padIndex value).toList := by
  rw [toList_padIndex]
  intro h
  rcases List.mem_append.mp h with hzero | hdigits
  · have hchar := List.eq_of_mem_replicate hzero
    revert hchar
    decide
  · exact slash_notMem_repr value hdigits

theorem slash_notMem_intRepr (value : Int) : '/' ∉ value.repr.toList := by
  cases value with
  | ofNat n => exact slash_notMem_repr n
  | negSucc n =>
      have hrest := slash_notMem_repr (n + 1)
      simpa [Int.repr] using hrest

theorem intRepr_injective : Function.Injective Int.repr := by
  intro a b h
  have hlist := congrArg String.toList h
  cases a with
  | ofNat m =>
      cases b with
      | ofNat n => exact congrArg Int.ofNat (repr_injective h)
      | negSucc n =>
          exfalso
          apply minus_notMem_repr m
          have hminus : m.repr.toList = '-' :: (n + 1).repr.toList := by
            simpa [Int.repr] using hlist
          rw [hminus]
          exact List.mem_cons_self
  | negSucc m =>
      cases b with
      | ofNat n =>
          exfalso
          apply minus_notMem_repr n
          have hminus : n.repr.toList = '-' :: (m + 1).repr.toList := by
            simpa [Int.repr] using hlist.symm
          rw [hminus]
          exact List.mem_cons_self
      | negSucc n =>
          have hrest : (m + 1).repr = (n + 1).repr := by
            simpa [Int.repr] using h
          have hnumber := repr_injective hrest
          congr 1
          omega

/-- Two texts of a part, a separator and a rest without the separator are split alike. -/
theorem split_at_last {separator : Char} {a b c d : List Char} (hb : separator ∉ b)
    (hd : separator ∉ d) (h : a ++ separator :: b = c ++ separator :: d) : a = c ∧ b = d := by
  rcases List.append_eq_append_iff.mp h with ⟨e, rfl, he⟩ | ⟨e, rfl, he⟩
  · cases e with
    | nil => simpa using he
    | cons x e =>
        -- the second separator would stand in the first rest
        rw [List.cons_append] at he
        have hmem : separator ∈ b := by
          rw [(List.cons.inj he).2]
          exact List.mem_append_right _ List.mem_cons_self
        exact absurd hmem hb
  · cases e with
    | nil => simpa [eq_comm] using he
    | cons x e =>
        rw [List.cons_append] at he
        have hmem : separator ∈ d := by
          rw [(List.cons.inj he).2]
          exact List.mem_append_right _ List.mem_cons_self
        exact absurd hmem hd

namespace StagedDirectory

/-- What the paths of one kind of directory begin with. -/
def kind : StagedDirectory → String
  | dataChunk _ => "data/chunk-"
  | episodesChunk _ => "meta/episodes/chunk-"
  | videoChunk _ _ => "videos/"
  | metaRoot => "meta"
  | temporaryRaw _ => ".tmp/raw/"
  | temporaryVideos _ => ".tmp/videos/"

/-- What follows the kind. -/
def rest : StagedDirectory → String
  | dataChunk chunkIndex => padIndex chunkIndex
  | episodesChunk chunkIndex => padIndex chunkIndex
  | videoChunk videoKey chunkIndex => videoKey ++ "/chunk-" ++ padIndex chunkIndex
  | metaRoot => ""
  | temporaryRaw featureIndex => featureIndex.repr
  | temporaryVideos featureIndex => featureIndex.repr

theorem render_eq (d : StagedDirectory) : d.render = d.kind ++ d.rest := by
  cases d with
  | dataChunk c => rfl
  | episodesChunk c => rfl
  | videoChunk key c =>
      have hassoc : ("videos/" ++ key) ++ "/chunk-" ++ padIndex c =
          "videos/" ++ (key ++ "/chunk-" ++ padIndex c) := by
        rw [String.append_assoc, String.append_assoc, String.append_assoc]
      exact hassoc
  | metaRoot => exact (String.append_empty).symm
  | temporaryRaw i => rfl
  | temporaryVideos i => rfl

theorem kind_eq {a b : StagedDirectory} (h : a.render = b.render) : a.kind = b.kind := by
  rw [render_eq, render_eq] at h
  have hlist := congrArg String.toList h
  generalize hx : a.rest = x at hlist
  generalize hy : b.rest = y at hlist
  cases a <;> cases b <;> first | rfl | (exfalso; simp [kind] at hlist; done) | skip
  case episodesChunk.metaRoot =>
      subst hy
      simp [kind, rest] at hlist
  case metaRoot.episodesChunk =>
      subst hx
      simp [kind, rest] at hlist

theorem rest_eq {a b : StagedDirectory} (h : a.render = b.render) : a.rest = b.rest := by
  have hparts := h
  rw [render_eq, render_eq, kind_eq h] at hparts
  exact (String.append_right_inj _).mp hparts

theorem slash_notMem_chunk (n : Nat) : '/' ∉ "chunk-".toList ++ (padIndex n).toList := by
  intro h
  rcases List.mem_append.mp h with hstarts | hpad
  · revert hstarts
    decide
  · exact slash_notMem_padIndex n hpad

/-- A camera and a chunk are read off their directory. -/
theorem videoChunk_injective {key key' : String} {c d : Nat}
    (h : (videoChunk key c).rest = (videoChunk key' d).rest) : key = key' ∧ c = d := by
  have hsplit : ∀ (k : String) n, (videoChunk k n).rest.toList =
      k.toList ++ '/' :: ("chunk-".toList ++ (padIndex n).toList) := by
    intro k n
    have hrest : (videoChunk k n).rest = k ++ "/chunk-" ++ padIndex n := rfl
    rw [hrest, String.toList_append, String.toList_append, List.append_assoc]
    rfl
  have hlist := congrArg String.toList h
  rw [hsplit, hsplit] at hlist
  obtain ⟨hkey, hchunk⟩ := split_at_last (slash_notMem_chunk c) (slash_notMem_chunk d) hlist
  exact ⟨String.toList_inj.mp hkey,
    padIndex_injective (String.toList_inj.mp (List.append_cancel_left hchunk))⟩

theorem render_injective {a b : StagedDirectory} (h : a.render = b.render) : a = b := by
  have hkind := kind_eq h
  have hrest := rest_eq h
  cases a <;> cases b <;> first | (simp [kind] at hkind; done) | skip
  case dataChunk.dataChunk => exact congrArg _ (padIndex_injective hrest)
  case episodesChunk.episodesChunk => exact congrArg _ (padIndex_injective hrest)
  case videoChunk.videoChunk =>
      obtain ⟨rfl, rfl⟩ := videoChunk_injective hrest
      rfl
  case metaRoot.metaRoot => rfl
  case temporaryRaw.temporaryRaw => exact congrArg _ (repr_injective hrest)
  case temporaryVideos.temporaryVideos => exact congrArg _ (repr_injective hrest)

end StagedDirectory

namespace StagedPath

theorem slash_notMem_fileName (p : StagedPath) : '/' ∉ p.fileName.toList := by
  have hpad := slash_notMem_padIndex
  have hint := slash_notMem_intRepr
  have hnat := slash_notMem_repr
  have happend : ∀ a b : String, '/' ∉ a.toList → '/' ∉ b.toList → '/' ∉ (a ++ b).toList := by
    intro a b ha hb
    rw [String.toList_append, List.mem_append]
    exact fun h => h.elim ha hb
  cases p with
  | data c f => exact happend _ _ (happend _ _ (by decide) (hpad f)) (by decide)
  | episodes c f => exact happend _ _ (happend _ _ (by decide) (hpad f)) (by decide)
  | video k c f => exact happend _ _ (happend _ _ (by decide) (hpad f)) (by decide)
  | tasks => decide
  | stats => decide
  | info => decide
  | rawFrames i e => exact happend _ _ (happend _ _ (by decide) (hint e)) (by decide)
  | fragment i e => exact happend _ _ (happend _ _ (by decide) (hint e)) (by decide)
  | shard i c f =>
      exact happend _ _ (happend _ _ (happend _ _ (happend _ _ (by decide) (hnat c)) (by decide))
        (hnat f)) (by decide)

/-- A text between two fixed texts. -/
theorem between_injective {a x y b : String} (h : a ++ x ++ b = a ++ y ++ b) : x = y :=
  (String.append_right_inj a).mp ((String.append_left_inj b).mp h)

/-- The numbers of a concatenated video are read off its name. -/
theorem shardName_injective {c f d g : Nat}
    (h : "shard-" ++ c.repr ++ "-" ++ f.repr ++ ".mp4" = "shard-" ++ d.repr ++ "-" ++ g.repr ++ ".mp4") :
    c = d ∧ f = g := by
  have hnames := (String.append_left_inj _).mp h
  have hlist := congrArg String.toList hnames
  have hsplit : ∀ m n : Nat, ("shard-" ++ m.repr ++ "-" ++ n.repr).toList =
      ("shard-" ++ m.repr).toList ++ '-' :: n.repr.toList := by
    intro m n
    rw [String.toList_append, String.toList_append, List.append_assoc]
    rfl
  rw [hsplit, hsplit] at hlist
  obtain ⟨hc, hf⟩ := split_at_last (minus_notMem_repr f) (minus_notMem_repr g) hlist
  exact ⟨repr_injective ((String.append_right_inj _).mp (String.toList_inj.mp hc)),
    repr_injective (String.toList_inj.mp hf)⟩

theorem fragmentName_ne_shardName (e : Int) (c f : Nat) :
    "episode-" ++ e.repr ++ ".mp4" ≠
      "shard-" ++ c.repr ++ "-" ++ f.repr ++ ".mp4" := by
  intro h
  have hlist := congrArg String.toList h
  generalize e.repr = x at hlist
  generalize c.repr = y at hlist
  generalize f.repr = z at hlist
  simp at hlist

/-- **Different files have different paths.** -/
theorem render_injective : Function.Injective render := by
  intro p q h
  have hlist := congrArg String.toList h
  have hsplit : ∀ r : StagedPath, r.render.toList =
      r.directory.render.toList ++ '/' :: r.fileName.toList := by
    intro r
    unfold render
    rw [String.toList_append, String.toList_append, List.append_assoc]
    rfl
  rw [hsplit, hsplit] at hlist
  obtain ⟨hdirectory, hname⟩ := split_at_last (slash_notMem_fileName p) (slash_notMem_fileName q) hlist
  have hdir := StagedDirectory.render_injective (String.toList_inj.mp hdirectory)
  have hfile := String.toList_inj.mp hname
  clear h hlist hsplit hdirectory hname
  cases p <;> cases q <;> first | (cases hdir; done) | skip
  case data.data =>
      cases hdir
      exact congrArg _ (padIndex_injective (between_injective hfile))
  case episodes.episodes =>
      cases hdir
      exact congrArg _ (padIndex_injective (between_injective hfile))
  case video.video =>
      cases hdir
      exact congrArg _ (padIndex_injective (between_injective hfile))
  case rawFrames.rawFrames =>
      cases hdir
      exact congrArg _ (intRepr_injective (between_injective hfile))
  case fragment.fragment =>
      cases hdir
      exact congrArg _ (intRepr_injective (between_injective hfile))
  case shard.shard =>
      cases hdir
      obtain ⟨rfl, rfl⟩ := shardName_injective hfile
      rfl
  case fragment.shard => exact absurd hfile (fragmentName_ne_shardName _ _ _)
  case shard.fragment => exact absurd hfile.symm (fragmentName_ne_shardName _ _ _)
  case tasks.tasks => rfl
  case stats.stats => rfl
  case info.info => rfl
  all_goals
    revert hfile
    decide

end StagedPath

end DuckdbLerobot.Copy
