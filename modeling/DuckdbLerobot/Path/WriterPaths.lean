import DuckdbLerobot.Copy.StagedPath
import DuckdbLerobot.Path.PathTemplate
import Mathlib.Data.Bool.AllAny
import Mathlib.Tactic.IntervalCases

/-!
# The templates of published datasets

The writer publishes `LEROBOT_DATA_PATH` and `LEROBOT_VIDEO_PATH` and names its files with stream
formatting. The reader expands the templates. Both give the same paths
(`formatPathTemplate_data`, `formatPathTemplate_video`), and the paths pass the reader's check.
-/

set_option autoImplicit false

namespace DuckdbLerobot.Path

open DuckdbLerobot.Library DuckdbLerobot.Copy

/-- `LEROBOT_DATA_PATH`. -/
def lerobotDataPath : String :=
  "data/chunk-\x7bchunk_index:03d\x7d/file-\x7bfile_index:03d\x7d.parquet"

/-- `LEROBOT_VIDEO_PATH`. -/
def lerobotVideoPath : String :=
  "videos/\x7bvideo_key\x7d/chunk-\x7bchunk_index:03d\x7d/file-\x7bfile_index:03d\x7d.mp4"

/-! ## Decimals -/

theorem mem_digits_of_isDigit {ch : Char} (h : ch.isDigit = true) : ch ∈ "0123456789".toList := by
  have hrange : 48 ≤ ch.toNat ∧ ch.toNat ≤ 57 := by
    simpa [Char.isDigit, UInt32.le_iff_toNat_le] using h
  have hch : ch = Char.ofNat ch.toNat := (Char.ofNat_toNat ch).symm
  obtain ⟨hlow, hhigh⟩ := hrange
  rw [hch]
  generalize ch.toNat = n at hlow hhigh
  interval_cases n <;> decide

/-- The digits of a padded index. -/
theorem mem_padIndex {value : Nat} {ch : Char} (h : ch ∈ (padIndex value).toList) :
    ch ∈ "0123456789".toList := by
  rw [toList_padIndex] at h
  rcases List.mem_append.mp h with hzero | hdigit
  · rw [List.eq_of_mem_replicate hzero]
    decide
  · exact mem_digits_of_isDigit (isDigit_of_mem_repr hdigit)

theorem padIndex_ne_nil (value : Nat) : (padIndex value).toList ≠ [] := by
  rw [toList_padIndex]
  intro h
  have hempty : value.repr.toList = [] := (List.append_eq_nil_iff.mp h).2
  have hpos := Nat.length_repr_pos (n := value)
  rw [← String.length_toList, hempty] at hpos
  exact absurd hpos (Nat.lt_irrefl 0)

/-- The width of three and the fill of zeros give the writer's padding. -/
theorem formatDecimal_padIndex (value : Nat) (fieldName : Text) :
    formatDecimal value "03d".toList fieldName = .ok (padIndex value).toList := by
  have hnonneg : ¬((value : Int) < 0) := by omega
  have hrepr : (value : Int).repr.toList = value.repr.toList := rfl
  have hspec : formatDecimal value "03d".toList fieldName =
      if 3 ≤ value.repr.toList.length then .ok value.repr.toList
      else .ok (List.replicate (3 - value.repr.toList.length) '0' ++ value.repr.toList) := by
    unfold formatDecimal
    rw [if_neg hnonneg]
    rfl
  rw [hspec, toList_padIndex, String.length_toList]
  split
  · rename_i hwide
    rw [Nat.sub_eq_zero_of_le hwide, List.replicate_zero, List.nil_append]
  · rfl

/-! ## Expansion -/

/-- What both templates end with: the chunk, the file and an extension. -/
theorem formatCharacters_numbers {expand : Text → Except BinderException Text}
    {pathName pathTemplate : String} {chunkIndex fileIndex : Nat} {extension : Text}
    (hchunk : expand "chunk_index:03d".toList = .ok (padIndex chunkIndex).toList)
    (hfile : expand "file_index:03d".toList = .ok (padIndex fileIndex).toList)
    (hextension : ∀ ch ∈ extension, ch ≠ '{' ∧ ch ≠ '}') :
    formatCharacters expand pathName pathTemplate none
        ('{' :: ("chunk_index:03d".toList ++ '}' :: ("/file-".toList ++
          '{' :: ("file_index:03d".toList ++ '}' :: extension)))) =
      .ok ((padIndex chunkIndex).toList ++ ("/file-".toList ++
        ((padIndex fileIndex).toList ++ extension))) := by
  have hend : formatCharacters expand pathName pathTemplate none extension = .ok extension := by
    have hliteral : formatCharacters expand pathName pathTemplate none (extension ++ []) =
        .ok (extension ++ []) := formatCharacters_literal hextension rfl
    rwa [List.append_nil] at hliteral
  apply formatCharacters_placeholder (by decide) (by decide) hchunk
  apply formatCharacters_literal (List.all_iff_forall_prop.mp (by decide))
  exact formatCharacters_placeholder (by decide) (by decide) hfile hend

theorem lerobotDataPath_toList : lerobotDataPath.toList =
    "data/chunk-".toList ++ '{' :: ("chunk_index:03d".toList ++ '}' :: ("/file-".toList ++
      '{' :: ("file_index:03d".toList ++ '}' :: ".parquet".toList))) := by
  decide

theorem lerobotVideoPath_toList : lerobotVideoPath.toList =
    "videos/".toList ++ '{' :: ("video_key".toList ++ '}' :: ("/chunk-".toList ++
      '{' :: ("chunk_index:03d".toList ++ '}' :: ("/file-".toList ++
        '{' :: ("file_index:03d".toList ++ '}' :: ".mp4".toList))))) := by
  decide

theorem slash_file : "/file-".toList = "/".toList ++ "file-".toList := by decide

theorem dataRelativePath_toList (chunkIndex fileIndex : Nat) :
    (dataRelativePath chunkIndex fileIndex).render.toList =
      "data/chunk-".toList ++ ((padIndex chunkIndex).toList ++ ("/file-".toList ++
        ((padIndex fileIndex).toList ++ ".parquet".toList))) := by
  have hrender : (dataRelativePath chunkIndex fileIndex).render =
      "data/chunk-" ++ padIndex chunkIndex ++ "/" ++ ("file-" ++ padIndex fileIndex ++ ".parquet") :=
    rfl
  rw [hrender, slash_file]
  simp only [String.toList_append, List.append_assoc]

theorem videoRelativePath_toList (videoKey : String) (chunkIndex fileIndex : Nat) :
    (videoRelativePath videoKey chunkIndex fileIndex).render.toList =
      "videos/".toList ++ (videoKey.toList ++ ("/chunk-".toList ++ ((padIndex chunkIndex).toList ++
        ("/file-".toList ++ ((padIndex fileIndex).toList ++ ".mp4".toList))))) := by
  have hrender : (videoRelativePath videoKey chunkIndex fileIndex).render =
      "videos/" ++ videoKey ++ "/chunk-" ++ padIndex chunkIndex ++ "/" ++
        ("file-" ++ padIndex fileIndex ++ ".mp4") := rfl
  rw [hrender, slash_file]
  simp only [String.toList_append, List.append_assoc]

/-- **The data template expands to the writer's path.** -/
theorem formatPathTemplate_data (chunkIndex fileIndex : Nat) :
    formatPathTemplate lerobotDataPath.toList chunkIndex fileIndex none "data_path" =
      .ok (dataRelativePath chunkIndex fileIndex).render.toList := by
  have hchunk : expandPlaceholder chunkIndex fileIndex none "data_path" "chunk_index:03d".toList =
      .ok (padIndex chunkIndex).toList := formatDecimal_padIndex chunkIndex _
  have hfile : expandPlaceholder chunkIndex fileIndex none "data_path" "file_index:03d".toList =
      .ok (padIndex fileIndex).toList := formatDecimal_padIndex fileIndex _
  rw [dataRelativePath_toList, formatPathTemplate, lerobotDataPath_toList]
  apply formatCharacters_literal (List.all_iff_forall_prop.mp (by decide))
  exact formatCharacters_numbers hchunk hfile (List.all_iff_forall_prop.mp (by decide))

/-- **The video template expands to the writer's path.** -/
theorem formatPathTemplate_video (videoKey : String) (chunkIndex fileIndex : Nat) :
    formatPathTemplate lerobotVideoPath.toList chunkIndex fileIndex (some videoKey.toList)
        "video_path" =
      .ok (videoRelativePath videoKey chunkIndex fileIndex).render.toList := by
  have hkey : expandPlaceholder chunkIndex fileIndex (some videoKey.toList) "video_path"
      "video_key".toList = .ok videoKey.toList := rfl
  have hchunk : expandPlaceholder chunkIndex fileIndex (some videoKey.toList) "video_path"
      "chunk_index:03d".toList = .ok (padIndex chunkIndex).toList :=
    formatDecimal_padIndex chunkIndex _
  have hfile : expandPlaceholder chunkIndex fileIndex (some videoKey.toList) "video_path"
      "file_index:03d".toList = .ok (padIndex fileIndex).toList :=
    formatDecimal_padIndex fileIndex _
  rw [videoRelativePath_toList, formatPathTemplate, lerobotVideoPath_toList]
  apply formatCharacters_literal (List.all_iff_forall_prop.mp (by decide))
  apply formatCharacters_placeholder (by decide) (by decide) hkey
  apply formatCharacters_literal (List.all_iff_forall_prop.mp (by decide))
  exact formatCharacters_numbers hchunk hfile (List.all_iff_forall_prop.mp (by decide))

/-! ## The writer's components are portable -/

theorem portable_of_plain {component : Text} (hne : component ≠ [])
    (hlast : component.getLast? ≠ some '.' ∧ component.getLast? ≠ some ' ')
    (hplain : ∀ ch ∈ component, ch ∉ forbiddenCharacters ∧ isControl ch = false)
    (hdevice : isDevice (deviceBasename component) = false) :
    isPortablePathComponent component = true := by
  have hdot : component ≠ ['.'] := by
    rintro rfl
    exact hlast.1 rfl
  have hdots : component ≠ ['.', '.'] := by
    rintro rfl
    exact hlast.1 rfl
  have hforbidden : ∀ ch ∈ component, ch ∉ forbiddenCharacters := fun ch hch => (hplain ch hch).1
  have hcontrol : component.any isControl = false := by
    rw [List.any_eq_false]
    intro ch hch
    rw [(hplain ch hch).2]
    exact Bool.false_ne_true
  simp [isPortablePathComponent, hne, hdot, hdots, hlast.1, hlast.2, hcontrol, hdevice]
  exact hforbidden

/-- The basename of a component whose first part has no dot and no capital. -/
theorem deviceBasename_numbered {first digits extension : Text}
    (hfirst : ∀ ch ∈ first, ch ≠ '.' ∧ ch.toLower = ch)
    (hdigits : ∀ ch ∈ digits, ch ∈ "0123456789".toList) (hne : digits ≠ [])
    (hextension : extension = [] ∨ extension.head? = some '.') :
    deviceBasename (first ++ digits ++ extension) = first ++ digits := by
  have hdigit : ∀ ch ∈ "0123456789".toList, ch ≠ '.' ∧ ch.toLower = ch ∧ ch ≠ ' ' :=
    List.all_iff_forall_prop.mp (by decide)
  have hchars : ∀ ch ∈ first ++ digits, ch ≠ '.' ∧ ch.toLower = ch := by
    intro ch hch
    rcases List.mem_append.mp hch with hmem | hmem
    · exact hfirst ch hmem
    · exact ⟨(hdigit ch (hdigits ch hmem)).1, (hdigit ch (hdigits ch hmem)).2.1⟩
  have htake : (first ++ digits ++ extension).takeWhile (· != '.') = first ++ digits := by
    rw [List.takeWhile_append_of_pos]
    · have hend : extension.takeWhile (· != '.') = [] := by
        rcases hextension with rfl | hdot
        · rfl
        · cases extension with
          | nil => rfl
          | cons ch extension =>
              cases hdot
              rfl
      rw [hend, List.append_nil]
    · intro ch hch
      simpa using (hchars ch hch).1
  have hlower : (first ++ digits).map Char.toLower = first ++ digits := by
    have hmap : (first ++ digits).map Char.toLower = (first ++ digits).map id :=
      List.map_congr_left fun ch hch => (hchars ch hch).2
    rw [hmap, List.map_id]
  unfold deviceBasename
  rw [htake, hlower, List.rdropWhile_eq_self_iff]
  intro hall hspace
  have hlast : (first ++ digits).getLast hall ∈ digits := by
    rw [List.getLast_append_of_ne_nil _ hne]
    exact List.getLast_mem hne
  exact (hdigit _ (hdigits _ hlast)).2.2 (by simpa using hspace)

/-- A name, an index and an extension that the writer puts together. -/
theorem portable_numbered {first extension : Text} (value : Nat)
    (hfirst : first = "chunk-".toList ∨ first = "file-".toList)
    (hextension : extension = [] ∨ extension = ".parquet".toList ∨ extension = ".mp4".toList) :
    isPortablePathComponent (first ++ (padIndex value).toList ++ extension) = true := by
  have hdigits := @mem_padIndex value
  have hne := padIndex_ne_nil value
  generalize (padIndex value).toList = digits at hdigits hne
  have hdigit : ∀ ch ∈ "0123456789".toList,
      ch ∉ forbiddenCharacters ∧ isControl ch = false ∧ ch ≠ '.' ∧ ch ≠ ' ' :=
    List.all_iff_forall_prop.mp (by decide)
  have hfirst' : ∀ ch ∈ first, (ch ≠ '.' ∧ ch.toLower = ch) ∧
      ch ∉ forbiddenCharacters ∧ isControl ch = false := by
    rcases hfirst with rfl | rfl <;> exact List.all_iff_forall_prop.mp (by decide)
  have hextension' : ∀ ch ∈ extension, ch ∉ forbiddenCharacters ∧ isControl ch = false := by
    rcases hextension with rfl | rfl | rfl <;> exact List.all_iff_forall_prop.mp (by decide)
  apply portable_of_plain
  · simp [hne]
  · rcases hextension with rfl | rfl | rfl
    · obtain ⟨before, last, rfl⟩ := List.eq_nil_or_concat' digits |>.resolve_left hne
      have hlast := hdigit last (hdigits (by simp))
      simpa using hlast.2.2
    · have hlast : ".parquet".toList.getLast? = some 't' := by decide
      rw [List.getLast?_append, hlast]
      simp
    · have hlast : ".mp4".toList.getLast? = some '4' := by decide
      rw [List.getLast?_append, hlast]
      simp
  · intro ch hch
    rcases List.mem_append.mp hch with hmem | hmem
    · rcases List.mem_append.mp hmem with hmem | hmem
      · exact (hfirst' ch hmem).2
      · exact ⟨(hdigit ch (hdigits hmem)).1, (hdigit ch (hdigits hmem)).2.1⟩
    · exact hextension' ch hmem
  · rw [deviceBasename_numbered (fun ch hch => (hfirst' ch hch).1) (fun ch hch => hdigits hch) hne]
    · rcases hfirst with rfl | rfl <;> simp [isDevice]
    · rcases hextension with rfl | rfl | rfl
      · exact Or.inl rfl
      · exact Or.inr rfl
      · exact Or.inr rfl

/-! ## The check -/

theorem all_portable_cons {first rest : Text} (hfirst : isPortablePathComponent first = true)
    (hrest : (rest.splitOn '/').all isPortablePathComponent = true) :
    ((first ++ '/' :: rest).splitOn '/').all isPortablePathComponent = true := by
  rw [List.splitOn_append_cons_self_of_not_mem (slash_notMem_of_portable hfirst), List.all_cons,
    hfirst, hrest]
  rfl

theorem all_portable_last {last : Text} (hlast : isPortablePathComponent last = true) :
    (last.splitOn '/').all isPortablePathComponent = true := by
  rw [List.splitOn_eq_singleton (slash_notMem_of_portable hlast), List.all_cons, hlast]
  rfl

/-- The chunk directory and the file of the writer. -/
theorem all_portable_numbers (chunkIndex fileIndex : Nat) {extension : Text}
    (hextension : extension = ".parquet".toList ∨ extension = ".mp4".toList) :
    (("chunk-".toList ++ (padIndex chunkIndex).toList ++
        '/' :: ("file-".toList ++ (padIndex fileIndex).toList ++ extension)).splitOn '/').all
      isPortablePathComponent = true := by
  have hchunk : isPortablePathComponent ("chunk-".toList ++ (padIndex chunkIndex).toList ++ []) = true :=
    portable_numbered chunkIndex (Or.inl rfl) (Or.inl rfl)
  rw [List.append_nil] at hchunk
  exact all_portable_cons hchunk
    (all_portable_last (portable_numbered fileIndex (Or.inr rfl) (Or.inr hextension)))

theorem all_portable_data (chunkIndex fileIndex : Nat) :
    ((dataRelativePath chunkIndex fileIndex).render.toList.splitOn '/').all
      isPortablePathComponent = true := by
  have hshape : (dataRelativePath chunkIndex fileIndex).render.toList =
      "data".toList ++ '/' :: ("chunk-".toList ++ (padIndex chunkIndex).toList ++
        '/' :: ("file-".toList ++ (padIndex fileIndex).toList ++ ".parquet".toList)) := by
    have hstart : "data/chunk-".toList = "data".toList ++ '/' :: "chunk-".toList := by decide
    have hmiddle : "/file-".toList = '/' :: "file-".toList := by decide
    rw [dataRelativePath_toList, hstart, hmiddle]
    simp only [List.append_assoc, List.cons_append]
  rw [hshape]
  exact all_portable_cons (by decide) (all_portable_numbers chunkIndex fileIndex (Or.inl rfl))

theorem all_portable_video {videoKey : String} (hname : isPortablePathComponent videoKey.toList = true)
    (chunkIndex fileIndex : Nat) :
    ((videoRelativePath videoKey chunkIndex fileIndex).render.toList.splitOn '/').all
      isPortablePathComponent = true := by
  have hshape : (videoRelativePath videoKey chunkIndex fileIndex).render.toList =
      "videos".toList ++ '/' :: (videoKey.toList ++ '/' ::
        ("chunk-".toList ++ (padIndex chunkIndex).toList ++
          '/' :: ("file-".toList ++ (padIndex fileIndex).toList ++ ".mp4".toList))) := by
    have hstart : "videos/".toList = "videos".toList ++ ['/'] := by decide
    have hchunk : "/chunk-".toList = '/' :: "chunk-".toList := by decide
    have hmiddle : "/file-".toList = '/' :: "file-".toList := by decide
    rw [videoRelativePath_toList, hstart, hchunk, hmiddle]
    simp only [List.append_assoc, List.cons_append, List.nil_append]
  rw [hshape]
  apply all_portable_cons (by decide)
  exact all_portable_cons hname (all_portable_numbers chunkIndex fileIndex (Or.inr rfl))

theorem resolveDatasetPath_eq {root pathTemplate relativePath : Text} {chunkIndex fileIndex : Int}
    {videoKey : Option Text} {pathName : String}
    (hformat : formatPathTemplate pathTemplate chunkIndex fileIndex videoKey pathName =
      .ok relativePath)
    (hportable : (relativePath.splitOn '/').all isPortablePathComponent = true) :
    resolveDatasetPath root pathTemplate chunkIndex fileIndex videoKey pathName =
      .ok (root ++ '/' :: relativePath) := by
  unfold resolveDatasetPath
  rw [hformat]
  exact if_pos hportable

/-- The reader resolves the data files of the writer. -/
theorem resolveDataPath_writer (root : Text) (chunkIndex fileIndex : Nat) :
    resolveDataPath root lerobotDataPath.toList chunkIndex fileIndex =
      .ok (root ++ '/' :: (dataRelativePath chunkIndex fileIndex).render.toList) :=
  resolveDatasetPath_eq (formatPathTemplate_data chunkIndex fileIndex)
    (all_portable_data chunkIndex fileIndex)

/-- The reader resolves the video files of the writer. -/
theorem resolveVideoPath_writer (root : Text) {videoKey : String}
    (hname : isPortablePathComponent videoKey.toList = true) (chunkIndex fileIndex : Nat) :
    resolveVideoPath root lerobotVideoPath.toList videoKey.toList chunkIndex fileIndex =
      .ok (root ++ '/' :: (videoRelativePath videoKey chunkIndex fileIndex).render.toList) :=
  resolveDatasetPath_eq (formatPathTemplate_video videoKey chunkIndex fileIndex)
    (all_portable_video hname chunkIndex fileIndex)

theorem portable_of_validate {name : Text} (h : validateLerobotFeatureName name = .ok ()) :
    isPortablePathComponent name = true := by
  unfold validateLerobotFeatureName at h
  split at h
  · rename_i hportable
    exact hportable
  · cases h

/-- **Writer and reader agree on every file path.** -/
theorem writer_reader_paths_agree :
    (∀ chunkIndex fileIndex : Nat,
      formatPathTemplate lerobotDataPath.toList chunkIndex fileIndex none "data_path" =
          .ok (dataRelativePath chunkIndex fileIndex).render.toList ∧
        ∀ root, resolveDataPath root lerobotDataPath.toList chunkIndex fileIndex =
          .ok (root ++ '/' :: (dataRelativePath chunkIndex fileIndex).render.toList)) ∧
    (∀ (name : String) (chunkIndex fileIndex : Nat),
      validateLerobotFeatureName name.toList = .ok () →
        formatPathTemplate lerobotVideoPath.toList chunkIndex fileIndex (some name.toList)
            "video_path" =
          .ok (videoRelativePath name chunkIndex fileIndex).render.toList ∧
        ∀ root, resolveVideoPath root lerobotVideoPath.toList name.toList chunkIndex fileIndex =
          .ok (root ++ '/' :: (videoRelativePath name chunkIndex fileIndex).render.toList)) ∧
    (∀ c f c' f' : Nat, (dataRelativePath c f).render = (dataRelativePath c' f').render →
      c = c' ∧ f = f') ∧
    ∀ (name name' : String) (c f c' f' : Nat),
      (videoRelativePath name c f).render = (videoRelativePath name' c' f').render →
        name = name' ∧ c = c' ∧ f = f' := by
  refine ⟨?_, ?_, ?_, ?_⟩
  · intro chunkIndex fileIndex
    exact ⟨formatPathTemplate_data chunkIndex fileIndex,
      fun root => resolveDataPath_writer root chunkIndex fileIndex⟩
  · intro name chunkIndex fileIndex hname
    exact ⟨formatPathTemplate_video name chunkIndex fileIndex,
      fun root => resolveVideoPath_writer root (portable_of_validate hname) chunkIndex fileIndex⟩
  · intro c f c' f' h
    cases StagedPath.render_injective h
    exact ⟨rfl, rfl⟩
  · intro name name' c f c' f' h
    cases StagedPath.render_injective h
    exact ⟨rfl, rfl, rfl⟩

theorem braceName_resolved :
    resolveVideoPath "root".toList lerobotVideoPath.toList "cam\x7b0\x7d".toList 0 1 =
      .ok "root/videos/cam\x7b0\x7d/chunk-000/file-001.mp4".toList :=
  ((writer_reader_paths_agree.2.1 "cam\x7b0\x7d" 0 1 (by decide)).2 "root".toList).trans (by decide)

end DuckdbLerobot.Path
