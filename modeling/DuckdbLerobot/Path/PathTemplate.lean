import DuckdbLerobot.Path.RelativePath

/-!
# Path templates

The metadata of a dataset names its files by templates such as
`data/chunk-{chunk_index:03d}/file-{file_index:03d}.parquet`. `formatPathTemplate` expands one, and
`ResolveDataPath` and `ResolveVideoPath` check the expansion as a whole, so what the pieces of a
component are does not matter.
-/

set_option autoImplicit false

namespace DuckdbLerobot.Path

/-- The loop over the characters of a width. -/
def parseWidth (formatSpec fieldName : Text) : Text → Nat → Except BinderException Nat
  | [], width => .ok width
  | ch :: rest, width =>
      if ch < '0' ∨ '9' < ch then
        .error ⟨s!"Unsupported LeRobot path format specifier '{String.ofList formatSpec}' for " ++
          s!"{String.ofList fieldName}"⟩
      else if 1000 < width then
        .error ⟨s!"LeRobot path format width is too large for {String.ofList fieldName}"⟩
      else parseWidth formatSpec fieldName rest (width * 10 + (ch.toNat - '0'.toNat))

/-- `FormatDecimal`. -/
def formatDecimal (value : Int) (formatSpec fieldName : Text) : Except BinderException Text :=
  if value < 0 then .error ⟨s!"LeRobot {String.ofList fieldName} must be non-negative"⟩
  else
    let result := value.repr.toList
    if formatSpec = [] then .ok result
    else if formatSpec.getLast? ≠ some 'd' then
      .error ⟨s!"Unsupported LeRobot path format specifier '{String.ofList formatSpec}' for " ++
        s!"{String.ofList fieldName}"⟩
    else
      let widthSpec := formatSpec.dropLast
      if widthSpec = [] then .ok result
      else do
        let width ← parseWidth formatSpec fieldName widthSpec 0
        if 1000 < width then
          .error ⟨s!"LeRobot path format width is too large for {String.ofList fieldName}"⟩
        else if width ≤ result.length then .ok result
        else
          let fill := if widthSpec.head? = some '0' then '0' else ' '
          .ok (List.replicate (width - result.length) fill ++ result)

/-- What a placeholder stands for. -/
def expandPlaceholder (chunkIndex fileIndex : Int) (videoKey : Option Text) (pathName : String)
    (placeholder : Text) : Except BinderException Text :=
  let fieldName := placeholder.takeWhile (· != ':')
  let formatSpec := (placeholder.dropWhile (· != ':')).tail
  if fieldName = "chunk_index".toList then formatDecimal chunkIndex formatSpec fieldName
  else if fieldName = "file_index".toList then formatDecimal fileIndex formatSpec fieldName
  else if fieldName = "video_key".toList ∧ videoKey.isSome then
    if formatSpec ≠ [] then
      .error ⟨s!"Unsupported LeRobot path format specifier '{String.ofList formatSpec}' for " ++
        "video_key"⟩
    else .ok (videoKey.getD [])
  else
    .error ⟨"Unsupported placeholder \x7b" ++ String.ofList placeholder ++ "\x7d in LeRobot " ++
      pathName⟩

/-- The loop of `FormatPathTemplate`. `placeholder` is what was read of a placeholder whose closing
brace is still to come. -/
def formatCharacters (expand : Text → Except BinderException Text) (pathName pathTemplate : String) :
    Option Text → Text → Except BinderException Text
  | none, [] => .ok []
  | none, '{' :: '{' :: rest => do
      let result ← formatCharacters expand pathName pathTemplate none rest
      .ok ('{' :: result)
  | none, '{' :: rest => formatCharacters expand pathName pathTemplate (some []) rest
  | none, '}' :: '}' :: rest => do
      let result ← formatCharacters expand pathName pathTemplate none rest
      .ok ('}' :: result)
  | none, '}' :: _ => .error ⟨s!"Unmatched closing brace in LeRobot {pathName} '{pathTemplate}'"⟩
  | none, ch :: rest => do
      let result ← formatCharacters expand pathName pathTemplate none rest
      .ok (ch :: result)
  | some _, [] => .error ⟨s!"Unclosed placeholder in LeRobot {pathName} '{pathTemplate}'"⟩
  | some placeholder, '}' :: rest => do
      let value ← expand placeholder
      let result ← formatCharacters expand pathName pathTemplate none rest
      .ok (value ++ result)
  | some placeholder, ch :: rest =>
      formatCharacters expand pathName pathTemplate (some (placeholder ++ [ch])) rest

/-- `FormatPathTemplate`. -/
def formatPathTemplate (pathTemplate : Text) (chunkIndex fileIndex : Int) (videoKey : Option Text)
    (pathName : String) : Except BinderException Text :=
  formatCharacters (expandPlaceholder chunkIndex fileIndex videoKey pathName) pathName
    (String.ofList pathTemplate) none pathTemplate

example : formatPathTemplate "a\x7b\x7b-\x7bfile_index:3d\x7d\x7d\x7d".toList 0 12 none "data_path" =
    .ok "a\x7b- 12\x7d".toList := by decide

/-- `ResolveDatasetPath`. -/
def resolveDatasetPath (root pathTemplate : Text) (chunkIndex fileIndex : Int)
    (videoKey : Option Text) (pathName : String) : Except BinderException Text := do
  let relativePath ← formatPathTemplate pathTemplate chunkIndex fileIndex videoKey pathName
  resolveLerobotRelativePath root relativePath pathName

/-- `ResolveDataPath`. -/
def resolveDataPath (root pathTemplate : Text) (chunkIndex fileIndex : Int) :
    Except BinderException Text :=
  resolveDatasetPath root pathTemplate chunkIndex fileIndex none "data_path"

/-- `ResolveVideoPath`. -/
def resolveVideoPath (root pathTemplate videoKey : Text) (chunkIndex fileIndex : Int) :
    Except BinderException Text :=
  resolveDatasetPath root pathTemplate chunkIndex fileIndex (some videoKey) "video_path"

/-! ## The pieces of a template -/

section Pieces

variable {expand : Text → Except BinderException Text} {pathName pathTemplate : String}
variable {rest result : Text}

/-- Characters other than braces stand for themselves. -/
theorem formatCharacters_literal {literal : Text} (hliteral : ∀ ch ∈ literal, ch ≠ '{' ∧ ch ≠ '}')
    (hrest : formatCharacters expand pathName pathTemplate none rest = .ok result) :
    formatCharacters expand pathName pathTemplate none (literal ++ rest) = .ok (literal ++ result) := by
  induction literal with
  | nil => exact hrest
  | cons ch literal ih =>
      obtain ⟨hopen, hclose⟩ := hliteral ch List.mem_cons_self
      have htail := ih fun x hx => hliteral x (List.mem_cons_of_mem _ hx)
      rw [List.cons_append, formatCharacters]
      · rw [htail]
        rfl
      all_goals
        intros
        simp_all

theorem formatCharacters_inside {placeholder value : Text} (hclose : '}' ∉ placeholder)
    (before : Text) (hvalue : expand (before ++ placeholder) = .ok value)
    (hrest : formatCharacters expand pathName pathTemplate none rest = .ok result) :
    formatCharacters expand pathName pathTemplate (some before) (placeholder ++ '}' :: rest) =
      .ok (value ++ result) := by
  induction placeholder generalizing before with
  | nil =>
      rw [List.append_nil] at hvalue
      rw [List.nil_append, formatCharacters, hvalue, hrest]
      rfl
  | cons ch placeholder ih =>
      rw [List.mem_cons, not_or] at hclose
      rw [List.cons_append, formatCharacters]
      · apply ih hclose.2
        rw [List.append_assoc]
        exact hvalue
      · exact fun h => hclose.1 h.symm

/-- A placeholder stands for its value. -/
theorem formatCharacters_placeholder {placeholder value : Text} (hclose : '}' ∉ placeholder)
    (hopen : placeholder.head? ≠ some '{') (hvalue : expand placeholder = .ok value)
    (hrest : formatCharacters expand pathName pathTemplate none rest = .ok result) :
    formatCharacters expand pathName pathTemplate none
      ('{' :: (placeholder ++ '}' :: rest)) = .ok (value ++ result) := by
  rw [formatCharacters]
  · exact formatCharacters_inside hclose [] hvalue hrest
  · intro tail htail
    cases placeholder with
    | nil => cases htail
    | cons ch placeholder =>
        apply hopen
        rw [List.cons_append] at htail
        rw [(List.cons.inj htail).1]
        rfl

end Pieces

/-! ## Expansion and check -/

/-- A resolved path is an expanded template that passed the check. -/
theorem exists_expansion {root pathTemplate path : Text} {chunkIndex fileIndex : Int}
    {videoKey : Option Text} {pathName : String}
    (h : resolveDatasetPath root pathTemplate chunkIndex fileIndex videoKey pathName = .ok path) :
    ∃ relativePath, formatPathTemplate pathTemplate chunkIndex fileIndex videoKey pathName =
        .ok relativePath ∧ resolveLerobotRelativePath root relativePath pathName = .ok path := by
  unfold resolveDatasetPath at h
  cases hformat : formatPathTemplate pathTemplate chunkIndex fileIndex videoKey pathName with
  | error e =>
      rw [hformat] at h
      cases h
  | ok relativePath =>
      rw [hformat] at h
      exact ⟨relativePath, rfl, h⟩

theorem confined_of_resolveDatasetPath {root pathTemplate path : Text} {chunkIndex fileIndex : Int}
    {videoKey : Option Text} {pathName : String}
    (h : resolveDatasetPath root pathTemplate chunkIndex fileIndex videoKey pathName = .ok path) :
    ConfinedBelow root path := by
  obtain ⟨relativePath, -, hresolve⟩ := exists_expansion h
  exact confined_of_resolveLerobotRelativePath hresolve

/-- **No metadata path leaves the dataset root.** -/
theorem metadata_path_confined (root pathTemplate : Text) (chunkIndex fileIndex : Int) :
    (∀ path, resolveDataPath root pathTemplate chunkIndex fileIndex = .ok path →
      ConfinedBelow root path) ∧
    ∀ videoKey path, resolveVideoPath root pathTemplate videoKey chunkIndex fileIndex = .ok path →
      ConfinedBelow root path := by
  constructor
  · intro path h
    exact confined_of_resolveDatasetPath h
  · intro videoKey path h
    exact confined_of_resolveDatasetPath h

theorem templatePath_confined :
    ConfinedBelow "root".toList "root/data/file-003.parquet".toList :=
  (metadata_path_confined "root".toList "data/file-\x7bfile_index:03d\x7d.parquet".toList 0 3).1 _
    (by decide)

end DuckdbLerobot.Path
