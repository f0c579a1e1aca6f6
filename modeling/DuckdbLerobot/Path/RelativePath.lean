import Mathlib.Data.List.Basic
import Mathlib.Data.List.DropRight

/-!
# Paths below a dataset root

`ResolveLerobotRelativePath` joins a dataset root and a relative path after it has checked each
component of the path. A path that passes stays below the root under both separator conventions
(`ConfinedBelow`, `confined_of_resolveLerobotRelativePath`).

A path is a list of characters. DuckDB's strings are UTF-8, where each character that the source
tests for is one byte, or the bytes of one of three superscript digits.
-/

set_option autoImplicit false

namespace DuckdbLerobot.Path

/-- The characters of a string. -/
abbrev Text := List Char

/-- `BinderException`. -/
structure BinderException where
  message : String
  deriving DecidableEq

/-! ## Portable components -/

/-- Windows path and stream syntax, glob expansion and URI delimiters. -/
def forbiddenCharacters : Text := "/\\:*?\"<>|[]%#".toList

/-- The characters that `IsPortablePathComponent` rejects one by one. -/
def isControl (ch : Char) : Bool := ch.toNat < 32 || ch.toNat == 127

/-- The part before the first dot, in lower case and without spaces at its end. -/
def deviceBasename (component : Text) : Text :=
  ((component.takeWhile (· != '.')).map Char.toLower).rdropWhile (· == ' ')

/-- The digits of a numbered Windows device. -/
def isDeviceNumber (number : Text) : Bool :=
  (number.length == 1 && number.all fun ch => '1' ≤ ch && ch ≤ '9') ||
    number == ['¹'] || number == ['²'] || number == ['³']

/-- Basenames that Win32 resolves to a device, whatever their extension. -/
def isDevice (basename : Text) : Bool :=
  ["con", "prn", "aux", "nul", "conin$", "conout$"].any (fun name => basename == name.toList) ||
    (("com".toList.isPrefixOf basename || "lpt".toList.isPrefixOf basename) &&
      isDeviceNumber (basename.drop 3))

/-- `IsPortablePathComponent`. -/
def isPortablePathComponent (component : Text) : Bool :=
  if component.isEmpty || component == ['.'] || component == ['.', '.'] ||
      component.getLast? == some '.' || component.getLast? == some ' ' ||
      component.any (forbiddenCharacters.contains ·) then false
  else if component.any isControl then false
  else !isDevice (deviceBasename component)

example : isPortablePathComponent "NUL .parquet".toList = false := by decide

example : isPortablePathComponent "file-000.parquet".toList = true := by decide

/-- `ResolveLerobotRelativePath`. -/
def resolveLerobotRelativePath (root relativePath : Text) (pathName : String) :
    Except BinderException Text :=
  if (relativePath.splitOn '/').all isPortablePathComponent then .ok (root ++ '/' :: relativePath)
  else .error ⟨s!"LeRobot {pathName} must stay relative to the dataset root and use portable path " ++
    s!"components: '{String.ofList relativePath}'"⟩

/-- `ValidateLerobotFeatureName`. -/
def validateLerobotFeatureName (name : Text) : Except BinderException Unit :=
  if isPortablePathComponent name then .ok ()
  else .error ⟨"LeRobot feature name must be a portable path component: " ++
    s!"'{String.ofList name}'"⟩

/-! ## What a path means -/

/-- Both separator conventions. -/
def isSeparator (ch : Char) : Bool := ch == '/' || ch == '\\'

/-- The segments of a path, with slash and backslash as separators. -/
def segments (path : Text) : List Text := path.splitOnP isSeparator

/-- Append a segment to a resolved path: `.` and an empty segment stay, `..` goes up. -/
def resolveSegment (resolved : List Text) (segment : Text) : List Text :=
  if segment = [] ∨ segment = ['.'] then resolved
  else if segment = ['.', '.'] then
    if resolved = [] ∨ resolved.getLast? = some ['.', '.'] then resolved ++ [segment]
    else resolved.dropLast
  else resolved ++ [segment]

/-- The components of a path after its dot segments are resolved. -/
def resolveSegments (path : List Text) : List Text := path.foldl resolveSegment []

/-- The characters that mean more than themselves to some file system, glob or URI. -/
def isSpecial (ch : Char) : Prop :=
  -- drive or stream separators, glob characters, URI delimiters and percent escapes, controls
  ch = ':' ∨ ch = '*' ∨ ch = '?' ∨ ch = '[' ∨ ch = ']' ∨ ch = '#' ∨ ch = '%' ∨ ch.toNat < 32 ∨
    ch.toNat = 127

/-- A path is the root and a path strictly below it, in every reading of its characters. -/
def ConfinedBelow (root path : Text) : Prop :=
  ∃ p, path = root ++ '/' :: p ∧
    -- resolved, the path has the components that it is written with
    segments p = p.splitOn '/' ∧ resolveSegments (segments p) = segments p ∧
    segments p ≠ [] ∧ (∀ component ∈ segments p, component ≠ []) ∧
    resolveSegments (segments path) = resolveSegments (segments root) ++ segments p ∧
    (∀ ch ∈ p, ¬isSpecial ch) ∧
    ∀ component ∈ segments p, component.getLast? ≠ some '.' ∧ component.getLast? ≠ some ' '

/-! ## Portable components are plain -/

variable {component : Text}

theorem ne_nil_of_portable (h : isPortablePathComponent component = true) : component ≠ [] := by
  rintro rfl
  cases h

/-- What the first test of `IsPortablePathComponent` leaves. -/
theorem plain_of_portable (h : isPortablePathComponent component = true) :
    component ≠ ['.'] ∧ component ≠ ['.', '.'] ∧ component.getLast? ≠ some '.' ∧
      component.getLast? ≠ some ' ' ∧ (∀ ch ∈ component, ch ∉ forbiddenCharacters) ∧
      ∀ ch ∈ component, isControl ch = false := by
  unfold isPortablePathComponent at h
  split at h
  · cases h
  rename_i hfirst
  split at h
  · cases h
  rename_i hcontrol
  simp only [Bool.or_eq_true, beq_iff_eq, not_or, List.any_eq_true, not_exists, not_and] at hfirst
  obtain ⟨⟨⟨⟨⟨-, hdot⟩, hdots⟩, hlastDot⟩, hlastSpace⟩, hforbidden⟩ := hfirst
  refine ⟨hdot, hdots, hlastDot, hlastSpace, ?_, ?_⟩
  · intro ch hch hmem
    exact hforbidden ch hch (List.contains_iff_mem.mpr hmem)
  · intro ch hch
    by_contra hcontrol'
    exact hcontrol (List.any_eq_true.mpr ⟨ch, hch, by simpa using hcontrol'⟩)

theorem slash_notMem_of_portable (h : isPortablePathComponent component = true) :
    '/' ∉ component :=
  fun hmem => (plain_of_portable h).2.2.2.2.1 _ hmem (by decide)

theorem backslash_notMem_of_portable (h : isPortablePathComponent component = true) :
    '\\' ∉ component :=
  fun hmem => (plain_of_portable h).2.2.2.2.1 _ hmem (by decide)

theorem not_isSpecial_of_portable (h : isPortablePathComponent component = true) {ch : Char}
    (hch : ch ∈ component) : ¬isSpecial ch := by
  obtain ⟨-, -, -, -, hforbidden, hcontrol⟩ := plain_of_portable h
  have hplain := hforbidden ch hch
  have hprintable := hcontrol ch hch
  rintro (rfl | rfl | rfl | rfl | rfl | rfl | rfl | hlow | hdel)
  · exact hplain (by decide)
  · exact hplain (by decide)
  · exact hplain (by decide)
  · exact hplain (by decide)
  · exact hplain (by decide)
  · exact hplain (by decide)
  · exact hplain (by decide)
  · simp [isControl, hlow] at hprintable
  · simp [isControl, hdel] at hprintable

theorem resolveSegment_of_portable (h : isPortablePathComponent component = true)
    (resolved : List Text) : resolveSegment resolved component = resolved ++ [component] := by
  obtain ⟨hdot, hdots, -⟩ := plain_of_portable h
  simp [resolveSegment, ne_nil_of_portable h, hdot, hdots]

/-- Portable components are appended as they are. -/
theorem foldl_resolveSegment {components : List Text}
    (h : ∀ component ∈ components, isPortablePathComponent component = true)
    (resolved : List Text) : components.foldl resolveSegment resolved = resolved ++ components := by
  induction components generalizing resolved with
  | nil => simp
  | cons component components ih =>
      have hrest := ih (fun c hc => h c (List.mem_cons_of_mem _ hc)) (resolved ++ [component])
      rw [List.foldl_cons, resolveSegment_of_portable (h component List.mem_cons_self), hrest,
        List.append_assoc]
      rfl

/-! ## Splitting -/

/-- A character of a text is a separator or stands in a piece. -/
theorem mem_splitOnP {p : Char → Bool} {ch : Char} {text : Text} (h : ch ∈ text) :
    p ch = true ∨ ∃ piece ∈ text.splitOnP p, ch ∈ piece := by
  induction text with
  | nil => cases h
  | cons x text ih =>
      rw [List.splitOnP_cons_eq_if_modifyHead]
      obtain ⟨first, rest, hpieces⟩ := List.exists_cons_of_ne_nil (List.splitOnP_ne_nil p text)
      split
      · rename_i hx
        rcases List.mem_cons.mp h with rfl | hmem
        · exact Or.inl hx
        · rcases ih hmem with hsep | ⟨piece, hpiece, hin⟩
          · exact Or.inl hsep
          · exact Or.inr ⟨piece, List.mem_cons_of_mem _ hpiece, hin⟩
      · rw [hpieces] at ih ⊢
        rcases List.mem_cons.mp h with rfl | hmem
        · exact Or.inr ⟨_, List.mem_cons_self, List.mem_cons_self⟩
        · rcases ih hmem with hsep | ⟨piece, hpiece, hin⟩
          · exact Or.inl hsep
          · right
            rcases List.mem_cons.mp hpiece with rfl | hlater
            · exact ⟨_, List.mem_cons_self, List.mem_cons_of_mem _ hin⟩
            · exact ⟨piece, List.mem_cons_of_mem _ hlater, hin⟩

/-- Separators that agree on a text split it alike. -/
theorem splitOnP_congr {p q : Char → Bool} {text : Text} (h : ∀ ch ∈ text, p ch = q ch) :
    text.splitOnP p = text.splitOnP q := by
  induction text with
  | nil => rfl
  | cons x text ih =>
      have hrest := ih fun ch hch => h ch (List.mem_cons_of_mem _ hch)
      rw [List.splitOnP_cons_eq_if_modifyHead, List.splitOnP_cons_eq_if_modifyHead, hrest,
        h x List.mem_cons_self]

/-- A path of portable components has no backslash, so both conventions split it alike. -/
theorem segments_of_portable {p : Text}
    (h : ∀ component ∈ p.splitOn '/', isPortablePathComponent component = true) :
    segments p = p.splitOn '/' := by
  rw [List.splitOn_eq_splitOnP] at h ⊢
  apply splitOnP_congr
  intro ch hch
  rcases mem_splitOnP (p := (· == '/')) hch with hslash | ⟨piece, hpiece, hin⟩
  · simp [isSeparator, hslash]
  · have hne : ch ≠ '\\' := by
      rintro rfl
      exact backslash_notMem_of_portable (h piece hpiece) hin
    simp [isSeparator, hne]

/-! ## Confinement -/

/-- **A resolved path stays below its root.** -/
theorem confined_of_resolveLerobotRelativePath {root relativePath path : Text} {pathName : String}
    (h : resolveLerobotRelativePath root relativePath pathName = .ok path) :
    ConfinedBelow root path := by
  unfold resolveLerobotRelativePath at h
  split at h
  · rename_i hall
    cases h
    have hportable : ∀ component ∈ relativePath.splitOn '/',
        isPortablePathComponent component = true := List.all_eq_true.mp hall
    have hsegments := segments_of_portable hportable
    have hportable' : ∀ component ∈ segments relativePath,
        isPortablePathComponent component = true := by
      rw [hsegments]
      exact hportable
    refine ⟨relativePath, rfl, hsegments, ?_, List.splitOnP_ne_nil _ _, ?_, ?_, ?_, ?_⟩
    · exact foldl_resolveSegment hportable' []
    · intro component hcomponent
      exact ne_nil_of_portable (hportable' component hcomponent)
    · have hsplit : segments (root ++ '/' :: relativePath) =
          segments root ++ segments relativePath :=
        List.splitOnP_append_cons root relativePath (by decide)
      rw [hsplit]
      unfold resolveSegments
      rw [List.foldl_append, foldl_resolveSegment hportable']
    · intro ch hch
      rcases mem_splitOnP (p := (· == '/')) hch with hslash | ⟨piece, hpiece, hin⟩
      · rw [beq_iff_eq] at hslash
        subst hslash
        unfold isSpecial
        decide
      · apply not_isSpecial_of_portable (hportable piece _) hin
        rw [List.splitOn_eq_splitOnP]
        exact hpiece
    · intro component hcomponent
      obtain ⟨-, -, hdot, hspace, -⟩ := plain_of_portable (hportable' component hcomponent)
      exact ⟨hdot, hspace⟩
  · cases h

end DuckdbLerobot.Path
