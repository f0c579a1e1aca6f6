import DuckdbLerobot.Path.DatasetRoot

/-!
# Roots that are normalized twice

A table function normalizes its root when it is bound (`GetRoot`), and passes the result to `ResolveLerobotRoot`
and to `LerobotRootCacheKey`, which normalize it again. `NormalizeLerobotRoot` trims whitespace before it strips
slashes, so whitespace before the last slashes is left at the end of the result, and the second time it is trimmed.
`rootStable_iff` says that these are the only roots for which the second time matters.
-/

set_option autoImplicit false

namespace DuckdbLerobot.Path

open DuckdbLerobot.Library

/-- A root that is normalized once and one that is normalized twice are the same: they are resolved to the same
path and have the same cache key. -/
def RootStable (root : Text) : Prop :=
  ∀ normalized, normalizeLerobotRoot root = .ok normalized →
    normalizeLerobotRoot normalized = .ok normalized ∧
    (∀ (δ : Type) (fs : LocalFileSystem δ) (fileSearchPath resolved : Text),
      resolveLerobotRoot fs fileSearchPath normalized = .ok resolved ↔
        resolveLerobotRoot fs fileSearchPath root = .ok resolved) ∧
    ∀ (ν : Type) (text : ValueText ν) (registeredType : String → Text) (digest : Digest)
      (session : Session text registeredType),
      lerobotRootCacheKey digest session normalized = lerobotRootCacheKey digest session root

/-- A root in which whitespace stands before the slashes at the end, after other characters. -/
def ExposesSpace (root : Text) : Prop :=
  ∃ before space n after, root = before ++ space :: (List.replicate (n + 1) '/' ++ after) ∧
    isRootSpace space = true ∧ (∀ ch ∈ after, isRootSpace ch = true) ∧ ∃ ch ∈ before, isRootSpace ch = false

/-! ## The parts of a root -/

/-- Whitespace, the root without it, and whitespace. -/
def trimRoot (root : Text) : Text := (root.dropWhile isRootSpace).rdropWhile isRootSpace

theorem root_parts (root : Text) : root = root.takeWhile isRootSpace ++
    (trimRoot root ++ (root.dropWhile isRootSpace).rtakeWhile isRootSpace) := by
  rw [trimRoot, List.rdropWhile_append_rtakeWhile, List.takeWhile_append_dropWhile]

theorem normalizeLerobotRoot_eq_ok {root normalized : Text} : normalizeLerobotRoot root = .ok normalized ↔
    trimRoot root ≠ [] ∧ normalized = if (trimRoot root).rdropWhile (· == '/') = [] then ['/']
      else (trimRoot root).rdropWhile (· == '/') := by
  simp only [normalizeLerobotRoot, except_check_eq_ok, Except.ok.injEq]
  exact and_congr_right fun _ => eq_comm

/-- What is trimmed begins and ends with something else than whitespace. -/
theorem trimRoot_trimmed (root : Text) : TrimmedRoot (trimRoot root) := by
  constructor
  · intro ch hhead
    obtain ⟨rest, hrest⟩ := List.rdropWhile_prefix isRootSpace (root.dropWhile isRootSpace)
    have hdropped : (root.dropWhile isRootSpace).head? = some ch := by
      rw [← hrest, List.head?_append]
      exact Option.or_eq_some_iff.mpr (.inl hhead)
    have hnot := List.head?_dropWhile_not isRootSpace root
    rw [hdropped] at hnot
    exact hnot
  · intro ch hlast
    have hne : trimRoot root ≠ [] := by
      rintro hnil
      rw [hnil] at hlast
      cases hlast
    have hnot := List.rdropWhile_last_not isRootSpace (root.dropWhile isRootSpace) hne
    rw [List.getLast?_eq_some_getLast hne] at hlast
    rw [← Option.some.inj hlast]
    exact Bool.eq_false_iff.mpr hnot

/-- A trimmed root is what is trimmed of it. -/
theorem trimRoot_self {root : Text} (h : TrimmedRoot root) : trimRoot root = root := by
  have hleft : root.dropWhile isRootSpace = root := by
    cases root with
    | nil => rfl
    | cons ch rest => exact List.dropWhile_cons_of_neg (by simp [h.1 ch rfl])
  rw [trimRoot, hleft, List.rdropWhile_eq_self_iff]
  intro hne
  rw [h.2 _ (List.getLast?_eq_some_getLast hne)]
  exact Bool.false_ne_true

/-- Characters at the end that are all dropped. -/
theorem rdropWhile_append_of_all {p : Char → Bool} {dropped : Text} (h : ∀ ch ∈ dropped, p ch = true) (kept : Text) :
    (kept ++ dropped).rdropWhile p = kept.rdropWhile p := by
  unfold List.rdropWhile
  rw [List.reverse_append, List.dropWhile_append_of_pos]
  intro ch hch
  exact h ch (List.mem_reverse.mp hch)

/-- A normalized root begins with something else than whitespace, and is one slash or does not end with one. -/
theorem normalized_shape {root normalized : Text} (h : normalizeLerobotRoot root = .ok normalized) :
    ∃ first rest, normalized = first :: rest ∧ isRootSpace first = false ∧
      (normalized = ['/'] ∨ normalized.getLast? ≠ some '/') := by
  obtain ⟨hne, rfl⟩ := normalizeLerobotRoot_eq_ok.mp h
  by_cases hstripped : (trimRoot root).rdropWhile (· == '/') = []
  · rw [if_pos hstripped]
    exact ⟨'/', [], rfl, by decide, .inl rfl⟩
  · rw [if_neg hstripped]
    obtain ⟨first, rest, hsplit⟩ := List.exists_cons_of_ne_nil hstripped
    refine ⟨first, rest, hsplit, ?_, .inr ?_⟩
    · obtain ⟨slashes, hslashes⟩ := List.rdropWhile_prefix (· == '/') (trimRoot root)
      apply (trimRoot_trimmed root).1
      rw [← hslashes, hsplit]
      rfl
    · have hnot := List.rdropWhile_last_not (· == '/') (trimRoot root) hstripped
      rw [List.getLast?_eq_some_getLast hstripped]
      rintro hlast
      exact hnot (beq_iff_eq.mpr (Option.some.inj hlast))

/-- **The second time changes nothing** exactly when the first result does not end with whitespace. -/
theorem normalize_again_iff {root normalized : Text} (h : normalizeLerobotRoot root = .ok normalized) :
    normalizeLerobotRoot normalized = .ok normalized ↔
      ∀ ch, normalized.getLast? = some ch → isRootSpace ch = false := by
  obtain ⟨first, rest, hsplit, hfirst, hslash⟩ := normalized_shape h
  have hne : normalized ≠ [] := by
    rw [hsplit]
    exact List.cons_ne_nil _ _
  have hhead : ∀ ch, normalized.head? = some ch → isRootSpace ch = false := by
    rintro ch hch
    rw [hsplit] at hch
    cases hch
    exact hfirst
  constructor
  · intro hagain ch hlast
    obtain ⟨htrim, hresult⟩ := normalizeLerobotRoot_eq_ok.mp hagain
    -- the result is not longer than what was trimmed, so nothing was trimmed
    have hle : (if (trimRoot normalized).rdropWhile (· == '/') = [] then ['/']
        else (trimRoot normalized).rdropWhile (· == '/')).length ≤ (trimRoot normalized).length := by
      split
      · exact List.length_pos_iff.mpr htrim
      · exact (List.rdropWhile_prefix (· == '/') (trimRoot normalized)).length_le
    rw [← hresult] at hle
    have hparts := congrArg List.length (root_parts normalized)
    rw [List.length_append, List.length_append] at hparts
    have hbefore : normalized.takeWhile isRootSpace = [] := List.length_eq_zero_iff.mp (by omega)
    have hafter : (normalized.dropWhile isRootSpace).rtakeWhile isRootSpace = [] :=
      List.length_eq_zero_iff.mp (by omega)
    have hsame := root_parts normalized
    rw [hbefore, hafter, List.append_nil, List.nil_append] at hsame
    rw [hsame] at hlast
    exact (trimRoot_trimmed normalized).2 ch hlast
  · intro hlast
    obtain ⟨again, n, hagain, -, hslashes⟩ := normalizeLerobotRoot_trimmed ⟨hhead, hlast⟩ hne
    cases n with
    | zero =>
        rw [List.replicate_zero, List.append_nil] at hslashes
        rw [hagain, hslashes]
    | succ n =>
        rcases hslash with hroot | hroot
        · rw [hroot]
          decide
        · refine absurd ?_ hroot
          rw [hslashes, List.replicate_succ', ← List.append_assoc, List.getLast?_concat]

/-! ## The whitespace that is exposed -/

/-- Whitespace is left at the end exactly when it stands before slashes. -/
theorem exposesSpace_iff {root normalized : Text} (h : normalizeLerobotRoot root = .ok normalized) :
    ExposesSpace root ↔ ∃ ch, normalized.getLast? = some ch ∧ isRootSpace ch = true := by
  obtain ⟨-, hresult⟩ := normalizeLerobotRoot_eq_ok.mp h
  constructor
  · rintro ⟨before, space, n, after, rfl, hspace, hafter, hother⟩
    refine ⟨space, ?_, hspace⟩
    have hdrop : (before ++ space :: (List.replicate (n + 1) '/' ++ after)).dropWhile isRootSpace =
        (before.dropWhile isRootSpace ++ [space] ++ List.replicate n '/' ++ ['/']) ++ after := by
      have hnonempty : (before.dropWhile isRootSpace).isEmpty = false := by
        rw [List.isEmpty_eq_false_iff]
        intro hnil
        obtain ⟨ch, hch, hnot⟩ := hother
        rw [List.dropWhile_eq_nil_iff] at hnil
        rw [hnil ch hch] at hnot
        cases hnot
      rw [List.dropWhile_append, hnonempty, if_neg Bool.false_ne_true, List.replicate_succ']
      simp
    have hstripped : (before.dropWhile isRootSpace ++ [space]).rdropWhile (· == '/') =
        before.dropWhile isRootSpace ++ [space] := by
      apply List.rdropWhile_concat_neg
      rw [beq_iff_eq]
      exact ne_slash_of_isRootSpace hspace
    have htrim : (trimRoot (before ++ space :: (List.replicate (n + 1) '/' ++ after))).rdropWhile (· == '/') =
        before.dropWhile isRootSpace ++ [space] := by
      have hlast : ¬isRootSpace '/' = true := by decide
      rw [trimRoot, hdrop, rdropWhile_append_of_all hafter, List.rdropWhile_concat_neg _ _ _ hlast,
        List.rdropWhile_concat_pos _ _ _ rfl, rdropWhile_slashes, hstripped]
    rw [hresult, htrim, if_neg (by simp), List.getLast?_concat]
  · rintro ⟨space, hlast, hspace⟩
    have hstripped : (trimRoot root).rdropWhile (· == '/') ≠ [] := by
      intro hnil
      rw [hresult, if_pos hnil] at hlast
      cases hlast
      exact absurd hspace (by decide)
    rw [if_neg hstripped] at hresult
    obtain ⟨front, hfront⟩ : ∃ front, normalized = front ++ [space] := by
      have hne : normalized ≠ [] := by
        rintro rfl
        cases hlast
      refine ⟨normalized.dropLast, ?_⟩
      rw [List.getLast?_eq_some_getLast hne] at hlast
      rw [← Option.some.inj hlast]
      exact (List.dropLast_append_getLast hne).symm
    obtain ⟨n, hslashes⟩ := exists_slashes (trimRoot root)
    rw [← hresult, hfront] at hslashes
    cases n with
    | zero =>
        -- what is trimmed does not end with whitespace
        rw [List.replicate_zero, List.append_nil] at hslashes
        have hnot := (trimRoot_trimmed root).2 space (by rw [hslashes, List.getLast?_concat])
        rw [hnot] at hspace
        cases hspace
    | succ n =>
        obtain ⟨first, rest, hsplit, hfirst, -⟩ := normalized_shape h
        have hmem : first ∈ front := by
          rw [hfront] at hsplit
          cases front with
          | nil =>
              cases hsplit
              rw [hfirst] at hspace
              cases hspace
          | cons head front =>
              cases hsplit
              exact List.mem_cons_self
        refine ⟨root.takeWhile isRootSpace ++ front, space, n,
          (root.dropWhile isRootSpace).rtakeWhile isRootSpace, ?_, hspace, ?_, first,
          List.mem_append_right _ hmem, hfirst⟩
        · have hparts := root_parts root
          rw [hslashes] at hparts
          conv_lhs => rw [hparts]
          simp
        · intro ch hch
          exact List.mem_rtakeWhile_imp hch

/-! ## Which roots are stable -/

section Roots

variable {δ : Type} {fs : LocalFileSystem δ}

/-- The name of the root matters only to the message. -/
theorem resolveMatches_ok_iff {root root' resolved : Text} {found : List Text} (start : Text) :
    resolveMatches fs root start found = .ok resolved ↔ resolveMatches fs root' start found = .ok resolved := by
  induction found generalizing start with
  | nil => exact Iff.rfl
  | cons path found ih =>
      simp only [resolveMatches, except_check_eq_ok]
      exact and_congr_right fun _ => ih _

/-- Roots with the same normalized root are resolved to the same path. -/
theorem resolveLerobotRoot_ok_iff {root root' normalized fileSearchPath resolved : Text}
    (h : normalizeLerobotRoot root = .ok normalized) (h' : normalizeLerobotRoot root' = .ok normalized) :
    resolveLerobotRoot fs fileSearchPath root = .ok resolved ↔
      resolveLerobotRoot fs fileSearchPath root' = .ok resolved := by
  simp only [resolveLerobotRoot, h, h', except_bind_eq_ok, Except.ok.injEq, exists_eq_left']
  split
  · exact Iff.rfl
  · split
    · exact Iff.rfl
    · split
      · exact Iff.rfl
      · exact resolveMatches_ok_iff []

end Roots

/-- **Normalizing twice is normalizing once** exactly for the roots that do not expose whitespace. -/
theorem rootStable_iff (root : Text) : RootStable root ↔ ¬ExposesSpace root := by
  constructor
  · intro hstable hexposes
    obtain ⟨normalized, hnormalized⟩ : ∃ normalized, normalizeLerobotRoot root = .ok normalized := by
      refine ⟨_, normalizeLerobotRoot_eq_ok.mpr ⟨?_, rfl⟩⟩
      obtain ⟨before, space, n, after, rfl, -, -, ch, hch, hother⟩ := hexposes
      intro hnil
      -- a root of which nothing is left is whitespace
      have hall : ∀ ch ∈ before ++ space :: (List.replicate (n + 1) '/' ++ after), isRootSpace ch = true := by
        intro other hmem
        rw [trimRoot, List.rdropWhile_eq_nil_iff] at hnil
        rw [← List.takeWhile_append_dropWhile (p := isRootSpace)
          (l := before ++ space :: (List.replicate (n + 1) '/' ++ after))] at hmem
        rcases List.mem_append.mp hmem with hleft | hright
        · exact List.mem_takeWhile_imp hleft
        · exact hnil other hright
      rw [hall ch (List.mem_append_left _ hch)] at hother
      cases hother
    obtain ⟨ch, hlast, hspace⟩ := (exposesSpace_iff hnormalized).mp hexposes
    have hnot := (normalize_again_iff hnormalized).mp (hstable normalized hnormalized).1 ch hlast
    rw [hnot] at hspace
    cases hspace
  · intro hexposes normalized hnormalized
    have hagain : normalizeLerobotRoot normalized = .ok normalized := by
      apply (normalize_again_iff hnormalized).mpr
      intro ch hlast
      apply Bool.eq_false_iff.mpr
      intro hspace
      exact hexposes ((exposesSpace_iff hnormalized).mpr ⟨ch, hlast, hspace⟩)
    refine ⟨hagain, fun δ fs fileSearchPath resolved => resolveLerobotRoot_ok_iff hagain hnormalized, ?_⟩
    intro ν text registeredType digest session
    unfold lerobotRootCacheKey
    rw [hagain, hnormalized]

/-- A slash hides a space: the root of a table function is not the one that it reads. -/
theorem hiddenSpace_unstable :
    normalizeLerobotRoot "/data /".toList = .ok "/data ".toList ∧
      normalizeLerobotRoot "/data ".toList = .ok "/data".toList ∧
      resolveLerobotRoot posix [] "/data /".toList = .ok "/data ".toList ∧
      resolveLerobotRoot posix [] "/data ".toList = .ok "/data".toList ∧ ¬RootStable "/data /".toList := by
  refine ⟨rfl, rfl, rfl, rfl, ?_⟩
  intro hstable
  have hagain := (hstable "/data ".toList rfl).1
  have hshort : normalizeLerobotRoot "/data ".toList = .ok "/data".toList := rfl
  rw [hshort] at hagain
  have hlength := congrArg List.length (Except.ok.inj hagain)
  exact absurd hlength (by decide)

end DuckdbLerobot.Path
