import DuckdbLerobot.Library.Netstring
import DuckdbLerobot.Path.RelativePath
import Mathlib.Data.Char
import Mathlib.Data.List.Infix
import Mathlib.Data.List.Lex
import Mathlib.Data.List.Perm.Basic
import Mathlib.Data.List.Sort

/-!
# The cache key of a dataset root

Metadata is cached under a key of the root and of what decides who may read it: the S3 settings of
the session, and every secret whose scope overlaps the root.

Two sessions with one key for an S3 root read every path below it with the same secrets and settings
(`matchingSecrets_perm_of_key`, `setting_eq_of_key`). The secrets and their order come from the secret
manager of DuckDB, which lists them in any order (`lerobotRootCacheKey_perm`).
-/

set_option autoImplicit false

namespace DuckdbLerobot.Path

open DuckdbLerobot.Library

variable {ν : Type}

/-! ## What the key is made of -/

/-- `FileSystem`, as far as a root depends on it: `ExpandPath` replaces a leading tilde. -/
structure FileSystem where
  expandPath : Text → Text
  isPathAbsolute : Text → Bool
  joinPath : Text → Text → Text
  workingDirectory : Text
  expandPath_eq : ∀ path, path.head? ≠ some '~' → expandPath path = path

/-- How values are written: the name of their type and `ToSQLString`, which tells the values of one
type apart. -/
structure ValueText (ν : Type) where
  type : ν → Text
  toSQLString : ν → Text
  injective : ∀ value value', type value = type value' → toSQLString value = toSQLString value' →
    value = value'

/-- A secret of the secret manager. Its values are enumerated in the order of their names. -/
structure SecretEntry (ν : Type) where
  storageMode : Text
  type : Text
  name : Text
  provider : Text
  scope : List Text
  values : List (Text × ν)

/-- A setting that has a value, and where it was set. -/
structure Setting (ν : Type) where
  scope : Nat
  value : ν

/-- The state of a session that a cache key reads. The value of a setting has the type that the
setting was registered with. -/
structure Session (text : ValueText ν) (registeredType : String → Text) where
  fileSystem : FileSystem
  fileSearchPath : Text
  setting : String → Option (Setting ν)
  secrets : List (SecretEntry ν)
  lanceLoaded : Bool
  registered : ∀ name value, setting name = some value → text.type value.value = registeredType name

/-- Hexadecimal digits. -/
def hexDigits : Text := "0123456789abcdef".toList

/-- `CacheDigest`: SHA-256, written in hexadecimal. No two inputs are known to have one digest. -/
structure Digest where
  run : Text → Text
  injective : Function.Injective run
  hexadecimal : ∀ input, ∀ ch ∈ run input, ch ∈ hexDigits

/-! ## Secrets -/

/-- What identifies a secret, component by component. -/
def secretComponents (text : ValueText ν) (secret : SecretEntry ν) : List Text :=
  [secret.storageMode, secret.type, secret.name, secret.provider,
      secret.scope.length.repr.toList] ++ secret.scope ++
    secret.values.flatMap fun value => [value.1, text.type value.2, text.toSQLString value.2]

/-- The encoding of a secret in `StorageSecretsCacheKey`. -/
def encodeSecret (text : ValueText ν) (secret : SecretEntry ν) : Text :=
  netstrings (secretComponents text secret)

/-- The types of the secrets that HTTPFS consults for an S3 path, or Lance for its tables. -/
def isConsulted (lanceOnly : Bool) (type : Text) : Bool :=
  if lanceOnly then type == "lance".toList
  else type == "s3".toList || type == "r2".toList || type == "gcs".toList || type == "aws".toList

/-- Whether a scope of a secret contains the root or a path below it. -/
def overlaps (root : Text) (secret : SecretEntry ν) : Bool :=
  secret.scope.any fun scope => scope.isPrefixOf root || (root ++ ['/']).isPrefixOf scope

/-- The secrets that go into the key of a root. -/
def keySecrets (secrets : List (SecretEntry ν)) (root : Text) (lanceOnly : Bool) :
    List (SecretEntry ν) :=
  secrets.filter fun secret => isConsulted lanceOnly secret.type && overlaps root secret

/-- `StorageSecretsCacheKey`. -/
def storageSecretsCacheKey (text : ValueText ν) (digest : Digest) (secrets : List (SecretEntry ν))
    (root : Text) (lanceOnly : Bool) : Text :=
  netstrings (((keySecrets secrets root lanceOnly).map fun secret =>
    digest.run (encodeSecret text secret)).insertionSort (· ≤ ·))

/-! ## The key -/

section Key

variable {text : ValueText ν} {registeredType : String → Text}

/-- `LanceStorageCacheKey`. -/
def lanceStorageCacheKey (digest : Digest) (session : Session text registeredType) (root : Text) :
    Text :=
  if !session.lanceLoaded then []
  else
    let secrets := storageSecretsCacheKey text digest session.secrets root true
    if secrets = [] then [] else ",lance_access=".toList ++ digest.run secrets

/-- The roots that are read with S3 credentials. -/
def isS3Root (root : Text) : Bool :=
  ["s3://", "s3a://", "s3n://", "r2://", "gcs://", "gs://"].any fun scheme =>
    scheme.toList.isPrefixOf root

/-- The settings of HTTPFS that decide how an S3 path is read. -/
def s3Settings : List String :=
  ["s3_endpoint", "s3_region", "s3_url_style", "s3_use_ssl", "s3_access_key_id",
    "s3_secret_access_key", "s3_session_token", "s3_kms_key_id", "s3_requester_pays",
    "s3_url_compatibility_mode", "enable_global_s3_configuration"]

/-- The two components of a setting. A setting without a value leaves `Value` NULL. -/
def settingComponents (session : Session text registeredType) (name : String) : List Text :=
  match session.setting name with
  | some setting => [setting.scope.repr.toList, text.toSQLString setting.value]
  | none => ["unset".toList, "NULL".toList]

/-- `S3StorageCacheKey`. -/
def s3StorageCacheKey (digest : Digest) (session : Session text registeredType) (root : Text) :
    Text :=
  if !isS3Root root then []
  else
    ",s3_access=".toList ++ digest.run ("lerobot_s3_access_v1".toList ++
      (netstrings (s3Settings.flatMap (settingComponents session)) ++
        storageSecretsCacheKey text digest session.secrets root false))

end Key

/-- The ASCII whitespace that `NormalizeLerobotRoot` removes. -/
def isRootSpace (ch : Char) : Bool := " \x0c\n\r\t\x0b".toList.contains ch

/-- `NormalizeLerobotRoot`. -/
def normalizeLerobotRoot (root : Text) : Except BinderException Text :=
  let trimmed := (root.dropWhile isRootSpace).rdropWhile isRootSpace
  if trimmed = [] then .error ⟨"LeRobot dataset root must not be empty"⟩
  else
    -- the loop leaves one character
    let stripped := trimmed.rdropWhile (· == '/')
    .ok (if stripped = [] then ['/'] else stripped)

/-- `Value(path).ToSQLString()`: the path in quotes, with its quotes doubled. -/
def quotePath (path : Text) : Text :=
  let quote := Char.ofNat 39
  quote :: path.flatMap (fun ch => if ch = quote then [quote, quote] else [ch]) ++ [quote]

/-- `StringUtil::Split` at commas, which returns nothing after a last one. -/
def splitSearchPath (searchPath : Text) : List Text :=
  let parts := searchPath.splitOn ','
  if parts.getLast? = some [] then parts.dropLast else parts

/-- `IsQualifiedRoot`. -/
def isQualifiedRoot (fileSystem : FileSystem) (root : Text) : Bool :=
  fileSystem.isPathAbsolute root || decide ("://".toList <:+: root)

/-- `LerobotRootCacheKey`. -/
def lerobotRootCacheKey {text : ValueText ν} {registeredType : String → Text} (digest : Digest)
    (session : Session text registeredType) (root : Text) : Except BinderException Text := do
  let normalized ← normalizeLerobotRoot root
  let fs := session.fileSystem
  let expanded := fs.expandPath normalized
  if isQualifiedRoot fs expanded then
    .ok (quotePath expanded ++ s3StorageCacheKey digest session expanded ++
      lanceStorageCacheKey digest session expanded)
  else
    let localRoot := fs.joinPath fs.workingDirectory expanded
    let searchKeys := (splitSearchPath session.fileSearchPath).flatMap fun path =>
      let searchRoot := fs.expandPath path
      ',' :: quotePath searchRoot ++
        lanceStorageCacheKey digest session (fs.joinPath searchRoot expanded)
    .ok (quotePath localRoot ++ lanceStorageCacheKey digest session localRoot ++
      if session.fileSearchPath = [] then [] else searchKeys)

/-! ## Who reads a path -/

/-- The secrets with a scope that a path is below. -/
def matchingSecrets (secrets : List (SecretEntry ν)) (path : Text) : List (SecretEntry ν) :=
  secrets.filter fun secret =>
    isConsulted false secret.type && secret.scope.any fun scope => scope.isPrefixOf path

/-- The length of the longest scope that a path is below. -/
def matchLength (path : Text) (secret : SecretEntry ν) : Nat :=
  ((secret.scope.filter fun scope => scope.isPrefixOf path).map List.length).foldr max 0

/-- The secrets with the longest scope. -/
def longestScopeSecrets (secrets : List (SecretEntry ν)) (path : Text) : List (SecretEntry ν) :=
  (matchingSecrets secrets path).filter fun secret =>
    (matchingSecrets secrets path).all fun other => matchLength path other ≤ matchLength path secret

theorem longestScopeSecrets_perm {secrets secrets' : List (SecretEntry ν)} {path : Text}
    (h : (matchingSecrets secrets path).Perm (matchingSecrets secrets' path)) :
    (longestScopeSecrets secrets path).Perm (longestScopeSecrets secrets' path) := by
  have hsame : (fun secret : SecretEntry ν => (matchingSecrets secrets path).all
        fun other => decide (matchLength path other ≤ matchLength path secret)) =
      fun secret : SecretEntry ν => (matchingSecrets secrets' path).all
        fun other => decide (matchLength path other ≤ matchLength path secret) := by
    funext secret
    exact h.all_eq
  unfold longestScopeSecrets
  rw [hsame]
  exact h.filter _

/-! ## The key determines the access -/

theorem flatMap_injective {α β : Type} {f : α → List β} {n : Nat}
    (hlength : ∀ a, (f a).length = n + 1) (hf : Function.Injective f) :
    Function.Injective (List.flatMap f) := by
  intro l
  induction l with
  | nil =>
      intro l' h
      cases l' with
      | nil => rfl
      | cons a' l' =>
          have hlen := congrArg List.length h
          simp [hlength] at hlen
          omega
  | cons a l ih =>
      intro l' h
      cases l' with
      | nil =>
          have hlen := congrArg List.length h
          simp [hlength] at hlen
      | cons a' l' =>
          rw [List.flatMap_cons, List.flatMap_cons] at h
          obtain ⟨hfirst, hrest⟩ := List.append_inj h ((hlength a).trans (hlength a').symm)
          rw [hf hfirst, ih hrest]

/-- **The encoding of a secret is injective.** -/
theorem encodeSecret_injective (text : ValueText ν) : Function.Injective (encodeSecret text) := by
  intro secret secret' h
  have hcomponents : secretComponents text secret = secretComponents text secret' :=
    netstrings_injective h
  unfold secretComponents at hcomponents
  simp only [List.cons_append, List.nil_append, List.cons.injEq] at hcomponents
  obtain ⟨hstorage, htype, hname, hprovider, hcount, hrest⟩ := hcomponents
  -- the number of scopes says where the values begin
  have hlength : secret.scope.length = secret'.scope.length :=
    repr_injective (String.toList_inj.mp hcount)
  obtain ⟨hscope, hvalues⟩ := List.append_inj hrest hlength
  have hvalue : Function.Injective fun value : Text × ν =>
      [value.1, text.type value.2, text.toSQLString value.2] := by
    intro value value' heq
    simp only [List.cons.injEq, and_true] at heq
    exact Prod.ext heq.1 (text.injective _ _ heq.2.1 heq.2.2)
  have hvalues' := flatMap_injective (n := 2) (fun _ => rfl) hvalue hvalues
  obtain ⟨storageMode, type, name, provider, scope, values⟩ := secret
  obtain ⟨storageMode', type', name', provider', scope', values'⟩ := secret'
  simp only at hstorage htype hname hprovider hscope hvalues'
  subst hstorage htype hname hprovider hscope hvalues'
  rfl

/-- The part of the key for the secrets determines them, up to their order. -/
theorem keySecrets_perm_of_eq {text : ValueText ν} {digest : Digest}
    {secrets secrets' : List (SecretEntry ν)} {root : Text} {lanceOnly : Bool}
    (h : storageSecretsCacheKey text digest secrets root lanceOnly =
      storageSecretsCacheKey text digest secrets' root lanceOnly) :
    (keySecrets secrets root lanceOnly).Perm (keySecrets secrets' root lanceOnly) := by
  have hsorted := netstrings_injective h
  have hdigests := ((List.perm_insertionSort (· ≤ ·) _).symm.trans (List.Perm.of_eq hsorted)).trans
    (List.perm_insertionSort (· ≤ ·) _)
  have hinjective : Function.Injective fun secret => digest.run (encodeSecret text secret) :=
    digest.injective.comp (encodeSecret_injective text)
  exact (List.map_perm_map_iff hinjective).mp hdigests

/-- A scope that a path below the root is below overlaps the root. -/
theorem overlaps_of_matches {root path : Text} (hpath : (root ++ ['/']) <+: path)
    {secret : SecretEntry ν} (h : (secret.scope.any fun scope => scope.isPrefixOf path) = true) :
    overlaps root secret = true := by
  obtain ⟨scope, hscope, hstarts⟩ := List.any_eq_true.mp h
  rw [List.isPrefixOf_iff_prefix] at hstarts
  apply List.any_eq_true.mpr
  refine ⟨scope, hscope, ?_⟩
  rw [Bool.or_eq_true, List.isPrefixOf_iff_prefix, List.isPrefixOf_iff_prefix]
  rcases List.prefix_or_prefix_of_prefix hstarts hpath with hshort | hlong
  · -- the scope ends in the root, or with the separator behind it
    rcases List.prefix_concat_iff.mp hshort with heq | hroot
    · exact .inr (heq ▸ List.prefix_refl _)
    · exact .inl hroot
  · exact .inr hlong

/-- **Sessions with one key match the same secrets below the root.** -/
theorem matchingSecrets_perm {secrets secrets' : List (SecretEntry ν)} {root path : Text}
    (h : (keySecrets secrets root false).Perm (keySecrets secrets' root false))
    (hpath : (root ++ ['/']) <+: path) :
    (matchingSecrets secrets path).Perm (matchingSecrets secrets' path) := by
  have hkey : ∀ secrets : List (SecretEntry ν), matchingSecrets secrets path =
      (keySecrets secrets root false).filter fun secret =>
        secret.scope.any fun scope => scope.isPrefixOf path := by
    intro secrets
    unfold matchingSecrets keySecrets
    rw [List.filter_filter]
    apply List.filter_congr
    intro secret _
    cases hmatches : secret.scope.any fun scope => scope.isPrefixOf path with
    | false => simp
    | true => simp [overlaps_of_matches hpath hmatches]
  rw [hkey, hkey]
  exact h.filter _

section Key

variable {text : ValueText ν} {registeredType : String → Text}
variable {session session' : Session text registeredType}

/-- The components of a setting determine it. -/
theorem setting_eq_of_components {name : String}
    (h : settingComponents session name = settingComponents session' name) :
    session.setting name = session'.setting name := by
  have hunset : ∀ n : Nat, n.repr.toList ≠ "unset".toList := by
    intro n heq
    apply notMem_repr (c := 'u') (by decide) n
    rw [heq]
    decide
  unfold settingComponents at h
  cases hleft : session.setting name with
  | none =>
      cases hright : session'.setting name with
      | none => rfl
      | some setting =>
          rw [hleft, hright] at h
          exact absurd (List.cons.inj h).1.symm (hunset _)
  | some setting =>
      cases hright : session'.setting name with
      | none =>
          rw [hleft, hright] at h
          exact absurd (List.cons.inj h).1 (hunset _)
      | some setting' =>
          rw [hleft, hright] at h
          simp only [List.cons.injEq, and_true] at h
          obtain ⟨hscope, hvalue⟩ := h
          have htype := (session.registered name setting hleft).trans
            (session'.registered name setting' hright).symm
          obtain ⟨scope, value⟩ := setting
          obtain ⟨scope', value'⟩ := setting'
          obtain rfl : scope = scope' := repr_injective (String.toList_inj.mp hscope)
          obtain rfl : value = value' := text.injective _ _ htype hvalue
          rfl

theorem length_settingComponents (session : Session text registeredType) (names : List String) :
    (names.flatMap (settingComponents session)).length = 2 * names.length := by
  induction names with
  | nil => rfl
  | cons name names ih =>
      have hlength : (settingComponents session name).length = 2 := by
        unfold settingComponents
        split <;> rfl
      rw [List.flatMap_cons, List.length_append, ih, hlength, List.length_cons]
      omega

theorem settings_eq_of_components {names : List String}
    (h : names.flatMap (settingComponents session) = names.flatMap (settingComponents session')) :
    ∀ name ∈ names, session.setting name = session'.setting name := by
  induction names with
  | nil => simp
  | cons name names ih =>
      rw [List.flatMap_cons, List.flatMap_cons] at h
      have hlength : (settingComponents session name).length =
          (settingComponents session' name).length := by
        have hleft := length_settingComponents session [name]
        have hright := length_settingComponents session' [name]
        rw [List.flatMap_singleton] at hleft hright
        rw [hleft, hright]
      obtain ⟨hfirst, hrest⟩ := List.append_inj h hlength
      intro other hother
      rcases List.mem_cons.mp hother with rfl | hmem
      · exact setting_eq_of_components hfirst
      · exact ih hrest other hmem

/-- A digest ends where the next part of a key begins. -/
theorem digest_eq_of_append {digest : Digest} {input input' rest rest' : Text}
    (hrest : rest = [] ∨ rest.head? = some ',') (hrest' : rest' = [] ∨ rest'.head? = some ',')
    (h : digest.run input ++ rest = digest.run input' ++ rest') : input = input' := by
  have hpart : ∀ input rest, rest = [] ∨ rest.head? = some ',' →
      (digest.run input ++ rest).takeWhile (· ≠ ',') = digest.run input := by
    intro input rest hrest
    have hall : ∀ ch ∈ digest.run input, decide (ch ≠ ',') = true := by
      intro ch hch
      have hhex := digest.hexadecimal input ch hch
      rw [decide_eq_true_iff]
      rintro rfl
      revert hhex
      decide
    rw [List.takeWhile_append_of_pos hall]
    rcases hrest with rfl | hcomma
    · simp
    · cases rest with
      | nil => cases hcomma
      | cons ch rest =>
          obtain rfl : ch = ',' := Option.some.inj hcomma
          simp
  apply digest.injective
  rw [← hpart input rest hrest, h, hpart input' rest' hrest']

theorem lanceStorageCacheKey_head (digest : Digest) (session : Session text registeredType)
    (root : Text) : lanceStorageCacheKey digest session root = [] ∨
      (lanceStorageCacheKey digest session root).head? = some ',' := by
  unfold lanceStorageCacheKey
  split
  · exact .inl rfl
  · dsimp only
    split
    · exact .inl rfl
    · exact .inr rfl

theorem head?_normalized {root : Text} (h : isS3Root root = true) : root.head? ≠ some '~' := by
  intro htilde
  cases root with
  | nil => cases htilde
  | cons ch root =>
      obtain rfl : ch = '~' := Option.some.inj htilde
      revert h
      simp [isS3Root, List.isPrefixOf]

/-- The key of an S3 root. -/
theorem lerobotRootCacheKey_eq {digest : Digest} {root normalized : Text}
    (hroot : normalizeLerobotRoot root = .ok normalized) (hs3 : isS3Root normalized = true) :
    lerobotRootCacheKey digest session root =
      .ok (quotePath normalized ++ (",s3_access=".toList ++
        (digest.run ("lerobot_s3_access_v1".toList ++
          (netstrings (s3Settings.flatMap (settingComponents session)) ++
            storageSecretsCacheKey text digest session.secrets normalized false)) ++
          lanceStorageCacheKey digest session normalized))) := by
  have hexpand : session.fileSystem.expandPath normalized = normalized :=
    session.fileSystem.expandPath_eq normalized (head?_normalized hs3)
  have hqualified : isQualifiedRoot session.fileSystem normalized = true := by
    unfold isQualifiedRoot
    obtain ⟨scheme, hscheme, hstarts⟩ := List.any_eq_true.mp hs3
    obtain ⟨rest, rfl⟩ := List.isPrefixOf_iff_prefix.mp hstarts
    rw [Bool.or_eq_true, decide_eq_true_iff]
    have hinside : ∀ scheme ∈ ["s3://", "s3a://", "s3n://", "r2://", "gcs://", "gs://"],
        "://".toList <:+: scheme.toList := by decide
    exact .inr ((hinside scheme hscheme).trans (List.prefix_append _ _).isInfix)
  unfold lerobotRootCacheKey
  rw [hroot]
  change (if isQualifiedRoot session.fileSystem (session.fileSystem.expandPath normalized) = true
    then _ else _) = _
  rw [hexpand, if_pos hqualified, s3StorageCacheKey, hs3, Bool.not_true, if_neg Bool.false_ne_true,
    List.append_assoc, List.append_assoc]

/-- The order of the secrets does not show in their part of the key. -/
theorem storageSecretsCacheKey_perm {digest : Digest} {secrets secrets' : List (SecretEntry ν)}
    (h : secrets.Perm secrets') (root : Text) (lanceOnly : Bool) :
    storageSecretsCacheKey text digest secrets root lanceOnly =
      storageSecretsCacheKey text digest secrets' root lanceOnly := by
  have hdigests := (h.filter fun secret =>
    isConsulted lanceOnly secret.type && overlaps root secret).map
      fun secret => digest.run (encodeSecret text secret)
  unfold storageSecretsCacheKey keySecrets
  congr 1
  apply List.Perm.eq_of_pairwise' (List.pairwise_insertionSort (· ≤ ·) _)
    (List.pairwise_insertionSort (· ≤ ·) _)
  exact ((List.perm_insertionSort _ _).trans hdigests).trans (List.perm_insertionSort _ _).symm

/-- The order of the secrets does not show in the key. -/
theorem lerobotRootCacheKey_perm {digest : Digest} {secrets : List (SecretEntry ν)}
    (h : secrets.Perm session.secrets) (root : Text) :
    lerobotRootCacheKey digest { session with secrets := secrets } root =
      lerobotRootCacheKey digest session root := by
  have hlance : ∀ root, lanceStorageCacheKey digest { session with secrets := secrets } root =
      lanceStorageCacheKey digest session root := by
    intro root
    unfold lanceStorageCacheKey
    rw [storageSecretsCacheKey_perm h]
  have hs3 : ∀ root, s3StorageCacheKey digest { session with secrets := secrets } root =
      s3StorageCacheKey digest session root := by
    intro root
    unfold s3StorageCacheKey
    rw [storageSecretsCacheKey_perm h]
    rfl
  unfold lerobotRootCacheKey
  simp only [hlance, hs3]

/-- **The access part of the key is sound.** Sessions with one key for an S3 root match the same
secrets below it and have the same S3 settings, the order of the secrets does not matter, and no two
secrets are encoded alike. -/
theorem access_key_sound (text : ValueText ν) (registeredType : String → Text) (digest : Digest) :
    (∀ (session session' : Session text registeredType) (root normalized : Text),
      normalizeLerobotRoot root = .ok normalized → isS3Root normalized = true →
      lerobotRootCacheKey digest session root = lerobotRootCacheKey digest session' root →
      (∀ path, (normalized ++ ['/']) <+: path →
        (matchingSecrets session.secrets path).Perm (matchingSecrets session'.secrets path) ∧
        (longestScopeSecrets session.secrets path).Perm
          (longestScopeSecrets session'.secrets path)) ∧
      ∀ name ∈ s3Settings, session.setting name = session'.setting name) ∧
    (∀ (session : Session text registeredType) (secrets : List (SecretEntry ν)) (root : Text),
      secrets.Perm session.secrets →
      lerobotRootCacheKey digest { session with secrets := secrets } root =
        lerobotRootCacheKey digest session root) ∧
    Function.Injective (encodeSecret text) := by
  refine ⟨?_, ?_, encodeSecret_injective text⟩
  · intro session session' root normalized hroot hs3 hkey
    rw [lerobotRootCacheKey_eq hroot hs3, lerobotRootCacheKey_eq hroot hs3, Except.ok.injEq] at hkey
    have hdigest := List.append_cancel_left (List.append_cancel_left hkey)
    have hinput := List.append_cancel_left (digest_eq_of_append
      (lanceStorageCacheKey_head digest session normalized)
      (lanceStorageCacheKey_head digest session' normalized) hdigest)
    have hlength : (s3Settings.flatMap (settingComponents session)).length =
        (s3Settings.flatMap (settingComponents session')).length := by
      rw [length_settingComponents, length_settingComponents]
    obtain ⟨hsettings, hsecrets⟩ := netstrings_append_inj hlength hinput
    refine ⟨?_, settings_eq_of_components hsettings⟩
    intro path hpath
    have hmatching := matchingSecrets_perm (keySecrets_perm_of_eq hsecrets) hpath
    exact ⟨hmatching, longestScopeSecrets_perm hmatching⟩
  · intro session secrets root hperm
    exact lerobotRootCacheKey_perm hperm root

end Key

/-! ## Two sessions with one key -/

section Example

/-- Booleans as values. -/
def booleanText : ValueText Bool where
  type _ := "BOOLEAN".toList
  toSQLString value := if value then "true".toList else "false".toList
  injective value value' _ h := by
    revert h
    cases value <;> cases value' <;> decide

/-- A secret for a bucket, and one for another bucket. -/
def bucketSecret (name bucket : String) : SecretEntry Bool :=
  ⟨"memory".toList, "s3".toList, name.toList, "config".toList, [bucket.toList],
    [("use_ssl".toList, true)]⟩

/-- Digits for inputs whose digest is not needed. -/
def hexText (input : Text) : Text :=
  List.replicate 65 '0' ++ input.flatMap fun ch => List.replicate ch.toNat '0' ++ ['1']

theorem hexText_injective : Function.Injective hexText := by
  intro input input' h
  replace h := List.append_cancel_left h
  induction input generalizing input' with
  | nil =>
      cases input' with
      | nil => rfl
      | cons ch' input' => simp at h
  | cons ch input ih =>
      cases input' with
      | nil => simp at h
      | cons ch' input' =>
          rw [List.flatMap_cons, List.flatMap_cons, List.append_assoc, List.append_assoc] at h
          have hzero : ∀ n : Nat, '1' ∉ List.replicate n '0' := by
            intro n hmem
            have heq := List.eq_of_mem_replicate hmem
            revert heq
            decide
          obtain ⟨hcount, hrest⟩ := split_at_first (hzero _) (hzero _) h
          have hcode := congrArg List.length hcount
          rw [List.length_replicate, List.length_replicate] at hcode
          rw [ih hrest, Char.toNat_inj.mp hcode]

/-- The digest of the secret of `s3://bucket`. -/
def secretDigest : Text := "4c886cce5cab79db96d034a0a703c54f3c6ceef0015cef9356c7febf6a6046f8".toList

/-- The digest of the access to it in a session without settings. -/
def accessDigest : Text := "8ee1fe81e61b34ffc0269f2c7bc034177ec5a1d482d1f54c458feb3943f538c8".toList

/-- What the second digest is made of. -/
def accessInput : Text :=
  "lerobot_s3_access_v1".toList ++
    (netstrings (s3Settings.flatMap fun _ => ["unset".toList, "NULL".toList]) ++
      netstrings [secretDigest])

theorem length_hexText (input : Text) : 65 ≤ (hexText input).length := by
  unfold hexText
  rw [List.length_append, List.length_replicate]
  omega

/-- The digests of the two inputs, and something injective for the others. -/
def bucketDigest : Digest where
  run input :=
    if input = encodeSecret booleanText (bucketSecret "team" "s3://bucket") then secretDigest
    else if input = accessInput then accessDigest
    else hexText input
  injective := by
    have hsecret : ∀ input, hexText input ≠ secretDigest := by
      intro input h
      have hlength := length_hexText input
      rw [h] at hlength
      exact absurd hlength (by decide)
    have haccess : ∀ input, hexText input ≠ accessDigest := by
      intro input h
      have hlength := length_hexText input
      rw [h] at hlength
      exact absurd hlength (by decide)
    have hne : secretDigest ≠ accessDigest := by decide
    intro input input' h
    dsimp only at h
    split_ifs at h with h1 h2 h3 h4 h5 h6
    · exact h1.trans h2.symm
    · exact absurd h hne
    · exact absurd h.symm (hsecret _)
    · exact absurd h.symm hne
    · exact h4.trans h6.symm
    · exact absurd h.symm (haccess _)
    · exact absurd h (hsecret _)
    · exact absurd h (haccess _)
    · exact hexText_injective h
  hexadecimal := by
    have hdigits : ∀ digest : Text, digest.all hexDigits.contains = true →
        ∀ ch ∈ digest, ch ∈ hexDigits := by
      intro digest hall ch hch
      simpa using List.all_eq_true.mp hall ch hch
    intro input ch hch
    split_ifs at hch
    · exact hdigits secretDigest (by decide) ch hch
    · exact hdigits accessDigest (by decide) ch hch
    · rcases List.mem_append.mp hch with hzero | hrest
      · rw [List.eq_of_mem_replicate hzero]
        decide
      · obtain ⟨digit, -, hmem⟩ := List.mem_flatMap.mp hrest
        rcases List.mem_append.mp hmem with hzero | hone
        · rw [List.eq_of_mem_replicate hzero]
          decide
        · rw [List.mem_singleton.mp hone]
          decide

/-- A session with some secrets and no settings. -/
def bucketSession (secrets : List (SecretEntry Bool)) :
    Session booleanText fun _ => "BOOLEAN".toList where
  fileSystem :=
    { expandPath := fun path => if path.head? = some '~' then "/root".toList ++ path.tail else path
      isPathAbsolute := fun path => path.head? == some '/'
      joinPath := fun path path' => path ++ '/' :: path'
      workingDirectory := "/work".toList
      expandPath_eq := fun path h => if_neg h }
  fileSearchPath := []
  setting _ := none
  secrets := secrets
  lanceLoaded := false
  registered := by
    intro name value h
    cases h

/-- A secret for another bucket does not change the key of this one. -/
theorem bucket_key :
    lerobotRootCacheKey bucketDigest (bucketSession [bucketSecret "team" "s3://bucket"])
        "s3://bucket/d/".toList =
      lerobotRootCacheKey bucketDigest
        (bucketSession [bucketSecret "other" "s3://elsewhere", bucketSecret "team" "s3://bucket"])
        "s3://bucket/d/".toList := by
  have hroot : normalizeLerobotRoot "s3://bucket/d/".toList = .ok "s3://bucket/d".toList := by rfl
  have hs3 : isS3Root "s3://bucket/d".toList = true := by decide
  have hsecrets : keySecrets [bucketSecret "other" "s3://elsewhere",
      bucketSecret "team" "s3://bucket"] "s3://bucket/d".toList false =
      keySecrets [bucketSecret "team" "s3://bucket"] "s3://bucket/d".toList false := by rfl
  rw [lerobotRootCacheKey_eq hroot hs3, lerobotRootCacheKey_eq hroot hs3]
  simp only [storageSecretsCacheKey, bucketSession, hsecrets, lanceStorageCacheKey]
  rfl

/-- So it does not change who reads this one. -/
theorem bucket_access :
    (matchingSecrets [bucketSecret "team" "s3://bucket"] "s3://bucket/d/meta/info.json".toList).Perm
      (matchingSecrets [bucketSecret "other" "s3://elsewhere", bucketSecret "team" "s3://bucket"]
        "s3://bucket/d/meta/info.json".toList) :=
  (((access_key_sound booleanText (fun _ => "BOOLEAN".toList) bucketDigest).1
    (bucketSession [bucketSecret "team" "s3://bucket"])
    (bucketSession [bucketSecret "other" "s3://elsewhere", bucketSecret "team" "s3://bucket"])
    "s3://bucket/d/".toList "s3://bucket/d".toList (by rfl) (by decide) bucket_key).1
    "s3://bucket/d/meta/info.json".toList (by decide)).1

end Example

end DuckdbLerobot.Path
