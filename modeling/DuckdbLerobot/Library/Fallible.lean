import Mathlib.Data.Fin.Tuple.Basic
import Mathlib.Data.List.Forall2

/-!
# Computations that can throw

A function that can throw returns `Except`. A loop over a container that can throw in each round is
`List.foldlM`; `foldlM_rule` is its invariant rule, with what holds when a round throws, and
`mapM_spec` is the rule of a loop that fills a vector; `traverseFin` is one over its indices. `Simulates` compares
two such functions, and has the rules for a sequence and for the loops.
-/

set_option autoImplicit false

namespace DuckdbLerobot.Library

universe u v

variable {ε : Type u} {α β : Type v}

/-- A sequence of two steps returns when both do. -/
theorem except_bind_eq_ok {x : Except ε α} {f : α → Except ε β} {b : β} :
    x >>= f = .ok b ↔ ∃ a, x = .ok a ∧ f a = .ok b := by
  cases x with
  | error e =>
      constructor
      · intro h
        cases h
      · rintro ⟨a, ha, -⟩
        cases ha
  | ok a =>
      constructor
      · intro h
        exact ⟨a, rfl, h⟩
      · rintro ⟨a', ha', h⟩
        cases ha'
        exact h

/-- A check before a step. -/
theorem except_check_eq_ok {c : Prop} [Decidable c] {e : ε} {x : Except ε α} {a : α} :
    (if c then .error e else x) = .ok a ↔ ¬c ∧ x = .ok a := by
  split
  · rename_i hc
    constructor
    · intro h
      cases h
    · intro h
      exact absurd hc h.1
  · rename_i hc
    exact (and_iff_right hc).symm

/-- A function of a result. -/
theorem except_map_eq_ok {γ : Type v} {x : Except ε α} {f : α → γ} {c : γ} :
    x.map f = .ok c ↔ ∃ a, x = .ok a ∧ f a = c := by
  cases x with
  | error e =>
      constructor
      · intro h
        cases h
      · rintro ⟨a, ha, -⟩
        cases ha
  | ok a =>
      constructor
      · intro h
        cases h
        exact ⟨a, rfl, rfl⟩
      · rintro ⟨a', ha', rfl⟩
        cases ha'
        rfl

/-- Two computations with the same outcome, seen through two functions. -/
theorem except_map_eq_map {γ : Type v} {x : Except ε α} {y : Except ε β} {f : α → γ} {g : β → γ}
    (h : x.map f = y.map g) :
    (∃ e, x = .error e ∧ y = .error e) ∨ ∃ a b, x = .ok a ∧ y = .ok b ∧ f a = g b := by
  cases x with
  | error e =>
      cases y with
      | error e' =>
          cases h
          exact .inl ⟨e, rfl, rfl⟩
      | ok b => cases h
  | ok a =>
      cases y with
      | error e' => cases h
      | ok b => exact .inr ⟨a, b, rfl, rfl, Except.ok.inj h⟩

/-- What holds of a result, or of what was thrown. -/
def Yields (Q : β → Prop) (E : ε → Prop) : Except ε β → Prop
  | .ok b => Q b
  | .error e => E e

@[simp] theorem yields_ok {Q : β → Prop} {E : ε → Prop} {b : β} : Yields Q E (.ok b) ↔ Q b :=
  Iff.rfl

@[simp] theorem yields_error {Q : β → Prop} {E : ε → Prop} {e : ε} :
    Yields Q E (.error e : Except ε β) ↔ E e :=
  Iff.rfl

/-- A sequence of two steps, the second from what the first yields. -/
theorem Yields.bind {Q : α → Prop} {R : β → Prop} {E : ε → Prop} {x : Except ε α}
    {f : α → Except ε β} (hx : Yields Q E x) (hf : ∀ a, Q a → Yields R E (f a)) :
    Yields R E (x >>= f) := by
  cases x with
  | error e => exact hx
  | ok a => exact hf a hx

theorem Yields.mono {Q R : β → Prop} {E F : ε → Prop} {x : Except ε β} (h : Yields Q E x)
    (hok : ∀ b, Q b → R b) (herror : ∀ e, E e → F e) : Yields R F x := by
  cases x with
  | error e => exact herror e h
  | ok b => exact hok b h

/-- **The loop rule.** Each round keeps `I` of the elements so far or throws with `E`. -/
theorem foldlM_rule {f : β → α → Except ε β} {I : List α → β → Prop} {E : ε → Prop} {l : List α}
    {b : β} (hinit : I [] b)
    (hround : ∀ seen a rest b, l = seen ++ a :: rest → I seen b →
      Yields (I (seen ++ [a])) E (f b a)) :
    Yields (I l) E (l.foldlM f b) := by
  suffices h : ∀ (rest seen : List α) (b : β), l = seen ++ rest → I seen b →
      Yields (I l) E (rest.foldlM f b) from h l [] b rfl hinit
  intro rest
  induction rest with
  | nil =>
      intro seen b hl hI
      rw [List.append_nil] at hl
      subst hl
      exact hI
  | cons a rest ih =>
      intro seen b hl hI
      rw [List.foldlM_cons]
      apply (hround seen a rest b hl hI).bind
      intro b' hb'
      exact ih (seen ++ [a]) b' (by rw [hl, List.append_assoc]; rfl) hb'

/-- A loop that returned kept its invariant. -/
theorem foldlM_ok {f : β → α → Except ε β} {I : List α → β → Prop} {l : List α} {b b' : β}
    (h : l.foldlM f b = .ok b') (hinit : I [] b)
    (hround : ∀ seen a rest b b', l = seen ++ a :: rest → I seen b → f b a = .ok b' →
      I (seen ++ [a]) b') : I l b' := by
  have hrule := foldlM_rule (f := f) (E := fun _ => True) hinit (by
    intro seen a rest b hl hI
    cases hf : f b a with
    | error e => exact trivial
    | ok b' => exact hround seen a rest b b' hl hI hf)
  rw [h] at hrule
  exact hrule

/-- A loop in which no round throws returns. -/
theorem foldlM_total {f : β → α → Except ε β} {I : List α → β → Prop} {l : List α} {b : β}
    (hinit : I [] b)
    (hround : ∀ seen a rest b, l = seen ++ a :: rest → I seen b →
      ∃ b', f b a = .ok b' ∧ I (seen ++ [a]) b') :
    ∃ b', l.foldlM f b = .ok b' ∧ I l b' := by
  have hrule := foldlM_rule (f := f) (E := fun _ => False) hinit (by
    intro seen a rest b hl hI
    obtain ⟨b', hf, hb'⟩ := hround seen a rest b hl hI
    rw [hf]
    exact hb')
  cases hfold : l.foldlM f b with
  | error e =>
      rw [hfold] at hrule
      exact hrule.elim
  | ok b' =>
      rw [hfold] at hrule
      exact ⟨b', rfl, hrule⟩

/-- A loop over the numbers below a bound in which no round throws. -/
theorem foldlM_range_total {f : β → Nat → Except ε β} {I : Nat → β → Prop} {n : Nat} {b : β}
    (hinit : I 0 b) (hround : ∀ i < n, ∀ b, I i b → ∃ b', f b i = .ok b' ∧ I (i + 1) b') :
    ∃ b', (List.range n).foldlM f b = .ok b' ∧ I n b' := by
  induction n with
  | zero => exact ⟨b, rfl, hinit⟩
  | succ n ih =>
      obtain ⟨b', hfold, hI⟩ := ih fun i hi => hround i (Nat.lt_succ_of_lt hi)
      obtain ⟨b'', hlast, hI'⟩ := hround n (Nat.lt_succ_self n) b' hI
      refine ⟨b'', ?_, hI'⟩
      rw [List.range_succ, List.foldlM_append, except_bind_eq_ok]
      exact ⟨b', hfold, by rw [List.foldlM_cons, except_bind_eq_ok]; exact ⟨b'', hlast, rfl⟩⟩

/-- A loop over the numbers below a bound that returned. -/
theorem foldlM_range_ok {f : β → Nat → Except ε β} {I : Nat → β → Prop} {n : Nat} {b b' : β}
    (h : (List.range n).foldlM f b = .ok b') (hinit : I 0 b)
    (hround : ∀ i < n, ∀ b b', I i b → f b i = .ok b' → I (i + 1) b') : I n b' := by
  induction n generalizing b' with
  | zero =>
      cases h
      exact hinit
  | succ n ih =>
      rw [List.range_succ, List.foldlM_append, except_bind_eq_ok] at h
      obtain ⟨b₁, hfold, hlast⟩ := h
      rw [List.foldlM_cons, except_bind_eq_ok] at hlast
      obtain ⟨b₂, hlast, hend⟩ := hlast
      cases hend
      exact hround n (Nat.lt_succ_self n) b₁ _ (ih hfold fun i hi => hround i (Nat.lt_succ_of_lt hi)) hlast

/-- A loop in which each round returns a function of the state. -/
theorem foldlM_range_pure {f : β → Nat → Except ε β} {g : β → Nat → β} {n : Nat} (b : β)
    (hround : ∀ i < n, ∀ b, f b i = .ok (g b i)) : (List.range n).foldlM f b = .ok ((List.range n).foldl g b) := by
  induction n with
  | zero => rfl
  | succ n ih =>
      rw [List.range_succ, List.foldlM_append, ih fun i hi => hround i (Nat.lt_succ_of_lt hi), List.foldl_append]
      refine except_bind_eq_ok.mpr ⟨_, rfl, ?_⟩
      exact except_bind_eq_ok.mpr ⟨_, hround n (Nat.lt_succ_self n) _, rfl⟩

/-- A map that can throw: the results correspond to the elements, or an element made it throw. -/
theorem mapM_spec {f : α → Except ε β} {R : α → β → Prop} {E : ε → Prop} {l : List α}
    (h : ∀ a ∈ l, Yields (R a) E (f a)) : Yields (List.Forall₂ R l) E (l.mapM f) := by
  induction l with
  | nil => exact List.Forall₂.nil
  | cons a l ih =>
      rw [List.mapM_cons]
      apply (h a List.mem_cons_self).bind
      intro b hb
      apply (ih fun a' ha' => h a' (List.mem_cons_of_mem _ ha')).bind
      intro bs hbs
      exact List.Forall₂.cons hb hbs

/-- A computation that is known to return. -/
theorem eq_ok_get {x : Except ε α} (h : x.toOption.isSome = true) : x = .ok (x.toOption.get h) := by
  cases x with
  | error e => cases h
  | ok a => rfl

/-- A map returns when the function does at each element. -/
theorem mapM_eq_ok {f : α → Except ε β} {l : List α} {bs : List β} :
    l.mapM f = .ok bs ↔ List.Forall₂ (fun a b => f a = .ok b) l bs := by
  induction l generalizing bs with
  | nil =>
      rw [List.mapM_nil, List.forall₂_nil_left_iff]
      constructor
      · intro h
        cases h
        rfl
      · rintro rfl
        rfl
  | cons a l ih =>
      simp only [List.mapM_cons, except_bind_eq_ok, ih, List.forall₂_cons_left_iff]
      constructor
      · rintro ⟨b, hb, bs', hbs, hok⟩
        cases hok
        exact ⟨b, bs', hb, hbs, rfl⟩
      · rintro ⟨b, bs', hb, hbs, rfl⟩
        exact ⟨b, hb, bs', hbs, rfl⟩

/-- A map returns when the function returns at each element. -/
theorem mapM_total {f : α → Except ε β} {l : List α} (h : ∀ a ∈ l, ∃ b, f a = .ok b) : ∃ bs, l.mapM f = .ok bs := by
  have hspec := mapM_spec (f := f) (R := fun _ _ => True) (E := fun _ => False) (l := l) (by
    intro a ha
    obtain ⟨b, hb⟩ := h a ha
    rw [hb]
    exact trivial)
  cases hmap : l.mapM f with
  | error e =>
      rw [hmap] at hspec
      exact hspec.elim
  | ok bs => exact ⟨bs, rfl⟩

/-- A result of a map that returns is the result of one element. -/
theorem exists_mem_of_mapM {f : α → Except ε β} {l : List α} {bs : List β}
    (h : l.mapM f = .ok bs) {b : β} (hb : b ∈ bs) : ∃ a ∈ l, f a = .ok b := by
  have hforall := mapM_eq_ok.mp h
  clear h
  induction hforall with
  | nil => cases hb
  | cons hab _ ih =>
      rcases List.mem_cons.mp hb with rfl | hb
      · exact ⟨_, List.mem_cons_self, hab⟩
      · obtain ⟨a, ha, hfa⟩ := ih hb
        exact ⟨a, List.mem_cons_of_mem _ ha, hfa⟩

/-- A loop over the indices of a vector that can throw at each of them. -/
def traverseFin : {n : Nat} → (Fin n → Except ε α) → Except ε (Fin n → α)
  | 0, _ => .ok Fin.elim0
  | _ + 1, f => do
      let first ← f 0
      let rest ← traverseFin fun i => f i.succ
      .ok (Fin.cons first rest)

/-- It returns what the steps return, when all of them do. -/
theorem traverseFin_eq_ok {n : Nat} {f : Fin n → Except ε α} {g : Fin n → α} :
    traverseFin f = .ok g ↔ ∀ i, f i = .ok (g i) := by
  induction n with
  | zero =>
      constructor
      · exact fun _ i => i.elim0
      · exact fun _ => congrArg Except.ok (funext fun i => i.elim0)
  | succ n ih =>
      simp only [traverseFin, except_bind_eq_ok, Fin.forall_fin_succ]
      constructor
      · rintro ⟨first, hfirst, rest, hrest, hok⟩
        cases hok
        exact ⟨hfirst, ih.mp hrest⟩
      · rintro ⟨hfirst, hrest⟩
        exact ⟨g 0, hfirst, _, ih.mpr hrest, congrArg Except.ok (Fin.cons_self_tail g)⟩

/-- It throws what one of its steps throws. -/
theorem traverseFin_yields {n : Nat} {f : Fin n → Except ε α} {E : ε → Prop}
    (h : ∀ i, Yields (fun _ => True) E (f i)) : Yields (fun _ => True) E (traverseFin f) := by
  induction n with
  | zero => exact trivial
  | succ n ih =>
      apply (h 0).bind
      intro first _
      apply (ih fun i => h i.succ).bind
      intro rest _
      exact trivial

/-- What holds of a function of a result. -/
theorem Yields.map {γ : Type v} {Q : α → Prop} {R : γ → Prop} {E : ε → Prop} {x : Except ε α}
    {f : α → γ} (hx : Yields Q E x) (hf : ∀ a, Q a → R (f a)) : Yields R E (x.map f) := by
  cases x with
  | error e => exact hx
  | ok a => exact hf a hx

/-! ## Two computations -/

section Simulates

variable {ε' : Type u} {γ δ : Type v} {R : β → γ → Prop} {e : ε → ε'}

/-- Both return, with results that are related, or both throw, the second what belongs to the first. -/
def Simulates (R : β → γ → Prop) (e : ε → ε') : Except ε β → Except ε' γ → Prop
  | .ok b, .ok c => R b c
  | .error a, .error a' => a' = e a
  | _, _ => False

@[simp] theorem simulates_ok {b : β} {c : γ} : Simulates R e (.ok b) (.ok c) ↔ R b c :=
  Iff.rfl

theorem Simulates.mono {R' : β → γ → Prop} {x : Except ε β} {y : Except ε' γ} (h : Simulates R e x y)
    (hmono : ∀ b c, R b c → R' b c) : Simulates R' e x y := by
  cases x with
  | error a =>
      cases y with
      | error a' => exact h
      | ok c => exact h.elim
  | ok b =>
      cases y with
      | error a' => exact h.elim
      | ok c => exact hmono b c h

theorem simulates_refl (x : Except ε β) : Simulates Eq id x x := by
  cases x <;> rfl

/-- Functions of the two results that agree. -/
theorem Simulates.map_eq {x : Except ε β} {y : Except ε γ} (h : Simulates R id x y) {f : β → δ} {g : γ → δ}
    (hsame : ∀ b c, R b c → f b = g c) : x.map f = y.map g := by
  cases x with
  | error a =>
      cases y with
      | error a' => exact congrArg Except.error h.symm
      | ok c => exact h.elim
  | ok b =>
      cases y with
      | error a' => exact h.elim
      | ok c => exact congrArg Except.ok (hsame b c h)

/-- A sequence of two steps. The second may use what the first returned. -/
theorem Simulates.bind {S : α → δ → Prop} {x : Except ε β} {y : Except ε' γ} {f : β → Except ε α}
    {g : γ → Except ε' δ} (h : Simulates R e x y)
    (hnext : ∀ b c, x = .ok b → R b c → Simulates S e (f b) (g c)) : Simulates S e (x >>= f) (y >>= g) := by
  cases x with
  | error a =>
      cases y with
      | error a' => exact h
      | ok c => exact h.elim
  | ok b =>
      cases y with
      | error a' => exact h.elim
      | ok c => exact hnext b c rfl h

/-- The second computation is the first, with other exceptions. -/
theorem simulates_eq_iff {x : Except ε β} {y : Except ε' β} : Simulates Eq e x y ↔ y = x.mapError e := by
  cases x with
  | error a =>
      cases y with
      | error a' =>
          constructor
          · intro h
            exact congrArg Except.error h
          · intro h
            exact Except.error.inj h
      | ok c =>
          constructor
          · intro h
            exact h.elim
          · intro h
            cases h
  | ok b =>
      cases y with
      | error a' =>
          constructor
          · intro h
            exact h.elim
          · intro h
            cases h
      | ok c =>
          constructor
          · intro h
            exact congrArg Except.ok (Eq.symm h)
          · intro h
            exact (Except.ok.inj h).symm

/-- Two loops over the numbers below a bound, from a relation between their states. -/
theorem Simulates.foldlM_range {S : Nat → β → γ → Prop} {f : β → Nat → Except ε β} {g : γ → Nat → Except ε' γ}
    {n : Nat} {b : β} {c : γ} (hinit : S 0 b c)
    (hround : ∀ i < n, ∀ b c, S i b c → Simulates (S (i + 1)) e (f b i) (g c i)) :
    Simulates (S n) e ((List.range n).foldlM f b) ((List.range n).foldlM g c) := by
  induction n with
  | zero => exact hinit
  | succ n ih =>
      rw [List.range_succ, List.foldlM_append, List.foldlM_append]
      apply (ih fun i hi => hround i (Nat.lt_succ_of_lt hi)).bind
      intro b' c' _ hS
      rw [List.foldlM_cons, List.foldlM_cons]
      apply (hround n (Nat.lt_succ_self n) b' c' hS).bind
      intro b'' c'' _ hS'
      exact hS'

/-- Two maps. -/
theorem Simulates.mapM {f : α → Except ε β} {g : α → Except ε' β} {l : List α}
    (h : ∀ a ∈ l, Simulates Eq e (f a) (g a)) : Simulates Eq e (l.mapM f) (l.mapM g) := by
  induction l with
  | nil => exact rfl
  | cons a l ih =>
      rw [List.mapM_cons, List.mapM_cons]
      apply (h a List.mem_cons_self).bind
      rintro b _ - rfl
      apply (ih fun a' ha' => h a' (List.mem_cons_of_mem _ ha')).bind
      rintro bs _ - rfl
      exact rfl

end Simulates

/-- A loop of checks passes if all of them do. -/
theorem forM_eq_ok {f : α → Except ε PUnit} {l : List α} : l.forM f = .ok ⟨⟩ ↔ ∀ a ∈ l, f a = .ok ⟨⟩ := by
  induction l with
  | nil => exact iff_of_true rfl fun _ hmem => absurd hmem List.not_mem_nil
  | cons first rest ih =>
      rw [List.forM_eq_forM, List.forM_cons, except_bind_eq_ok, List.forall_mem_cons, ← ih]
      constructor
      · rintro ⟨⟨⟩, hfirst, hrest⟩
        exact ⟨hfirst, hrest⟩
      · rintro ⟨hfirst, hrest⟩
        exact ⟨⟨⟩, hfirst, hrest⟩

end DuckdbLerobot.Library
