import Mathlib.Logic.Relation
import Mathlib.Order.WellFounded

/-!
# Guarded transition systems

A system of concurrent parties is an initial state and a guarded step function: a label names the
party and the choices that the environment makes for it, and `step s l` is `none` where the label
is not enabled. One definition gives the runs that the theorems quantify over and lets a concrete
schedule be evaluated.

* `TransitionSystem.Reachable`: the states of all runs from the initial state.
* `TransitionSystem.CanReach`: what some run from a state can still reach;
  `CanReach.of_measure` finds such a run by a measure.
* `TransitionSystem.replay`: the end of a concrete schedule, `reachable_of_replay` its reachability.
* `TransitionSystem.RunWhile`: the runs during which something holds, `RunWhile.countP_le` a bound on the
  steps of one kind in them.
* `TransitionSystem.restrict`: the runs whose steps are all allowed.
* `TransitionSystem.Reachable.invariant`: what holds initially and is kept by
  every step holds in every reachable state.
* `Inevitable`: what every run from a state ends in; `Inevitable.of_measure` shows it by a measure.
-/

set_option autoImplicit false

namespace DuckdbLerobot.Library

universe u v

/-- An initial state and a guarded step function. -/
structure TransitionSystem (σ : Type u) (ℓ : Type v) where
  init : σ
  step : σ → ℓ → Option σ

namespace TransitionSystem

variable {σ : Type u} {ℓ : Type v} (T : TransitionSystem σ ℓ)

/-- The states reachable from the initial state. -/
inductive Reachable : σ → Prop
  | init : Reachable T.init
  | step {s t : σ} {l : ℓ} : Reachable s → T.step s l = some t → Reachable t

/-- Some step leaves `s`. -/
def Enabled (s : σ) (l : ℓ) : Prop := ∃ t, T.step s l = some t

/-- Some run from a state ends in one that satisfies `P`. -/
inductive CanReach (P : σ → Prop) : σ → Prop
  | here {s : σ} : P s → CanReach P s
  | step {s t : σ} {l : ℓ} : T.step s l = some t → CanReach P t → CanReach P s

/-- Replay a schedule; `none` when a label of it is not enabled. -/
def replay (ls : List ℓ) : Option σ := ls.foldlM T.step T.init

variable {T}

/-- **The invariant rule.** -/
theorem Reachable.invariant {I : σ → Prop} {s : σ} (hs : T.Reachable s) (hinit : I T.init)
    (hstep : ∀ s l t, T.Reachable s → I s → T.step s l = some t → I t) : I s := by
  induction hs with
  | init => exact hinit
  | @step s t l hs h ih => exact hstep s l t hs ih h

/-- **The progress rule.** While `P` does not hold, a state that satisfies the invariant can take a step
that keeps it and lowers the measure, or can reach `P` some other way. -/
theorem CanReach.of_measure {P I : σ → Prop} (measure : σ → Nat)
    (hprogress : ∀ s, I s → T.CanReach P s ∨
      ∃ l t, T.step s l = some t ∧ I t ∧ measure t < measure s) {s : σ} (hs : I s) :
    T.CanReach P s := by
  induction hm : measure s using Nat.strongRecOn generalizing s with
  | ind m ih =>
      rcases hprogress s hs with hdone | ⟨l, t, hstep, ht, hlt⟩
      · exact hdone
      · subst hm
        exact .step hstep (ih (measure t) hlt ht rfl)

theorem reachable_of_foldlM {s t : σ} (hs : T.Reachable s) {ls : List ℓ}
    (h : ls.foldlM T.step s = some t) : T.Reachable t := by
  induction ls generalizing s with
  | nil =>
      simp only [List.foldlM_nil, Option.pure_def, Option.some.injEq] at h
      subst h
      exact hs
  | cons l ls ih =>
      simp only [List.foldlM_cons, Option.bind_eq_bind, Option.bind_eq_some_iff] at h
      obtain ⟨u, hu, h⟩ := h
      exact ih (hs.step hu) h

/-- A replayed schedule ends in a reachable state. -/
theorem reachable_of_replay {t : σ} {ls : List ℓ} (h : T.replay ls = some t) : T.Reachable t :=
  reachable_of_foldlM Reachable.init h

/-- A replayed schedule whose end passes a test reaches a state that passes it. -/
theorem exists_reachable_of_replay (T : TransitionSystem σ ℓ) (ls : List ℓ) (test : σ → Bool)
    (h : (T.replay ls).any test = true) : ∃ s, T.Reachable s ∧ test s = true := by
  obtain ⟨s, hs, htest⟩ := (Option.any_eq_true test _).mp h
  exact ⟨s, reachable_of_replay hs, htest⟩

/-- **The invariant rule** for the rest of a run. -/
theorem foldlM_invariant {I : σ → Prop} (hstep : ∀ s l t, I s → T.step s l = some t → I t) {s t : σ}
    (hs : I s) {ls : List ℓ} (h : ls.foldlM T.step s = some t) : I t := by
  induction ls generalizing s with
  | nil =>
      simp only [List.foldlM_nil, Option.pure_def, Option.some.injEq] at h
      subst h
      exact hs
  | cons l ls ih =>
      simp only [List.foldlM_cons, Option.bind_eq_bind, Option.bind_eq_some_iff] at h
      obtain ⟨u, hu, h⟩ := h
      exact ih (hstep s l u hs hu) h

/-- A run whose steps are all taken where `P` holds. -/
inductive RunWhile (T : TransitionSystem σ ℓ) (P : σ → Prop) : σ → List ℓ → σ → Prop
  | nil (s : σ) : RunWhile T P s [] s
  | cons {s t u : σ} {l : ℓ} {ls : List ℓ} (hs : P s) (hstep : T.step s l = some t)
      (hrun : RunWhile T P t ls u) : RunWhile T P s (l :: ls) u

/-- **The bound rule.** No step raises the measure while `P` holds, and a step of the kind that is counted
lowers it. -/
theorem RunWhile.countP_le {P I : σ → Prop} {own : ℓ → Bool} (measure : σ → Nat)
    (hstep : ∀ s l t, I s → P s → T.step s l = some t →
      I t ∧ measure t ≤ measure s ∧ (own l = true → measure t < measure s))
    {s t : σ} {ls : List ℓ} (hrun : T.RunWhile P s ls t) (hs : I s) : ls.countP own ≤ measure s := by
  induction hrun with
  | nil s => exact Nat.zero_le _
  | @cons s t u l ls hP hstep' _ ih =>
      obtain ⟨ht, hle, hlt⟩ := hstep s l t hs hP hstep'
      have hrest := ih ht
      rw [List.countP_cons]
      split
      · rename_i hown
        have hdrop := hlt hown
        omega
      · omega

/-- The runs whose steps are all allowed. -/
def restrict (T : TransitionSystem σ ℓ) (allowed : σ → ℓ → Bool) : TransitionSystem σ ℓ where
  init := T.init
  step s l := if allowed s l then T.step s l else none

theorem restrict_step {allowed : σ → ℓ → Bool} {s t : σ} {l : ℓ} :
    (T.restrict allowed).step s l = some t ↔ allowed s l = true ∧ T.step s l = some t := by
  change (if allowed s l then T.step s l else none) = some t ↔ _
  split
  · rename_i hallowed
    exact (and_iff_right hallowed).symm
  · rename_i hallowed
    exact iff_of_false (fun h => by cases h) fun h => hallowed h.1

/-- They are runs of the system. -/
theorem Reachable.of_restrict {allowed : σ → ℓ → Bool} {s : σ} (h : (T.restrict allowed).Reachable s) :
    T.Reachable s := by
  induction h with
  | init => exact .init
  | step _ hstep ih => exact ih.step (restrict_step.mp hstep).2

end TransitionSystem

/-! ## Runs that end -/

/-- Every run from a state ends in one that satisfies `P`, whichever steps are taken: while `P` does
not hold there is a step, and there is no infinite run. -/
inductive Inevitable {σ : Type u} (step : σ → σ → Prop) (P : σ → Prop) : σ → Prop
  | here {s : σ} : P s → Inevitable step P s
  | next {s : σ} : (∃ t, step s t) → (∀ t, step s t → Inevitable step P t) → Inevitable step P s

/-- **The termination rule.** While `P` does not hold, a state that satisfies the invariant has a step,
and each of its steps ends in `P`, or it keeps the invariant and lowers the measure. -/
theorem Inevitable.of_measure {σ : Type u} {α : Type v} [Preorder α] [WellFoundedLT α]
    {step : σ → σ → Prop} {P I : σ → Prop} (measure : σ → α)
    (hprogress : ∀ s, I s →
      P s ∨ ((∃ t, step s t) ∧ ∀ t, step s t → P t ∨ I t ∧ measure t < measure s))
    {s : σ} (hs : I s) : Inevitable step P s := by
  induction hm : measure s using WellFoundedLT.induction generalizing s with
  | ind m ih =>
      rcases hprogress s hs with hdone | ⟨hnext, hkeeps⟩
      · exact .here hdone
      · subst hm
        refine .next hnext ?_
        intro t ht
        rcases hkeeps t ht with hdone | ⟨hI, hlt⟩
        · exact .here hdone
        · exact ih (measure t) hlt hI rfl

end DuckdbLerobot.Library
