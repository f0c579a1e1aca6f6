import Mathlib.Data.List.Nodup
import Mathlib.Logic.Relation

/-!
# Clients of a shared world

A client is a sequence of commands to a world that it shares with others. Between its commands the
others change the world. A run (`Run`) records each move with the state after it, so that a statement
can speak of the states during a call.

`Run.bind_inv` takes a run of a sequence apart and `Run.later` orders its states by whatever the moves
preserve. `Stamped` is the argument against a change that is undone: a history of stamped entries that
shows one stamp twice has not changed in between.
-/

set_option autoImplicit false

namespace DuckdbLerobot.Library

/-- A program of commands `γ` with answers `ρ`: a failed command ends it. -/
inductive Program (γ : Type) (ρ : γ → Type) (ε : Type) (α : Type)
  | done (result : Except ε α)
  | call (command : γ) (next : ρ command → Program γ ρ ε α)

/-- What the commands do to a state, and what the others can do to it. -/
structure Service (γ : Type) (ρ : γ → Type) (ε σ : Type) where
  answer : (command : γ) → σ → Except ε (ρ command) × σ
  interferes : σ → σ → Prop

/-- A move of a run, with the state after it. -/
inductive Move (γ : Type) (ρ : γ → Type) (ε σ : Type)
  | other (after : σ)
  | own (command : γ) (response : Except ε (ρ command)) (after : σ)

variable {γ : Type} {ρ : γ → Type} {ε σ α β : Type}

/-- The state after a move. -/
def Move.after : Move γ ρ ε σ → σ
  | .other after => after
  | .own _ _ after => after

namespace Program

/-- One program after another. -/
def bind : Program γ ρ ε α → (α → Program γ ρ ε β) → Program γ ρ ε β
  | .done (.error e), _ => .done (.error e)
  | .done (.ok a), f => f a
  | .call command next, f => .call command fun response => (next response).bind f

instance : Monad (Program γ ρ ε) where
  pure a := .done (.ok a)
  bind := bind

/-- The program of one command. -/
def perform (command : γ) : Program γ ρ ε (ρ command) := .call command fun a => .done (.ok a)

/-- A program for each element of a list, in turn. -/
def each (f : α → Program γ ρ ε β) : List α → Program γ ρ ε (List β)
  | [] => pure []
  | a :: l => do
      let b ← f a
      let bs ← each f l
      pure (b :: bs)

/-- Every command of a program satisfies a predicate. -/
def Uses (P : γ → Prop) : Program γ ρ ε α → Prop
  | .done _ => True
  | .call command next => P command ∧ ∀ response, (next response).Uses P

section Uses

variable {P : γ → Prop}

@[simp] theorem uses_done (result : Except ε α) : (done result : Program γ ρ ε α).Uses P :=
  trivial

@[simp] theorem uses_pure (a : α) : (pure a : Program γ ρ ε α).Uses P :=
  trivial

@[simp] theorem uses_perform {command : γ} :
    (perform command : Program γ ρ ε (ρ command)).Uses P ↔ P command :=
  and_iff_left fun _ => trivial

theorem Uses.mono {Q : γ → Prop} {p : Program γ ρ ε α} (hp : p.Uses P)
    (hPQ : ∀ command, P command → Q command) : p.Uses Q := by
  induction p with
  | done result => exact trivial
  | call command next ih =>
      constructor
      · exact hPQ command hp.1
      · exact fun response => ih response (hp.2 response)

theorem Uses.bind {p : Program γ ρ ε α} {f : α → Program γ ρ ε β} (hp : p.Uses P)
    (hf : ∀ a, (f a).Uses P) : (p >>= f).Uses P := by
  induction p with
  | done result =>
      cases result with
      | error e => exact trivial
      | ok a => exact hf a
  | call command next ih =>
      constructor
      · exact hp.1
      · exact fun response => ih response (hp.2 response)

theorem Uses.each {f : α → Program γ ρ ε β} (hf : ∀ a, (f a).Uses P) (l : List α) :
    (each f l).Uses P := by
  induction l with
  | nil => exact trivial
  | cons a l ih =>
      apply (hf a).bind
      intro b
      apply ih.bind
      exact fun bs => trivial

theorem Uses.ite {c : Prop} [Decidable c] {p q : Program γ ρ ε α} (hp : p.Uses P)
    (hq : q.Uses P) : (if c then p else q).Uses P := by
  split
  · exact hp
  · exact hq

end Uses

end Program

/-! ## Runs -/

/-- A complete run of a program from a state to a state. -/
inductive Run (S : Service γ ρ ε σ) {α : Type} :
    Program γ ρ ε α → σ → List (Move γ ρ ε σ) → Except ε α → σ → Prop
  | done (result : Except ε α) (s : σ) : Run S (.done result) s [] result s
  | other {p : Program γ ρ ε α} {s s' t : σ} {moves : List (Move γ ρ ε σ)} {result : Except ε α}
      (step : S.interferes s s') (rest : Run S p s' moves result t) :
      Run S p s (.other s' :: moves) result t
  | own {command : γ} {next : ρ command → Program γ ρ ε α} {s s' t : σ} {response : ρ command}
      {moves : List (Move γ ρ ε σ)} {result : Except ε α}
      (step : S.answer command s = (.ok response, s'))
      (rest : Run S (next response) s' moves result t) :
      Run S (.call command next) s (.own command (.ok response) s' :: moves) result t
  | failed {command : γ} {next : ρ command → Program γ ρ ε α} {s s' : σ} {e : ε}
      (step : S.answer command s = (.error e, s')) :
      Run S (.call command next) s [.own command (.error e) s'] (.error e) s'

/-- The states of a run. -/
def instants (s : σ) (moves : List (Move γ ρ ε σ)) : List σ := s :: moves.map Move.after

/-- The state that moves lead to. -/
def finish (s : σ) : List (Move γ ρ ε σ) → σ
  | [] => s
  | move :: moves => finish move.after moves

variable {S : Service γ ρ ε σ} {s t u : σ} {moves moves₁ moves₂ : List (Move γ ρ ε σ)}

theorem start_mem_instants : s ∈ instants s moves :=
  List.mem_cons_self

theorem finish_mem_instants : finish s moves ∈ instants s moves := by
  induction moves generalizing s with
  | nil => exact List.mem_cons_self
  | cons move moves ih => exact List.mem_cons_of_mem s ih

theorem finish_append : finish s (moves₁ ++ moves₂) = finish (finish s moves₁) moves₂ := by
  induction moves₁ generalizing s with
  | nil => rfl
  | cons move moves ih => exact ih

/-- The states of two parts. -/
theorem mem_instants_append : u ∈ instants s (moves₁ ++ moves₂) ↔
    u ∈ instants s moves₁ ∨ u ∈ instants (finish s moves₁) moves₂ := by
  induction moves₁ generalizing s with
  | nil =>
      constructor
      · exact Or.inr
      · rintro (h | h)
        · obtain rfl := List.mem_singleton.mp h
          exact start_mem_instants
        · exact h
  | cons move moves ih =>
      have hcons : ∀ more : List (Move γ ρ ε σ),
          u ∈ instants s (move :: more) ↔ u = s ∨ u ∈ instants move.after more := fun more =>
        List.mem_cons
      rw [List.cons_append, hcons, hcons, ih, or_assoc]
      rfl

namespace Run

variable {p : Program γ ρ ε α} {result : Except ε α}

theorem finish_eq (h : Run S p s moves result t) : finish s moves = t := by
  induction h with
  | done result s => rfl
  | other step rest ih => exact ih
  | own step rest ih => exact ih
  | failed step => rfl

theorem end_mem (h : Run S p s moves result t) : t ∈ instants s moves :=
  h.finish_eq ▸ finish_mem_instants

/-- **A sequence of two programs.** Either the first one fails, or the run splits where it returns. -/
theorem bind_inv {f : α → Program γ ρ ε β} {result : Except ε β}
    (h : Run S (p >>= f) s moves result t) :
    (∃ e, result = .error e ∧ Run S p s moves (.error e) t) ∨
      ∃ a moves₁ u moves₂, moves = moves₁ ++ moves₂ ∧ Run S p s moves₁ (.ok a) u ∧
        Run S (f a) u moves₂ result t := by
  generalize hq : p >>= f = q at h
  induction h generalizing p with
  | done result s =>
      cases p with
      | call command next => cases hq
      | done first =>
          cases first with
          | error e =>
              cases hq
              exact .inl ⟨e, rfl, .done _ s⟩
          | ok a =>
              have hfa : f a = .done result := hq
              refine .inr ⟨a, [], s, [], rfl, .done _ s, ?_⟩
              rw [hfa]
              exact .done result s
  | other step rest ih =>
      rcases ih hq with ⟨e, he, hrun⟩ | ⟨a, moves₁, u, moves₂, rfl, hfirst, hsecond⟩
      · exact .inl ⟨e, he, .other step hrun⟩
      · exact .inr ⟨a, .other _ :: moves₁, u, moves₂, rfl, .other step hfirst, hsecond⟩
  | own step rest ih =>
      rename_i s _ _ _ _ _
      cases p with
      | done first =>
          cases first with
          | error e => cases hq
          | ok a =>
              have hfa : f a = .call _ _ := hq
              refine .inr ⟨a, [], s, _, rfl, .done _ s, ?_⟩
              rw [hfa]
              exact .own step rest
      | call command next =>
          cases hq
          rcases ih rfl with ⟨e, he, hrun⟩ | ⟨a, moves₁, u, moves₂, rfl, hfirst, hsecond⟩
          · exact .inl ⟨e, he, .own step hrun⟩
          · exact .inr ⟨a, .own _ _ _ :: moves₁, u, moves₂, rfl, .own step hfirst, hsecond⟩
  | failed step =>
      rename_i s _ e
      cases p with
      | done first =>
          cases first with
          | error e => cases hq
          | ok a =>
              have hfa : f a = .call _ _ := hq
              refine .inr ⟨a, [], s, _, rfl, .done _ s, ?_⟩
              rw [hfa]
              exact .failed step
      | call command next =>
          cases hq
          exact .inl ⟨e, rfl, .failed step⟩

theorem bind_ok {f : α → Program γ ρ ε β} {b : β} (h : Run S (p >>= f) s moves (.ok b) t) :
    ∃ a moves₁ u moves₂, moves = moves₁ ++ moves₂ ∧ Run S p s moves₁ (.ok a) u ∧
      Run S (f a) u moves₂ (.ok b) t := by
  rcases h.bind_inv with ⟨e, he, -⟩ | h
  · cases he
  · exact h

end Run

/-- **The states of a run are ordered** by a preorder that contains every move. -/
structure Ordered (S : Service γ ρ ε σ) (R : σ → σ → Prop) : Prop where
  refl : ∀ s, R s s
  trans : ∀ {s t u}, R s t → R t u → R s u
  other : ∀ {s t}, S.interferes s t → R s t
  own : ∀ {command s response t}, S.answer command s = (response, t) → R s t

namespace Run

variable {p : Program γ ρ ε α} {result : Except ε α}

theorem start_later {R : σ → σ → Prop} (hR : Ordered S R) (h : Run S p s moves result t) :
    R s t := by
  induction h with
  | done result s => exact hR.refl s
  | other step rest ih => exact hR.trans (hR.other step) ih
  | own step rest ih =>
      exact hR.trans (hR.own step) ih
  | failed step => exact hR.own step

theorem later {R : σ → σ → Prop} (hR : Ordered S R) (h : Run S p s moves result t) :
    ∀ u ∈ instants s moves, R s u ∧ R u t := by
  induction h with
  | done result s =>
      intro u hu
      obtain rfl := List.mem_singleton.mp hu
      exact ⟨hR.refl u, hR.refl u⟩
  | other step rest ih =>
      intro u hu
      rcases List.mem_cons.mp hu with rfl | hmem
      · exact ⟨hR.refl u, hR.trans (hR.other step) (rest.start_later hR)⟩
      · exact ⟨hR.trans (hR.other step) (ih u hmem).1, (ih u hmem).2⟩
  | own step rest ih =>
      intro u hu
      rcases List.mem_cons.mp hu with rfl | hmem
      · exact ⟨hR.refl u, hR.trans (hR.own step) (rest.start_later hR)⟩
      · exact ⟨hR.trans (hR.own step) (ih u hmem).1, (ih u hmem).2⟩
  | failed step =>
      intro u hu
      rcases List.mem_cons.mp hu with rfl | hmem
      · exact ⟨hR.refl u, hR.own step⟩
      · obtain rfl := List.mem_singleton.mp hmem
        exact ⟨hR.own step, hR.refl _⟩

/-- The own moves of a run are commands of the program. -/
theorem uses_of_mem {P : γ → Prop} (hp : p.Uses P) (h : Run S p s moves result t) {command : γ}
    {response : Except ε (ρ command)} {after : σ} (hmem : .own command response after ∈ moves) :
    P command := by
  induction h with
  | done result s => cases hmem
  | other step rest ih =>
      rcases List.mem_cons.mp hmem with heq | hmem
      · cases heq
      · exact ih hp hmem
  | own step rest ih =>
      rcases List.mem_cons.mp hmem with heq | hmem
      · cases heq
        exact hp.1
      · exact ih (hp.2 _) hmem
  | failed step =>
      cases List.mem_singleton.mp hmem
      exact hp.1

/-- After a program has returned only the others move. -/
theorem done_inv {returned : Except ε α} (h : Run S (.done returned) s moves result t) :
    result = returned ∧ ∀ move ∈ moves, ∃ state, move = .other state := by
  generalize hp : (Program.done returned : Program γ ρ ε α) = p at h
  induction h with
  | done result s =>
      cases hp
      exact ⟨rfl, fun move hmove => by cases hmove⟩
  | other step rest ih =>
      refine ⟨(ih hp).1, ?_⟩
      intro move hmove
      rcases List.mem_cons.mp hmove with rfl | hmem
      · exact ⟨_, rfl⟩
      · exact (ih hp).2 move hmem
  | own step rest ih => cases hp
  | failed step => cases hp

/-- **A command that succeeded** was answered in one of the states, between moves of the others. -/
theorem perform_ok {command : γ} {a : ρ command}
    (h : Run S (.perform command) s moves (.ok a) t) :
    ∃ before after rest, moves = before ++ .own command (.ok a) after :: rest ∧
      S.answer command (finish s before) = (.ok a, after) ∧
      ∀ move ∈ before ++ rest, ∃ state, move = .other state := by
  generalize hp : (Program.perform command : Program γ ρ ε (ρ command)) = p at h
  generalize hr : (Except.ok a : Except ε (ρ command)) = result at h
  induction h with
  | done result s => cases hp
  | other step rest ih =>
      obtain ⟨before, after, rest', rfl, hanswer, hothers⟩ := ih hp hr
      refine ⟨.other _ :: before, after, rest', rfl, hanswer, ?_⟩
      intro move hmove
      rcases List.mem_cons.mp hmove with rfl | hmem
      · exact ⟨_, rfl⟩
      · exact hothers move hmem
  | own step rest ih =>
      cases hp
      obtain ⟨hresult, hothers⟩ := rest.done_inv
      subst hr
      cases hresult
      exact ⟨[], _, _, rfl, step, hothers⟩
  | failed step => cases hr

/-- The state in which a successful command was answered. -/
theorem perform_answer {command : γ} {a : ρ command}
    (h : Run S (.perform command) s moves (.ok a) t) :
    ∃ u ∈ instants s moves, (S.answer command u).1 = .ok a := by
  obtain ⟨before, after, rest, rfl, hanswer, -⟩ := h.perform_ok
  refine ⟨finish s before, mem_instants_append.mpr (.inl finish_mem_instants), ?_⟩
  rw [hanswer]

theorem mem_left (h : u ∈ instants s moves₁) : u ∈ instants s (moves₁ ++ moves₂) :=
  mem_instants_append.mpr (.inl h)

theorem mem_right (h : Run S p s moves₁ result t) (hu : u ∈ instants t moves₂) :
    u ∈ instants s (moves₁ ++ moves₂) := by
  apply mem_instants_append.mpr
  rw [h.finish_eq]
  exact .inr hu

/-- A loop ran its program once for each element. -/
theorem each_ok {f : α → Program γ ρ ε β} {l : List α} {bs : List β}
    (h : Run S (.each f l) s moves (.ok bs) t) :
    List.Forall₂ (fun a b => ∃ s' moves' t', Run S (f a) s' moves' (.ok b) t' ∧
      ∀ u ∈ instants s' moves', u ∈ instants s moves) l bs := by
  induction l generalizing s t moves bs with
  | nil =>
      cases h.done_inv.1
      exact .nil
  | cons a l ih =>
      obtain ⟨b, moves₁, u₁, rest, rfl, hhead, hrest⟩ := h.bind_ok
      obtain ⟨bs', moves₂, u₂, moves₃, rfl, htail, hdone⟩ := hrest.bind_ok
      cases hdone.done_inv.1
      refine .cons ⟨s, moves₁, u₁, hhead, fun u hu => mem_left hu⟩ ?_
      refine (ih htail).imp ?_
      rintro a' b' ⟨s', moves', t', hrun, hsub⟩
      exact ⟨s', moves', t', hrun, fun u hu => hhead.mem_right (mem_left (hsub u hu))⟩

end Run

/-! ## Fewer moves of the others -/

/-- The service whose others only make moves that a relation allows. -/
def Service.restrict (S : Service γ ρ ε σ) (R : σ → σ → Prop) : Service γ ρ ε σ where
  answer := S.answer
  interferes a b := S.interferes a b ∧ R a b

/-- A run among fewer moves of the others is a run. -/
theorem Run.of_restrict {R : σ → σ → Prop} {p : Program γ ρ ε α} {result : Except ε α}
    (h : Run (S.restrict R) p s moves result t) : Run S p s moves result t := by
  induction h with
  | done result s => exact .done result s
  | other step rest ih => exact .other step.1 ih
  | own step rest ih => exact .own step ih
  | failed step => exact .failed step

theorem Ordered.restrict {R Q : σ → σ → Prop} (hS : Ordered S R) (hrefl : ∀ s, Q s s)
    (htrans : ∀ {s t u}, Q s t → Q t u → Q s u)
    (hown : ∀ {command s response t}, S.answer command s = (response, t) → Q s t) :
    Ordered (S.restrict Q) fun s t => R s t ∧ Q s t where
  refl s := ⟨hS.refl s, hrefl s⟩
  trans h₁ h₂ := ⟨hS.trans h₁.1 h₂.1, htrans h₁.2 h₂.2⟩
  other h := ⟨hS.other h.1, h.2⟩
  own h := ⟨hS.own h, hown h⟩

/-! ## Scheduled runs -/

/-- Changes of the others, in turn. -/
def change (s : σ) : List (σ → σ) → List (Move γ ρ ε σ) × σ
  | [] => ([], s)
  | f :: fs =>
      let (moves, t) := change (f s) fs
      (.other (f s) :: moves, t)

/-- The run in which the others act as scheduled before each command. -/
def drive (S : Service γ ρ ε σ) :
    Program γ ρ ε α → σ → List (List (σ → σ)) → Except ε α × List (Move γ ρ ε σ) × σ
  | .done result, s, _ => (result, [], s)
  | .call command next, s, schedule =>
      let (others, s') := change s (schedule.headD [])
      match S.answer command s' with
      | (.ok response, after) =>
          let (result, moves, t) := drive S (next response) after schedule.tail
          (result, others ++ .own command (.ok response) after :: moves, t)
      | (.error e, after) => (.error e, others ++ [.own command (.error e) after], after)

theorem run_change {p : Program γ ρ ε α} {result : Except ε α} {fs : List (σ → σ)}
    (hfs : ∀ f ∈ fs, ∀ s, S.interferes s (f s))
    (h : Run S p (change s fs : List (Move γ ρ ε σ) × σ).2 moves result t) :
    Run S p s ((change s fs).1 ++ moves) result t := by
  induction fs generalizing s with
  | nil => exact h
  | cons f fs ih =>
      apply Run.other (hfs f List.mem_cons_self s)
      exact ih (fun g hg => hfs g (List.mem_cons_of_mem f hg)) h

/-- A scheduled run is a run. -/
theorem run_drive {p : Program γ ρ ε α} {schedule : List (List (σ → σ))}
    (hschedule : ∀ fs ∈ schedule, ∀ f ∈ fs, ∀ s, S.interferes s (f s)) :
    Run S p s (drive S p s schedule).2.1 (drive S p s schedule).1 (drive S p s schedule).2.2 := by
  induction p generalizing s schedule with
  | done result => exact .done result s
  | call command next ih =>
      have hhead : ∀ f ∈ schedule.headD [], ∀ s, S.interferes s (f s) := by
        cases schedule with
        | nil => exact fun f hf => by cases hf
        | cons fs schedule => exact hschedule fs List.mem_cons_self
      have htail : ∀ fs ∈ schedule.tail, ∀ f ∈ fs, ∀ s, S.interferes s (f s) :=
        fun fs hfs => hschedule fs (List.mem_of_mem_tail hfs)
      rw [drive]
      cases hanswer : S.answer command
          (change s (schedule.headD []) : List (Move γ ρ ε σ) × σ).2 with
      | mk response after =>
          cases response with
          | error e =>
              simp only [hanswer]
              exact run_change hhead (.failed hanswer)
          | ok response =>
              simp only [hanswer]
              exact run_change hhead (.own hanswer (ih response htail))

/-! ## Moves along a run -/

/-- What holds of each own command, from the moves before it. -/
def OwnMoves (P : List (Move γ ρ ε σ) → γ → Prop) (moves : List (Move γ ρ ε σ)) : Prop :=
  ∀ before command response after rest,
    moves = before ++ .own command response after :: rest → P before command

namespace OwnMoves

variable {P Q : List (Move γ ρ ε σ) → γ → Prop}

theorem mono (h : OwnMoves P moves) (hPQ : ∀ before command, P before command → Q before command) :
    OwnMoves Q moves := by
  intro before command response after rest heq
  exact hPQ before command (h before command response after rest heq)

theorem tail {move : Move γ ρ ε σ} (h : OwnMoves P (move :: moves)) :
    OwnMoves (fun before => P (move :: before)) moves := by
  rintro before command response after rest rfl
  exact h (move :: before) command response after rest rfl

/-- One part of a run after another. -/
theorem append (h₁ : OwnMoves P moves₁) (h₂ : OwnMoves (fun before => P (moves₁ ++ before)) moves₂) :
    OwnMoves P (moves₁ ++ moves₂) := by
  intro before command response after rest heq
  rcases List.append_eq_append_iff.mp heq with ⟨mid, rfl, hmid⟩ | ⟨mid, rfl, hmid⟩
  · exact h₂ mid command response after rest hmid
  · cases mid with
    | nil =>
        have hnil : moves₂ = [] ++ .own command response after :: rest := hmid.symm
        simpa using h₂ [] command response after rest hnil
    | cons move mid =>
        rw [List.cons_append, List.cons.injEq] at hmid
        obtain ⟨rfl, rfl⟩ := hmid
        exact h₁ before command response after mid rfl

end OwnMoves

namespace Run

variable {p : Program γ ρ ε α} {result : Except ε α}

theorem ownMoves_of_uses {P : γ → Prop} {Q : List (Move γ ρ ε σ) → γ → Prop} (hp : p.Uses P)
    (h : Run S p s moves result t) (hPQ : ∀ before command, P command → Q before command) :
    OwnMoves Q moves := by
  rintro before command response after rest rfl
  exact hPQ before command
    (h.uses_of_mem hp (List.mem_append_right before List.mem_cons_self))

/-- **An invariant along a run**, when the others keep it and the own commands do where they are
called. -/
theorem invariant {I : σ → Prop} {Q : σ → γ → Prop}
    (hother : ∀ s s', S.interferes s s' → I s → I s')
    (hown : ∀ s command response s', S.answer command s = (response, s') → Q s command → I s → I s')
    (h : Run S p s moves result t) (hmoves : OwnMoves (fun before => Q (finish s before)) moves)
    (hs : I s) : ∀ u ∈ instants s moves, I u := by
  induction h with
  | done result s =>
      intro u hu
      obtain rfl := List.mem_singleton.mp hu
      exact hs
  | other step rest ih =>
      intro u hu
      rcases List.mem_cons.mp hu with rfl | hmem
      · exact hs
      · exact ih hmoves.tail (hother _ _ step hs) u hmem
  | own step rest ih =>
      intro u hu
      have hstep := hown _ _ _ _ step (hmoves [] _ _ _ _ rfl) hs
      rcases List.mem_cons.mp hu with rfl | hmem
      · exact hs
      · exact ih hmoves.tail hstep u hmem
  | failed step =>
      intro u hu
      have hstep := hown _ _ _ _ step (hmoves [] _ _ _ _ rfl) hs
      rcases List.mem_cons.mp hu with rfl | hmem
      · exact hs
      · obtain rfl := List.mem_singleton.mp hmem
        exact hstep

end Run

/-- A program returned a value between two states with a property. -/
def ReturnedBetween (S : Service γ ρ ε σ) (s : σ) (moves : List (Move γ ρ ε σ))
    (p : Program γ ρ ε α) (a : α) (P : σ → Prop) : Prop :=
  ∃ before during after u, moves = before ++ during ++ after ∧
    Run S p (finish s before) during (.ok a) u ∧
    (∃ v ∈ instants s before, P v) ∧ ∃ v ∈ instants u after, P v

theorem ReturnedBetween.prepend {p : Program γ ρ ε α} {a : α} {P : σ → Prop}
    (h : ReturnedBetween S (finish s moves₁) moves₂ p a P) :
    ReturnedBetween S s (moves₁ ++ moves₂) p a P := by
  obtain ⟨before, during, after, u, rfl, hrun, ⟨v, hv, hPv⟩, hafter⟩ := h
  refine ⟨moves₁ ++ before, during, after, u, ?_, ?_, ⟨v, ?_, hPv⟩, hafter⟩
  · simp only [List.append_assoc]
  · rwa [finish_append]
  · exact mem_instants_append.mpr (.inr hv)

theorem ReturnedBetween.append {p : Program γ ρ ε α} {a : α} {P : σ → Prop}
    (h : ReturnedBetween S s moves₁ p a P) : ReturnedBetween S s (moves₁ ++ moves₂) p a P := by
  obtain ⟨before, during, after, u, rfl, hrun, hbefore, ⟨v, hv, hPv⟩⟩ := h
  refine ⟨before, during, after ++ moves₂, u, ?_, hrun, hbefore, ⟨v, Run.mem_left hv, hPv⟩⟩
  simp only [List.append_assoc]

/-! ## Histories -/

section History

variable {κ : Type} {l l₁ l₂ l₃ : List α}

/-- A history with distinct stamps that still ends in the same stamp has not grown. -/
theorem eq_of_stamp (stamp : α → κ) (hgrown : l₁ <:+ l₂) (hnodup : (l₂.map stamp).Nodup) {a b : α}
    (ha : l₁.head? = some a) (hb : l₂.head? = some b) (hstamp : stamp a = stamp b) : l₁ = l₂ := by
  obtain ⟨newer, rfl⟩ := hgrown
  cases newer with
  | nil => rfl
  | cons c newer =>
      cases l₁ with
      | nil => cases ha
      | cons a' l =>
          cases ha
          cases hb
          rw [List.cons_append, List.map_cons, List.nodup_cons] at hnodup
          refine absurd ?_ hnodup.1
          rw [← hstamp, List.map_append]
          exact List.mem_append_right _ List.mem_cons_self

/-- A history between two equal ones. -/
theorem eq_of_between (h₁ : l₁ <:+ l₂) (h₂ : l₂ <:+ l₁) : l₁ = l₂ :=
  h₁.eq_of_length_le h₂.length_le

end History

end DuckdbLerobot.Library
