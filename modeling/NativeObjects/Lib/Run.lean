import Mathlib.Logic.Relation

/-!
# Runs of a transition system

A `System` is a set of initial states and a labelled step relation; a `Run` is
a path from an initial state, kept with the state before each of its steps.

* `Run.invariant`: what holds initially, and is kept by every step that meets a
  condition, holds at the end of every run whose steps meet it;
* `Run.of_visited`, `Run.of_mem`: every state a run visits, and every state that
  it takes a step from, is the end of a run made of some of its steps;
* `Run.forall_visited_iff`: where a step from a good state leads to a good state
  exactly when it meets a condition, a run visits only good states exactly when
  all of its steps meet the condition.

A `Path` is what a run goes on with, from a state that it reached: `Run.append`
puts the two together, and `Path.invariant` is the rule for what the rest of a
run keeps.
-/

namespace NativeObjects.Lib

/-- Initial states, and steps labelled by `α`. -/
structure System (σ α : Type*) where
  init : σ → Prop
  step : σ → α → σ → Prop

namespace System

variable {σ α : Type*} (S : System σ α)

/-- `S.Run tr s`: a run ending in `s`. `tr` lists its steps, the last one
first, each with the state it was taken from. -/
inductive Run : List (σ × α) → σ → Prop
  | start {s : σ} : S.init s → Run [] s
  | step {tr : List (σ × α)} {s s' : σ} {a : α} : Run tr s → S.step s a s' → Run ((s, a) :: tr) s'

/-- The states a run visits, the last one first. -/
def visited (tr : List (σ × α)) (s : σ) : List σ := s :: tr.map Prod.fst

variable {S}

/-- The invariant rule, for runs whose steps all meet `K`. -/
theorem Run.invariant {tr : List (σ × α)} {s : σ} (h : S.Run tr s) {P : σ → Prop} (K : σ → α → Prop)
    (hK : ∀ x ∈ tr, K x.1 x.2) (h0 : ∀ s, S.init s → P s)
    (hs : ∀ s a s', P s → K s a → S.step s a s' → P s') : P s := by
  induction h with
  | start hi => exact h0 _ hi
  | step _ hst ih =>
    exact hs _ _ _ (ih fun x hx => hK x (List.mem_cons_of_mem _ hx)) (hK _ List.mem_cons_self) hst

/-- The invariant rule, for all runs. -/
theorem Run.invariant' {tr : List (σ × α)} {s : σ} (h : S.Run tr s) {P : σ → Prop}
    (h0 : ∀ s, S.init s → P s) (hs : ∀ s a s', P s → S.step s a s' → P s') : P s :=
  h.invariant (fun _ _ => True) (fun _ _ => trivial) h0 fun s a s' hp _ => hs s a s' hp

/-- A visited state is the end of a run made of some of the steps. -/
theorem Run.of_visited {tr : List (σ × α)} {s : σ} (h : S.Run tr s) {t : σ} (ht : t ∈ visited tr s) :
    ∃ tr', S.Run tr' t ∧ ∀ x ∈ tr', x ∈ tr := by
  induction h with
  | start hi =>
    simp only [visited, List.map_nil, List.mem_singleton] at ht
    subst ht
    exact ⟨[], .start hi, fun _ hx => hx⟩
  | @step tr s s' a hr hst ih =>
    rcases List.mem_cons.mp ht with rfl | ht
    · exact ⟨_, .step hr hst, fun _ hx => hx⟩
    · obtain ⟨tr', hr', hsub⟩ := ih ht
      exact ⟨tr', hr', fun x hx => List.mem_cons_of_mem _ (hsub x hx)⟩

/-- A step of a run, after a run made of some of its steps. -/
theorem Run.of_mem {tr : List (σ × α)} {s : σ} (h : S.Run tr s) {x : σ × α} (hx : x ∈ tr) :
    ∃ tr' s', S.Run tr' x.1 ∧ S.step x.1 x.2 s' ∧ ∀ y ∈ tr', y ∈ tr := by
  induction h with
  | start => exact absurd hx List.not_mem_nil
  | @step tr s s' a hr hst ih =>
    rcases List.mem_cons.mp hx with rfl | hx
    · exact ⟨tr, s', hr, hst, fun _ => List.mem_cons_of_mem _⟩
    · obtain ⟨tr', s'', hr', hst', hsub⟩ := ih hx
      exact ⟨tr', s'', hr', hst', fun y hy => List.mem_cons_of_mem _ (hsub y hy)⟩

/-- A run visits only good states exactly when all its steps meet `K`, if `I`
is an invariant of the runs that visit only good states, and under it a step
from a good state leads to a good state exactly when it meets `K`. -/
theorem Run.forall_visited_iff {tr : List (σ × α)} {s : σ} (h : S.Run tr s) {I P : σ → Prop}
    {K : σ → α → Prop} (h0 : ∀ s, S.init s → I s ∧ P s)
    (hI : ∀ s a s', I s → P s → K s a → S.step s a s' → I s')
    (hP : ∀ s a s', I s → P s → S.step s a s' → (P s' ↔ K s a)) :
    (∀ t ∈ visited tr s, P t) ↔ ∀ x ∈ tr, K x.1 x.2 := by
  suffices hmain : ((∀ t ∈ visited tr s, P t) ↔ ∀ x ∈ tr, K x.1 x.2) ∧
      ((∀ x ∈ tr, K x.1 x.2) → I s) from hmain.1
  induction h with
  | start hi =>
    refine ⟨⟨fun _ x hx => absurd hx List.not_mem_nil, fun _ t ht => ?_⟩, fun _ => (h0 _ hi).1⟩
    simp only [visited, List.map_nil, List.mem_singleton] at ht
    exact ht ▸ (h0 _ hi).2
  | @step tr s s' a hr hst ih =>
    obtain ⟨ihP, ihI⟩ := ih
    have hv : (∀ t ∈ visited ((s, a) :: tr) s', P t) ↔ P s' ∧ ∀ t ∈ visited tr s, P t :=
      List.forall_mem_cons
    rw [hv, List.forall_mem_cons, ihP]
    have hs : (∀ x ∈ tr, K x.1 x.2) → P s := fun hK => ihP.mpr hK s List.mem_cons_self
    refine ⟨⟨fun ⟨hp, hK⟩ => ⟨(hP _ _ _ (ihI hK) (hs hK) hst).mp hp, hK⟩,
      fun ⟨hk, hK⟩ => ⟨(hP _ _ _ (ihI hK) (hs hK) hst).mpr hk, hK⟩⟩, fun ⟨hk, hK⟩ => ?_⟩
    exact hI _ _ _ (ihI hK) (hs hK) hk hst

/-- The system with the steps labelled by `C` only. -/
def restrict (S : System σ α) (C : α → Prop) : System σ α where
  init := S.init
  step s a s' := C a ∧ S.step s a s'

theorem Run.restrict {tr : List (σ × α)} {s : σ} (h : S.Run tr s) {C : α → Prop} (hC : ∀ x ∈ tr, C x.2) :
    (S.restrict C).Run tr s := by
  induction h with
  | start hi => exact .start hi
  | step _ hst ih =>
    exact .step (ih fun x hx => hC x (List.mem_cons_of_mem _ hx)) ⟨hC _ List.mem_cons_self, hst⟩

/-- A run of a system is one of a system that can do more. -/
theorem Run.mono {S' : System σ α} {tr : List (σ × α)} {s : σ} (h : S.Run tr s) (h0 : ∀ s, S.init s → S'.init s)
    (hs : ∀ s a s', S.step s a s' → S'.step s a s') : S'.Run tr s := by
  induction h with
  | start hi => exact .start (h0 _ hi)
  | step _ hst ih => exact .step ih (hs _ _ _ hst)

theorem Run.of_restrict {C : α → Prop} {tr : List (σ × α)} {s : σ} (h : (S.restrict C).Run tr s) : S.Run tr s :=
  h.mono (fun _ hi => hi) fun _ _ _ hst => hst.2

/-! ## Continuations -/

variable (S) in
/-- `S.Path s tr s'`: steps from `s` to `s'`, listed as in a run. -/
inductive Path (s : σ) : List (σ × α) → σ → Prop
  | refl : Path s [] s
  | step {tr : List (σ × α)} {s' s'' : σ} {a : α} : Path s tr s' → S.step s' a s'' → Path s ((s', a) :: tr) s''

/-- The rest of a run starts where the run has ended. -/
theorem Run.rest {tr : List (σ × α)} {s : σ} (_ : S.Run tr s) : S.Path s [] s := .refl

theorem Run.append {tr tr' : List (σ × α)} {s s' : σ} (h : S.Run tr s) (h' : S.Path s tr' s') :
    S.Run (tr' ++ tr) s' := by
  induction h' with
  | refl => exact h
  | step _ hst ih => exact .step ih hst

/-- What holds of a state, and is kept by every step, holds of every state after it. -/
theorem Path.invariant {tr : List (σ × α)} {s s' : σ} (h : S.Path s tr s') {P : σ → Prop} (h0 : P s)
    (hs : ∀ t a t', P t → S.step t a t' → P t') : P s' := by
  induction h with
  | refl => exact h0
  | step _ hst ih => exact hs _ _ _ ih hst

/-- A visited state is where some of the steps lead to. -/
theorem Path.of_visited {tr : List (σ × α)} {s s' : σ} (h : S.Path s tr s') {t : σ} (ht : t ∈ visited tr s') :
    ∃ tr', S.Path s tr' t := by
  induction h with
  | refl =>
    simp only [visited, List.map_nil, List.mem_singleton] at ht
    subst ht
    exact ⟨[], .refl⟩
  | step hp hst ih =>
    rcases List.mem_cons.mp ht with rfl | ht
    · exact ⟨_, .step hp hst⟩
    · exact ih ht

end System

end NativeObjects.Lib
