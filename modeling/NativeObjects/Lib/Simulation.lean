import Mathlib.Data.List.Forall2
import NativeObjects.Lib.Run

/-!
# Simulations

A `Simulation` says that a system `T` follows a system `S`: under a relation
between their states, a step of `S` that meets a condition is a step of `T`, with
the label that a function of labels gives.

* `Simulation.run`: `T` follows whole runs, step by step;
* `Simulation.agree`: two runs of `S` with the same labels for `T`, from states
  related to the same state of `T`, go through such states, if `T` is deterministic
  and cannot take a step that does not meet the condition in `S`.

Under an `Abstraction`, `T` does not see every step of `S`: `Abstraction.run` gives a
run of `T` by the actions that are seen, in their order.
-/

namespace NativeObjects.Lib

variable {σ τ α β : Type*}

namespace System

/-- The labels of the steps of a run, the last one first. -/
def labels (tr : List (σ × α)) : List α := tr.map Prod.snd

/-- A state and a label leave no choice of the next state. -/
def Deterministic (T : System τ β) : Prop := ∀ t b t₁ t₂, T.step t b t₁ → T.step t b t₂ → t₁ = t₂

end System

/-- Under `R`, `T` follows the steps of `S` that meet `K`, by the labels that `f` gives. -/
structure Simulation (S : System σ α) (T : System τ β) (R : σ → τ → Prop) (f : α → β) (K : σ → α → Prop) : Prop where
  init : ∀ s, S.init s → ∃ t, T.init t ∧ R s t
  step : ∀ s a s' t, R s t → K s a → S.step s a s' → ∃ t', T.step t (f a) t' ∧ R s' t'

/-- `T` takes the step `y` as `S` takes the step `x`. -/
structure Follows (T : System τ β) (R : σ → τ → Prop) (f : α → β) (K : σ → α → Prop) (x : σ × α) (y : τ × β) : Prop where
  related : R x.1 y.1
  label : y.2 = f x.2
  meets : K x.1 x.2
  step : ∃ t, T.step y.1 y.2 t

namespace Simulation

variable {S : System σ α} {T : System τ β} {R : σ → τ → Prop} {f : α → β} {K : σ → α → Prop}

theorem run (h : Simulation S T R f K) {tr : List (σ × α)} {s : σ} (hr : S.Run tr s) (hK : ∀ x ∈ tr, K x.1 x.2) :
    ∃ tr' t, T.Run tr' t ∧ R s t ∧ List.Forall₂ (Follows T R f K) tr tr' := by
  induction hr with
  | start hi =>
    obtain ⟨t, ht, hr⟩ := h.init _ hi
    exact ⟨[], t, .start ht, hr, .nil⟩
  | @step tr s s' a hr hst ih =>
    obtain ⟨tr', t, hr', hrel, hl⟩ := ih fun x hx => hK x (List.mem_cons_of_mem _ hx)
    have hk : K s a := hK (s, a) List.mem_cons_self
    obtain ⟨t', hst', hrel'⟩ := h.step s a s' t hrel hk hst
    exact ⟨(t, f a) :: tr', t', .step hr' hst', hrel', .cons ⟨hrel, rfl, hk, t', hst'⟩ hl⟩

/-- Two runs with the same labels, of which the first meets `K`. -/
theorem agree (h : Simulation S T R f K) (hT : T.Deterministic)
    (hback : ∀ s a s' t t', R s t → S.step s a s' → T.step t (f a) t' → K s a) {tr₁ tr₂ : List (σ × α)}
    {s₁ s₂ s₁' s₂' : σ} {t : τ} (hr₁ : R s₁ t) (hr₂ : R s₂ t) (hp₁ : S.Path s₁ tr₁ s₁') (hp₂ : S.Path s₂ tr₂ s₂')
    (hl : (System.labels tr₁).map f = (System.labels tr₂).map f) (hK : ∀ x ∈ tr₁, K x.1 x.2) :
    (∀ x ∈ tr₂, K x.1 x.2) ∧
      List.Forall₂ (fun x₁ x₂ => ∃ y, Follows T R f K x₁ y ∧ Follows T R f K x₂ y) tr₁ tr₂ ∧
        ∃ t', R s₁' t' ∧ R s₂' t' := by
  induction hp₁ generalizing tr₂ s₂' with
  | refl =>
    cases hp₂ with
    | refl => exact ⟨fun _ hx => absurd hx List.not_mem_nil, .nil, t, hr₁, hr₂⟩
    | step => exact absurd hl (by simp [System.labels])
  | @step tr₁ u₁ u₁' a₁ hp₁ hst₁ ih =>
    cases hp₂ with
    | refl => exact absurd hl (by simp [System.labels])
    | @step tr₂ u₂ _ a₂ hp₂ hst₂ =>
      obtain ⟨hlab, hl⟩ := List.cons.inj hl
      obtain ⟨hK₂, hall, t', hr₁, hr₂⟩ := ih hp₂ hl fun x hx => hK x (List.mem_cons_of_mem _ hx)
      have hK₁ : K u₁ a₁ := hK (u₁, a₁) List.mem_cons_self
      obtain ⟨t₁, ht₁, hr₁'⟩ := h.step u₁ a₁ u₁' t' hr₁ hK₁ hst₁
      -- `T` takes the step, so the second run may take it
      have hlab' : f a₁ = f a₂ := hlab
      have hK' : K u₂ a₂ := hback u₂ a₂ _ t' t₁ hr₂ hst₂ (hlab' ▸ ht₁)
      obtain ⟨t₂, ht₂, hr₂'⟩ := h.step u₂ a₂ _ t' hr₂ hK' hst₂
      cases hT t' (f a₂) t₁ t₂ (hlab' ▸ ht₁) ht₂
      refine ⟨List.forall_mem_cons.mpr ⟨hK', hK₂⟩, .cons ⟨(t', f a₁), ?_, ?_⟩ hall, t₁, hr₁', hr₂'⟩
      · exact ⟨hr₁, rfl, hK₁, t₁, ht₁⟩
      · exact ⟨hr₂, hlab', hK', t₁, ht₁⟩

end Simulation

/-! ## Steps that are not seen -/

/-- Under `R`, `T` follows the steps of `S` that meet `K` and that are seen as an action,
and stays where it is at the others. `act` is the action of a step of `T`. -/
structure Abstraction {γ : Type*} (S : System σ α) (T : System τ β) (R : σ → τ → Prop) (see : σ → α → Option γ)
    (act : β → γ) (K : σ → α → Prop) : Prop where
  init : ∀ s, S.init s → ∃ t, T.init t ∧ R s t
  step : ∀ s a s' t, R s t → K s a → S.step s a s' →
    see s a = none ∧ R s' t ∨ ∃ b t', see s a = some (act b) ∧ T.step t b t' ∧ R s' t'

theorem Abstraction.run {γ : Type*} {S : System σ α} {T : System τ β} {R : σ → τ → Prop} {see : σ → α → Option γ}
    {act : β → γ} {K : σ → α → Prop} (h : Abstraction S T R see act K) {tr : List (σ × α)} {s : σ} (hr : S.Run tr s)
    (hK : ∀ x ∈ tr, K x.1 x.2) :
    ∃ tr' t, T.Run tr' t ∧ R s t ∧ (System.labels tr').map act = tr.filterMap fun x => see x.1 x.2 := by
  induction hr with
  | start hi =>
    obtain ⟨t, ht, hr⟩ := h.init _ hi
    exact ⟨[], t, .start ht, hr, rfl⟩
  | @step tr s s' a hr hst ih =>
    obtain ⟨tr', t, hr', hrel, hact⟩ := ih fun x hx => hK x (List.mem_cons_of_mem _ hx)
    have hk : K s a := hK (s, a) List.mem_cons_self
    rcases h.step s a s' t hrel hk hst with ⟨hnone, hrel'⟩ | ⟨b, t', hsome, hst', hrel'⟩
    · refine ⟨tr', t, hr', hrel', ?_⟩
      rw [List.filterMap_cons, hnone]
      exact hact
    · refine ⟨(t, b) :: tr', t', hr'.step hst', hrel', ?_⟩
      rw [List.filterMap_cons, hsome]
      show act b :: (System.labels tr').map act = _
      rw [hact]

end NativeObjects.Lib
