import Mathlib.Logic.Function.Basic

/-!
# Results of partial computations

A partial computation is an `Option`. `Ensures x P` says that the result of `x`,
if it has one, satisfies `P`; there is one rule for each way to build `x`.
-/

namespace NativeObjects.Lib.Partial

variable {α β : Type*}

/-- If `x` has a result, it satisfies `P`. -/
def Ensures (x : Option α) (P : α → Prop) : Prop := ∀ a, x = some a → P a

theorem ensures_none (P : α → Prop) : Ensures none P := nofun

theorem ensures_some {P : α → Prop} {a : α} (h : P a) : Ensures (some a) P := fun _ ha => Option.some.inj ha ▸ h

theorem ensures_any (x : Option α) : Ensures x fun _ => True := fun _ _ => trivial

theorem Ensures.bind {x : Option α} {f : α → Option β} {P : α → Prop} {Q : β → Prop} (h : Ensures x P)
    (hf : ∀ a, P a → Ensures (f a) Q) : Ensures (x.bind f) Q := by
  intro b hb
  obtain ⟨a, ha, hb⟩ := Option.bind_eq_some_iff.mp hb
  exact hf a (h a ha) b hb

theorem Ensures.map {x : Option α} {f : α → β} {Q : β → Prop} (h : Ensures x fun a => Q (f a)) :
    Ensures (x.map f) Q := by
  intro b hb
  obtain ⟨a, ha, rfl⟩ := Option.map_eq_some_iff.mp hb
  exact h a ha

theorem ensures_ite {c : Prop} [Decidable c] {x y : Option α} {P : α → Prop} (hx : c → Ensures x P)
    (hy : ¬ c → Ensures y P) : Ensures (if c then x else y) P := by
  split
  · exact hx ‹_›
  · exact hy ‹_›

/-- A loop keeps an invariant that its body keeps. -/
theorem ensures_foldlM {f : β → α → Option β} {P : β → Prop} (hf : ∀ b a, P b → Ensures (f b a) P) (l : List α) {b : β}
    (h : P b) : Ensures (l.foldlM f b) P := by
  induction l generalizing b with
  | nil => exact ensures_some h
  | cons a l ih =>
    rw [List.foldlM_cons]
    exact (hf b a h).bind fun _ => ih

end NativeObjects.Lib.Partial
