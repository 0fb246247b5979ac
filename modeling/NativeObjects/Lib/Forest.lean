import Mathlib.Logic.Relation
import Mathlib.Data.Fintype.Pigeonhole

/-!
# Forests given by a parent function

`parent : ι → Option ι` gives each node its parent, if any. `climb parent n t`
is the node `n` steps above `t`, and `Ends parent n t` says that the chain of
parents from `t` has at most `n` nodes. `Above parent t u`: `u` is `t` or an
ancestor of it. In a finite forest without cycles every chain ends
(`ends_card_of_acyclic`), and the chain from a node to an ancestor has no more
nodes than there are names for them (`lt_of_climb`).

`nearest` is inheritance: what the nearest of a node and its ancestors has of its own.
A map between two forests that keeps parents, and what the nodes have of their own,
keeps what they inherit (`nearest_map`). `Nearest` is the same as a relation
(`nearest_eq_some_iff_of_ends`).
-/

namespace NativeObjects.Lib.Forest

variable {ι : Type*} (parent : ι → Option ι)

/-- The node `n` steps above `t`. -/
def climb : Nat → ι → Option ι
  | 0, t => some t
  | n + 1, t => (parent t).bind (climb n)

/-- The chain of parents from `t` has at most `n` nodes. -/
def Ends (n : Nat) (t : ι) : Prop := climb parent n t = none

/-- `u` is `t` or an ancestor of it. -/
def Above (t u : ι) : Prop := Relation.ReflTransGen (fun a b => parent a = some b) t u

/-- No node is an ancestor of itself. -/
def Acyclic : Prop := ∀ t, ¬ Relation.TransGen (fun a b => parent a = some b) t t

variable {parent}

theorem not_ends_zero (t : ι) : ¬ Ends parent 0 t := by simp [Ends, climb]

theorem ends_succ_iff {n : Nat} {t : ι} : Ends parent (n + 1) t ↔ ∀ u, parent t = some u → Ends parent n u := by
  simp only [Ends, climb]
  cases parent t with
  | none => simp
  | some u => simp

theorem Ends.mono {n m : Nat} {t : ι} (h : Ends parent n t) (hm : n ≤ m) : Ends parent m t := by
  induction n generalizing t m with
  | zero => exact absurd h (not_ends_zero t)
  | succ n ih =>
    obtain ⟨m, rfl⟩ := Nat.exists_eq_succ_of_ne_zero (show m ≠ 0 by omega)
    exact ends_succ_iff.mpr fun u hu => ih (ends_succ_iff.mp h u hu) (by omega)

theorem above_self (t : ι) : Above parent t t := Relation.ReflTransGen.refl

theorem above_head {t u v : ι} (h : parent t = some u) (h' : Above parent u v) : Above parent t v :=
  Relation.ReflTransGen.head h h'

/-- A chain that ends, ends above each of its nodes. -/
theorem Ends.above {n : Nat} {t u : ι} (h : Ends parent n t) (hu : Above parent t u) : Ends parent n u := by
  induction hu with
  | refl => exact h
  | tail _ hst ih =>
    cases n with
    | zero => exact absurd ih (not_ends_zero _)
    | succ n => exact (ends_succ_iff.mp ih _ hst).mono (Nat.le_succ n)

/-- A chain that ends does not come back to its start. -/
theorem Ends.not_above_parent {n : Nat} {t u : ι} (h : Ends parent n t) (hu : parent t = some u) :
    ¬ Above parent u t := by
  intro hut
  induction n with
  | zero => exact not_ends_zero t h
  | succ n ih => exact ih ((ends_succ_iff.mp h u hu).above hut)

/-- What `climb` reaches in at least one step is a proper ancestor. -/
theorem transGen_of_climb {n : Nat} {t u : ι} (h : climb parent (n + 1) t = some u) :
    Relation.TransGen (fun a b => parent a = some b) t u := by
  induction n generalizing t with
  | zero =>
    simp only [climb, Option.bind_eq_some_iff] at h
    obtain ⟨v, hv, h⟩ := h
    cases h
    exact .single hv
  | succ n ih =>
    obtain ⟨v, hv, h⟩ := Option.bind_eq_some_iff.mp h
    exact .head hv (ih h)

variable (parent) in
theorem climb_add (n m : Nat) (t : ι) : climb parent (n + m) t = (climb parent n t).bind (climb parent m) := by
  induction n generalizing t with
  | zero => simp [climb]
  | succ n ih =>
    rw [Nat.add_right_comm]
    simp only [climb]
    cases parent t with
    | none => rfl
    | some u => exact ih u

theorem above_of_climb {n : Nat} {t u : ι} (h : climb parent n t = some u) : Above parent t u := by
  cases n with
  | zero => exact Option.some.inj h ▸ above_self t
  | succ n => exact (transGen_of_climb h).to_reflTransGen

theorem exists_climb_of_above {t u : ι} (h : Above parent t u) : ∃ n, climb parent n t = some u := by
  induction h using Relation.ReflTransGen.head_induction_on with
  | refl => exact ⟨0, rfl⟩
  | head hst _ ih =>
    obtain ⟨n, hn⟩ := ih
    exact ⟨n + 1, by rw [climb, hst, Option.bind_some, hn]⟩

/-- A chain has all the nodes up to each of its nodes. -/
theorem exists_climb_of_le {k n : Nat} {t : ι} (h : climb parent n t ≠ none) (hk : k ≤ n) :
    ∃ u, climb parent k t = some u := by
  refine Option.isSome_iff_exists.mp (Option.isSome_iff_ne_none.mpr fun hnone => h ?_)
  rw [show n = k + (n - k) by omega, climb_add, hnone, Option.bind_none]

/-- Without cycles, a chain does not come to a node twice. -/
theorem climb_injective (h : Acyclic parent) {i j : Nat} {t u : ι} (hi : climb parent i t = some u)
    (hj : climb parent j t = some u) : i = j := by
  wlog hlt : i < j generalizing i j
  · by_contra hne
    exact hne (this hj hi (by omega)).symm
  rw [show j = i + ((j - i - 1) + 1) by omega, climb_add, hi, Option.bind_some] at hj
  exact absurd (transGen_of_climb hj) (h u)

/-- In a finite forest without cycles, no chain has more nodes than there are:
climbing on for `card ι` steps would visit a node twice. -/
theorem ends_card_of_acyclic [Fintype ι] (h : Acyclic parent) (t : ι) : Ends parent (Fintype.card ι) t := by
  by_contra hne
  choose f hf using fun k : Fin (Fintype.card ι + 1) =>
    show ∃ u, climb parent k t = some u from exists_climb_of_le hne (by omega)
  obtain ⟨i, j, hij, he⟩ := Fintype.exists_ne_map_eq_of_card_lt f (by simp)
  exact hij (Fin.ext (climb_injective h (hf i) (he ▸ hf j)))

/-- The chain to an ancestor, where the nodes above have distinct names below `m`. -/
theorem lt_of_climb (h : Acyclic parent) {n m : Nat} {t u : ι} (name : ι → Nat)
    (hlt : ∀ v, Above parent t v → name v < m)
    (hinj : ∀ v w, Above parent t v → Above parent t w → name v = name w → v = w)
    (hc : climb parent n t = some u) : n < m := by
  choose f hf using fun k : Fin (n + 1) =>
    show ∃ v, climb parent k t = some v from exists_climb_of_le (n := n) (by rw [hc]; simp) (by omega)
  have hcard := Fintype.card_le_of_injective
    (fun k => (⟨name (f k), hlt _ (above_of_climb (hf k))⟩ : Fin m)) fun i j hij => by
      have heq : f i = f j := hinj _ _ (above_of_climb (hf i)) (above_of_climb (hf j)) (Fin.mk.inj hij)
      exact Fin.ext (climb_injective h (hf i) (heq ▸ hf j))
  rw [Fintype.card_fin, Fintype.card_fin] at hcard
  omega

/-! ## Inheritance -/

section Nearest

variable {κ β γ : Type*}

variable (parent) in
/-- What the nearest node has that has anything of its own, of the first `n` nodes of
the chain from `t`. -/
def nearest (own : ι → Option β) : Nat → ι → Option β
  | 0, _ => none
  | n + 1, t => (own t).or ((parent t).bind (nearest own n))

/-- The node it is had from: no node before it on the chain has anything. -/
theorem nearest_eq_some_iff {own : ι → Option β} {n : Nat} {t : ι} {b : β} :
    nearest parent own n t = some b ↔ ∃ k u, k < n ∧ climb parent k t = some u ∧ own u = some b ∧
      ∀ j < k, ∀ v, climb parent j t = some v → own v = none := by
  induction n generalizing t with
  | zero => simp [nearest]
  | succ n ih =>
    rw [nearest]
    constructor
    · intro h
      rcases Option.or_eq_some_iff.mp h with h | ⟨hnone, h⟩
      · exact ⟨0, t, Nat.succ_pos n, rfl, h, fun j hj => absurd hj (Nat.not_lt_zero j)⟩
      · obtain ⟨v, hv, h⟩ := Option.bind_eq_some_iff.mp h
        obtain ⟨k, u, hk, hu, hb, hbefore⟩ := ih.mp h
        refine ⟨k + 1, u, Nat.succ_lt_succ hk, by rw [climb, hv, Option.bind_some, hu], hb, fun j hj w hw => ?_⟩
        cases j with
        | zero =>
          cases hw
          exact hnone
        | succ j =>
          rw [climb, hv, Option.bind_some] at hw
          exact hbefore j (Nat.lt_of_succ_lt_succ hj) w hw
    · rintro ⟨k, u, hk, hu, hb, hbefore⟩
      cases k with
      | zero =>
        cases hu
        rw [hb, Option.some_or]
      | succ k =>
        obtain ⟨v, hv, hu⟩ := Option.bind_eq_some_iff.mp hu
        rw [hbefore 0 (Nat.succ_pos k) t rfl, Option.none_or, hv, Option.bind_some]
        refine ih.mpr ⟨k, u, Nat.lt_of_succ_lt_succ hk, hu, hb, fun j hj w hw => ?_⟩
        exact hbefore (j + 1) (Nat.succ_lt_succ hj) w (by rw [climb, hv, Option.bind_some, hw])

variable (parent) in
/-- `u` is the nearest to `t`, of `t` and its ancestors, that meets `P`. -/
def Nearest (P : ι → Prop) (t u : ι) : Prop :=
  ∃ n, climb parent n t = some u ∧ P u ∧ ∀ m < n, ∀ v, climb parent m t = some v → ¬ P v

/-- Where the chain ends, `nearest` finds what the nearest node with anything has. -/
theorem nearest_eq_some_iff_of_ends {own : ι → Option β} {n : Nat} {t : ι} (h : Ends parent n t) {b : β} :
    nearest parent own n t = some b ↔ ∃ u, Nearest parent (fun u => own u ≠ none) t u ∧ own u = some b := by
  rw [nearest_eq_some_iff]
  constructor
  · rintro ⟨k, u, -, hu, hb, hbefore⟩
    have hown : own u ≠ none := by
      rw [hb]
      exact Option.some_ne_none b
    exact ⟨u, ⟨k, hu, hown, fun m hm v hv => not_not.mpr (hbefore m hm v hv)⟩, hb⟩
  · rintro ⟨u, ⟨k, hu, -, hbefore⟩, hb⟩
    have hk : k < n := by
      by_contra hle
      have hnone : climb parent k t = none := h.mono (Nat.le_of_not_lt hle)
      exact Option.some_ne_none u (hu.symm.trans hnone)
    exact ⟨k, u, hk, hu, hb, fun m hm v hv => not_not.mp (hbefore m hm v hv)⟩

/-- What the nearest node is depends on the nodes above only. -/
theorem Nearest.congr {P Q : ι → Prop} {t u : ι} (h : Nearest parent P t u)
    (hPQ : ∀ v, Above parent t v → (P v ↔ Q v)) : Nearest parent Q t u := by
  obtain ⟨n, hu, hp, hbefore⟩ := h
  refine ⟨n, hu, (hPQ u (above_of_climb hu)).mp hp, fun m hm v hv => ?_⟩
  exact fun hq => hbefore m hm v hv ((hPQ v (above_of_climb hv)).mpr hq)

theorem Nearest.above {P : ι → Prop} {t u : ι} (h : Nearest parent P t u) : Above parent t u :=
  let ⟨_, hu, _⟩ := h
  above_of_climb hu

/-- A chain that has ended has nothing more. -/
theorem nearest_of_le {own : ι → Option β} {n m : Nat} {t : ι} (h : Ends parent n t) (hm : n ≤ m) :
    nearest parent own m t = nearest parent own n t := by
  induction n generalizing t m with
  | zero => exact absurd h (not_ends_zero t)
  | succ n ih =>
    obtain ⟨m, rfl⟩ := Nat.exists_eq_succ_of_ne_zero (show m ≠ 0 by omega)
    rw [nearest, nearest]
    cases hp : parent t with
    | none => rfl
    | some u =>
      rw [Option.bind_some, Option.bind_some, ih (ends_succ_iff.mp h u hp) (by omega)]

theorem nearest_of_ends {own : ι → Option β} {n m : Nat} {t : ι} (h : Ends parent n t) (h' : Ends parent m t) :
    nearest parent own n t = nearest parent own m t := by
  rcases Nat.le_total n m with hnm | hmn
  · exact (nearest_of_le h hnm).symm
  · exact nearest_of_le h' hmn

/-- The nodes above `t` are renamed by `ρ`, and what they have by `f`. -/
theorem nearest_map {parent' : κ → Option κ} {own : ι → Option β} {own' : κ → Option γ} (ρ : ι → κ) (f : β → γ)
    {t : ι} (hparent : ∀ u, Above parent t u → parent' (ρ u) = (parent u).map ρ)
    (hown : ∀ u, Above parent t u → own' (ρ u) = (own u).map f) (n : Nat) :
    nearest parent' own' n (ρ t) = (nearest parent own n t).map f := by
  induction n generalizing t with
  | zero => rfl
  | succ n ih =>
    rw [nearest, nearest, hparent t (above_self t), hown t (above_self t), Option.map_or]
    cases hp : parent t with
    | none => rfl
    | some u =>
      rw [Option.map_some, Option.bind_some, Option.bind_some,
        ih (fun v hv => hparent v (above_head hp hv)) fun v hv => hown v (above_head hp hv)]

end Nearest

end NativeObjects.Lib.Forest
