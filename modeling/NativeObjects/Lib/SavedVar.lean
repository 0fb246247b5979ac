import Mathlib.Logic.Function.Basic
import Mathlib.Tactic.Common

/-!
# A shared variable that threads save, set and restore

A thread that enters its section saves the variable, then sets it to `inner`; it
restores what it saved when it leaves. The variable is meant to be `inner` while
a thread is in its section, and `outer` else (`Reflects`).

* `Step.reflects_iff`: a step keeps it so exactly if it is in order, that is, if
  a thread that leaves its section does so while another is in its own, just if
  one was when the thread saved the variable;
* `Step.saved`: what the threads saved is right as long as the variable is;
* `State.Alone.inOrder`: of one thread alone, every step is in order.
-/

namespace NativeObjects.Lib.SavedVar

/-- Where a thread is, with the value that it saved, and whether a thread was in
its section then. -/
inductive Place (α : Type*) where
  | outside
  | saved (previous : α) (overlapped : Prop)
  | inside (previous : α) (overlapped : Prop)

def Place.Inside {α : Type*} : Place α → Prop
  | .inside _ _ => True
  | _ => False

structure State (κ α : Type*) where
  var : α
  place : κ → Place α

inductive Action (κ : Type*) where
  | save (i : κ)
  | set (i : κ)
  | restore (i : κ)

variable {κ α : Type*}

namespace State

/-- A thread is in its section. -/
def Busy (s : State κ α) : Prop := ∃ i, (s.place i).Inside

/-- The variable is what the threads in their sections make it. -/
structure Reflects (outer inner : α) (s : State κ α) : Prop where
  busy : s.Busy → s.var = inner
  quiet : ¬ s.Busy → s.var = outer

/-- So was what the threads saved. -/
def Saved (outer inner : α) (s : State κ α) : Prop :=
  ∀ i v o, s.place i = .saved v o ∨ s.place i = .inside v o → (o → v = inner) ∧ (¬ o → v = outer)

/-- A thread leaves its section while another is in its own, just if one was when
the thread saved the variable. -/
def InOrder (s : State κ α) : Action κ → Prop
  | .restore i => ∀ v o, s.place i = .inside v o → (o ↔ ∃ j, j ≠ i ∧ (s.place j).Inside)
  | _ => True

end State

variable [DecidableEq κ]

inductive Step (inner : α) (s : State κ α) : Action κ → State κ α → Prop
  | save {i : κ} (h : s.place i = .outside) :
    Step inner s (.save i) { s with place := Function.update s.place i (.saved s.var s.Busy) }
  | set {i : κ} {v : α} {o : Prop} (h : s.place i = .saved v o) :
    Step inner s (.set i) { var := inner, place := Function.update s.place i (.inside v o) }
  | restore {i : κ} {v : α} {o : Prop} (h : s.place i = .inside v o) :
    Step inner s (.restore i) { var := v, place := Function.update s.place i .outside }

/-- Who is in a section after the thread `i` went somewhere. -/
theorem busy_update (place : κ → Place α) (i : κ) (x : Place α) (v : α) :
    (State.mk v (Function.update place i x)).Busy ↔ x.Inside ∨ ∃ j, j ≠ i ∧ (place j).Inside := by
  have hplace : ∀ j, (State.mk v (Function.update place i x)).place j = if j = i then x else place j :=
    fun j => Function.update_apply place i x j
  constructor
  · rintro ⟨j, hj⟩
    rw [hplace] at hj
    split at hj
    · exact .inl hj
    · exact .inr ⟨j, ‹_›, hj⟩
  · rintro (hx | ⟨j, hji, hj⟩)
    · exact ⟨i, by rwa [hplace, if_pos rfl]⟩
    · exact ⟨j, by rwa [hplace, if_neg hji]⟩

omit [DecidableEq κ] in
theorem State.inOrder_of_iff {s : State κ α} {i : κ} {v : α} {o : Prop} (h : s.place i = .inside v o)
    (ho : o ↔ ∃ j, j ≠ i ∧ (s.place j).Inside) : s.InOrder (.restore i) := by
  intro v' o' h'
  rw [h, Place.inside.injEq] at h'
  rw [← h'.2]
  exact ho

omit [DecidableEq κ] in
/-- A thread that was alone when it saved the variable, and is alone, may leave. -/
theorem State.inOrder_restore {s : State κ α} {i : κ} {v : α} {o : Prop} (h : s.place i = .inside v o) (ho : ¬ o)
    (halone : ∀ j, j ≠ i → ¬ (s.place j).Inside) : s.InOrder (.restore i) :=
  inOrder_of_iff h (iff_of_false ho fun ⟨j, hji, hj⟩ => halone j hji hj)

omit [DecidableEq κ] in
theorem busy_iff_of_outside {s : State κ α} {i : κ} (h : ¬ (s.place i).Inside) :
    s.Busy ↔ ∃ j, j ≠ i ∧ (s.place j).Inside := by
  constructor
  · rintro ⟨j, hj⟩
    exact ⟨j, fun hji => h (hji ▸ hj), hj⟩
  · rintro ⟨j, -, hj⟩
    exact ⟨j, hj⟩

variable {outer inner : α} {s s' : State κ α} {a : Action κ}

theorem Step.saved (h : Step inner s a s') (hs : s.Saved outer inner) (hr : s.Reflects outer inner) :
    s'.Saved outer inner := by
  have hold : ∀ (x : Place α) (v' : α) (i : κ), (∀ v o, x = .saved v o ∨ x = .inside v o →
      (o → v = inner) ∧ (¬ o → v = outer)) → (State.mk v' (Function.update s.place i x)).Saved outer inner := by
    intro x v' i hx j v o hj
    by_cases hji : j = i
    · subst hji
      simp only [Function.update_self] at hj
      exact hx v o hj
    · simp only [Function.update_of_ne hji] at hj
      exact hs j v o hj
  cases h with
  | save h =>
    refine hold _ _ _ fun v o hv => ?_
    simp only [Place.saved.injEq, reduceCtorEq, or_false] at hv
    obtain ⟨rfl, rfl⟩ := hv
    exact ⟨hr.busy, hr.quiet⟩
  | @set i v o h =>
    refine hold _ _ _ fun v' o' hv => ?_
    simp only [Place.inside.injEq, reduceCtorEq, false_or] at hv
    obtain ⟨rfl, rfl⟩ := hv
    exact hs i v o (.inl h)
  | restore h => exact hold _ _ _ fun v o hv => by simp only [reduceCtorEq, or_self] at hv

theorem Step.reflects_iff (hne : inner ≠ outer) (h : Step inner s a s') (hs : s.Saved outer inner)
    (hr : s.Reflects outer inner) : s'.Reflects outer inner ↔ s.InOrder a := by
  cases h with
  | @save i h =>
    have hout : ¬ (s.place i).Inside := by
      rw [h]
      exact id
    have hb : (State.mk s.var (Function.update s.place i (.saved s.var s.Busy))).Busy ↔ s.Busy := by
      rw [busy_update, busy_iff_of_outside hout]
      exact or_iff_right id
    exact iff_of_true ⟨fun hb' => hr.busy (hb.mp hb'), fun hb' => hr.quiet fun hb'' => hb' (hb.mpr hb'')⟩ trivial
  | @set i v o h =>
    have hb : (State.mk inner (Function.update s.place i (.inside v o))).Busy :=
      (busy_update ..).mpr (.inl trivial)
    exact iff_of_true ⟨fun _ => rfl, fun hq => absurd hb hq⟩ trivial
  | @restore i v o h =>
    obtain ⟨hin, hout⟩ := hs i v o (.inr h)
    have hb : (State.mk v (Function.update s.place i .outside)).Busy ↔ ∃ j, j ≠ i ∧ (s.place j).Inside := by
      rw [busy_update]
      exact or_iff_right id
    constructor
    · intro hr' v' o' h'
      rw [h, Place.inside.injEq] at h'
      obtain ⟨rfl, rfl⟩ := h'
      rw [← hb]
      constructor
      · intro ho
        by_contra hq
        exact hne ((hin ho).symm.trans (hr'.quiet hq))
      · intro hb'
        by_contra ho
        exact hne ((hr'.busy hb').symm.trans (hout ho))
    · intro ho
      have ho := (ho v o h).trans hb.symm
      exact ⟨fun hb' => hin (ho.mpr hb'), fun hq => hout fun h' => hq (ho.mp h')⟩

/-! ## One thread -/

/-- No thread saved the variable while one was in its section. -/
def State.Alone (s : State κ α) : Prop := ∀ i v o, s.place i = .saved v o ∨ s.place i = .inside v o → ¬ o

variable [Subsingleton κ]

theorem Step.alone (h : Step inner s a s') (hs : s.Alone) : s'.Alone := by
  intro j v o hj
  cases h with
  | @save i h =>
    cases Subsingleton.elim i j
    simp only [Function.update_self, Place.saved.injEq, reduceCtorEq, or_false] at hj
    rw [← hj.2]
    rintro ⟨k, hk⟩
    cases Subsingleton.elim j k
    rw [h] at hk
    exact hk
  | @set i v' o' h =>
    cases Subsingleton.elim i j
    simp only [Function.update_self, Place.inside.injEq, reduceCtorEq, false_or] at hj
    rw [← hj.2]
    exact hs j v' o' (.inl h)
  | @restore i v' o' h =>
    cases Subsingleton.elim i j
    simp only [Function.update_self, reduceCtorEq, or_self] at hj

omit [DecidableEq κ] in
theorem State.Alone.inOrder (hs : s.Alone) : s.InOrder a := by
  cases a with
  | restore i =>
    intro v o h
    exact iff_of_false (hs i v o (.inr h)) fun ⟨j, hji, _⟩ => hji (Subsingleton.elim j i)
  | _ => trivial

end NativeObjects.Lib.SavedVar
