import NativeObjects.Lib.Simulation
import NativeObjects.Model.Collections
import NativeObjects.Proof.Races

/-!
# A collection of several objects

`State.sweep os s` is what is left of `s` without the objects `os`: without the handles
that refer to them, and the natives that they are wrappers of. Taking one object is a
sweep (`Coherent.collect_sweep`), and sweeps compose (`Coherent.sweep_sweep`). So V8's
collections, that take several objects before any of their weak callbacks runs, do what
collections of one object after another do, in whichever order (`collections_agree`).
-/

namespace NativeObjects

open Lib (System)

variable {ι : Type}

/-! ## Sweeps -/

theorem filter_of_forall {α : Type} {o : Option α} {p : α → Bool} (h : ∀ a, o = some a → p a = true) : o.filter p = o := by
  cases o with
  | none => rfl
  | some a => exact Option.filter_some_pos (h a rfl)

theorem filter_congr {α : Type} {o : Option α} {p q : α → Bool} (h : ∀ a, o = some a → p a = q a) :
    o.filter p = o.filter q := by
  cases o with
  | none => rfl
  | some a => rw [Option.filter_some, Option.filter_some, h a rfl]

namespace State

/-- The native that the object is the wrapper of. -/
def owner (s : State ι) (o : ObjectId) : Option Nat :=
  match (s.objects o).bind fun obj => obj.fields[0]? with
  | some (Field.native p) => ((s.native p).filter fun n => n.birth = p.birth).map Event.birth
  | _ => none

def sweep (os : List ObjectId) (s : State ι) : State ι :=
  { s with
    objects := fun o => if o ∈ os then none else s.objects o
    cells := fun c => (s.cells c).filter fun cell => cell.object ∉ os
    natives := fun a => (s.natives a).filter fun n => (Wrappable.getWrapper n s).all (· ∉ os)
    history := { s.history with
      deleted := (os.filterMap fun o => (s.owner o).map (·, .collector)).reverse ++ s.history.deleted } }

/-- The states are the same but for the order of what was deleted. -/
structure SameHeaps (s s' : State ι) : Prop where
  heaps : s = { s' with history := { s'.history with deleted := s.history.deleted } }
  deleted : s.history.deleted.Perm s'.history.deleted

theorem sweep_perm {os os' : List ObjectId} (h : os.Perm os') (s : State ι) : (s.sweep os).SameHeaps (s.sweep os') := by
  refine ⟨?_, ?_⟩
  · simp only [sweep, h.mem_iff]
  · exact List.Perm.append_right _ (((List.reverse_perm _).trans (h.filterMap _)).trans (List.reverse_perm _).symm)

theorem owner_eq_some_iff {s : State ι} {o : ObjectId} {b : Nat} :
    s.owner o = some b ↔ ∃ obj p n, s.objects o = some obj ∧ obj.fields[0]? = some (.native p) ∧ s.Live p n ∧
      n.birth = b := by
  constructor
  · intro h
    unfold owner at h
    split at h
    case h_1 p hf =>
      obtain ⟨obj, ho, hf⟩ := Option.bind_eq_some_iff.mp hf
      obtain ⟨n, hn, rfl⟩ := Option.map_eq_some_iff.mp h
      obtain ⟨hn, hb⟩ := Option.filter_eq_some_iff.mp hn
      exact ⟨obj, p, n, ho, hf, ⟨hn, of_decide_eq_true hb⟩, rfl⟩
    case h_2 => cases h
  · rintro ⟨obj, p, n, ho, hf, hp, rfl⟩
    rw [owner, ho, Option.bind_some, hf]
    show ((s.native p).filter _).map _ = _
    rw [hp.native, Option.filter_some, if_pos (decide_eq_true hp.2), Option.map_some]

theorem discardAll_singleton (o : ObjectId) (s : State ι) : s.discardAll [o] = s.discard o := by
  have hobj : (fun o' => if o' ∈ [o] then none else s.objects o') = Function.update s.objects o none := by
    funext o'
    by_cases ho : o' = o
    · rw [ho, Function.update_self, if_pos (List.mem_singleton_self o)]
    · rw [Function.update_of_ne ho, if_neg (fun hmem => ho (List.mem_singleton.mp hmem))]
  rw [discardAll, hobj]
  rfl

/-- What a native's wrapper is, where the handle is left. -/
theorem getWrapper_sweep {s : State ι} {os : List ObjectId} {n : Event ι}
    (h : (Wrappable.getWrapper n s).all (· ∉ os)) : Wrappable.getWrapper n (s.sweep os) = Wrappable.getWrapper n s := by
  unfold Wrappable.getWrapper at h ⊢
  cases hw : n.wrapper with
  | none => rfl
  | some c =>
    rw [hw, Option.bind_some] at h
    show ((s.cells c).filter _).map Cell.object = (s.cells c).map Cell.object
    cases hc : s.cells c with
    | none => rfl
    | some cell =>
      rw [hc, Option.map_some, Option.all_some] at h
      rw [Option.filter_some, if_pos h]

end State

variable [Fintype ι] [DecidableEq ι] {M : Embedding ι}

namespace Coherent

variable {s : State ι}

/-- The native that an object is the wrapper of. -/
theorem owner_eq_some_iff (h : Coherent M s) {o : ObjectId} {b : Nat} :
    s.owner o = some b ↔ ∃ p n, s.Live p n ∧ Wrappable.getWrapper n s = some o ∧ n.birth = b := by
  rw [State.owner_eq_some_iff]
  constructor
  · rintro ⟨obj, p, n, ho, hf, hp, hb⟩
    obtain ⟨c, hw, hl⟩ := ((h.objects o obj ho).2 p hf).2 n hp
    refine ⟨p, n, hp, ?_, hb⟩
    rw [Wrappable.getWrapper, hw, Option.bind_some, hl.cell, Option.map_some]
  · rintro ⟨p, n, hp, hg, hb⟩
    obtain ⟨c, -, hl⟩ := h.linked_of_getWrapper hp hg
    obtain ⟨obj, ho, hf, -⟩ := hl.object
    exact ⟨obj, p, n, ho, hf, hp, hb⟩

/-- Objects that no handle refers to are all that is taken. -/
theorem sweep_orphans (h : Coherent M s) {os : List ObjectId}
    (hos : ∀ c cell, s.cells c = some cell → cell.object ∉ os) : s.sweep os = s.discardAll os := by
  have hcells : (fun c => (s.cells c).filter fun cell => cell.object ∉ os) = s.cells :=
    funext fun c => filter_of_forall fun cell hc => decide_eq_true (hos c cell hc)
  have hnatives : (fun a => (s.natives a).filter fun n => (Wrappable.getWrapper n s).all (· ∉ os)) = s.natives := by
    refine funext fun a => filter_of_forall fun n hn => (Option.all_eq_true _ _).mpr fun o hg => ?_
    obtain ⟨c, -, hl⟩ := h.linked_of_getWrapper (State.live_of_native hn) hg
    exact decide_eq_true (hos c _ hl.cell)
  have howner : os.filterMap (fun o => (s.owner o).map (·, Deleter.collector)) = [] := by
    rw [List.filterMap_eq_nil_iff]
    intro o ho
    rw [Option.map_eq_none_iff, Option.eq_none_iff_forall_ne_some]
    intro b hb
    obtain ⟨p, n, hp, hgo, -⟩ := h.owner_eq_some_iff.mp hb
    obtain ⟨c, -, hl⟩ := h.linked_of_getWrapper hp hgo
    exact hos c _ hl.cell ho
  rw [State.sweep, hcells, hnatives, howner]
  rfl

/-- The wrapper of a native is taken, with the native. -/
theorem sweep_wrapper (h : Coherent M s) {o : ObjectId} {p : NativePtr} {n : Event ι} {c : CellId} (hp : s.Live p n)
    (hw : n.wrapper = some c) (hl : Linked M s p n c o) : s.sweep [o] = (s.discard o).remove .collector p n := by
  have hgo : Wrappable.getWrapper n s = some o := by
    rw [Wrappable.getWrapper, hw, Option.bind_some, hl.cell, Option.map_some]
  have hcells : (fun c => (s.cells c).filter fun cell => cell.object ∉ [o]) = Function.update s.cells c none := by
    funext d
    by_cases hd : d = c
    · rw [hd, Function.update_self, hl.cell, Option.filter_some]
      exact if_neg (by simp)
    · rw [Function.update_of_ne hd]
      refine filter_of_forall fun cell hcell => decide_eq_true fun hmem => hd ?_
      exact h.cell_unique hl.cell hcell (List.mem_singleton.mp hmem)
  have hnatives : (fun a => (s.natives a).filter fun n => (Wrappable.getWrapper n s).all (· ∉ [o])) =
      Function.update s.natives p.addr none := by
    funext a
    by_cases ha : a = p.addr
    · rw [ha, Function.update_self, hp.1, Option.filter_some, hgo]
      exact if_neg (by simp)
    · rw [Function.update_of_ne ha]
      refine filter_of_forall fun m hm => (Option.all_eq_true _ _).mpr fun o' hg => decide_eq_true fun hmem => ha ?_
      obtain ⟨d, -, hl'⟩ := h.linked_of_getWrapper (State.live_of_native hm) hg
      rw [List.mem_singleton.mp hmem] at hl'
      exact congrArg NativePtr.addr (hl'.unique hl)
  have howner : s.owner o = some n.birth := h.owner_eq_some_iff.mpr ⟨p, n, hp, hgo, rfl⟩
  have hobj := congrArg State.objects (State.discardAll_singleton o s)
  simp only [State.discardAll, State.discard] at hobj
  rw [State.sweep, hcells, hnatives, hobj]
  simp only [State.remove, State.discard, hw, List.filterMap_cons, List.filterMap_nil, howner, Option.map_some,
    List.reverse_singleton, List.singleton_append]

theorem collect_sweep (h : Coherent M s) (o : ObjectId) : s.collect o = some (s.sweep [o]) := by
  rcases h.collect o with ⟨hc, heq⟩ | ⟨p, n, c, hp, hw, hl, heq⟩
  · rw [heq, h.sweep_orphans fun c cell hcell hmem => hc c cell hcell (List.mem_singleton.mp hmem),
      State.discardAll_singleton]
  · rw [heq, h.sweep_wrapper hp hw hl]

theorem owner_sweep (h : Coherent M s) (os : List ObjectId) (o : ObjectId) :
    (s.sweep os).owner o = if o ∈ os then none else s.owner o := by
  ext b
  rw [State.owner_eq_some_iff]
  constructor
  · rintro ⟨obj, p, n, ho, hf, hp, hb⟩
    have ho' : (if o ∈ os then none else s.objects o) = some obj := ho
    split at ho'
    case isTrue => cases ho'
    case isFalse hos =>
      rw [if_neg hos, State.owner_eq_some_iff]
      exact ⟨obj, p, n, ho', hf, ⟨(Option.filter_eq_some_iff.mp hp.1).1, hp.2⟩, hb⟩
  · intro hb
    split at hb
    case isTrue => cases hb
    case isFalse hos =>
      obtain ⟨obj, p, n, ho, hf, hp, hb⟩ := State.owner_eq_some_iff.mp hb
      obtain ⟨c, hw, hl⟩ := ((h.objects o obj ho).2 p hf).2 n hp
      refine ⟨obj, p, n, (if_neg hos).trans ho, hf, ⟨Option.filter_eq_some_iff.mpr ⟨hp.1, ?_⟩, hp.2⟩, hb⟩
      rw [Wrappable.getWrapper, hw, Option.bind_some, hl.cell]
      exact decide_eq_true hos

/-- One sweep after another. -/
theorem sweep_sweep (h : Coherent M s) (os os' : List ObjectId) :
    (s.sweep os).sweep os' = s.sweep (os ++ os'.filter (· ∉ os)) := by
  have hmem : ∀ o, o ∈ os ++ os'.filter (· ∉ os) ↔ o ∈ os ∨ o ∈ os' := by
    intro o
    rw [List.mem_append, List.mem_filter, decide_eq_true_iff]
    by_cases ho : o ∈ os <;> simp [ho]
  have hobjects : (fun o => if o ∈ os' then none else (s.sweep os).objects o) =
      fun o => if o ∈ os ++ os'.filter (· ∉ os) then none else s.objects o := by
    funext o
    simp only [hmem, State.sweep]
    by_cases ho : o ∈ os <;> by_cases ho' : o ∈ os' <;> simp [ho, ho']
  have hcells : (fun c => ((s.sweep os).cells c).filter fun cell => cell.object ∉ os') =
      fun c => (s.cells c).filter fun cell => cell.object ∉ os ++ os'.filter (· ∉ os) := by
    funext c
    show ((s.cells c).filter _).filter _ = _
    rw [Option.filter_filter]
    refine filter_congr fun cell _ => ?_
    simp only [hmem, not_or, Bool.decide_and]
  have hnatives : (fun a => ((s.sweep os).natives a).filter fun n =>
      (Wrappable.getWrapper n (s.sweep os)).all (· ∉ os')) =
      fun a => (s.natives a).filter fun n => (Wrappable.getWrapper n s).all (· ∉ os ++ os'.filter (· ∉ os)) := by
    funext a
    show ((s.natives a).filter _).filter _ = _
    rw [Option.filter_filter]
    refine filter_congr fun n _ => ?_
    have hsplit : (Wrappable.getWrapper n s).all (· ∉ os ++ os'.filter (· ∉ os)) =
        ((Wrappable.getWrapper n s).all (· ∉ os) && (Wrappable.getWrapper n s).all (· ∉ os')) := by
      cases Wrappable.getWrapper n s with
      | none => rfl
      | some o =>
        simp only [Option.all_some, hmem, not_or, Bool.decide_and]
    rw [hsplit]
    cases hall : (Wrappable.getWrapper n s).all (· ∉ os) with
    | false => rfl
    | true => rw [State.getWrapper_sweep hall]
  have hdeleted : os'.filterMap (fun o => ((s.sweep os).owner o).map (·, Deleter.collector)) =
      (os'.filter (· ∉ os)).filterMap fun o => (s.owner o).map (·, .collector) := by
    rw [List.filterMap_filter]
    refine List.filterMap_congr fun o _ => ?_
    rw [h.owner_sweep]
    by_cases ho : o ∈ os <;> simp [ho]
  rw [State.sweep, hobjects, hcells, hnatives, hdeleted]
  simp only [State.sweep, List.filterMap_append, List.reverse_append, List.append_assoc]

theorem sweep_one (h : Coherent M s) (o : ObjectId) : Coherent M (s.sweep [o]) := (h.collect_keeps (h.collect_sweep o)).1

/-- The weak callback of a handle whose object was taken deletes the native. -/
theorem fireWeakOf_own (h : Coherent M s) {os : List ObjectId} {c : CellId} {cell : Cell} (hc : s.cells c = some cell)
    (ho : cell.object ∈ os) :
    (s.discardAll os).fireWeakOf os c = some ((s.sweep [cell.object]).discardAll os) := by
  obtain ⟨-, p, n, hp, hw⟩ := h.cells c cell hc
  have hl := h.linked_of_cell hp hw hc
  have hweak : cell.weak = some p := congrArg Cell.weak (Option.some.inj (hc.symm.trans hl.cell))
  have hc' : (s.discardAll os).cells c = some cell := hc
  have hn : (s.discardAll os).native p = some n := hp.native
  have hobj : (fun o => if o ∈ os then none else Function.update s.objects cell.object none o) =
      fun o => if o ∈ os then none else s.objects o := by
    funext o
    by_cases hoo : o = cell.object
    · rw [hoo, if_pos ho, if_pos ho]
    · rw [Function.update_of_ne hoo]
  simp only [State.fireWeakOf, hc', ho, if_true, State.fireWeak_own hc' rfl hweak hn hw]
  rw [h.sweep_wrapper hp hw hl]
  simp only [State.discardAll, State.remove, State.discard, hobj]

/-- However the weak callbacks are ordered, the collection sweeps the objects. -/
theorem collectAll_sweep {os : List ObjectId} (hos : os.Nodup) {cs : List CellId} (h : Coherent M s)
    (hcs : ∀ c cell, s.cells c = some cell → cell.object ∈ os → c ∈ cs) :
    ∃ os', os'.Perm os ∧ s.collectAll os cs = some (s.sweep os') := by
  induction cs generalizing s with
  | nil =>
    refine ⟨os, .refl os, ?_⟩
    rw [h.sweep_orphans fun c cell hc ho => absurd (hcs c cell hc ho) List.not_mem_nil]
    rfl
  | cons c cs ih =>
    have hskip : (∀ cell, s.cells c = some cell → cell.object ∉ os) →
        ∃ os', os'.Perm os ∧ s.collectAll os (c :: cs) = some (s.sweep os') := by
      intro hc
      have hfire : (s.discardAll os).fireWeakOf os c = some (s.discardAll os) := by
        unfold State.fireWeakOf
        cases hcell : (s.discardAll os).cells c with
        | none => rfl
        | some cell => exact if_neg (hc cell hcell)
      obtain ⟨os', hperm, heq⟩ := ih h fun d cell hd ho =>
        (List.mem_cons.mp (hcs d cell hd ho)).resolve_left fun hdc => hc cell (hdc ▸ hd) ho
      refine ⟨os', hperm, ?_⟩
      rw [State.collectAll, List.foldlM_cons, hfire]
      exact heq
    cases hc : s.cells c with
    | none => exact hskip fun cell hcell => absurd (hc.symm.trans hcell) (by simp)
    | some cell =>
      by_cases ho : cell.object ∈ os
      · obtain ⟨os', hperm, heq⟩ := ih (h.sweep_one cell.object) fun d cell' hd ho' => by
          obtain ⟨hd, hne⟩ := Option.filter_eq_some_iff.mp hd
          refine (List.mem_cons.mp (hcs d cell' hd ho')).resolve_left fun hdc => ?_
          rw [hdc] at hd
          cases hc.symm.trans hd
          exact of_decide_eq_true hne (List.mem_singleton_self _)
        have ho' : cell.object ∈ os' := hperm.mem_iff.mpr ho
        have herase : os'.filter (· ∉ [cell.object]) = os'.erase cell.object := by
          rw [(hperm.nodup_iff.mpr hos).erase_eq_filter]
          refine List.filter_congr fun o _ => ?_
          by_cases hoo : o = cell.object <;> simp [hoo]
        refine ⟨[cell.object] ++ os'.filter (· ∉ [cell.object]), ?_, ?_⟩
        · rw [herase]
          exact (List.perm_cons_erase ho').symm.trans hperm
        · rw [State.collectAll, List.foldlM_cons, h.fireWeakOf_own hc ho, ← h.sweep_sweep]
          exact heq
      · exact hskip fun cell' hcell => by
          cases hc.symm.trans hcell
          exact ho

end Coherent

/-! ## Runs -/

/-- A program may collect the objects one after another. -/
theorem Inv.collect_path {tr : List (State ι × Op ι)} {s : State ι} (h : M.system.Run tr s) {os : List ObjectId}
    (hos : os.Nodup) (hdead : ∀ o ∈ os, s.objects o ≠ none ∧ o ∉ s.reached) :
    ∃ tr', M.system.Path s tr' (s.sweep os) ∧ System.labels tr' = (os.map Op.collect).reverse := by
  induction os using List.reverseRecOn with
  | nil =>
    refine ⟨[], ?_, rfl⟩
    have hnil : s.sweep [] = s := by
      rw [(Inv.run h).coherent.sweep_orphans fun _ _ _ => List.not_mem_nil]
      rfl
    rw [hnil]
    exact .refl
  | append_singleton os o ih =>
    obtain ⟨hos, -, hdisj⟩ := List.nodup_append.mp hos
    have ho : o ∉ os := fun hmem => hdisj o hmem o (List.mem_singleton_self o) rfl
    obtain ⟨tr', hpath, hlabels⟩ := ih hos fun o ho => hdead o (List.mem_append_left _ ho)
    have hi := Inv.run (h.append hpath)
    obtain ⟨hobj, hr⟩ := hdead o (List.mem_append_right _ (List.mem_singleton_self o))
    have hobj' : (s.sweep os).objects o ≠ none := by
      show (if o ∈ os then none else s.objects o) ≠ none
      rw [if_neg ho]
      exact hobj
    have hstep : M.system.step (s.sweep os) (.collect o) (s.sweep (os ++ [o])) := by
      refine ⟨hi.collectable hobj' hr, (hi.coherent.collect_sweep o).trans ?_⟩
      rw [(Inv.run h).coherent.sweep_sweep, List.filter_singleton, decide_eq_true ho, cond_true]
    refine ⟨_, hpath.step hstep, ?_⟩
    rw [System.labels, List.map_cons, ← System.labels, hlabels, List.map_append, List.reverse_append]
    rfl

/-- V8 takes several objects that are no longer reached, and runs the weak callbacks
after it, in any order: this does what collecting the objects one after another does, and
in whichever order they are collected, the heaps end up the same. -/
theorem collections_agree {tr : List (State ι × Op ι)} {s : State ι} (h : M.system.Run tr s) {os : List ObjectId}
    (hos : os.Nodup) (hdead : ∀ o ∈ os, s.objects o ≠ none ∧ o ∉ s.reached) {cs : List CellId}
    (hcs : ∀ c cell, s.cells c = some cell → cell.object ∈ os → c ∈ cs) :
    (∃ os', os'.Perm os ∧ s.collectAll os cs = some (s.sweep os')) ∧
      ∀ os', os'.Perm os → (s.sweep os').SameHeaps (s.sweep os) ∧
        ∃ tr', M.system.Path s tr' (s.sweep os') ∧ System.labels tr' = (os'.map Op.collect).reverse := by
  refine ⟨(Inv.run h).coherent.collectAll_sweep hos hcs, fun os' hperm => ⟨State.sweep_perm hperm s, ?_⟩⟩
  exact Inv.collect_path h (hperm.nodup_iff.mpr hos) fun o ho => hdead o (hperm.mem_iff.mp ho)

/-- Two events are collected, and the weak callback of the second runs first. -/
theorem collections_agree_event : ∃ tr s, (V8Event.embedding .standard).system.Run tr s ∧ s.births = 2 ∧
    (∃ os', os'.Perm [0, 1] ∧ s.collectAll [0, 1] [1, 0] = some (s.sweep os')) ∧
    (s.sweep [1, 0]).SameHeaps (s.sweep [0, 1]) := by
  have h₀ : (V8Event.embedding .standard).system.Run [] (.initial 0 0) := .start ⟨0, 0, rfl⟩
  have h₁ := Hierarchy.run_next (.interfaceTemplate .event) h₀ trivial (by decide)
  have h₂ := Hierarchy.run_next (.scriptNew ⟨0, 0⟩ [.string ⟨[97], by decide⟩] 0) h₁ ⟨⟨"Event", by decide⟩, rfl⟩
    (by decide)
  have h₃ := Hierarchy.run_next (.scriptNew ⟨0, 0⟩ [.string ⟨[98], by decide⟩] 1) h₂ ⟨⟨"Event", by decide⟩, rfl⟩
    (by decide)
  have h₄ := Hierarchy.run_next (.drop 0) h₃ (show 0 ∈ _ by decide) (by decide)
  have h₅ := Hierarchy.run_next (.drop 1) h₄ (show 1 ∈ _ by decide) (by decide)
  refine ⟨_, _, h₅, by decide, (collections_agree h₅ ?nodup ?dead ?cells).1,
    ((collections_agree h₅ ?nodup ?dead ?cells).2 [1, 0] (.swap ..)).1⟩
  · decide
  · decide
  · intro c cell hc _
    have hlt : c < 2 := ((Inv.run h₅).coherent.cells c cell hc).1
    rcases Nat.le_one_iff_eq_zero_or_eq_one.mp (Nat.le_of_lt_succ hlt) with rfl | rfl <;> decide

end NativeObjects
