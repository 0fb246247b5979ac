import NativeObjects.Proof.Cycles
import NativeObjects.Proof.Main

/-!
# What a full collection leaves

A collection is full if it takes every object that script does not reach. It leaves the
natives without a wrapper, and those whose wrapper script reaches (`full_collection`).
The program of `main.cpp` has no natives without a wrapper: a full collection leaves one
native for each object that script reaches, and no other (`Main.no_leak`).
-/

namespace NativeObjects

open Lib (System)

variable {ι : Type}

namespace State

variable (s : State ι)

/-- The objects that a full collection takes, and cells that have theirs among them. -/
structure Garbage (os : List ObjectId) (cs : List CellId) : Prop where
  nodup : os.Nodup
  objects : ∀ o, o ∈ os ↔ s.objects o ≠ none ∧ o ∉ s.reached
  cells : ∀ c cell, s.cells c = some cell → cell.object ∈ os → c ∈ cs

variable {s} in
theorem Garbage.notMem_iff {os : List ObjectId} {cs : List CellId} (h : s.Garbage os cs) {o : ObjectId}
    (ho : s.objects o ≠ none) : o ∉ os ↔ o ∈ s.reached := by
  rw [h.objects, not_and, not_not]
  exact ⟨fun hr => hr ho, fun hr _ => hr⟩

/-- `s'` is what a full collection leaves of `s`. -/
structure Reclaimed (s' : State ι) : Prop where
  reached : s'.reached = s.reached
  objects : ∀ o, s'.objects o = if o ∈ s.reached then s.objects o else none
  cells : ∀ c cell, s'.cells c = some cell ↔ s.cells c = some cell ∧ cell.object ∈ s.reached
  live : ∀ p n, s'.Live p n ↔ s.Live p n ∧ ∀ o, Wrappable.getWrapper n s = some o → o ∈ s.reached

end State

variable [Fintype ι] [DecidableEq ι] {M : Embedding ι} {s : State ι}

namespace Inv

theorem exists_garbage (h : Inv M s) : ∃ os cs, s.Garbage os cs := by
  refine ⟨(List.range s.nextObject).filter fun o => (s.objects o).isSome ∧ o ∉ s.reached, List.range s.nextCell,
    List.nodup_range.filter _, fun o => ?_, fun c cell hc _ => List.mem_range.mpr (h.coherent.cells c cell hc).1⟩
  rw [List.mem_filter, List.mem_range, decide_eq_true_iff, Option.isSome_iff_ne_none]
  refine ⟨And.right, fun ho => ⟨?_, ho⟩⟩
  obtain ⟨obj, hobj⟩ := Option.ne_none_iff_exists'.mp ho.1
  exact (h.coherent.objects o obj hobj).1

theorem reclaimed_sweep (h : Inv M s) {os os' : List ObjectId} {cs : List CellId} (hg : s.Garbage os cs)
    (hperm : os'.Perm os) : s.Reclaimed (s.sweep os') := by
  have hmem : ∀ {o}, s.objects o ≠ none → (o ∉ os' ↔ o ∈ s.reached) := by
    intro o ho
    rw [hperm.mem_iff, hg.notMem_iff ho]
  have hcell : ∀ c cell, s.cells c = some cell → s.objects cell.object ≠ none := by
    intro c cell hc
    obtain ⟨-, p, n, hp, hw⟩ := h.coherent.cells c cell hc
    obtain ⟨obj, ho, -⟩ := (h.coherent.linked_of_cell hp hw hc).object
    rw [ho]
    exact Option.some_ne_none obj
  refine ⟨rfl, fun o => ?_, fun c cell => ?_, fun p n => ?_⟩
  · show (if o ∈ os' then none else s.objects o) = _
    cases ho : s.objects o with
    | none => simp
    | some obj =>
      have := hmem (show s.objects o ≠ none by rw [ho]; exact Option.some_ne_none obj)
      by_cases hr : o ∈ s.reached
      · rw [if_pos hr, if_neg (this.mpr hr)]
      · rw [if_neg hr, if_pos (not_not.mp fun hn => hr (this.mp hn))]
  · show (s.cells c).filter _ = some cell ↔ _
    rw [Option.filter_eq_some_iff, decide_eq_true_iff]
    exact and_congr_right fun hc => hmem (hcell c cell hc)
  · show (s.natives p.addr).filter _ = some n ∧ _ ↔ (s.natives p.addr = some n ∧ _) ∧ _
    rw [Option.filter_eq_some_iff, Option.all_eq_true, and_right_comm]
    refine and_congr_right fun hp => forall₂_congr fun o hgo => ?_
    obtain ⟨c, -, hl⟩ := h.coherent.linked_of_getWrapper hp hgo
    rw [decide_eq_true_iff]
    exact hmem (hcell c _ hl.cell)

end Inv

/-- In every state of a program: a full collection, however its weak callbacks are
ordered, does what collecting its objects one after another does, and leaves the natives
that are not wrapped and those whose wrapper script reaches. -/
theorem full_collection {tr : List (State ι × Op ι)} {s : State ι} (h : M.system.Run tr s) :
    (∃ os cs, s.Garbage os cs) ∧ ∀ os cs, s.Garbage os cs →
      ∃ os' : List ObjectId, ∃ s' tr', os'.Perm os ∧ s.collectAll os cs = some s' ∧ M.system.Path s tr' s' ∧
        System.labels tr' = (os'.map Op.collect).reverse ∧ s.Reclaimed s' := by
  have hi := Inv.run h
  refine ⟨hi.exists_garbage, fun os cs hg => ?_⟩
  obtain ⟨os', hperm, hx⟩ := hi.coherent.collectAll_sweep hg.nodup hg.cells
  obtain ⟨tr', hpath, hlabels⟩ := Inv.collect_path h (hperm.nodup_iff.mpr hg.nodup)
    fun o ho => (hg.objects o).mp (hperm.mem_iff.mp ho)
  exact ⟨os', _, tr', hperm, hx, hpath, hlabels, hi.reclaimed_sweep hg hperm⟩

/-- An event that was dropped, one that was not, and a native that is not wrapped. -/
theorem full_collection_event : ∃ tr s, (V8Event.embedding .standard).system.Run tr s ∧ s.reached = [1] ∧
    s.births = 3 ∧ ∃ os cs, 0 ∈ os ∧ ∃ os' : List ObjectId, ∃ s' tr', os'.Perm os ∧ s.collectAll os cs = some s' ∧
      (V8Event.embedding .standard).system.Path s tr' s' ∧
      System.labels tr' = (os'.map Op.collect).reverse ∧ s.Reclaimed s' := by
  have h₀ : (V8Event.embedding .standard).system.Run [] (.initial 0 0) := .start ⟨0, 0, rfl⟩
  have h₁ := Hierarchy.run_next (.interfaceTemplate .event) h₀ trivial (by decide)
  have h₂ := Hierarchy.run_next (.scriptNew ⟨0, 0⟩ [.string ⟨[97], by decide⟩] 0) h₁ ⟨⟨"Event", by decide⟩, rfl⟩
    (by decide)
  have h₃ := Hierarchy.run_next (.scriptNew ⟨0, 0⟩ [.string ⟨[98], by decide⟩] 1) h₂ ⟨⟨"Event", by decide⟩, rfl⟩
    (by decide)
  have h₄ := Hierarchy.run_next (.drop 0) h₃ (show 0 ∈ _ by decide) (by decide)
  have h₅ := Hierarchy.run_next (.nativeNew .event [99] 2) h₄ ⟨by decide, rfl⟩ (by decide)
  obtain ⟨tr, s, hrun, hr, hb, ho⟩ : ∃ tr s, (V8Event.embedding .standard).system.Run tr s ∧ s.reached = [1] ∧
      s.births = 3 ∧ (s.objects 0).isSome := ⟨_, _, h₅, by decide, by decide, by decide⟩
  obtain ⟨⟨os, cs, hg⟩, hfull⟩ := full_collection hrun
  refine ⟨tr, s, hrun, hr, hb, os, cs, (hg.objects 0).mpr ⟨Option.isSome_iff_ne_none.mp ho, ?_⟩, hfull os cs hg⟩
  rw [hr]
  decide

namespace Main

open V8Event (EventType)

variable {V : StringConversions} {s : State EventType}

theorem Served.wrapped {made : ObjectId → Option (JSValue × BitVec 32)} (h : Served V s made) {p : NativePtr}
    {n : Event EventType} (hp : s.Live p n) : ∃ o, Wrappable.getWrapper n s = some o := by
  obtain ⟨w, ha, hw⟩ := h.world
  exact Option.ne_none_iff_exists'.mp (hw.events _ _ (ha.event hp)).2

/-- After a full collection between the steps of the scripts of `main.cpp`, there is one
native for each object that script reaches, the one that it names, and no other. -/
theorem no_leak {tr : List (State EventType × Step)} {s : State EventType} (h : (program V).Run tr s)
    {os : List ObjectId} {cs : List CellId} (hg : s.Garbage os cs) :
    ∃ s', s.collectAll os cs = some s' ∧ s'.reached = s.reached ∧
      (∀ o ∈ s.reached, ∃ p, Config.toImpl o s' = some (some p) ∧ s'.IsLive p) ∧
      ∀ p, s'.IsLive p → ∃! o, o ∈ s.reached ∧ Config.toImpl o s' = some (some p) := by
  have hserved := Served.of_run h
  have hc := hserved.inv.coherent
  obtain ⟨os', hperm, hx⟩ := hc.collectAll_sweep hg.nodup hg.cells
  have hs := hserved.inv.reclaimed_sweep hg hperm
  have hfield : ∀ {o p}, o ∈ s.reached → (Config.toImpl o (s.sweep os') = some (some p) ↔
      ∃ obj, s.objects o = some obj ∧ obj.fields[0]? = some (.native p)) := by
    intro o p ho
    rw [Config.toImpl_eq_some_iff, hs.objects, if_pos ho]
  refine ⟨_, hx, hs.reached, fun o ho => ?_, fun p hp => ?_⟩
  · obtain ⟨w, ha, hw⟩ := hserved.world
    obtain ⟨obj, p, hobj, hf⟩ := hserved.inv.reached_field ho
    obtain ⟨n, hp, -⟩ := hw.live hc ha hobj hf
    have hgo := (hc.getWrapper_iff hp).mpr ⟨obj, hobj, hf⟩
    refine ⟨p, (hfield ho).mpr ⟨obj, hobj, hf⟩, n, (hs.live p n).mpr ⟨hp, fun o' hgo' => ?_⟩⟩
    cases hgo.symm.trans hgo'
    exact ho
  · obtain ⟨n, hp⟩ := hp
    obtain ⟨hp, hreached⟩ := (hs.live p n).mp hp
    obtain ⟨o, hgo⟩ := hserved.wrapped hp
    refine ⟨o, ⟨hreached o hgo, (hfield (hreached o hgo)).mpr ((hc.getWrapper_iff hp).mp hgo)⟩, ?_⟩
    rintro o' ⟨ho', hf'⟩
    exact Option.some.inj (((hc.getWrapper_iff hp).mpr ((hfield ho').mp hf')).symm.trans hgo)

/-- The event that script made is dropped, the one of `nativeFactory` is not. -/
theorem no_leak_factory : ∃ tr s, (program .standard).Run tr s ∧ s.births = 2 ∧ s.reached = [1] ∧
    ∃ os cs s', s.collectAll os cs = some s' ∧ ∀ p, s'.IsLive p → Config.toImpl 1 s' = some (some p) := by
  have h₀ : (program .standard).Run [] ((runV8Stuff .standard 0 0).get (by decide)) :=
    .start ⟨0, 0, (Option.some_get _).symm⟩
  have h₁ := program_next (.run (.scriptNew ⟨0, 0⟩ [.string ⟨[97], by decide⟩] 0)) h₀
    ⟨trivial, ⟨"Event", by decide⟩, rfl⟩ (by decide)
  have h₂ := program_next (.run (.drop 0)) h₁ ⟨trivial, show 0 ∈ _ by decide⟩ (by decide)
  have h₃ := program_next (.nativeFactory 7 1 2) h₂ ⟨rfl, rfl, by decide⟩ (by decide)
  obtain ⟨tr, s, hrun, hb, hr⟩ : ∃ tr s, (program .standard).Run tr s ∧ s.births = 2 ∧ s.reached = [1] :=
    ⟨_, _, h₃, by decide, by decide⟩
  obtain ⟨os, cs, hg⟩ := (Served.of_run hrun).inv.exists_garbage
  obtain ⟨s', hx, -, -, hlive⟩ := no_leak hrun hg
  refine ⟨tr, s, hrun, hb, hr, os, cs, s', hx, fun p hp => ?_⟩
  obtain ⟨o, ⟨ho, hf⟩, -⟩ := hlive p hp
  rw [hr] at ho
  cases List.mem_singleton.mp ho
  exact hf

end Main

end NativeObjects
