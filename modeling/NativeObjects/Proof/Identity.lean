import NativeObjects.Proof.Links
import NativeObjects.Proof.Frames

/-!
# The identity of wrappers

Once a native has a wrapper, that is its wrapper until it is deleted: whatever
else happens, every way to ask for its wrapper gives this object and changes
nothing (`wrapper_stable`).
-/

namespace NativeObjects

variable {ι : Type} [Fintype ι] [DecidableEq ι] {M : Embedding ι}

variable (M) in
/-- In the state `s`, the object `o` is what one gets as the wrapper of the native
`n` at `p`, however one asks for it, and nothing changes when one asks. -/
structure Wraps (s : State ι) (p : NativePtr) (n : Event ι) (o : ObjectId) : Prop where
  getWrapper : Wrappable.getWrapper n s = some o
  /-- `Wrap` returns from its fast path, with no construct call, -/
  wrapFast : Hierarchy.wrapFast p s = some (some (some o))
  /-- and so leaves the state as it is, for any creation context. -/
  wrap : ∀ creationContext addr, M.wrap p creationContext addr s = some (some o, s)
  /-- No other object is linked with the native, and no field of it is written. -/
  associateWithWrapper : ∀ t wrapper, Wrappable.associateWithWrapper M.info p t wrapper s = some (some o, s)

omit [DecidableEq ι] in
theorem Linked.wraps {s : State ι} {p : NativePtr} {n : Event ι} {c : CellId} {o : ObjectId} (hp : s.Live p n)
    (hw : n.wrapper = some c) (h : Linked M s p n c o) : Wraps M s p n o := by
  have hg : Wrappable.getWrapper n s = some o := h.getWrapper hw
  have hc : Wrappable.containsWrapper n = true := by rw [Wrappable.containsWrapper, hw, Option.isSome_some]
  refine ⟨hg, ?_, fun context addr => Hierarchy.wrap_wrapped hp.native hw h.cell, fun t wrapper => ?_⟩
  · simp [Hierarchy.wrapFast, hp.native, hc, Wrappable.isEqualTo, hg]
  · rw [Wrappable.associateWithWrapper_wrapped hp.native hc, hg]

/-- After any continuation of a run, a native that had the wrapper `o` and is not
deleted has it still: `o` is what one gets, the object has the fields and the
handle the registration and the class ID that they had. -/
theorem wrapper_stable {tr tr' : List (State ι × Op ι)} {s s' : State ι} (h : M.system.Run tr s) {p : NativePtr}
    {n n' : Event ι} {o : ObjectId} (hp : s.Live p n) (ho : Wrappable.getWrapper n s = some o)
    (h' : M.system.Path s tr' s') (hp' : s'.Live p n') :
    Wraps M s' p n' o ∧ s'.objects o = s.objects o ∧
      ∃ c, n.wrapper = some c ∧ n'.wrapper = some c ∧ s'.cells c = s.cells c := by
  have hi := Inv.run h
  have hcont := Continues.path hi h'
  obtain ⟨c, hw, hl⟩ := hi.coherent.linked_of_getWrapper hp ho
  obtain ⟨hw', hc⟩ := (hcont.kept hi hp hp').wrapper c hw
  have hl' : Linked M s' p n' c o := hcont.inv.coherent.linked_of_cell hp' hw' (hc.trans hl.cell)
  refine ⟨hl'.wraps hp' hw', ?_, c, hw, hw', hc⟩
  -- the object is there, and so is the one that it was
  obtain ⟨obj, hobj, -⟩ := hl.object
  obtain ⟨obj', hobj', -⟩ := hl'.object
  rw [hobj', hcont.object o obj' hobj' (hi.coherent.objects o obj hobj).1]

/-- A native is wrapped; while script makes another event and drops it, and the
collector takes it, it keeps its wrapper. -/
theorem wrapper_stable_event : ∃ tr s tr' s' n', (V8Event.embedding .standard).system.Run tr s ∧
    (V8Event.embedding .standard).system.Path s tr' s' ∧ s'.births = 2 ∧ s'.natives 1 = none ∧
    Wraps (V8Event.embedding .standard) s' ⟨0, 0⟩ n' 0 := by
  have h₀ : (V8Event.embedding .standard).system.Run [] (.initial 0 0) := .start ⟨0, 0, rfl⟩
  have h₁ := Hierarchy.run_next (.nativeNew .event [97] 0) h₀ ⟨by decide, rfl⟩ (by decide)
  have h₂ := Hierarchy.run_next (.wrap ⟨0, 0⟩ 0 1) h₁ ⟨⟨_, rfl, rfl⟩, rfl⟩ (by decide)
  have k₁ := Hierarchy.path_next (.scriptNew ⟨0, 0⟩ [.string ⟨[98], by decide⟩] 1) h₂.rest
    ⟨⟨"Event", by decide⟩, rfl⟩ (by decide)
  have k₂ := Hierarchy.path_next (.drop 1) k₁ (show 1 ∈ _ by decide) (by decide)
  have k₃ := Hierarchy.path_next (.collect 1) k₂ ((Inv.run (h₂.append k₂)).collectable (by decide) (by decide))
    (by decide)
  exact ⟨_, _, _, _, _, h₂, k₃, by decide, by decide,
    (wrapper_stable h₂ ⟨rfl, rfl⟩ (by decide) k₃ ⟨rfl, rfl⟩).1⟩

end NativeObjects
