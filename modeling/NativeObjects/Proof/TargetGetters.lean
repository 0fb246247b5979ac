import NativeObjects.Proof.Identity
import NativeObjects.Proof.Targets

/-!
# The getters of targets

A getter of a target gives null for a null pointer. For a live target it gives
what `GetWrapper` gives, where nobody may have wrapped the target: that is the
target's one wrapper, and stays it in later reads, exactly when the target has
a wrapper and lives as long as it is read (`target_getter_iff`).
-/

namespace NativeObjects

open Lib (System)

variable {ι : Type} [Fintype ι] [DecidableEq ι] {M : Embedding ι}

/-- The fields of an event that point to another native. -/
inductive TargetField where
  | target
  | currentTarget

namespace TargetField

def get (ev : Event ι) : TargetField → Option NativePtr
  | target => ev.target
  | currentTarget => ev.currentTarget

/-- The callback that is installed for the field. -/
def callback : TargetField → FunctionCallback ι
  | target => .targetGetter
  | currentTarget => .currentTargetGetter

end TargetField

/-- What a call of the getter of `field` on the object `o` returns. -/
def Hierarchy.readsField (M : Hierarchy ι) (field : TargetField) (o : ObjectId) (s : State ι) : Option Outcome :=
  (M.invoke field.callback { isConstructCall := false, holder := o, args := [] } 0 s).map Prod.fst

/-- Script reaches the wrapper `o` of the live event at `p`, whose field is `impl`. -/
def State.Shows (s : State ι) (field : TargetField) (o : ObjectId) (p : NativePtr) (impl : Option NativePtr) : Prop :=
  o ∈ s.reached ∧ ∃ ev, s.Live p ev ∧ Wrappable.getWrapper ev s = some o ∧ field.get ev = impl

variable (M) in
/-- In the state `s`, and in the states after it on a path, the getter of `field`
on `o` returns the one wrapper of the native at `q`. -/
def ReadsWrapper (field : TargetField) (o : ObjectId) (p q : NativePtr) (s : State ι) (tr' : List (State ι × Op ι))
    (s' : State ι) : Prop :=
  ∃ o' n, M.readsField field o s = some (.returned (.object o')) ∧ s.Live q n ∧ Wraps M s q n o' ∧
    (∀ o'', Config.toImpl o'' s = some (some q) ↔ o'' = o') ∧
    ∀ t ∈ System.visited tr' s', t.Shows field o p (some q) → M.readsField field o t = some (.returned (.object o'))

omit [DecidableEq ι] in
theorem Hierarchy.readsField_getterOf (M : Hierarchy ι) (field : TargetField) (o : ObjectId) (s : State ι) :
    M.readsField field o s =
      (getterOf (fun ev s => V8EventInternal.readTarget (field.get ev) s) o s).map .returned := by
  cases field <;> exact Option.map_map ..

/-- A getter gives what the field of the event holds. -/
theorem readsField_eq {s : State ι} (hi : Coherent M s) {field : TargetField} {o : ObjectId} {p : NativePtr}
    {impl : Option NativePtr} (h : s.Shows field o p impl) :
    M.readsField field o s = (V8EventInternal.readTarget impl s).map .returned := by
  obtain ⟨-, ev, hp, hg, rfl⟩ := h
  have himpl := Config.toImpl_eq_some_iff.mpr ((hi.getWrapper_iff hp).mp hg)
  rw [M.readsField_getterOf, getterOf_eq himpl hp.native]

/-- A getter gives an object exactly if that is the wrapper of what is at the target's address. -/
theorem readsField_object_iff {s : State ι} (hi : Coherent M s) {field : TargetField} {o o' : ObjectId}
    {p q : NativePtr} (h : s.Shows field o p (some q)) :
    M.readsField field o s = some (.returned (.object o')) ↔
      ∃ m, s.native q = some m ∧ Wrappable.getWrapper m s = some o' := by
  rw [readsField_eq hi h]
  show ((s.native q).map _).map Outcome.returned = _ ↔ _
  cases hm : s.native q with
  | none => simp
  | some m => cases hg : Wrappable.getWrapper m s <;> simp [JSValue.ofLocal, hg]

/-- Reading the field of an event whose target is live. The rest of a run may delete
the target and use its address again; what is there then has another wrapper. -/
theorem readsWrapper_iff {tr' : List (State ι × Op ι)} {s s' : State ι} (hi : Inv M s) {field : TargetField}
    {o : ObjectId} {p q : NativePtr} (h : s.Shows field o p (some q))
    (h' : M.system.Path s tr' s') :
    ReadsWrapper M field o p q s tr' s' ↔ (∃ n, s.Live q n ∧ Wrappable.containsWrapper n = true) ∧
      ∀ t ∈ System.visited tr' s', t.Shows field o p (some q) → t.IsLive q := by
  have hlater : ∀ t ∈ System.visited tr' s', Continues M s t := by
    intro t ht
    obtain ⟨tr₁, hpath⟩ := h'.of_visited ht
    exact Continues.path hi hpath
  constructor
  · rintro ⟨o', n, -, hn, hwraps, -, hread⟩
    have hg := hwraps.getWrapper
    obtain ⟨c, hw, hl⟩ := hi.coherent.linked_of_getWrapper hn hg
    refine ⟨⟨n, hn, by rw [Wrappable.containsWrapper, hw, Option.isSome_some]⟩, fun t ht hshow => ?_⟩
    have hcont := hlater t ht
    obtain ⟨m, hm, hgm⟩ := (readsField_object_iff hcont.inv.coherent hshow).mp (hread t ht hshow)
    have hm' : t.Live ⟨q.addr, m.birth⟩ m := State.live_of_native hm
    -- the object that is returned is the one that named the target
    obtain ⟨obj, hobj, hf⟩ := (hi.coherent.getWrapper_iff hn).mp hg
    obtain ⟨obj', hobj', hf'⟩ := (hcont.inv.coherent.getWrapper_iff hm').mp hgm
    have heq := hcont.object o' obj' hobj' (hi.coherent.objects o' obj hobj).1
    rw [hobj, Option.some.injEq] at heq
    rw [← heq, hf, Option.some.injEq, Field.native.injEq] at hf'
    exact hf' ▸ ⟨m, hm'⟩
  · rintro ⟨⟨n, hn, hw⟩, hlive⟩
    obtain ⟨c, hc⟩ := Option.isSome_iff_exists.mp hw
    obtain ⟨o', hl⟩ := hi.coherent.linked q n c hn hc
    have hg : Wrappable.getWrapper n s = some o' := hl.getWrapper hc
    have hwraps : Wraps M s q n o' := hl.wraps hn hc
    refine ⟨o', n, (readsField_object_iff hi.coherent h).mpr ⟨n, hn.native, hg⟩, hn, hwraps, fun o'' => ?_,
      fun t ht hshow => ?_⟩
    · rw [Config.toImpl_eq_some_iff, ← hi.coherent.getWrapper_iff hn, hg, Option.some.injEq]
      exact eq_comm
    · obtain ⟨m, hm⟩ := hlive t ht hshow
      have hkept := (hlater t ht).kept hi hn hm
      exact (readsField_object_iff (hlater t ht).inv.coherent hshow).mpr ⟨m, hm.native, hkept.getWrapper hg⟩

omit [DecidableEq ι] in
theorem not_readsWrapper_of_undefined {tr' : List (State ι × Op ι)} {s s' : State ι} {field : TargetField}
    {o : ObjectId} {p q : NativePtr} (h : M.readsField field o s = some (.returned .undefined)) :
    ¬ ReadsWrapper M field o p q s tr' s' := by
  rintro ⟨o', n, hread, -⟩
  rw [h] at hread
  exact absurd hread (by simp)

/-- In every state of a program, for both fields: a getter gives null for a null
pointer; for a live target it gives the target's one wrapper, now and in later
reads, exactly when the target has a wrapper and lives as long as it is read. -/
theorem target_getter_iff {tr : List (State ι × Op ι)} {s : State ι} (h : M.system.Run tr s) (field : TargetField)
    {o : ObjectId} {p : NativePtr} {impl : Option NativePtr} (hshow : s.Shows field o p impl) :
    (impl = none → M.readsField field o s = some (.returned .null)) ∧
      ∀ q, impl = some q → ∀ tr' s', M.system.Path s tr' s' →
        (ReadsWrapper M field o p q s tr' s' ↔ (∃ n, s.Live q n ∧ Wrappable.containsWrapper n = true) ∧
          ∀ t ∈ System.visited tr' s', t.Shows field o p (some q) → t.IsLive q) := by
  have hi := Inv.run h
  refine ⟨fun hnone => ?_, fun q hsome tr' s' h' => ?_⟩
  · rw [readsField_eq hi.coherent hshow, hnone]
    rfl
  · subst hsome
    exact readsWrapper_iff hi hshow h'

/-- Script makes two events, one of which gets the other as its target. -/
theorem target_getter_iff_event : ∃ tr s, (V8Event.embedding .standard).system.Run tr s ∧
    (V8Event.embedding .standard).readsField .currentTarget 0 s = some (.returned .null) ∧
    ReadsWrapper (V8Event.embedding .standard) .target 0 ⟨0, 0⟩ ⟨1, 1⟩ s [] s := by
  have h₀ : (V8Event.embedding .standard).system.Run [] (.initial 0 0) := .start ⟨0, 0, rfl⟩
  have h₁ := Hierarchy.run_next (.interfaceTemplate .event) h₀ trivial (by decide)
  have h₂ := Hierarchy.run_next (.scriptNew ⟨0, 0⟩ [.string ⟨[97], by decide⟩] 0) h₁ ⟨⟨"Event", by decide⟩, rfl⟩
    (by decide)
  have h₃ := Hierarchy.run_next (.scriptNew ⟨0, 0⟩ [.string ⟨[98], by decide⟩] 1) h₂ ⟨⟨"Event", by decide⟩, rfl⟩
    (by decide)
  have h₄ := Hierarchy.run_next (.setTarget ⟨0, 0⟩ (some ⟨1, 1⟩)) h₃
    ⟨⟨_, rfl, rfl⟩, State.nullOrLive_some ⟨rfl, rfl⟩⟩ (by decide)
  refine ⟨_, _, h₄, ?_, ?_⟩
  · have hnull := target_getter_iff h₄ .currentTarget
      (show State.Shows _ .currentTarget 0 ⟨0, 0⟩ none from ⟨by decide, _, ⟨rfl, rfl⟩, rfl, rfl⟩)
    exact hnull.1 rfl
  · exact ((target_getter_iff h₄ .target ⟨by decide, _, ⟨rfl, rfl⟩, rfl, rfl⟩).2 ⟨1, 1⟩ rfl [] _ h₄.rest).mpr
      ⟨⟨_, ⟨rfl, rfl⟩, rfl⟩, List.forall_mem_singleton.mpr fun _ => ⟨_, rfl, rfl⟩⟩

/-- Native code makes two events and wraps the first, whose target is the second:
the target that script reads is undefined. -/
theorem not_readsWrapper_event : ∃ tr s, (V8Event.embedding .standard).system.Run tr s ∧
    s.Shows .target 0 ⟨0, 0⟩ (some ⟨1, 1⟩) ∧ s.IsLive ⟨1, 1⟩ ∧
    (V8Event.embedding .standard).readsField .target 0 s = some (.returned .undefined) ∧
    ¬ ReadsWrapper (V8Event.embedding .standard) .target 0 ⟨0, 0⟩ ⟨1, 1⟩ s [] s := by
  have h₀ : (V8Event.embedding .standard).system.Run [] (.initial 0 0) := .start ⟨0, 0, rfl⟩
  have h₁ := Hierarchy.run_next (.nativeNew .event [97] 0) h₀ ⟨by decide, rfl⟩ (by decide)
  have h₂ := Hierarchy.run_next (.wrap ⟨0, 0⟩ 0 1) h₁ ⟨⟨_, rfl, rfl⟩, rfl⟩ (by decide)
  have h₃ := Hierarchy.run_next (.nativeNew .event [98] 1) h₂ ⟨by decide, rfl⟩ (by decide)
  have h₄ := Hierarchy.run_next (.setTarget ⟨0, 0⟩ (some ⟨1, 1⟩)) h₃
    ⟨⟨_, rfl, rfl⟩, State.nullOrLive_some ⟨rfl, rfl⟩⟩ (by decide)
  exact ⟨_, _, h₄, ⟨by decide, _, ⟨rfl, rfl⟩, rfl, rfl⟩, ⟨_, rfl, rfl⟩, by decide,
    not_readsWrapper_of_undefined (by decide)⟩

end NativeObjects
