import NativeObjects.Proof.Invariant

/-!
# The context of a wrapper

`Wrap` takes a creation context, and hands it to `NewInstance`; the function that
it instantiates is that of the current context, and with it comes the prototype
of the new object. So the wrapper belongs to the context asked for exactly when
that is the current one (`wrap_context_iff`).
-/

namespace NativeObjects

variable {ι : Type} [Fintype ι] [DecidableEq ι] {M : Embedding ι}

/-- The function whose prototype object is the prototype of the object. -/
def JSObject.constructor (obj : JSObject ι) : JSFunction := ⟨obj.template, obj.context⟩

variable (M) in
/-- `Wrap` of the native at `p` returns an object whose prototype is that of the
instance, in the creation context, of the interface function of the native's class. -/
def WrapsInto (s : State ι) (p : NativePtr) (creationContext : ContextId) (addr : Addr) : Prop :=
  ∃ n o s' obj ft, s.Live p n ∧ M.wrap p creationContext addr s = some (some o, s') ∧ s'.objects o = some obj ∧
    s'.templates.cached (M.family.name n.typeInfo) = some ft ∧ obj.constructor = ⟨ft, creationContext⟩

/-- What `Wrap` makes of a native without a wrapper is an instance of the function
of the current context. -/
theorem Coherent.wrap_constructor {s : State ι} (h : Coherent M s) {p : NativePtr} {n : Event ι} (hp : s.Live p n)
    (hw : n.wrapper = none) (creationContext : ContextId) (addr : Addr) :
    ∃ o s' obj ft, M.wrap p creationContext addr s = some (some o, s') ∧ s'.objects o = some obj ∧
      s'.templates.cached (M.family.name n.typeInfo) = some ft ∧ obj.constructor = ⟨ft, s.context⟩ := by
  rcases h.wrap hp creationContext addr with ⟨c, o, hc, -⟩ | ⟨-, ft, templates, -, ht, -, heq⟩
  · exact absurd (hw.symm.trans hc) (by simp)
  · exact ⟨_, _, _, ft, heq, Function.update_self .., ht, rfl⟩

theorem wrapsInto_iff {s : State ι} (h : Coherent M s) {p : NativePtr} {n : Event ι} (hp : s.Live p n)
    (hw : n.wrapper = none) (creationContext : ContextId) (addr : Addr) :
    WrapsInto M s p creationContext addr ↔ creationContext = s.context := by
  obtain ⟨o, s', obj, ft, heq, hobj, hft, hcons⟩ := h.wrap_constructor hp hw creationContext addr
  constructor
  · rintro ⟨m, o₁, s₁, obj₁, ft₁, hm, heq₁, hobj₁, hft₁, hcons₁⟩
    cases hp.unique hm
    rw [heq, Option.some.injEq, Prod.mk.injEq, Option.some.injEq] at heq₁
    obtain ⟨rfl, rfl⟩ := heq₁
    rw [hobj, Option.some.injEq] at hobj₁
    rw [← hobj₁, hcons, JSFunction.mk.injEq] at hcons₁
    exact hcons₁.2.symm
  · rintro rfl
    exact ⟨n, o, s', obj, ft, hp, heq, hobj, hft, hcons⟩

/-- In every state of a program, for every creation context: the wrapper that a
native gets belongs to that context exactly if it is the current one. -/
theorem wrap_context_iff {tr : List (State ι × Op ι)} {s : State ι} (h : M.system.Run tr s) {p : NativePtr}
    {n : Event ι} (hp : s.Live p n) (hw : n.wrapper = none) (creationContext : ContextId) (addr : Addr) :
    WrapsInto M s p creationContext addr ↔ creationContext = s.context :=
  wrapsInto_iff (Inv.run h).coherent hp hw creationContext addr

/-- A native is wrapped for the context 1 while that is current. -/
theorem wrap_context_iff_event : ∃ tr s, (V8Event.embedding .standard).system.Run tr s ∧ s.context = 1 ∧
    WrapsInto (V8Event.embedding .standard) s ⟨0, 0⟩ 1 0 := by
  have h₀ : (V8Event.embedding .standard).system.Run [] (.initial 0 0) := .start ⟨0, 0, rfl⟩
  have h₁ := Hierarchy.run_next (.nativeNew .event [97] 0) h₀ ⟨by decide, rfl⟩ (by decide)
  have h₂ := Hierarchy.run_next (.enterContext 1) h₁ trivial (by decide)
  exact ⟨_, _, h₂, rfl, (wrap_context_iff h₂ ⟨rfl, rfl⟩ rfl 1 0).mpr rfl⟩

/-- A native is wrapped for the context 1 while 0 is current: script in the context
1 gets an object that is no instance of its own `Event`. -/
theorem not_wrapsInto_event : ∃ tr s, (V8Event.embedding .standard).system.Run tr s ∧ s.context = 0 ∧
    (∃ n, s.Live ⟨0, 0⟩ n ∧ n.wrapper = none) ∧ ¬ WrapsInto (V8Event.embedding .standard) s ⟨0, 0⟩ 1 0 := by
  have h₀ : (V8Event.embedding .standard).system.Run [] (.initial 0 0) := .start ⟨0, 0, rfl⟩
  have h₁ := Hierarchy.run_next (.nativeNew .event [97] 0) h₀ ⟨by decide, rfl⟩ (by decide)
  refine ⟨_, _, h₁, rfl, ⟨_, ⟨rfl, rfl⟩, rfl⟩, ?_⟩
  rw [wrapsInto_iff (Inv.run h₁).coherent ⟨rfl, rfl⟩ rfl]
  decide

end NativeObjects
