import NativeObjects.Lib.Partial
import NativeObjects.Model.Process
import NativeObjects.Proof.Interfaces

/-!
# The data that isolates share

`Wrap` alone sets the constructor mode, and requests alone change the templates:
any other operation keeps both (`SameStatics`), in whatever state and mode it is
run (`Op.exec_statics`).
-/

namespace NativeObjects

open Lib.Partial

variable {ι : Type}

/-- `s'` has the mode and the templates of `s`. -/
structure State.SameStatics (s s' : State ι) : Prop where
  mode : s'.mode = s.mode
  templates : s'.templates = s.templates

theorem State.SameStatics.refl (s : State ι) : s.SameStatics s := ⟨rfl, rfl⟩

theorem State.SameStatics.trans {s s' s'' : State ι} (h : s.SameStatics s') (h' : s'.SameStatics s'') :
    s.SameStatics s'' := ⟨h'.mode.trans h.mode, h'.templates.trans h.templates⟩

theorem Event.create_statics (t : ι) (event : List UInt8) (addr : Addr) (s : State ι) :
    Ensures (create t event addr s) fun r => s.SameStatics r.2 := by
  unfold create
  refine (ensures_any (typeBuffer event)).bind fun type _ => ?_
  dsimp only
  exact ensures_ite (fun _ => ensures_none _) fun _ => ensures_some ⟨rfl, rfl⟩

namespace Wrappable

theorem setWrapper_statics (this : NativePtr) (wrapper : Local ObjectId) (typeInfo : WrapperTypeInfo ι)
    (s : State ι) : Ensures (setWrapper this wrapper typeInfo s) fun r => s.SameStatics r.2.2 := by
  refine (ensures_any _).bind fun n _ => ?_
  refine ensures_ite (fun _ => ensures_some (.refl s)) fun _ => ?_
  exact (ensures_any _).bind fun o _ => ensures_some ⟨rfl, rfl⟩

theorem setNativeInfo_statics (this : NativePtr) (t : ι) (wrapper : Local ObjectId) (s : State ι) :
    Ensures (setNativeInfo this t wrapper s) s.SameStatics := by
  refine (ensures_any _).bind fun o _ => (ensures_any _).bind fun obj _ => ?_
  exact ensures_ite (fun _ => ensures_some ⟨rfl, rfl⟩) fun _ => ensures_none _

theorem associateWithWrapper_statics (info : ι → WrapperTypeInfo ι) (this : NativePtr) (t : ι)
    (wrapper : Local ObjectId) (s : State ι) :
    Ensures (associateWithWrapper info this t wrapper s) fun r => s.SameStatics r.2 := by
  refine (setWrapper_statics this wrapper (info t) s).bind fun r hr => ?_
  refine ensures_ite (fun _ => ?_) fun _ => ensures_some hr
  exact (setNativeInfo_statics this t _ _).bind fun s' hs' => ensures_some (hr.trans hs')

theorem delete_statics (deleter : Deleter) (p : NativePtr) (s : State ι) :
    Ensures (delete deleter p s) s.SameStatics := by
  refine (ensures_any _).bind fun n _ => ensures_some ?_
  unfold resetWrapper
  cases n.wrapper <;> exact ⟨rfl, rfl⟩

end Wrappable

namespace State

theorem fireWeak_statics (o : ObjectId) (c : CellId) (s : State ι) : Ensures (s.fireWeak o c) s.SameStatics := by
  unfold fireWeak
  split
  · exact ensures_some (.refl s)
  · refine ensures_ite (fun _ => ?_) fun _ => ensures_some (.refl s)
    split
    · exact ensures_some (.refl s)
    · refine (Wrappable.delete_statics .collector _ _).bind fun s' hs' => ?_
      exact ensures_ite (fun _ => ensures_none _) fun _ => ensures_some ⟨hs'.mode, hs'.templates⟩

theorem collect_statics (o : ObjectId) (s : State ι) : Ensures (s.collect o) s.SameStatics :=
  ensures_foldlM (fun s' c hs' r hr => hs'.trans (fireWeak_statics o c s' r hr)) _ ⟨rfl, rfl⟩

end State

namespace Hierarchy

variable [Fintype ι] (M : Hierarchy ι)

theorem constructorCallback_statics (t : ι) (ci : CallInfo) (addr : Addr) (s : State ι) :
    Ensures (M.constructorCallback t ci addr s) fun r => s.SameStatics r.2 := by
  refine ensures_ite (fun _ => ensures_some (.refl s)) fun _ => ?_
  refine ensures_ite (fun _ => ensures_some (.refl s)) fun _ => ?_
  refine ensures_ite (fun _ => ensures_some (.refl s)) fun _ => ?_
  refine (Event.create_statics t _ addr s).bind fun r hr => ?_
  exact (Wrappable.associateWithWrapper_statics M.info _ t _ _).bind fun r' hr' => ensures_some (hr.trans hr')

theorem invoke_statics (callback : FunctionCallback ι) (ci : CallInfo) (addr : Addr) (s : State ι) :
    Ensures (M.invoke callback ci addr s) fun r => s.SameStatics r.2 := by
  have hget : ∀ x : Option JSValue, Ensures (x.map fun v => (Outcome.returned v, s)) fun r => s.SameStatics r.2 :=
    fun x => Ensures.map fun _ _ => .refl s
  cases callback with
  | constructorCallback t => exact M.constructorCallback_statics t ci addr s
  | typeGetter => exact hget _
  | timeStampGetter => exact hget _
  | targetGetter => exact hget _
  | currentTargetGetter => exact hget _
  | preventDefault => exact ensures_some (.refl s)
  | other => exact ensures_some (.refl s)

theorem construct_statics (f : JSFunction) (args : List JSValue) (addr : Addr) (s : State ι) :
    Ensures (M.construct f args addr s) fun r => s.SameStatics r.2 := by
  refine (ensures_any _).bind fun template _ => ?_
  have hnew : ∀ obj, s.SameStatics (s.newObject obj).2 := fun obj => ⟨rfl, rfl⟩
  dsimp only
  split
  · exact ensures_some (hnew _)
  · refine (M.invoke_statics _ _ addr _).bind fun r hr => ?_
    have hr := (hnew _).trans hr
    obtain ⟨outcome, s'⟩ := r
    dsimp only
    split <;> exact ensures_some hr

theorem scriptCall_statics (f : FunctionValue ι TemplateId) (o : ObjectId) (args : List JSValue) (addr : Addr)
    (s : State ι) : Ensures (M.scriptCall f o args addr s) s.SameStatics := by
  refine (ensures_any _).bind fun obj _ => ?_
  refine ensures_ite (fun _ => ?_) fun _ => ensures_some (.refl s)
  split
  · exact ensures_some (.refl s)
  · refine (M.invoke_statics _ _ addr _).bind fun r hr => ?_
    obtain ⟨outcome, s'⟩ := r
    dsimp only
    split
    · refine ensures_some (hr.trans ?_)
      unfold State.reachValue
      split <;> exact ⟨rfl, rfl⟩
    · exact ensures_some hr

end Hierarchy

/-- An operation that is no request, and not `Wrap`. -/
theorem Op.exec_statics [Fintype ι] (M : Hierarchy ι) {op : Op ι} (hw : ¬ op.IsWrap)
    (hr : ∀ t, op ≠ .interfaceTemplate t) (s : State ι) : Ensures (op.exec M s) s.SameStatics := by
  have hset : ∀ (x : Option (Event ι)) (f : Event ι → State ι), (∀ n, s.SameStatics (f n)) →
      Ensures (x.bind fun n => some (f n)) s.SameStatics :=
    fun x f hf => (ensures_any x).bind fun n _ => ensures_some (hf n)
  cases op with
  | interfaceTemplate t => exact absurd rfl (hr t)
  | scriptNew f args addr =>
    refine (M.construct_statics f args addr s).bind fun r hr => ?_
    obtain ⟨o, s'⟩ := r
    cases o with
    | none => exact ensures_some hr
    | some o => exact ensures_some ⟨hr.mode, hr.templates⟩
  | scriptCall ft place f receiver args addr => exact M.scriptCall_statics f receiver args addr s
  | drop o => exact ensures_some ⟨rfl, rfl⟩
  | nativeNew t event addr =>
    rw [exec]
    exact (Event.create_statics t event addr s).bind fun r hr => ensures_some hr
  | wrap => exact absurd trivial hw
  | setTarget => exact hset _ _ fun n => ⟨rfl, rfl⟩
  | setCurrentTarget => exact hset _ _ fun n => ⟨rfl, rfl⟩
  | setTimeStamp => exact hset _ _ fun n => ⟨rfl, rfl⟩
  | destroy this => exact Wrappable.delete_statics .nativeCode this s
  | collect o => exact State.collect_statics o s
  | enterContext => exact ensures_some ⟨rfl, rfl⟩
  | setTerminating => exact ensures_some ⟨rfl, rfl⟩

/-! ## In an embedding -/

namespace Embedding

variable [Fintype ι] [DecidableEq ι] (M : Embedding ι)

/-- `s'` has the mode of `s`, and its templates are in order. -/
structure Statics (s s' : State ι) : Prop where
  mode : s'.mode = s.mode
  templates : Templates.Inv M.family [] s'.templates

variable {M} {s : State ι}

theorem Statics.of_same (h : Templates.Inv M.family [] s.templates) {s' : State ι} (hs : s.SameStatics s') :
    M.Statics s s' := ⟨hs.mode, hs.templates ▸ h⟩

theorem interfaceTemplate_statics (h : Templates.Inv M.family [] s.templates) (t : ι) :
    Ensures (M.interfaceTemplate t s) fun r => M.Statics s r.2 := by
  obtain ⟨ft, templates, heq, -, hi, -⟩ := interfaceTemplate_eq h t
  rw [heq]
  exact ensures_some ⟨rfl, hi⟩

theorem exec_statics (h : Templates.Inv M.family [] s.templates) {op : Op ι} (hw : ¬ op.IsWrap) :
    Ensures (op.exec M.toHierarchy s) (M.Statics s) := by
  by_cases hr : ∀ t, op ≠ .interfaceTemplate t
  · exact fun s' hs' => .of_same h (Op.exec_statics _ hw hr s s' hs')
  · obtain ⟨t, rfl⟩ := not_forall_not.mp hr
    exact (interfaceTemplate_statics h t).bind fun r hr => ensures_some hr

theorem wrapInstance_statics (h : Templates.Inv M.family [] s.templates) (t : ι) (context : ContextId) (addr : Addr) :
    Ensures (M.wrapInstance t context addr s) fun r => M.Statics s r.2 := by
  refine (interfaceTemplate_statics h _).bind fun r hr => ?_
  refine (M.construct_statics _ _ addr _).bind fun r' hr' => (ensures_any r'.1).bind fun o _ => ensures_some ?_
  exact ⟨hr'.mode.trans hr.mode, hr'.templates ▸ hr.templates⟩

end Embedding

end NativeObjects
