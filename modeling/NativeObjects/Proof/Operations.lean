import NativeObjects.Model.Wrap
import NativeObjects.Proof.Templates

/-!
# What creating, wrapping and deleting do

The functions of the model in closed form, one lemma each: creating a native
(`Event.create_eq`), linking it with an object (`Wrappable.associateWithWrapper_eq`),
deleting it (`Wrappable.delete_eq`), constructing an object in the two modes
(`Hierarchy.construct_create`, `Hierarchy.construct_reject` and
`Hierarchy.construct_wrap`), wrapping (`Hierarchy.wrap_wrapped` and
`Hierarchy.wrap_bare`) and collecting (`State.collect_orphan` and
`State.collect_wrapper`).
-/

namespace NativeObjects

variable {ι : Type}

/-! ## Creating a native -/

namespace Event

/-- The native that `new T(event)` makes. -/
def fresh (t : ι) (event : List UInt8) (birth : Nat) : Event ι :=
  { birth := birth, typeInfo := t, wrapper := none, target := none, currentTarget := none, timeStamp := 0,
    type := cString event ++ [0] }

end Event

/-- The state after storing a new native at `p`. -/
def State.allocate (p : NativePtr) (ev : Event ι) (s : State ι) : State ι :=
  { s.setNative p ev with births := s.births + 1 }

namespace Event

/-- The type of a native is the C string that its buffer was made of. -/
theorem getType_eq {n : Event ι} {event : List UInt8} (h : n.type = cString event ++ [0]) :
    n.getType = cString event := by
  rw [getType, h, cString_append_nul, cString_cString]

theorem typeBuffer_eq {event : List UInt8} (h : strlen event + 1 < 2 ^ 31) :
    typeBuffer event = some (cString event ++ [0]) := by
  unfold typeBuffer
  have hlen := toInt_of_lt (show strlen event < 2 ^ 31 by omega)
  rw [hlen, if_pos (by omega), Int.toNat_natCast, take_strlen]

theorem create_eq {t : ι} {event : List UInt8} {addr : Addr} {s : State ι} (h : strlen event + 1 < 2 ^ 31)
    (ha : s.natives addr = none) :
    create t event addr s = some (⟨addr, s.births⟩, s.allocate ⟨addr, s.births⟩ (fresh t event s.births)) := by
  simp only [create, typeBuffer_eq h, ha, Option.isSome_none, Bool.false_eq_true, if_false, Option.bind_eq_bind,
    Option.bind_some]
  rfl

end Event

/-! ## Linking and deleting -/

/-- The state after linking the native `n` at `p` with the object `obj`, at `o`, as
an object of the class `t`. -/
def State.link (info : ι → WrapperTypeInfo ι) (p : NativePtr) (n : Event ι) (t : ι) (o : ObjectId)
    (obj : JSObject ι) (s : State ι) : State ι :=
  { s with
    objects := Function.update s.objects o
      (some { obj with fields := (obj.fields.set 0 (.native p)).set 1 (.typeInfo t) })
    cells := Function.update s.cells s.nextCell
      (some { object := o, wrapperClassId := (info t).gcClassId, weak := some p })
    nextCell := s.nextCell + 1
    natives := Function.update s.natives p.addr (some { n with wrapper := some s.nextCell })
    history := { s.history with wrapped := (n.birth, s.nextCell) :: s.history.wrapped } }

/-- The state after deleting the native `n` at `p`. -/
def State.remove (deleter : Deleter) (p : NativePtr) (n : Event ι) (s : State ι) : State ι :=
  { s with
    cells := match n.wrapper with
      | some c => Function.update s.cells c none
      | none => s.cells
    natives := Function.update s.natives p.addr none
    history := { s.history with deleted := (n.birth, deleter) :: s.history.deleted } }

/-- The cells that are left after a native is deleted. -/
theorem State.cells_of_remove {deleter : Deleter} {p : NativePtr} {n : Event ι} {s : State ι} {c : CellId} {cell : Cell}
    (hc : (s.remove deleter p n).cells c = some cell) : s.cells c = some cell ∧ n.wrapper ≠ some c := by
  unfold remove at hc
  cases hw : n.wrapper with
  | none =>
    rw [hw] at hc
    exact ⟨hc, nofun⟩
  | some d =>
    rw [hw] at hc
    by_cases hcd : c = d
    · subst hcd
      exact absurd ((Function.update_self ..).symm.trans hc) (by simp)
    · exact ⟨(Function.update_of_ne hcd ..).symm.trans hc, fun h => hcd (Option.some.inj h).symm⟩

theorem State.cells_remove_of_ne {deleter : Deleter} {p : NativePtr} {n : Event ι} {s : State ι} {c : CellId}
    (hc : n.wrapper ≠ some c) : (s.remove deleter p n).cells c = s.cells c := by
  unfold remove
  cases hw : n.wrapper with
  | none => rfl
  | some d => exact Function.update_of_ne (fun hcd => hc (by rw [hw, hcd])) ..

namespace Wrappable

theorem associateWithWrapper_eq {info : ι → WrapperTypeInfo ι} {p : NativePtr} {n : Event ι} {t : ι} {o : ObjectId}
    {obj : JSObject ι} {s : State ι} (hn : s.native p = some n) (hw : n.wrapper = none)
    (ho : s.objects o = some obj) (hl : 2 ≤ obj.fields.length) :
    associateWithWrapper info p t (some o) s = some (some o, s.link info p n t o obj) := by
  have hc : containsWrapper n = false := by rw [containsWrapper, hw, Option.isSome_none]
  simp only [associateWithWrapper, setWrapper, hn, hc, Option.bind_eq_bind, Option.bind_some, Bool.false_eq_true,
    if_false, if_true, Option.pure_def, State.newCell, State.setNative, State.setWrapperClassId, State.setWeak,
    Function.update_self, Function.update_idem, Option.map_some, setNativeInfo, ho, hl, State.setObject]
  rfl

/-- A native that has a wrapper is not linked again, with whatever object. -/
theorem associateWithWrapper_wrapped {info : ι → WrapperTypeInfo ι} {p : NativePtr} {n : Event ι} {s : State ι}
    (hn : s.native p = some n) (hw : containsWrapper n = true) (t : ι) (wrapper : Local ObjectId) :
    associateWithWrapper info p t wrapper s = some (getWrapper n s, s) := by
  simp [associateWithWrapper, setWrapper, hn, hw]

theorem delete_eq {deleter : Deleter} {p : NativePtr} {n : Event ι} {s : State ι} (hn : s.native p = some n) :
    delete deleter p s = some (s.remove deleter p n) := by
  simp only [delete, hn, Option.bind_eq_bind, Option.bind_some, Option.pure_def, State.remove]
  cases hw : n.wrapper <;> simp only [resetWrapper, hw, State.disposeGlobal]

end Wrappable

/-! ## Constructing -/

def State.setTemplates (templates : Templates ι) (s : State ι) : State ι := { s with templates := templates }

theorem State.newObject_fst (obj : JSObject ι) (s : State ι) : (s.newObject obj).1 = s.nextObject := rfl

namespace Hierarchy

variable [Fintype ι] (M : Hierarchy ι)

/-- `ft` is a template whose instances are constructed as objects of the class `t`. -/
def Constructs (s : State ι) (ft : TemplateId) (t : ι) : Prop :=
  ∃ template, s.templates.templates ft = some template ∧
    template.callHandler = some (.constructorCallback t) ∧
    template.instanceFieldCount = (M.info t).internalFieldCount

/-- A new instance of the function `f` of the class `t`. -/
def blank (f : JSFunction) (t : ι) : JSObject ι :=
  { template := f.template, context := f.context,
    fields := List.replicate (M.info t).internalFieldCount .undefined }

theorem two_le_length_blank (f : JSFunction) (t : ι) : 2 ≤ (M.blank f t).fields.length := by
  rw [blank, List.length_replicate]
  exact M.two_le_internalFieldCount t

variable {M} in
/-- A new instance names no native. -/
theorem blank_field (f : JSFunction) (t : ι) (p : NativePtr) : (M.blank f t).fields[0]? ≠ some (.native p) := by
  intro h
  have := List.mem_of_getElem? h
  rw [blank, List.mem_replicate] at this
  exact absurd this.2 (by simp)

/-- The bytes that the constructor callback hands to `new Event`. -/
theorem strlen_utf8Value (v : JSString) : strlen (M.strings.utf8Value v ++ [0]) + 1 < 2 ^ 31 := by
  have h := M.strings.length_utf8Value_le v
  have hl := v.length_le
  have hs := strlen_le (M.strings.utf8Value v ++ [0])
  rw [List.length_append, List.length_singleton] at hs
  unfold kMaxLength at hl
  omega

/-- The native that `new F(v)` makes, for a function of the class `t`. -/
def scripted (t : ι) (v : JSString) (birth : Nat) : Event ι :=
  Event.fresh t (M.strings.utf8Value v ++ [0]) birth

/-! What the constructor callback does: in wrap mode nothing, in create mode it
links a new native with the holder, if its first argument is a string. -/

variable {M}

theorem constructorCallback_wrap {t : ι} {ci : CallInfo} {addr : Addr} {s : State ι} (hc : ci.isConstructCall = true)
    (hm : s.mode = .kWrapExistingObject) :
    M.constructorCallback t ci addr s = some (.returned (.object ci.holder), s) := by
  rw [constructorCallback, if_neg (not_not.mpr hc), if_pos hm]

theorem constructorCallback_reject {t : ι} {ci : CallInfo} {addr : Addr} {s : State ι} (hc : ci.isConstructCall = true)
    (hm : s.mode = .kCreateNewObject) (ha : (ci.arg 0).isString = false) :
    M.constructorCallback t ci addr s = some (Config.throw s "V8Event needs a type string argument.", s) := by
  rw [constructorCallback, if_neg (not_not.mpr hc), if_neg (by rw [hm]; decide), if_pos (by simp [ha])]

theorem constructorCallback_create {t : ι} {ci : CallInfo} {v : JSString} {addr : Addr} {s : State ι}
    {obj : JSObject ι} (hc : ci.isConstructCall = true) (hm : s.mode = .kCreateNewObject) (ha : ci.arg 0 = .string v)
    (hfree : s.natives addr = none) (ho : s.objects ci.holder = some obj) (hl : 2 ≤ obj.fields.length) :
    M.constructorCallback t ci addr s = some (.returned (.object ci.holder),
      (s.allocate ⟨addr, s.births⟩ (M.scripted t v s.births)).link M.info ⟨addr, s.births⟩
        (M.scripted t v s.births) t ci.holder obj) := by
  have hcreate : Event.create t (M.strings.utf8Value v ++ [0]) addr s =
      some (⟨addr, s.births⟩, s.allocate ⟨addr, s.births⟩ (M.scripted t v s.births)) :=
    Event.create_eq (M.strlen_utf8Value v) hfree
  have hlink : Wrappable.associateWithWrapper M.info ⟨addr, s.births⟩ t (some ci.holder)
      (s.allocate ⟨addr, s.births⟩ (M.scripted t v s.births)) = some (some ci.holder,
        (s.allocate ⟨addr, s.births⟩ (M.scripted t v s.births)).link M.info ⟨addr, s.births⟩
          (M.scripted t v s.births) t ci.holder obj) :=
    Wrappable.associateWithWrapper_eq (Function.update_self ..) rfl ho hl
  rw [constructorCallback, if_neg (not_not.mpr hc), if_neg (by rw [hm]; decide),
    if_neg (by simp [ha, JSValue.isString, kArgsLength])]
  simp only [ha, StringConversions.utf8ValueOf, hcreate, hlink, Option.bind_eq_bind, Option.bind_some,
    Option.pure_def]

/-- What a construct call gives whose call handler, called with the holder `o`,
ends with the outcome. -/
def constructed (o : ObjectId) : Outcome → Local ObjectId
  | .returned (.object o') => some o'
  | .returned _ => some o
  | .rejected _ => none

theorem construct_eq {f : JSFunction} {t : ι} {args : List JSValue} {addr : Addr} {s s' : State ι} {outcome : Outcome}
    (h : M.Constructs s f.template t)
    (hc : M.constructorCallback t { isConstructCall := true, holder := s.nextObject, args := args } addr
      (s.newObject (M.blank f t)).2 = some (outcome, s')) :
    M.construct f args addr s = some (constructed s.nextObject outcome, s') := by
  obtain ⟨template, ht, hh, hf⟩ := h
  simp only [construct, ht, hh, hf, Option.bind_eq_bind, Option.bind_some, invoke, State.newObject_fst]
  show (M.constructorCallback t _ addr (s.newObject (M.blank f t)).2).bind _ = _
  rw [hc]
  rcases outcome with ⟨_ | _ | _ | _ | _ | _⟩ | _ <;> rfl

theorem construct_wrap {f : JSFunction} {t : ι} {args : List JSValue} {addr : Addr} {s : State ι}
    (h : M.Constructs s f.template t) (hm : s.mode = .kWrapExistingObject) :
    M.construct f args addr s = some (some s.nextObject, (s.newObject (M.blank f t)).2) :=
  construct_eq h (constructorCallback_wrap rfl hm)

theorem construct_reject {f : JSFunction} {t : ι} {args : List JSValue} {addr : Addr} {s : State ι}
    (h : M.Constructs s f.template t) (hm : s.mode = .kCreateNewObject)
    (ha : (args.getD 0 .undefined).isString = false) :
    M.construct f args addr s = some (none, (s.newObject (M.blank f t)).2) :=
  construct_eq h (constructorCallback_reject rfl hm ha)

theorem construct_create {f : JSFunction} {t : ι} {args : List JSValue} {v : JSString} {addr : Addr} {s : State ι}
    (h : M.Constructs s f.template t) (hm : s.mode = .kCreateNewObject) (ha : args.getD 0 .undefined = .string v)
    (hfree : s.natives addr = none) :
    M.construct f args addr s = some (some s.nextObject,
      ((s.newObject (M.blank f t)).2.allocate ⟨addr, s.births⟩ (M.scripted t v s.births)).link M.info
        ⟨addr, s.births⟩ (M.scripted t v s.births) t s.nextObject (M.blank f t)) :=
  construct_eq h (constructorCallback_create rfl hm ha hfree (Function.update_self ..) (M.two_le_length_blank f t))

/-! ## Wrapping -/

theorem wrap_wrapped {p : NativePtr} {n : Event ι} {c : CellId} {cell : Cell} {context : ContextId} {addr : Addr}
    {s : State ι} (hn : s.native p = some n) (hw : n.wrapper = some c) (hc : s.cells c = some cell) :
    M.wrap p context addr s = some (some cell.object, s) := by
  have hg : Wrappable.getWrapper n s = some cell.object := by
    rw [Wrappable.getWrapper, hw, Option.bind_some, hc, Option.map_some]
  have hf : wrapFast p s = some (some (some cell.object)) := by
    simp [wrapFast, hn, Wrappable.containsWrapper, hw, Wrappable.isEqualTo, hg]
  rw [wrap, hf]
  rfl

theorem wrapInstance_eq {t : ι} {context : ContextId} {addr : Addr} {s s₁ s₂ : State ι} {ft : TemplateId}
    {o : ObjectId} (hreq : M.interfaceTemplate t s = some (ft, s₁))
    (hcons : M.construct (getFunction ft s₁) [] addr s₁ = some (some o, s₂)) :
    M.wrapInstance t context addr s = some (o, s₂) := by
  simp only [wrapInstance, M.templateFunction_self, hreq, hcons, Option.bind_eq_bind, Option.bind_some,
    Option.pure_def]

theorem wrap_eq {p : NativePtr} {n : Event ι} {context : ContextId} {addr : Addr} {s s₁ s₂ : State ι}
    {o : ObjectId} {ret : Local ObjectId} (hn : s.native p = some n) (hw : n.wrapper = none)
    (hinst : M.wrapInstance n.typeInfo context addr (setMode .kWrapExistingObject s) = some (o, s₁))
    (hassoc : Wrappable.associateWithWrapper M.info p n.typeInfo (some o) s₁ = some (ret, s₂)) :
    M.wrap p context addr s = some (ret, setMode s.mode s₂) := by
  have hf : wrapFast p s = some none := by
    simp [wrapFast, hn, Wrappable.containsWrapper, hw]
  simp only [wrap, hf, hn, hinst, hassoc, Option.bind_eq_bind, Option.bind_some, Option.pure_def]

/-- Wrapping a native without a wrapper, where the request for its template
returns `ft`. -/
theorem wrap_bare {p : NativePtr} {n : Event ι} {context : ContextId} {addr : Addr} {s : State ι}
    {ft : TemplateId} {templates : Templates ι} (hn : s.native p = some n) (hw : n.wrapper = none)
    (hreq : M.interfaceTemplate n.typeInfo (setMode .kWrapExistingObject s) =
      some (ft, (setMode .kWrapExistingObject s).setTemplates templates))
    (hft : M.Constructs (s.setTemplates templates) ft n.typeInfo) :
    M.wrap p context addr s = some (some s.nextObject,
      ((s.setTemplates templates).newObject (M.blank ⟨ft, s.context⟩ n.typeInfo)).2.link M.info p n
        n.typeInfo s.nextObject (M.blank ⟨ft, s.context⟩ n.typeInfo)) :=
  wrap_eq hn hw (wrapInstance_eq hreq (construct_wrap hft rfl))
    (Wrappable.associateWithWrapper_eq hn hw (Function.update_self ..) (M.two_le_length_blank _ _))

end Hierarchy

/-! ## Collecting -/

namespace State

/-- The state after the collector took the object `o`, before weak callbacks run. -/
def discard (o : ObjectId) (s : State ι) : State ι := { s with objects := Function.update s.objects o none }

theorem fireWeak_other {o : ObjectId} {c : CellId} {s : State ι}
    (h : ∀ cell, s.cells c = some cell → cell.object ≠ o) : s.fireWeak o c = some s := by
  unfold fireWeak
  cases hc : s.cells c with
  | none => rfl
  | some cell => exact if_neg (h cell hc)

theorem foldlM_fireWeak_other {o : ObjectId} {s : State ι} (l : List CellId)
    (h : ∀ c ∈ l, ∀ cell, s.cells c = some cell → cell.object ≠ o) :
    l.foldlM (fun s c => s.fireWeak o c) s = some s := by
  induction l with
  | nil => rfl
  | cons c l ih =>
    rw [List.foldlM_cons, fireWeak_other (h c List.mem_cons_self)]
    exact ih fun c hc => h c (List.mem_cons_of_mem _ hc)

/-- The weak callback of the handle of a native deletes the native. -/
theorem fireWeak_own {o : ObjectId} {c : CellId} {cell : Cell} {p : NativePtr} {n : Event ι} {s : State ι}
    (hc : s.cells c = some cell) (ho : cell.object = o) (hp : cell.weak = some p) (hn : s.native p = some n)
    (hw : n.wrapper = some c) : s.fireWeak o c = some (s.remove .collector p n) := by
  simp only [fireWeak, hc, ho, hp, if_true, Wrappable.weakCallbackForDOMObjectHolder]
  rw [Wrappable.delete_eq (by exact hn)]
  simp only [remove, hw, Function.update_idem, Function.update_self,
    Option.bind_eq_bind, Option.bind_some, Option.isSome_none, Bool.false_eq_true, if_false, Option.pure_def]

/-- Collecting an object that no handle refers to. -/
theorem collect_orphan {o : ObjectId} {s : State ι} (h : ∀ c cell, s.cells c = some cell → cell.object ≠ o) :
    s.collect o = some (s.discard o) :=
  foldlM_fireWeak_other _ fun c _ => h c

/-- Collecting the wrapper of the native `n`, which only the native's handle refers to. -/
theorem collect_wrapper {o : ObjectId} {c : CellId} {cell : Cell} {p : NativePtr} {n : Event ι} {s : State ι}
    (hc : s.cells c = some cell) (ho : cell.object = o) (hp : cell.weak = some p) (hn : s.native p = some n)
    (hw : n.wrapper = some c) (hlt : c < s.nextCell)
    (huniq : ∀ c' cell', s.cells c' = some cell' → cell'.object = o → c' = c) :
    s.collect o = some ((s.discard o).remove .collector p n) := by
  obtain ⟨l₁, l₂, hl, hnot⟩ := List.eq_append_cons_of_mem (List.mem_range.mpr hlt)
  have h₁ : ∀ c' ∈ l₁, ∀ cell', (s.discard o).cells c' = some cell' → cell'.object ≠ o :=
    fun c' hc' cell' hcell ho' => hnot (huniq c' cell' hcell ho' ▸ hc')
  have h₂ : ∀ c' ∈ l₂, ∀ cell', ((s.discard o).remove .collector p n).cells c' = some cell' → cell'.object ≠ o := by
    intro c' _ cell' hcell ho'
    simp only [remove, hw] at hcell
    by_cases hcc : c' = c
    · rw [hcc, Function.update_self] at hcell
      exact absurd hcell (by simp)
    · rw [Function.update_of_ne hcc] at hcell
      exact hcc (huniq c' cell' hcell ho')
  show (List.range s.nextCell).foldlM (fun s c => s.fireWeak o c) (s.discard o) = _
  rw [hl, List.foldlM_append, foldlM_fireWeak_other l₁ h₁]
  show (c :: l₂).foldlM (fun s c => s.fireWeak o c) (s.discard o) = _
  rw [List.foldlM_cons, fireWeak_own (show (s.discard o).cells c = some cell from hc) ho hp hn hw]
  exact foldlM_fireWeak_other l₂ h₂

end State

end NativeObjects
