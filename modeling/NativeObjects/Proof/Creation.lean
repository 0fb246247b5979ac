import NativeObjects.Proof.Invariant

/-!
# Creating events

`new Event(s)` in script, and `new Event(s)` in native code with `Wrap` after it,
lead to the same state, `State.created`, of the address that the allocator
returned (`creation_agrees`). What script reads of the type it passed is the
string up to its first U+0000 (`type_roundtrip`).
-/

namespace NativeObjects

variable {ι : Type}

/-- The state `s` with one new native of the class `t`, at `addr`, linked with one
new instance of the function `f`, which the caller gets. -/
def State.created (info : ι → WrapperTypeInfo ι) (t : ι) (f : JSFunction) (type : List UInt8) (addr : Addr)
    (s : State ι) : State ι :=
  { s with
    objects := Function.update s.objects s.nextObject (some
      { template := f.template, context := f.context,
        fields := .native ⟨addr, s.births⟩ :: .typeInfo t ::
          List.replicate ((info t).internalFieldCount - 2) .undefined })
    nextObject := s.nextObject + 1
    cells := Function.update s.cells s.nextCell (some
      { object := s.nextObject, wrapperClassId := (info t).gcClassId, weak := some ⟨addr, s.births⟩ })
    nextCell := s.nextCell + 1
    natives := Function.update s.natives addr (some
      { birth := s.births, typeInfo := t, wrapper := some s.nextCell, target := none, currentTarget := none,
        timeStamp := 0, type := type ++ [0] })
    births := s.births + 1
    reached := s.nextObject :: s.reached
    history :=
      { s.history with
        returned := s.nextObject :: s.history.returned
        wrapped := (s.births, s.nextCell) :: s.history.wrapped } }

theorem set_replicate {α : Type} (a b u : α) {k : Nat} (hk : 2 ≤ k) :
    ((List.replicate k u).set 0 a).set 1 b = a :: b :: List.replicate (k - 2) u := by
  obtain ⟨k, rfl⟩ := Nat.exists_eq_add_of_le' hk
  rfl

variable [Fintype ι] {M : Hierarchy ι}

/-- Linking a new native with a new object, in either order. -/
theorem created_eq (f : JSFunction) (t : ι) (event : List UInt8) (addr : Addr) (s : State ι) :
    ((((s.newObject (M.blank f t)).2.allocate ⟨addr, s.births⟩ (Event.fresh t event s.births)).link
      M.info ⟨addr, s.births⟩ (Event.fresh t event s.births) t s.nextObject (M.blank f t)).giveWrapper s.nextObject) =
      s.created M.info t f (cString event) addr := by
  simp only [State.link, State.allocate, State.newObject, State.setNative, State.giveWrapper, State.reach,
    State.created, Function.update_idem, Hierarchy.blank, set_replicate _ _ _ (M.two_le_internalFieldCount t),
    Event.fresh]

/-- A request for a template in the cache only leaves a trace. -/
theorem Hierarchy.interfaceTemplate_cached {t : ι} {ft : TemplateId} {s : State ι}
    (hc : s.templates.cached (M.family.name t) = some ft) :
    M.interfaceTemplate t s = some (ft, s.setTemplates (s.templates.record (.returned s.isolate t ft))) := by
  obtain ⟨e, he, rfl⟩ := Option.map_eq_some_iff.mp hc
  obtain ⟨n, hn⟩ := Nat.exists_eq_succ_of_ne_zero (Fintype.card_pos_iff.mpr ⟨t⟩).ne'
  have hreq : M.family.interfaceTemplate M.fuel s.isolate t s.templates =
      some (e.template, s.templates.record (.returned s.isolate t e.template)) := by
    have hfind : s.templates.iterfaceTemplates (M.family.info t).interfaceName = some e := he
    rw [show M.fuel = n + 1 from hn]
    simp only [TypeTable.interfaceTemplate, hfind, Eternal.get]
  rw [interfaceTemplate, hreq]
  rfl

/-- `new F(args)` in script, where the first argument is a string. -/
theorem Hierarchy.construct_string {s : State ι} {t : ι} {f : JSFunction} (hf : M.Constructs s f.template t)
    (hm : s.mode = .kCreateNewObject) {args : List JSValue} {v : JSString} (hv : args.getD 0 .undefined = .string v)
    {addr : Addr} (ha : s.natives addr = none) :
    ∃ s', M.construct f args addr s = some (some s.nextObject, s') ∧
      s'.giveWrapper s.nextObject = s.created M.info t f (cString (M.strings.utf8Value v)) addr := by
  have hcons := construct_create hf hm hv ha
  rw [scripted] at hcons
  refine ⟨_, hcons, ?_⟩
  rw [created_eq, cString_append_nul]

theorem Hierarchy.exec_scriptNew {s : State ι} {t : ι} {f : JSFunction} (hf : M.Constructs s f.template t)
    (hm : s.mode = .kCreateNewObject) {args : List JSValue} {v : JSString} (hv : args.getD 0 .undefined = .string v)
    {addr : Addr} (ha : s.natives addr = none) :
    (Op.scriptNew f args addr).exec M s = some (s.created M.info t f (cString (M.strings.utf8Value v)) addr) := by
  obtain ⟨s', hcons, heq⟩ := construct_string hf hm hv ha
  rw [Op.exec, hcons, ← heq]
  rfl

variable [DecidableEq ι] {M : Embedding ι}

/-- `new T(type)` in native code, and `Wrap` of the native after it. -/
theorem exec_nativeNew_wrap {s : State ι} (hi : Inv M s) {t : ι} {ft : TemplateId}
    (hft : s.templates.cached (M.family.name t) = some ft) {type : List UInt8} (hz : 0 ∉ type)
    (hl : type.length + 1 < 2 ^ 31) {addr : Addr} (ha : s.natives addr = none) (context : ContextId) (addr' : Addr) :
    ∃ s', (Op.nativeNew t type addr).exec M.toHierarchy s = some s' ∧
      (Op.wrap ⟨addr, s.births⟩ context addr').exec M.toHierarchy s' =
        some ((s.created M.info t (Hierarchy.getFunction ft s) type addr).setTemplates
          (s.templates.record (.returned s.isolate t ft))) := by
  have hlen : strlen type + 1 < 2 ^ 31 := by
    rw [strlen, cString_of_nul_free hz]
    exact hl
  let s' := s.allocate ⟨addr, s.births⟩ (Event.fresh t type s.births)
  have hcreate : Event.create t type addr s = some (⟨addr, s.births⟩, s') := Event.create_eq hlen ha
  have hn : s'.native ⟨addr, s.births⟩ = some (Event.fresh t type s.births) := Function.update_self ..
  have hreq := Hierarchy.interfaceTemplate_cached (M := M.toHierarchy)
    (show (Hierarchy.setMode .kWrapExistingObject s').templates.cached (M.family.name t) = some ft from hft)
  have hwrap : M.wrap ⟨addr, s.births⟩ context addr' s' = some (some s'.nextObject, _) :=
    Hierarchy.wrap_bare hn rfl hreq (Embedding.constructs_of_cached hi.coherent.templates hft)
  refine ⟨s', by rw [Op.exec, hcreate]; rfl, ?_⟩
  rw [Op.exec, hwrap]
  refine congrArg some ?_
  have hc := created_eq (M := M.toHierarchy) (Hierarchy.getFunction ft s) t type addr s
  rw [cString_of_nul_free hz] at hc
  rw [← hc]
  rfl

variable (M) in
/-- From the state `s`, `new Event(v)` in script and `new Event(type)` in native
code, with `Wrap` after it, lead to one state, but for the address, which is
`addr` and `addr'`. The native, the object and the handle that it has besides
those of `s` are new, and script can construct events as before. -/
structure CreationsAgree (s : State ι) (t : ι) (ft : TemplateId) (v : JSString) (type : List UInt8)
    (addr addr' : Addr) : Prop where
  mode : s.mode = .kCreateNewObject
  native : s.natives addr = none ∧ s.natives addr' = none ∧ ∀ p n, s.Live p n → p.birth ≠ s.births
  object : s.objects s.nextObject = none
  cell : s.cells s.nextCell = none
  script : ∀ args, (Op.scriptNew (Hierarchy.getFunction ft s) (.string v :: args) addr).exec M.toHierarchy s =
    some (s.created M.info t (Hierarchy.getFunction ft s) type addr)
  wrap : ∀ context addr'', ∃ s' templates, (Op.nativeNew t type addr').exec M.toHierarchy s = some s' ∧
    (Op.wrap ⟨addr', s.births⟩ context addr'').exec M.toHierarchy s' =
      some ((s.created M.info t (Hierarchy.getFunction ft s) type addr').setTemplates templates) ∧
    templates = { s.templates with log := templates.log }

/-- In every state that a program reaches, both ways to create an event agree. -/
theorem creation_agrees {tr : List (State ι × Op ι)} {s : State ι} (h : M.system.Run tr s) {t : ι} {ft : TemplateId}
    (hft : s.templates.cached (M.family.name t) = some ft) {v : JSString} {type : List UInt8}
    (hv : M.strings.utf8Value v = type) (hz : 0 ∉ type) {addr addr' : Addr} (ha : s.natives addr = none)
    (ha' : s.natives addr' = none) : CreationsAgree M s t ft v type addr addr' := by
  have hi := Inv.run h
  subst hv
  have hl : (M.strings.utf8Value v).length + 1 < 2 ^ 31 := by
    have := M.strlen_utf8Value v
    rwa [strlen, cString_append_nul, cString_of_nul_free hz] at this
  refine ⟨hi.mode, ⟨ha, ha', fun p n hp => (hi.coherent.births p n hp).ne⟩, ?_, ?_, fun args => ?_,
    fun context addr'' => ?_⟩
  · cases ho : s.objects s.nextObject with
    | none => rfl
    | some obj => exact absurd (hi.coherent.objects _ obj ho).1 (Nat.lt_irrefl _)
  · cases hc : s.cells s.nextCell with
    | none => rfl
    | some cell => exact absurd (hi.coherent.cells _ cell hc).1 (Nat.lt_irrefl _)
  · have hnew := Hierarchy.exec_scriptNew (f := Hierarchy.getFunction ft s)
      (Embedding.constructs_of_cached hi.coherent.templates hft) hi.mode
      (show (.string v :: args).getD 0 _ = _ from rfl) ha
    rwa [cString_of_nul_free hz] at hnew
  · obtain ⟨s', hs', hw⟩ := exec_nativeNew_wrap hi hft hz hl ha' context addr''
    exact ⟨s', _, hs', hw, rfl⟩

/-- Creating an event "b" where there is one already. -/
theorem creation_agrees_event : ∃ tr s, (V8Event.embedding .standard).system.Run tr s ∧ s.births = 1 ∧
    CreationsAgree (V8Event.embedding .standard) s .event 0 ⟨[98], by decide⟩ [98] 1 2 := by
  have h₀ : (V8Event.embedding .standard).system.Run [] (.initial 0 0) := .start ⟨0, 0, rfl⟩
  have h₁ := Hierarchy.run_next (.interfaceTemplate .event) h₀ trivial (by decide)
  have h₂ := Hierarchy.run_next (.nativeNew .event [97] 0) h₁ ⟨by decide, rfl⟩ (by decide)
  exact ⟨_, _, h₂, rfl, creation_agrees h₂ (show _ = some 0 by decide) (by decide) (by decide) rfl rfl⟩

/-! ## The type of a new event -/

omit [Fintype ι] [DecidableEq ι] in
/-- The getter of the type gives the C string that the new native was made of. -/
theorem typeGetter_created {V : StringConversions} {event : List UInt8} {type : JSString}
    (hv : V.newFromUtf8 (cString event) = some type) (info : ι → WrapperTypeInfo ι) (t : ι) (f : JSFunction)
    (addr : Addr) (s : State ι) :
    V8EventInternal.typeGetter V s.nextObject (s.created info t f (cString event) addr) = some (.string type) := by
  have ho : (s.created info t f (cString event) addr).objects s.nextObject = some _ := Function.update_self ..
  have hn : (s.created info t f (cString event) addr).native ⟨addr, s.births⟩ = some _ := Function.update_self ..
  rw [V8EventInternal.typeGetter, getterOf_eq (Config.toImpl_eq ho rfl) hn, Event.getType_eq rfl, hv]

/-- `new F(args)` evaluates to an object whose `type` is then read as `type`. -/
def Hierarchy.TypeReads (M : Hierarchy ι) (s : State ι) (f : JSFunction) (args : List JSValue) (addr : Addr)
    (type : JSString) : Prop :=
  ∃ o s', M.construct f args addr s = some (some o, s') ∧
    V8EventInternal.typeGetter M.strings o (s'.giveWrapper o) = some (.string type)

theorem typeReads_iff {s : State ι} (hi : Inv M s) {t : ι} {f : JSFunction}
    (hf : s.templates.cached (M.family.name t) = some f.template) {v : JSString} (hv : v.WellFormed) {addr : Addr}
    (ha : s.natives addr = none) (args : List JSValue) (type : JSString) :
    M.TypeReads s f (.string v :: args) addr type ↔ v.upToNul = type := by
  obtain ⟨s', hcons, heq⟩ := Hierarchy.construct_string (Embedding.constructs_of_cached hi.coherent.templates hf)
    hi.mode (show (.string v :: args).getD 0 _ = _ from rfl) ha
  have hget : V8EventInternal.typeGetter M.strings s.nextObject (s'.giveWrapper s.nextObject) =
      some (.string v.upToNul) := by
    rw [heq, typeGetter_created (M.strings.newFromUtf8_cString hv)]
  constructor
  · rintro ⟨o, s'', hcons', hget'⟩
    rw [hcons, Option.some.injEq, Prod.mk.injEq, Option.some.injEq] at hcons'
    rw [← hcons'.1, ← hcons'.2, hget, Option.some.injEq, JSValue.string.injEq] at hget'
    exact hget'
  · rintro rfl
    exact ⟨_, _, hcons, hget⟩

/-- An event made of a string reads as the string up to its first U+0000, hence as
the string itself just if that has no U+0000. -/
theorem type_roundtrip {tr : List (State ι × Op ι)} {s : State ι} (h : M.system.Run tr s) {t : ι} {f : JSFunction}
    (hf : s.templates.cached (M.family.name t) = some f.template) {v : JSString} (hv : v.WellFormed) {addr : Addr}
    (ha : s.natives addr = none) (args : List JSValue) :
    M.TypeReads s f (.string v :: args) addr v.upToNul ∧
      (M.TypeReads s f (.string v :: args) addr v ↔ 0 ∉ v.units) := by
  have hreads := typeReads_iff (Inv.run h) hf hv ha args
  exact ⟨(hreads v.upToNul).mpr rfl, (hreads v).trans v.upToNul_eq_iff⟩

/-- An event made of "a", and one made of "a", U+0000, "b". -/
theorem type_roundtrip_event : ∃ tr s, (V8Event.embedding .standard).system.Run tr s ∧
    (V8Event.embedding .standard).TypeReads s ⟨0, 0⟩ [.string ⟨[97], by decide⟩] 0 ⟨[97], by decide⟩ ∧
    (V8Event.embedding .standard).TypeReads s ⟨0, 0⟩ [.string ⟨[97, 0, 98], by decide⟩] 0 ⟨[97], by decide⟩ := by
  have h₀ : (V8Event.embedding .standard).system.Run [] (.initial 0 0) := .start ⟨0, 0, rfl⟩
  have h₁ := Hierarchy.run_next (.interfaceTemplate .event) h₀ trivial (by decide)
  have hw : (⟨[97], by decide⟩ : JSString).WellFormed := (Lib.Utf.wellFormed_iff _).mpr ⟨['a'], rfl⟩
  have hw' : (⟨[97, 0, 98], by decide⟩ : JSString).WellFormed :=
    (Lib.Utf.wellFormed_iff _).mpr ⟨['a', '\x00', 'b'], rfl⟩
  refine ⟨_, _, h₁, ?_, ?_⟩
  · exact (type_roundtrip (t := .event) h₁ (show _ = some 0 by decide) hw rfl []).2.mpr (by decide)
  · exact (type_roundtrip (t := .event) h₁ (show _ = some 0 by decide) hw' rfl []).1

/-- What follows a U+0000 is lost. -/
theorem not_type_roundtrip_event : ∃ tr s, (V8Event.embedding .standard).system.Run tr s ∧
    ∃ v : JSString, v.WellFormed ∧ v.units = [97, 0, 98] ∧
      ¬ (V8Event.embedding .standard).TypeReads s ⟨0, 0⟩ [.string v] 0 v := by
  have h₀ : (V8Event.embedding .standard).system.Run [] (.initial 0 0) := .start ⟨0, 0, rfl⟩
  have h₁ := Hierarchy.run_next (.interfaceTemplate .event) h₀ trivial (by decide)
  refine ⟨_, _, h₁, ⟨[97, 0, 98], by decide⟩, (Lib.Utf.wellFormed_iff _).mpr ⟨['a', '\x00', 'b'], rfl⟩, rfl, ?_⟩
  rw [typeReads_iff (t := .event) (Inv.run h₁) (show _ = some 0 by decide)
    ((Lib.Utf.wellFormed_iff _).mpr ⟨['a', '\x00', 'b'], rfl⟩) rfl]
  decide

end NativeObjects
