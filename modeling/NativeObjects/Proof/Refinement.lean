import NativeObjects.Lib.Simulation
import NativeObjects.Model.World
import NativeObjects.Proof.Frames
import NativeObjects.Proof.Links

/-!
# The heaps refine the abstract model

`Abstracts s w`: the world `w` is what is left of the state `s` without the
addresses, handles and internal fields. Every operation keeps it, where the calls
that script makes dereference pointers to live natives only (`Op.ReadsLive`), and
script gets the same answers (`Abstracts.answer`). So a program does what the
abstract model says (`run_refines`), and script cannot tell which addresses the
allocator chose (`addresses_unobservable`).
-/

namespace NativeObjects

open Lib (System Simulation)

variable {ι : Type}

/-! ## The abstraction -/

/-- The event that a native is. -/
def Event.view (n : Event ι) (s : State ι) : EventView ι :=
  { typeInfo := n.typeInfo, wrapper := Wrappable.getWrapper n s, target := n.target.map NativePtr.birth,
    currentTarget := n.currentTarget.map NativePtr.birth, timeStamp := n.timeStamp, type := n.getType }

/-- The native that an internal field names. -/
def Field.birth : Field ι → Option Nat
  | .native p => some p.birth
  | _ => none

def JSObject.view (obj : JSObject ι) : ObjectView :=
  { template := obj.template, context := obj.context, native := (obj.fields[0]?).bind Field.birth }

structure Abstracts (s : State ι) (w : World ι) : Prop where
  isolate : w.isolate = s.isolate
  templates : w.templates = s.templates
  context : w.context = s.context
  executionTerminating : w.executionTerminating = s.executionTerminating
  events : ∀ b m, w.events b = some m ↔ ∃ p n, s.Live p n ∧ p.birth = b ∧ m = n.view s
  births : w.births = s.births
  objects : ∀ o, w.objects o = (s.objects o).map JSObject.view
  nextObject : w.nextObject = s.nextObject
  reached : w.reached = s.reached

theorem Abstracts.initial (isolate : IsolateId) (context : ContextId) :
    Abstracts (.initial isolate context : State ι) (.initial isolate context) :=
  ⟨rfl, rfl, rfl, rfl, fun _ _ => ⟨nofun, fun ⟨_, _, hp, _⟩ => nomatch hp.1⟩, rfl, fun _ => rfl, rfl, rfl⟩

namespace Abstracts

variable {s : State ι} {w : World ι}

theorem event (h : Abstracts s w) {p : NativePtr} {n : Event ι} (hp : s.Live p n) :
    w.events p.birth = some (n.view s) := (h.events _ _).mpr ⟨p, n, hp, rfl, rfl⟩

theorem isLive (h : Abstracts s w) {p : NativePtr} (hp : s.IsLive p) : w.IsLive p.birth := by
  obtain ⟨n, hp⟩ := hp
  exact ⟨_, h.event hp⟩

end Abstracts

/-! ## What script reads -/

namespace FunctionCallback

/-- The callback reads the native of its holder. -/
def Getter : FunctionCallback ι → Prop
  | typeGetter | timeStampGetter | targetGetter | currentTargetGetter => True
  | _ => False

/-- What the callback reads a target of, the native `n`, is `q`. -/
def ReadsTarget (n : Event ι) (q : NativePtr) : FunctionCallback ι → Prop
  | targetGetter => n.target = some q
  | currentTargetGetter => n.currentTarget = some q
  | _ => False

end FunctionCallback

/-- A script call of `f` on `receiver` dereferences the pointer `q`: the native of
the receiver, or the target that it reads of it. -/
def State.Dereferences (s : State ι) (f : FunctionValue ι TemplateId) (receiver : ObjectId) (q : NativePtr) : Prop :=
  ∃ obj callback p, s.objects receiver = some obj ∧ signatureAccepts s.templates f.signature obj = true ∧
    f.callback = some callback ∧ callback.Getter ∧ obj.fields[0]? = some (.native p) ∧
    (q = p ∨ ∃ n, s.native p = some n ∧ callback.ReadsTarget n q)

/-- The pointers that a script call dereferences point to live natives. -/
def Op.ReadsLive (s : State ι) : Op ι → Prop
  | .scriptCall _ _ f receiver _ _ => ∀ q, s.Dereferences f receiver q → s.IsLive q
  | _ => True

theorem signatureAccepts_eq (templates : Templates ι) (signature : Option TemplateId) {obj obj' : JSObject ι}
    (h : obj.template = obj'.template) :
    signatureAccepts templates signature obj = signatureAccepts templates signature obj' := by
  cases signature with
  | none => rfl
  | some receiver =>
    unfold signatureAccepts
    rw [h]

/-- A getter of a target, and what the abstract model reads. -/
theorem Abstracts.readTarget {s : State ι} {w : World ι} (h : Abstracts s w) {field : Option NativePtr}
    (hlive : ∀ q, field = some q → s.IsLive q) :
    V8EventInternal.readTarget field s = w.readTarget (field.map NativePtr.birth) := by
  cases field with
  | none => rfl
  | some q =>
    obtain ⟨n, hq⟩ := hlive q rfl
    show (s.native q).map _ = (w.events q.birth).map _
    rw [hq.native, h.event hq]
    rfl

variable [Fintype ι]

/-- A call of a native function as a method reads the same in the abstract model. -/
theorem Abstracts.invoke {s : State ι} {w : World ι} (h : Abstracts s w) (M : Hierarchy ι)
    {callback : FunctionCallback ι} {receiver : ObjectId} {obj : JSObject ι} (ho : s.objects receiver = some obj)
    (hfield : callback.Getter → ∃ p n, obj.fields[0]? = some (.native p) ∧ s.Live p n ∧
      ∀ q, callback.ReadsTarget n q → s.IsLive q) (args : List JSValue) (addr : Addr) :
    (M.invoke callback { isConstructCall := false, holder := receiver, args := args } addr s).map Prod.fst =
      w.invoke M.strings callback obj.view.native := by
  have hview : ∀ {p n}, obj.fields[0]? = some (.native p) → s.Live p n →
      Config.toImpl receiver s = some (some p) ∧ obj.view.native = some p.birth ∧ w.events p.birth = some (n.view s) := by
    intro p n hf hp
    refine ⟨Config.toImpl_eq ho hf, ?_, h.event hp⟩
    rw [JSObject.view, hf, Option.bind_some, Field.birth]
  cases callback with
  | constructorCallback t =>
    simp only [Hierarchy.invoke, Hierarchy.constructorCallback, Bool.false_eq_true, not_false_eq_true, if_true,
      Option.map_some, Config.throw, World.invoke, h.executionTerminating]
  | typeGetter =>
    obtain ⟨p, n, hf, hp, -⟩ := hfield trivial
    obtain ⟨himpl, hb, hev⟩ := hview hf hp
    simp only [Hierarchy.invoke, V8EventInternal.typeGetter, getterOf_eq himpl hp.native, Option.map_some,
      World.invoke, hb, hev, Option.bind_eq_bind, Option.bind_some, Option.pure_def]
    rfl
  | timeStampGetter =>
    obtain ⟨p, n, hf, hp, -⟩ := hfield trivial
    obtain ⟨himpl, hb, hev⟩ := hview hf hp
    simp only [Hierarchy.invoke, V8EventInternal.timeStampGetter, getterOf_eq himpl hp.native, Option.map_some,
      World.invoke, hb, hev, Option.bind_eq_bind, Option.bind_some, Option.pure_def]
    rfl
  | targetGetter =>
    obtain ⟨p, n, hf, hp, ht⟩ := hfield trivial
    obtain ⟨himpl, hb, hev⟩ := hview hf hp
    simp only [Hierarchy.invoke, V8EventInternal.targetGetter, getterOf_eq himpl hp.native, h.readTarget ht,
      World.invoke, hb, hev, Option.bind_eq_bind, Option.bind_some, Option.pure_def, Event.view]
    cases w.readTarget (n.target.map NativePtr.birth) <;> rfl
  | currentTargetGetter =>
    obtain ⟨p, n, hf, hp, ht⟩ := hfield trivial
    obtain ⟨himpl, hb, hev⟩ := hview hf hp
    simp only [Hierarchy.invoke, V8EventInternal.currentTargetGetter, getterOf_eq himpl hp.native, h.readTarget ht,
      World.invoke, hb, hev, Option.bind_eq_bind, Option.bind_some, Option.pure_def, Event.view]
    cases w.readTarget (n.currentTarget.map NativePtr.birth) <;> rfl
  | preventDefault => rfl
  | other n => rfl

variable [DecidableEq ι] {M : Embedding ι}

/-- Script gets the same answers. -/
theorem Abstracts.answer {s : State ι} {w : World ι} (h : Abstracts s w) (hi : Inv M s) {ft : TemplateId}
    {place : Place} {f : FunctionValue ι TemplateId} {receiver : ObjectId} {args : List JSValue} {addr : Addr}
    (hr : receiver ∈ s.reached) (hlive : (Op.scriptCall ft place f receiver args addr).ReadsLive s) :
    M.answer f receiver args addr s = w.answer M.strings f receiver := by
  obtain ⟨obj, p, ho, hf⟩ := hi.reached_field hr
  have hview : w.objects receiver = some obj.view := by rw [h.objects, ho, Option.map_some]
  have hsig : signatureAccepts (ι := ι) w.templates f.signature ⟨obj.view.template, obj.view.context, []⟩ =
      signatureAccepts s.templates f.signature obj := by
    rw [h.templates]
    exact signatureAccepts_eq _ _ rfl
  simp only [Hierarchy.answer, World.answer, ho, hview, hsig, Option.bind_eq_bind, Option.bind_some]
  by_cases hs : signatureAccepts s.templates f.signature obj = true
  · rw [if_pos hs, if_pos hs]
    cases hc : f.callback with
    | none => rfl
    | some callback =>
      have hinv := h.invoke M.toHierarchy ho (?_ : callback.Getter → _) args addr
      · show (M.invoke callback _ addr s).bind _ = (w.invoke M.strings callback obj.view.native).bind _
        rw [← hinv, Option.bind_map]
        rfl
      · intro hg
        obtain ⟨n, hn⟩ := hlive p ⟨obj, callback, p, ho, hs, hc, hg, hf, .inl rfl⟩
        exact ⟨p, n, hf, hn, fun q hq => hlive q ⟨obj, callback, p, ho, hs, hc, hg, hf, .inr ⟨n, hn.native, hq⟩⟩⟩
  · rw [if_neg hs, if_neg hs]

/-! ## The changes of the heaps -/

omit [Fintype ι] [DecidableEq ι] in
/-- A native looks the same while the cell of its handle does. -/
theorem Event.view_congr {n : Event ι} {s s' : State ι} (h : ∀ c, n.wrapper = some c → s'.cells c = s.cells c) :
    n.view s' = n.view s := by
  have hg : Wrappable.getWrapper n s' = Wrappable.getWrapper n s := by
    unfold Wrappable.getWrapper
    cases hw : n.wrapper with
    | none => rfl
    | some c => rw [Option.bind_some, Option.bind_some, h c hw]
  rw [view, view, hg]

omit [DecidableEq ι] in
theorem Hierarchy.blank_view (M : Hierarchy ι) (f : JSFunction) (t : ι) :
    (M.blank f t).view = ⟨f.template, f.context, none⟩ := by
  rw [JSObject.view, blank, List.getElem?_replicate]
  split <;> rfl

theorem Coherent.birth_ne {s : State ι} (h : Coherent M s) {p q : NativePtr} {n m : Event ι} (hp : s.Live p n)
    (hqp : q ≠ p) (hq : s.Live q m) : q.birth ≠ p.birth := fun hb => hqp (h.distinct q p m n hq hp hb)

namespace Abstracts

variable {s s' : State ι} {w : World ι}

omit [Fintype ι] [DecidableEq ι] in
/-- The events, after the native at `p` was made, changed or deleted. -/
theorem events_update (h : Abstracts s w) (s' : State ι) {p : NativePtr} {x : Option (Event ι)}
    (hlive : ∀ {q m}, s'.Live q m ↔ q = p ∧ x = some m ∨ q ≠ p ∧ s.Live q m)
    (hne : ∀ q m, q ≠ p → s.Live q m → q.birth ≠ p.birth ∧ m.view s' = m.view s) (b : Nat) (m : EventView ι) :
    Function.update w.events p.birth (x.map fun n => n.view s') b = some m ↔
      ∃ q n, s'.Live q n ∧ q.birth = b ∧ m = n.view s' := by
  by_cases hb : b = p.birth
  · subst hb
    rw [Function.update_self, Option.map_eq_some_iff]
    constructor
    · rintro ⟨n, hx, rfl⟩
      exact ⟨p, n, hlive.mpr (.inl ⟨rfl, hx⟩), rfl, rfl⟩
    · rintro ⟨q, n, hq, hb, rfl⟩
      rcases hlive.mp hq with ⟨-, hx⟩ | ⟨hqp, hq⟩
      · exact ⟨n, hx, rfl⟩
      · exact absurd hb (hne q n hqp hq).1
  · rw [Function.update_of_ne hb, h.events]
    constructor
    · rintro ⟨q, n, hq, rfl, rfl⟩
      have hqp : q ≠ p := fun hqp => hb (congrArg NativePtr.birth hqp)
      exact ⟨q, n, hlive.mpr (.inr ⟨hqp, hq⟩), rfl, (hne q n hqp hq).2.symm⟩
    · rintro ⟨q, n, hq, rfl, rfl⟩
      rcases hlive.mp hq with ⟨rfl, -⟩ | ⟨hqp, hq⟩
      · exact absurd rfl hb
      · exact ⟨q, n, hq, rfl, (hne q n hqp hq).2⟩

omit [Fintype ι] [DecidableEq ι] in
theorem congr {w' : World ι} (h : Abstracts s w) (hw : w' = w) : Abstracts s w' := hw ▸ h

omit [Fintype ι] [DecidableEq ι] in
theorem setTemplates (h : Abstracts s w) (templates : Templates ι) :
    Abstracts (s.setTemplates templates) { w with templates := templates } :=
  ⟨h.isolate, rfl, h.context, h.executionTerminating, h.events, h.births, h.objects, h.nextObject, h.reached⟩

omit [Fintype ι] [DecidableEq ι] in
theorem reach (h : Abstracts s w) (o : ObjectId) : Abstracts (s.reach o) (w.reach o) :=
  ⟨h.isolate, h.templates, h.context, h.executionTerminating, h.events, h.births, h.objects, h.nextObject,
    congrArg (o :: ·) h.reached⟩

omit [Fintype ι] [DecidableEq ι] in
theorem giveWrapper (h : Abstracts s w) (o : ObjectId) : Abstracts (s.giveWrapper o) (w.reach o) :=
  ⟨h.isolate, h.templates, h.context, h.executionTerminating, h.events, h.births, h.objects, h.nextObject,
    congrArg (o :: ·) h.reached⟩

omit [DecidableEq ι] in
theorem newObject (h : Abstracts s w) (M : Hierarchy ι) (f : JSFunction) (t : ι) :
    Abstracts (s.newObject (M.blank f t)).2 (w.instantiate f none) := by
  refine ⟨h.isolate, h.templates, h.context, h.executionTerminating, h.events, h.births, fun o => ?_,
    congrArg (· + 1) h.nextObject, h.reached⟩
  show Function.update w.objects w.nextObject _ o = (Function.update s.objects s.nextObject _ o).map JSObject.view
  rw [h.nextObject, ← M.blank_view f t]
  by_cases ho : o = s.nextObject
  · rw [ho, Function.update_self, Function.update_self, Option.map_some]
  · rw [Function.update_of_ne ho, Function.update_of_ne ho, h.objects]

theorem allocate (h : Abstracts s w) (hc : Coherent M s) {addr : Addr} (hfree : s.natives addr = none) (t : ι)
    (event : List UInt8) :
    Abstracts (s.allocate ⟨addr, s.births⟩ (Event.fresh t event s.births)) (w.make t event none) := by
  have hview : (Event.fresh t event s.births).view (s.allocate ⟨addr, s.births⟩ (Event.fresh t event s.births)) =
      { typeInfo := t, wrapper := none, target := none, currentTarget := none, timeStamp := 0,
        type := cString event } := by
    rw [Event.view, Event.getType_eq rfl]
    rfl
  have hev := h.events_update (s.allocate ⟨addr, s.births⟩ (Event.fresh t event s.births))
    (p := ⟨addr, s.births⟩) (x := some (Event.fresh t event s.births)) ?_ ?_
  · refine ⟨h.isolate, h.templates, h.context, h.executionTerminating, fun b m => ?_, congrArg (· + 1) h.births,
      h.objects, h.nextObject, h.reached⟩
    rw [← hev, Option.map_some, hview, ← h.births]
    rfl
  · intro q m
    rw [State.live_allocate hfree rfl, Option.some.injEq, eq_comm (a := m)]
    refine or_congr_right ⟨fun hq => ⟨?_, hq⟩, fun hq => hq.2⟩
    rintro rfl
    exact absurd (hc.births _ _ hq) (Nat.lt_irrefl _)
  · exact fun q m _ hq => ⟨Nat.ne_of_lt (hc.births q m hq), Event.view_congr fun _ _ => rfl⟩

theorem setNative (h : Abstracts s w) (hc : Coherent M s) {p : NativePtr} {n n' : Event ι} (hp : s.Live p n)
    (hb : n'.birth = n.birth) : Abstracts (s.setNative p n') (w.setEvent p.birth (n'.view s)) := by
  have hev := h.events_update (s.setNative p n') (p := p) (x := some n') ?_ ?_
  · exact ⟨h.isolate, h.templates, h.context, h.executionTerminating, hev, h.births, h.objects, h.nextObject,
      h.reached⟩
  · intro q m
    rw [State.live_replace n' hp hb rfl, Option.some.injEq, eq_comm (a := m)]
  · exact fun q m hqp hq => ⟨hc.birth_ne hp hqp hq, Event.view_congr fun _ _ => rfl⟩

theorem remove (h : Abstracts s w) (hc : Coherent M s) {p : NativePtr} {n : Event ι} (hp : s.Live p n)
    (deleter : Deleter) :
    Abstracts (s.remove deleter p n) { w with events := Function.update w.events p.birth none } := by
  have hlive : ∀ {q m}, (s.remove deleter p n).Live q m ↔ q ≠ p ∧ s.Live q m := State.live_remove hp deleter
  have hev := h.events_update (s.remove deleter p n) (p := p) (x := none) ?_ ?_
  · exact ⟨h.isolate, h.templates, h.context, h.executionTerminating, hev, h.births, h.objects, h.nextObject,
      h.reached⟩
  · intro q m
    rw [hlive]
    simp only [reduceCtorEq, and_false, false_or]
  · intro q m hqp hq
    obtain ⟨-, hkept⟩ := hc.kept_remove hp deleter (hlive.mpr ⟨hqp, hq⟩)
    exact ⟨hc.birth_ne hp hqp hq, Event.view_congr fun c hw => (hkept.wrapper c hw).2⟩

omit [Fintype ι] [DecidableEq ι] in
theorem discard (h : Abstracts s w) (o : ObjectId) :
    Abstracts (s.discard o) { w with objects := Function.update w.objects o none } := by
  refine ⟨h.isolate, h.templates, h.context, h.executionTerminating, h.events, h.births, fun o' => ?_, h.nextObject,
    h.reached⟩
  show Function.update w.objects o none o' = (Function.update s.objects o none o').map JSObject.view
  by_cases ho : o' = o
  · rw [ho, Function.update_self, Function.update_self, Option.map_none]
  · rw [Function.update_of_ne ho, Function.update_of_ne ho, h.objects]

theorem link (h : Abstracts s w) (hc : Coherent M s) {p : NativePtr} {n : Event ι} {o : ObjectId}
    {obj : JSObject ι} (hp : s.Live p n) (hl : 2 ≤ obj.fields.length) :
    Abstracts (s.link M.info p n n.typeInfo o obj)
      { w with
        objects := Function.update w.objects o (some ⟨obj.template, obj.context, some p.birth⟩)
        events := Function.update w.events p.birth (some { n.view s with wrapper := some o }) } := by
  set n' : Event ι := { n with wrapper := some s.nextCell }
  set s' := s.link M.info p n n.typeInfo o obj with hs'
  have hview : n'.view s' = { n.view s with wrapper := some o } := by
    have hg : Wrappable.getWrapper n' s' = some o := by
      show (Function.update s.cells s.nextCell _ s.nextCell).map Cell.object = some o
      rw [Function.update_self, Option.map_some]
    rw [Event.view, hg]
    rfl
  have hev := h.events_update s' (p := p) (x := some n') ?_ ?_
  · refine ⟨h.isolate, h.templates, h.context, h.executionTerminating, fun b m => ?_, h.births, fun o' => ?_,
      h.nextObject, h.reached⟩
    · rw [← hev, Option.map_some, hview]
    · show Function.update w.objects o _ o' = (Function.update s.objects o _ o').map JSObject.view
      by_cases ho : o' = o
      · rw [ho, Function.update_self, Function.update_self, Option.map_some, JSObject.view,
          List.getElem?_set_ne (by decide), List.getElem?_set_self (by omega), Option.bind_some, Field.birth]
      · rw [Function.update_of_ne ho, Function.update_of_ne ho, h.objects]
  · intro q m
    rw [State.live_replace n' hp rfl rfl, Option.some.injEq, eq_comm (a := m)]
  · intro q m hqp hq
    refine ⟨hc.birth_ne hp hqp hq, Event.view_congr fun c hw => ?_⟩
    obtain ⟨o', hl'⟩ := hc.linked q m c hq hw
    exact Function.update_of_ne (Nat.ne_of_lt (hc.cells c _ hl'.cell).1) ..

end Abstracts

/-! ## Operations -/

omit [DecidableEq ι] in
/-- What a script call does, from what script gets of it. -/
theorem Hierarchy.scriptCall_answer (M : Hierarchy ι) (f : FunctionValue ι TemplateId) (o : ObjectId)
    (args : List JSValue) (addr : Addr) (s : State ι) :
    M.scriptCall f o args addr s = (M.answer f o args addr s).map fun
      | some (.returned v) => s.reachValue v
      | _ => s := by
  unfold scriptCall answer
  cases s.objects o with
  | none => rfl
  | some obj =>
    simp only [Option.bind_eq_bind, Option.bind_some]
    split
    · cases f.callback with
      | none => rfl
      | some callback =>
        show (M.invoke callback _ addr s).bind _ = ((M.invoke callback _ addr s).bind _).map _
        cases hinv : M.invoke callback { isConstructCall := false, holder := o, args := args } addr s with
        | none => rfl
        | some r =>
          obtain ⟨outcome, s'⟩ := r
          obtain ⟨rfl, -⟩ := M.invoke_object rfl hinv
          cases outcome <;> rfl
    · rfl

omit [DecidableEq ι] in
/-- The request of an operation for a template. -/
theorem Embedding.family_interfaceTemplate {s : State ι} {t : ι} {ft : TemplateId} {templates : Templates ι}
    (h : M.interfaceTemplate t s = some (ft, s.setTemplates templates)) :
    M.toHierarchy.family.interfaceTemplate M.fuel s.isolate t s.templates = some (ft, templates) := by
  obtain ⟨r, hr, heq⟩ := Option.map_eq_some_iff.mp h
  rw [hr]
  cases heq
  rfl

/-- `Wrap`, with the request that it makes for a template. -/
theorem Coherent.wrap_request {s : State ι} (h : Coherent M s) {p : NativePtr} {n : Event ι} (hp : s.Live p n)
    (context : ContextId) (addr : Addr) :
    (∃ o, Wrappable.getWrapper n s = some o ∧ M.wrap p context addr s = some (some o, s)) ∨
      n.wrapper = none ∧ ∃ ft templates,
        M.toHierarchy.family.interfaceTemplate M.fuel s.isolate n.typeInfo s.templates = some (ft, templates) ∧
        Templates.Inv M.family [] templates ∧
        (∀ name ft, s.templates.cached name = some ft → templates.cached name = some ft) ∧
        M.wrap p context addr s = some (some s.nextObject,
          ((s.setTemplates templates).newObject (M.blank ⟨ft, s.context⟩ n.typeInfo)).2.link M.info p n
            n.typeInfo s.nextObject (M.blank ⟨ft, s.context⟩ n.typeInfo)) := by
  cases hw : n.wrapper with
  | some c =>
    obtain ⟨o, hl⟩ := h.linked p n c hp hw
    exact .inl ⟨o, hl.getWrapper hw, Hierarchy.wrap_wrapped hp.native hw hl.cell⟩
  | none =>
    obtain ⟨ft, templates, heq, hreq, hi, ht, hc⟩ := M.interfaceTemplate_eq h.templates n.typeInfo
    exact .inr ⟨rfl, ft, templates, M.family_interfaceTemplate heq, hi, hc, Hierarchy.wrap_bare hp.native hw (hreq _)
      (show M.Constructs (s.setTemplates templates) ft n.typeInfo from Embedding.constructs_of_cached hi ht)⟩

namespace Abstracts

variable {s s' : State ι} {w : World ι}

omit [Fintype ι] [DecidableEq ι] in
/-- What can be started can be started in the abstract model. -/
theorem enabled (h : Abstracts s w) {op : Op ι} (he : op.Enabled s) : op.action.Enabled w := by
  have htarget : ∀ {target}, s.NullOrLive target → ∀ b, target.map NativePtr.birth = some b → w.IsLive b := by
    intro target ht b hb
    obtain ⟨q, hq, rfl⟩ := Option.map_eq_some_iff.mp hb
    exact h.isLive (ht q hq)
  cases op with
  | scriptNew f args addr =>
    obtain ⟨⟨name, hn⟩, -⟩ := he
    exact ⟨name, by rw [h.templates]; exact hn⟩
  | scriptCall ft place f receiver args addr => exact show receiver ∈ w.reached from h.reached ▸ he.2.2.1
  | drop o => exact show o ∈ w.reached from h.reached ▸ he
  | wrap this context addr => exact h.isLive he.1
  | setTarget this target => exact ⟨h.isLive he.1, htarget he.2⟩
  | setCurrentTarget this target => exact ⟨h.isLive he.1, htarget he.2⟩
  | setTimeStamp this timeStamp => exact h.isLive he
  | destroy this => exact h.isLive he
  | collect o =>
    obtain ⟨ho, hr, -⟩ := he
    refine ⟨?_, h.reached ▸ hr⟩
    rw [h.objects, ne_eq, Option.map_eq_none_iff]
    exact ho
  | _ => exact trivial

/-- An accepted `new`. -/
theorem newAccepted (h : Abstracts s w) (hc : Coherent M s) {addr : Addr} (hfree : s.natives addr = none)
    (f : JSFunction) (t : ι) (v : JSString) :
    Abstracts
      ((((s.newObject (M.blank f t)).2.allocate ⟨addr, s.births⟩ (M.scripted t v s.births)).link M.info
        ⟨addr, s.births⟩ (M.scripted t v s.births) t s.nextObject (M.blank f t)).giveWrapper s.nextObject)
      (((w.instantiate f (some w.births)).make t (M.strings.utf8Value v) (some w.nextObject)).reach w.nextObject) := by
  have hfree' : (s.newObject (M.blank f t)).2.natives addr = none := hfree
  have hc₁ := hc.newObject (Hierarchy.blank_field (M := M.toHierarchy) f t)
  have hc₂ : Coherent M ((s.newObject (M.blank f t)).2.allocate ⟨addr, s.births⟩ (M.scripted t v s.births)) :=
    hc₁.allocate hfree' rfl rfl rfl rfl rfl
  have h₂ : Abstracts ((s.newObject (M.blank f t)).2.allocate ⟨addr, s.births⟩ (M.scripted t v s.births))
      ((w.instantiate f none).make t (M.strings.utf8Value v ++ [0]) none) :=
    (h.newObject M.toHierarchy f t).allocate hc₁ hfree' t (M.strings.utf8Value v ++ [0])
  have h₃ := (h₂.link hc₂ (n := M.scripted t v s.births) (o := s.nextObject) (State.live_self_allocate hfree' rfl)
    (M.two_le_length_blank f t)).giveWrapper s.nextObject
  have hview : (M.scripted t v s.births).view
      ((s.newObject (M.blank f t)).2.allocate ⟨addr, s.births⟩ (M.scripted t v s.births)) =
      { typeInfo := t, wrapper := none, target := none, currentTarget := none, timeStamp := 0,
        type := cString (M.strings.utf8Value v) } := by
    rw [Event.view, Event.getType_eq rfl, cString_append_nul]
    rfl
  rw [hview] at h₃
  refine h₃.congr ?_
  simp only [World.reach, World.make, World.instantiate, Function.update_idem, h.births, h.nextObject]
  rfl

/-- `Wrap` of a native without a wrapper. -/
theorem wrapBare (h : Abstracts s w) (hc : Coherent M s) {p : NativePtr} {n : Event ι} {ft : TemplateId}
    {templates : Templates ι} (hp : s.Live p n) (ht : Templates.Inv M.family [] templates)
    (hcached : ∀ name ft, s.templates.cached name = some ft → templates.cached name = some ft) :
    Abstracts
      ((((s.setTemplates templates).newObject (M.blank ⟨ft, s.context⟩ n.typeInfo)).2.link M.info p n
        n.typeInfo s.nextObject (M.blank ⟨ft, s.context⟩ n.typeInfo)).giveWrapper s.nextObject)
      ((({ w with templates := templates }.instantiate ⟨ft, w.context⟩ (some p.birth)).setEvent p.birth
        { n.view s with wrapper := some w.nextObject }).reach w.nextObject) := by
  have hc₁ := (hc.setTemplates ht hcached).newObject (Hierarchy.blank_field (M := M.toHierarchy) ⟨ft, s.context⟩ n.typeInfo)
  have h₁ := (h.setTemplates templates).newObject M.toHierarchy ⟨ft, s.context⟩ n.typeInfo
  have h₂ := (h₁.link hc₁ (n := n) (o := s.nextObject) (by exact hp)
    (M.two_le_length_blank ⟨ft, s.context⟩ n.typeInfo)).giveWrapper s.nextObject
  refine h₂.congr ?_
  simp only [World.reach, World.setEvent, World.instantiate, Function.update_idem, h.context, h.nextObject]
  rfl

omit [Fintype ι] [DecidableEq ι] in
/-- The events that the collector leaves when it takes an object that is not their wrapper. -/
theorem filter_events (h : Abstracts s w) {o : ObjectId} {b : Nat}
    (hne : ∀ p n, s.Live p n → p.birth = b → Wrappable.getWrapper n s ≠ some o) :
    ((w.events b).filter fun n => n.wrapper ≠ some o) = w.events b := by
  cases hb : w.events b with
  | none => rfl
  | some m =>
    obtain ⟨p, n, hp, hpb, rfl⟩ := (h.events b m).mp hb
    rw [Option.filter_some]
    exact if_pos (decide_eq_true (hne p n hp hpb))

/-- The collector takes an event with its wrapper. -/
theorem collect (h : Abstracts s w) (hc : Coherent M s) {o : ObjectId} (hx : s.collect o = some s') :
    ∃ w', (Action.collect o).exec M.toHierarchy w = some w' ∧ Abstracts s' w' := by
  rcases hc.collect o with ⟨hnone, heq⟩ | ⟨p, n, c, hp, hw, hl, heq⟩
  · cases heq.symm.trans hx
    refine ⟨_, rfl, (h.discard o).congr ?_⟩
    have hev : (fun b => (w.events b).filter fun n => n.wrapper ≠ some o) = w.events := by
      refine funext fun b => h.filter_events fun p n hp _ hg => ?_
      obtain ⟨c, -, hl⟩ := hc.linked_of_getWrapper hp hg
      exact hnone c _ hl.cell rfl
    rw [hev]
  · cases heq.symm.trans hx
    rw [State.remove_discard]
    refine ⟨_, rfl, ((h.remove hc hp .collector).discard o).congr ?_⟩
    have hev : (fun b => (w.events b).filter fun n => n.wrapper ≠ some o) = Function.update w.events p.birth none := by
      refine funext fun b => ?_
      by_cases hb : b = p.birth
      · rw [hb, Function.update_self, h.event hp, Event.view, hl.getWrapper hw, Option.filter_some, if_neg (by simp)]
      · rw [Function.update_of_ne hb]
        refine h.filter_events fun q m hq hqb hg => hb ?_
        obtain ⟨d, -, hl'⟩ := hc.linked_of_getWrapper hq hg
        rw [← hqb, hl.unique hl']
    rw [hev]

/-- An operation whose script call, if it is one, dereferences live natives does
what it does in the abstract model. -/
theorem exec (h : Abstracts s w) (hi : Inv M s) {op : Op ι} (hlive : op.ReadsLive s) (hs : M.system.step s op s') :
    ∃ w', op.action.exec M.toHierarchy w = some w' ∧ Abstracts s' w' := by
  obtain ⟨he, hx⟩ := hs
  cases op with
  | interfaceTemplate t =>
    obtain ⟨ft, templates, heq, -⟩ := M.interfaceTemplate_eq hi.coherent.templates t
    have hreq := M.family_interfaceTemplate heq
    simp only [Op.exec, heq, Option.bind_eq_bind, Option.bind_some, Option.pure_def, Option.some.injEq] at hx
    subst hx
    refine ⟨_, ?_, h.setTemplates templates⟩
    simp only [Op.action, Action.exec, h.isolate, h.templates, hreq, Option.bind_eq_bind, Option.bind_some,
      Option.pure_def]
  | scriptNew f args addr =>
    obtain ⟨hexp, hfree⟩ := he
    obtain ⟨t, ht, hcons⟩ := Embedding.constructs_of_exposed hi.coherent.templates hexp
    have hclass : w.classOf f.template = some t := by
      obtain ⟨template, htpl, hh, -⟩ := hcons
      rw [World.classOf, h.templates, htpl, Option.bind_some, hh]
    cases ha : args.getD 0 .undefined with
    | string v =>
      simp only [Op.exec, Hierarchy.construct_create hcons hi.mode ha hfree, Option.bind_eq_bind, Option.bind_some,
        Option.pure_def, Option.some.injEq] at hx
      subst hx
      refine ⟨_, ?_, h.newAccepted hi.coherent hfree f t v⟩
      simp only [Op.action, Action.exec, hclass, ha, Option.bind_eq_bind, Option.bind_some, Option.pure_def]
    | _ =>
      simp only [Op.exec, Hierarchy.construct_reject hcons hi.mode (by rw [ha]; rfl), Option.bind_eq_bind,
        Option.bind_some, Option.pure_def, Option.some.injEq] at hx
      subst hx
      refine ⟨_, ?_, h.newObject M.toHierarchy f t⟩
      simp only [Op.action, Action.exec, hclass, ha, Option.bind_eq_bind, Option.bind_some, Option.pure_def]
  | scriptCall ft place f receiver args addr =>
    have hans := h.answer hi he.2.2.1 hlive
    have hx' := (M.scriptCall_answer f receiver args addr s).symm.trans hx
    rw [hans] at hx'
    obtain ⟨r, hr, rfl⟩ := Option.map_eq_some_iff.mp hx'
    simp only [Op.action, Action.exec, hr, Option.bind_eq_bind, Option.bind_some, Option.pure_def]
    rcases r with _ | ⟨⟨_ | _ | _ | _ | _ | _⟩⟩ | _
    all_goals first | exact ⟨_, rfl, h⟩ | exact ⟨_, rfl, h.reach _⟩
  | drop o =>
    cases hx
    exact ⟨_, rfl, h.isolate, h.templates, h.context, h.executionTerminating, h.events, h.births, h.objects,
      h.nextObject, congrArg (List.filter _) h.reached⟩
  | nativeNew t event addr =>
    simp only [Op.exec, Event.create_eq he.1 he.2, Option.bind_eq_bind, Option.bind_some, Option.pure_def,
      Option.some.injEq] at hx
    subst hx
    exact ⟨_, rfl, h.allocate hi.coherent he.2 t event⟩
  | wrap p context addr =>
    obtain ⟨⟨n, hp⟩, -⟩ := he
    have hev := h.event hp
    rcases hi.coherent.wrap_request hp context addr with ⟨o, hg, heq⟩ | ⟨hw, ft, templates, hreq, ht, hc, heq⟩
    · simp only [Op.exec, heq, Option.bind_eq_bind, Option.bind_some, Option.pure_def, Option.some.injEq] at hx
      subst hx
      refine ⟨_, ?_, h.giveWrapper o⟩
      simp only [Op.action, Action.exec, hev, Event.view, hg, Option.bind_eq_bind, Option.bind_some, Option.pure_def]
    · simp only [Op.exec, heq, Option.bind_eq_bind, Option.bind_some, Option.pure_def, Option.some.injEq] at hx
      subst hx
      have hg : (n.view s).wrapper = none := by rw [Event.view, Wrappable.getWrapper, hw, Option.bind_none]
      refine ⟨_, ?_, h.wrapBare hi.coherent hp ht hc⟩
      simp only [Op.action, Action.exec, hev, hg, h.isolate, h.templates, Option.bind_eq_bind, Option.bind_some]
      rw [show (n.view s).typeInfo = n.typeInfo from rfl, hreq]
      rfl
  | setTarget p target =>
    obtain ⟨⟨n, hp⟩, -⟩ := he
    simp only [Op.exec, hp.native, Option.bind_eq_bind, Option.bind_some, Option.pure_def, Option.some.injEq] at hx
    subst hx
    refine ⟨_, ?_, h.setNative hi.coherent hp rfl⟩
    simp only [Op.action, Action.exec, h.event hp, Option.bind_eq_bind, Option.bind_some, Option.pure_def]
    rfl
  | setCurrentTarget p target =>
    obtain ⟨⟨n, hp⟩, -⟩ := he
    simp only [Op.exec, hp.native, Option.bind_eq_bind, Option.bind_some, Option.pure_def, Option.some.injEq] at hx
    subst hx
    refine ⟨_, ?_, h.setNative hi.coherent hp rfl⟩
    simp only [Op.action, Action.exec, h.event hp, Option.bind_eq_bind, Option.bind_some, Option.pure_def]
    rfl
  | setTimeStamp p timeStamp =>
    obtain ⟨n, hp⟩ := he
    simp only [Op.exec, hp.native, Option.bind_eq_bind, Option.bind_some, Option.pure_def, Option.some.injEq] at hx
    subst hx
    refine ⟨_, ?_, h.setNative hi.coherent hp rfl⟩
    simp only [Op.action, Action.exec, h.event hp, Option.bind_eq_bind, Option.bind_some, Option.pure_def]
    rfl
  | destroy p =>
    obtain ⟨n, hp⟩ := he
    cases (Wrappable.delete_eq hp.native).symm.trans hx
    exact ⟨_, rfl, h.remove hi.coherent hp .nativeCode⟩
  | collect o => exact h.collect hi.coherent hx
  | enterContext context =>
    cases hx
    exact ⟨_, rfl, h.isolate, h.templates, rfl, h.executionTerminating, h.events, h.births, h.objects, h.nextObject,
      h.reached⟩
  | setTerminating terminating =>
    cases hx
    exact ⟨_, rfl, h.isolate, h.templates, h.context, rfl, h.events, h.births, h.objects, h.nextObject, h.reached⟩

end Abstracts

/-! ## Runs -/

/-- The abstract model follows the steps of a program that dereference live natives. -/
theorem Abstracts.simulation (M : Embedding ι) :
    Simulation M.system M.world (fun s w => Inv M s ∧ Abstracts s w) Op.action Op.ReadsLive where
  init := by
    rintro s ⟨isolate, context, rfl⟩
    exact ⟨_, ⟨isolate, context, rfl⟩, .initial isolate context, .initial isolate context⟩
  step s op s' w h hlive hs := by
    obtain ⟨w', hx, h'⟩ := h.2.exec h.1 hlive hs
    exact ⟨w', ⟨h.2.enabled hs.1, hx⟩, h.1.effect (h.1.step hs), h'⟩

/-- The answers of the abstract model are those of the program. -/
theorem Abstracts.answer_eq {s : State ι} {w : World ι} (h : Abstracts s w) (hi : Inv M s) {op : Op ι}
    (he : op.action.Enabled w) (hlive : op.ReadsLive s) :
    op.answer M.toHierarchy s = op.action.answer M.strings w := by
  cases op with
  | scriptCall ft place f receiver args addr => exact h.answer hi (h.reached ▸ he) hlive
  | _ => rfl

/-- A program whose script calls dereference live natives only does what the
abstract model does, step by step, and script gets the same answers. -/
theorem run_refines {tr : List (State ι × Op ι)} {s : State ι} (h : M.system.Run tr s)
    (hlive : ∀ x ∈ tr, x.2.ReadsLive x.1) :
    ∃ tr' w, M.world.Run tr' w ∧ Abstracts s w ∧
      List.Forall₂ (fun x y => Abstracts x.1 y.1 ∧ y.2 = x.2.action ∧
        x.2.answer M.toHierarchy x.1 = y.2.answer M.strings y.1) tr tr' := by
  obtain ⟨tr', w, hr, ⟨-, hw⟩, hall⟩ := (Abstracts.simulation M).run h hlive
  refine ⟨tr', w, hr, hw, hall.imp ?_⟩
  rintro x ⟨w, a⟩ ⟨⟨hi, ha⟩, hop, hl, w', hs⟩
  cases hop
  exact ⟨ha, rfl, ha.answer_eq hi hs.1 hl⟩

omit [Fintype ι] [DecidableEq ι] in
theorem Op.readsLive_of_live {s : State ι} {ft : TemplateId} {place : Place} {f : FunctionValue ι TemplateId}
    {receiver : ObjectId} {p : NativePtr} {n : Event ι} (himpl : Config.toImpl receiver s = some (some p))
    (hp : s.Live p n) (hread : ∀ callback q, f.callback = some callback → callback.ReadsTarget n q → s.IsLive q)
    (args : List JSValue) (addr : Addr) : (Op.scriptCall ft place f receiver args addr).ReadsLive s := by
  rintro q ⟨obj, callback, p', ho, -, hc, -, hf, hq⟩
  cases himpl.symm.trans (Config.toImpl_eq ho hf)
  rcases hq with rfl | ⟨m, hm, hq⟩
  · exact ⟨n, hp⟩
  · cases hp.native.symm.trans hm
    exact hread callback q hc hq

/-- Script reads the target of an event. -/
theorem run_refines_event : ∃ tr s tr' w, (V8Event.embedding .standard).system.Run tr s ∧
    (V8Event.embedding .standard).world.Run tr' w ∧ Abstracts s w ∧ s.reached = [1, 1, 0] := by
  have h₀ : (V8Event.embedding .standard).system.Run [] (.initial 0 0) := .start ⟨0, 0, rfl⟩
  have h₁ := Hierarchy.run_next (.interfaceTemplate .event) h₀ trivial (by decide)
  have h₂ := Hierarchy.run_next (.scriptNew ⟨0, 0⟩ [.string ⟨[97], by decide⟩] 0) h₁ ⟨⟨"Event", by decide⟩, rfl⟩
    (by decide)
  have h₃ := Hierarchy.run_next (.scriptNew ⟨0, 0⟩ [.string ⟨[98], by decide⟩] 1) h₂ ⟨⟨"Event", by decide⟩, rfl⟩
    (by decide)
  have h₄ := Hierarchy.run_next (.setTarget ⟨0, 0⟩ (some ⟨1, 1⟩)) h₃
    ⟨⟨_, rfl, rfl⟩, fun q hq => Option.some.inj hq ▸ ⟨_, rfl, rfl⟩⟩ (by decide)
  let getter : FunctionValue V8Event.EventType TemplateId :=
    { callback := some .targetGetter, signature := some 0, length := 0, prototypeRemoved := true,
      acceptAnyReceiver := true }
  let setter : FunctionValue V8Event.EventType TemplateId :=
    { callback := none, signature := some 0, length := 1, prototypeRemoved := true, acceptAnyReceiver := true }
  have h₅ := Hierarchy.run_next (.scriptCall 0 .onPrototype getter 0 [] 2) h₄
    ⟨⟨"Event", by decide⟩, ⟨_, rfl, .accessor "target" getter setter V8Event.dontDelete, by decide, by decide⟩,
      by decide, rfl⟩ (by decide)
  have hrefines := run_refines h₅
  obtain ⟨tr', w, hr, hw, -⟩ := hrefines (by
    refine List.forall_mem_cons.mpr
      ⟨Op.readsLive_of_live (p := ⟨0, 0⟩) (by decide) ⟨rfl, rfl⟩ (fun callback q hc hq => ?_) _ _, by simp [Op.ReadsLive]⟩
    cases hc
    cases hq
    exact ⟨_, rfl, rfl⟩)
  exact ⟨_, _, tr', w, h₅, hr, hw, by decide⟩

end NativeObjects
