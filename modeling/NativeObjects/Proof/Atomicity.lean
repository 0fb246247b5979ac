import NativeObjects.Lib.Simulation
import NativeObjects.Proof.Owners

/-!
# `Wrap` is atomic

A `Wrap` may be thought to happen at once, where it makes the instance: a collection
that runs later takes neither the native, which has no wrapper to be collected, nor
the instance, which a local handle keeps (`Coherent.collect_link`), and no other
operation of the isolate comes between.

Isolates that race for the mode break this (`modes_iff`). But as long as their steps are
in order (`Move.InOrder`), and they use classes of their own, the process does what
isolates do that run whole operations in turns (`wraps_serialize`). The steps of a process
with one isolate are always in order, so it does what a program does, whenever its
collector runs (`wrap_atomic`).
-/

namespace NativeObjects

open Lib (System)

variable {ι κ : Type}

/-! ## Collections and the rest of a `Wrap` -/

theorem State.discard_link (info : ι → WrapperTypeInfo ι) (p : NativePtr) (n : Event ι) (t : ι) {o o' : ObjectId}
    (obj : JSObject ι) (s : State ι) (h : o' ≠ o) :
    (s.link info p n t o obj).discard o' = (s.discard o').link info p n t o obj := by
  simp only [discard, link, Function.update_comm h]

theorem State.remove_link (info : ι → WrapperTypeInfo ι) {p q : NativePtr} (n : Event ι) {m : Event ι} (t : ι)
    (o : ObjectId) (obj : JSObject ι) {s : State ι} {c : CellId} (deleter : Deleter) (ha : q.addr ≠ p.addr)
    (hw : m.wrapper = some c) (hc : c ≠ s.nextCell) :
    (s.link info p n t o obj).remove deleter q m = (s.remove deleter q m).link info p n t o obj := by
  simp only [remove, link, hw, Function.update_comm ha, Function.update_comm hc]

variable [Fintype ι] [DecidableEq ι] {M : Embedding ι}

/-- A collection does the same in a state that differs from `s` in what no
collection reads. -/
theorem Coherent.collect_congr {s s' : State ι} {o : ObjectId} (h : Coherent M s) {g : State ι → State ι}
    (hcells : (g s).cells = s.cells) (hnext : (g s).nextCell = s.nextCell) (hnatives : (g s).natives = s.natives)
    (hd : (g s).discard o = g (s.discard o))
    (hr : ∀ q m, ((g s).discard o).remove .collector q m = g ((s.discard o).remove .collector q m))
    (hx : s.collect o = some s') : (g s).collect o = some (g s') := by
  rcases h.collect o with ⟨hc, heq⟩ | ⟨q, m, c, hq, hw, hl, heq⟩
  · cases heq.symm.trans hx
    rw [← hd]
    exact State.collect_orphan fun c cell hcell => hc c cell (hcells ▸ hcell)
  · cases heq.symm.trans hx
    rw [← hr]
    refine State.collect_wrapper (c := c) ((congrFun hcells c).trans hl.cell) rfl rfl ?_ hw ?_ fun d cell hd ho => ?_
    · rw [State.native, hnatives]
      exact hq.native
    · rw [hnext]
      exact (h.cells c _ hl.cell).1
    · exact h.cell_unique hl.cell ((congrFun hcells d).symm.trans hd) ho

/-- A collection may run before a native without a wrapper is linked, or after it. -/
theorem Coherent.collect_link {s s' : State ι} {p : NativePtr} {n : Event ι} {o o' : ObjectId} {obj : JSObject ι}
    (h : Coherent M s) (hp : s.Live p n) (hw : n.wrapper = none) (ho : s.objects o = some obj)
    (hl : 2 ≤ obj.fields.length) (hf : ∀ q, obj.fields[0]? ≠ some (.native q))
    (ht : s.templates.cached (M.family.name n.typeInfo) = some obj.template) (hne : o' ≠ o)
    (hx : s.collect o' = some s') :
    (s.link M.info p n n.typeInfo o obj).collect o' = some (s'.link M.info p n n.typeInfo o obj) := by
  have hlinked := h.link hp hw ho hl hf ht
  rcases h.collect o' with ⟨hc, heq⟩ | ⟨q, m, c, hq, hwm, hlq, heq⟩
  · cases heq.symm.trans hx
    rw [← State.discard_link _ _ _ _ _ _ hne]
    refine State.collect_orphan fun c cell hcell => ?_
    by_cases hcn : c = s.nextCell
    · subst hcn
      cases (Function.update_self ..).symm.trans hcell
      exact hne.symm
    · exact hc c cell ((Function.update_of_ne hcn ..).symm.trans hcell)
  · cases heq.symm.trans hx
    have hqp : q ≠ p := by
      rintro rfl
      cases hp.unique hq
      exact absurd (hw.symm.trans hwm) (by simp)
    have hlt := (h.cells c _ hlq.cell).1
    have hq' : (s.link M.info p n n.typeInfo o obj).Live q m :=
      (State.live_replace { n with wrapper := some s.nextCell } hp rfl rfl).mpr (.inr ⟨hqp, hq⟩)
    have hl' := h.linked_of_linked (p := p) (n := n) ho hf hlq
    have hcomm := State.remove_link M.info n n.typeInfo o obj (s := s.discard o') .collector (hp.ne_addr hq hqp) hwm
      (Nat.ne_of_lt hlt)
    rw [← hcomm, ← State.discard_link _ _ _ _ _ _ hne]
    exact State.collect_wrapper hl'.cell rfl rfl hq'.native hwm (Nat.lt_succ_of_lt hlt)
      fun d cell hd ho => hlinked.cell_unique hl'.cell hd ho

/-! ## Operations in another mode -/

omit [DecidableEq ι] in
theorem Hierarchy.invoke_setMode (M : Hierarchy ι) (m : ConstructorMode) (callback : FunctionCallback ι) (ci : CallInfo)
    (hci : ci.isConstructCall = false) (addr : Addr) (s : State ι) :
    M.invoke callback ci addr (setMode m s) = (M.invoke callback ci addr s).map fun r => (r.1, setMode m r.2) := by
  have hget : ∀ x : Option JSValue, (x.map fun v => (Outcome.returned v, setMode m s)) =
      (x.map fun v => (Outcome.returned v, s)).map fun r => (r.1, setMode m r.2) := fun x => by
    cases x <;> rfl
  cases callback with
  | constructorCallback t =>
    simp only [invoke, constructorCallback, hci, Bool.false_eq_true, not_false_eq_true, if_true]
    rfl
  | typeGetter => exact hget _
  | timeStampGetter => exact hget _
  | targetGetter => exact hget _
  | currentTargetGetter => exact hget _
  | preventDefault => rfl
  | other => rfl

omit [DecidableEq ι] in
/-- A script call leaves the mode unread. -/
theorem Hierarchy.scriptCall_setMode (M : Hierarchy ι) (m : ConstructorMode) (f : FunctionValue ι TemplateId) (o : ObjectId)
    (args : List JSValue) (addr : Addr) (s : State ι) :
    M.scriptCall f o args addr (setMode m s) = (M.scriptCall f o args addr s).map (setMode m) := by
  unfold scriptCall
  show ((s.objects o).bind _) = _
  cases ho : s.objects o with
  | none => rfl
  | some obj =>
    show (if signatureAccepts s.templates f.signature obj = true then _ else _) = Option.map _ (if signatureAccepts s.templates f.signature obj = true then _ else _)
    split
    · cases f.callback with
      | none => rfl
      | some callback =>
        simp only [M.invoke_setMode m callback { isConstructCall := false, holder := o, args := args } rfl]
        cases M.invoke callback { isConstructCall := false, holder := o, args := args } addr s with
        | none => rfl
        | some r =>
          obtain ⟨outcome, s'⟩ := r
          cases outcome with
          | returned v => cases v <;> rfl
          | rejected => rfl
    · rfl

/-- An operation that does not read the mode does in any other mode what it does. -/
theorem Coherent.exec_setMode {s s' : State ι} {op : Op ι} (h : Coherent M s) (m : ConstructorMode)
    (hw : ¬ op.IsWrap) (hn : ∀ f args addr, op ≠ .scriptNew f args addr) (he : op.Enabled s)
    (hx : op.exec M.toHierarchy s = some s') :
    op.exec M.toHierarchy (Hierarchy.setMode m s) = some (Hierarchy.setMode m s') := by
  have hset : ∀ {p} (f : Event ι → Event ι), s.IsLive p →
      ((s.native p).bind fun n => some (s.setNative p (f n))) = some s' →
      ((s.native p).bind fun n => some (Hierarchy.setMode m (s.setNative p (f n)))) =
        some (Hierarchy.setMode m s') := by
    rintro p f ⟨n, hp⟩ hx
    rw [hp.native, Option.bind_some] at hx ⊢
    cases hx
    rfl
  cases op with
  | interfaceTemplate t =>
    obtain ⟨ft, templates, heq, hreq, -⟩ := M.interfaceTemplate_eq h.templates t
    simp only [Op.exec, heq, Option.bind_eq_bind, Option.bind_some, Option.pure_def, Option.some.injEq] at hx
    subst hx
    simp only [Op.exec, hreq m, Option.bind_eq_bind, Option.bind_some, Option.pure_def]
    rfl
  | scriptNew f args addr => exact absurd rfl (hn f args addr)
  | scriptCall ft place f receiver args addr =>
    rw [Op.exec] at hx ⊢
    rw [Hierarchy.scriptCall_setMode, hx, Option.map_some]
  | nativeNew t event addr =>
    have hfree : (Hierarchy.setMode m s).natives addr = none := he.2
    simp only [Op.exec, Event.create_eq he.1 he.2, Option.bind_eq_bind, Option.bind_some, Option.pure_def,
      Option.some.injEq] at hx
    subst hx
    simp only [Op.exec, Event.create_eq he.1 hfree, Option.bind_eq_bind, Option.bind_some, Option.pure_def]
    rfl
  | wrap => exact absurd trivial hw
  | setTarget this target => exact hset (fun n => { n with target := target }) he.1 hx
  | setCurrentTarget this target => exact hset (fun n => { n with currentTarget := target }) he.1 hx
  | setTimeStamp this timeStamp => exact hset (fun n => { n with timeStamp := timeStamp }) he hx
  | destroy this =>
    obtain ⟨n, hp⟩ := he
    have hp' : (Hierarchy.setMode m s).Live this n := hp
    cases (Wrappable.delete_eq hp.native).symm.trans hx
    exact Wrappable.delete_eq hp'.native
  | collect o => exact h.collect_congr (g := Hierarchy.setMode m) rfl rfl rfl rfl (fun _ _ => rfl) hx
  | _ =>
    cases hx
    rfl

/-! ## The state once the `Wrap` has returned -/

/-- What the thread's `Wrap`, if it has made its instance, makes of the state `s`. -/
def Thread.finished (M : Hierarchy ι) (s : State ι) : Thread ι → State ι
  | .instantiated f wrapper =>
    match s.native f.this, s.objects wrapper with
    | some n, some obj => (s.link M.info f.this n f.wrapperTypeInfo wrapper obj).giveWrapper wrapper
    | _, _ => s
  | .associated _ (some o) => s.giveWrapper o
  | _ => s

/-- The state of the isolate `i` once the `Wrap` that it is in, if it has made its
instance, has returned. -/
def Process.finished (M : Hierarchy ι) (p : Process ι κ) (i : κ) : State ι :=
  Hierarchy.setMode .kCreateNewObject ((p.threads i).finished M (p.isolate i))

/-- `q` is `p` with every `Wrap` that has made its instance returned. -/
def Process.Serialized (M : Hierarchy ι) (p q : Process ι κ) : Prop := ∀ i, q.isolate i = p.finished M i

omit [Fintype ι] [DecidableEq ι] in
theorem Hierarchy.setMode_eq_self {m : ConstructorMode} {s : State ι} (h : s.mode = m) : setMode m s = s := by
  subst h
  rfl

/-- There is always room for another native. -/
theorem Coherent.exists_free {s : State ι} (h : Coherent M s) : ∃ addr, s.Free addr := by
  by_contra hfull
  have hlive : ∀ addr, ∃ n, s.natives addr = some n := by
    intro addr
    cases hn : s.natives addr with
    | none => exact absurd ⟨addr, hn⟩ hfull
    | some n => exact ⟨n, rfl⟩
  choose n hn using hlive
  have hinj : Function.Injective fun addr => (n addr).birth := by
    intro a b hab
    exact congrArg NativePtr.addr (h.distinct ⟨a, (n a).birth⟩ ⟨b, (n b).birth⟩ (n a) (n b) ⟨hn a, rfl⟩ ⟨hn b, rfl⟩ hab)
  have hlt : ∀ addr, (n addr).birth < s.births := fun addr => h.births ⟨addr, (n addr).birth⟩ (n addr) ⟨hn addr, rfl⟩
  exact not_injective_infinite_finite (fun addr => (⟨(n addr).birth, hlt addr⟩ : Fin s.births))
    fun a b hab => hinj (congrArg Fin.val hab)

omit [DecidableEq ι] in
/-- What the rest of a `Wrap` makes of the state in which it made its instance. -/
theorem Thread.finished_instantiated (M : Hierarchy ι) {s : State ι} {f : WrapFrame ι} {n : Event ι} {ft : TemplateId}
    {templates : Templates ι} (hp : s.Live f.this n) (hty : n.typeInfo = f.wrapperTypeInfo) :
    Hierarchy.setMode .kCreateNewObject ((Thread.instantiated f s.nextObject).finished M
        ((s.setTemplates templates).newObject (M.blank ⟨ft, s.context⟩ f.wrapperTypeInfo)).2) =
      (((((Hierarchy.setMode .kCreateNewObject s).setTemplates templates).newObject
        (M.blank ⟨ft, s.context⟩ n.typeInfo)).2.link M.info f.this n n.typeInfo s.nextObject
          (M.blank ⟨ft, s.context⟩ n.typeInfo)).giveWrapper s.nextObject) := by
  have hnative : ((s.setTemplates templates).newObject (M.blank ⟨ft, s.context⟩ f.wrapperTypeInfo)).2.native f.this =
      some n := hp.native
  have hobj : ((s.setTemplates templates).newObject (M.blank ⟨ft, s.context⟩ f.wrapperTypeInfo)).2.objects s.nextObject =
      some (M.blank ⟨ft, s.context⟩ f.wrapperTypeInfo) := Function.update_self ..
  simp only [finished, hnative, hobj, hty]
  rfl

/-- `Wrap` at once does what the rest of the `Wrap` makes of its instance. -/
theorem exec_wrap_instantiated {s : State ι} {f : WrapFrame ι} {n : Event ι} {ft : TemplateId}
    {templates : Templates ι} (addr : Addr) (hp : s.Live f.this n) (hw : n.wrapper = none)
    (hty : n.typeInfo = f.wrapperTypeInfo) (hi : Templates.Inv M.family [] templates)
    (hcached : templates.cached (M.family.name n.typeInfo) = some ft)
    (hreq : M.interfaceTemplate n.typeInfo (Hierarchy.setMode .kWrapExistingObject s) =
      some (ft, (Hierarchy.setMode .kWrapExistingObject s).setTemplates templates)) :
    (Op.wrap f.this f.creationContext addr).exec M.toHierarchy (Hierarchy.setMode .kCreateNewObject s) =
      some (Hierarchy.setMode .kCreateNewObject ((Thread.instantiated f s.nextObject).finished M.toHierarchy
        ((s.setTemplates templates).newObject (M.blank ⟨ft, s.context⟩ f.wrapperTypeInfo)).2)) := by
  have hlive : (Hierarchy.setMode .kCreateNewObject s).Live f.this n := hp
  have hcons : M.Constructs ((Hierarchy.setMode .kCreateNewObject s).setTemplates templates) ft n.typeInfo :=
    Embedding.constructs_of_cached hi hcached
  rw [Op.exec, Hierarchy.wrap_bare hlive.native hw hreq hcons]
  exact congrArg some (Thread.finished_instantiated M.toHierarchy hp hty).symm

/-! ## What isolates share -/

/-- `s`, of an isolate that shares these. -/
def State.share (mode : ConstructorMode) (templates : Templates ι) (s : State ι) : State ι :=
  { s with mode := mode, templates := templates }

omit [DecidableEq ι] in
/-- What the rest of a `Wrap` does, it does whatever the isolates share. -/
theorem Thread.finished_share (M : Hierarchy ι) (t : Thread ι) (mode : ConstructorMode) (templates : Templates ι)
    (s : State ι) : t.finished M (s.share mode templates) = (t.finished M s).share mode templates := by
  cases t with
  | instantiated f wrapper =>
    show (match s.native f.this, s.objects wrapper with
      | some n, some obj => _
      | _, _ => _) = _
    rw [finished]
    cases s.native f.this with
    | none => rfl
    | some n => cases s.objects wrapper <;> rfl
  | associated f ret => cases ret <;> rfl
  | _ => rfl

omit [DecidableEq ι] in
theorem Thread.finished_templates (M : Hierarchy ι) (t : Thread ι) (s : State ι) :
    (t.finished M s).templates = s.templates := by
  have h : t.finished M s = (t.finished M s).share s.mode s.templates := t.finished_share M s.mode s.templates s
  rw [h]
  rfl

/-- A collection is in order, and a step that neither breaks the mode nor runs under
another's (`modes_iff`). -/
def Move.InOrder (p : Process ι κ) : Move ι κ → Prop
  | .step a => a.Restores p ∧ a.Undisturbed p
  | .collect _ _ => True

namespace Process

omit [DecidableEq ι] in
theorem finished_eq (M : Hierarchy ι) (p : Process ι κ) (i : κ) :
    p.finished M i = ((p.threads i).finished M (p.isolates i)).share .kCreateNewObject p.templates := by
  have h := (p.threads i).finished_share M p.mode p.templates (p.isolates i)
  show Hierarchy.setMode _ ((p.threads i).finished M ((p.isolates i).share p.mode p.templates)) = _
  rw [h]
  rfl

section Serialized

variable [DecidableEq κ] {M : Hierarchy ι} {p p' q : Process ι κ} {i : κ} {t : Thread ι} {s s' : State ι}

omit [DecidableEq ι] in
/-- The isolate `i` was changed to `s`, and from there the `Wrap` of its thread leads to `s'`. -/
theorem Serialized.put (h : p.Serialized M q) (hp : p'.isolates = Function.update p.isolates i s)
    (ht : p'.threads = Function.update p.threads i t) (htemplates : p'.templates = s.templates)
    (hs' : Hierarchy.setMode .kCreateNewObject (t.finished M s) = s') : p'.Serialized M (q.put i s') := by
  have htem : s'.templates = s.templates := by
    rw [← hs']
    exact t.finished_templates M s
  intro j
  rw [finished_eq, hp, ht, htemplates]
  by_cases hji : j = i
  · subst hji
    rw [isolate_put, Function.update_self, Function.update_self, ← hs', ← t.finished_templates M s]
    rfl
  · have hj := h j
    rw [finished_eq] at hj
    rw [Function.update_of_ne hji, Function.update_of_ne hji]
    show (Function.update q.isolates i s' j).share s'.mode s'.templates = _
    rw [Function.update_of_ne hji, htem, ← hs']
    have hshare := congrArg (State.share .kCreateNewObject s.templates) hj
    exact hshare

omit [DecidableEq ι] in
/-- The isolate `i` was changed, to where its `Wrap` leads to the same. -/
theorem Serialized.keep (h : p.Serialized M q) (hp : p'.isolates = Function.update p.isolates i s)
    (ht : p'.threads = Function.update p.threads i t) (htemplates : p'.templates = s.templates)
    (hs : Hierarchy.setMode .kCreateNewObject (t.finished M s) = p.finished M i) : p'.Serialized M q := by
  have hput := h.put hp ht htemplates hs
  intro j
  rw [← hput j, ← h i]
  by_cases hji : j = i
  · rw [hji, isolate_put]
  · simp only [isolate, Process.put, Function.update_of_ne hji]

omit [DecidableEq ι] in
/-- The thread `i` went to where its `Wrap` leads to the same. -/
theorem Serialized.goto (h : p.Serialized M q) (hp : p'.isolates = p.isolates)
    (ht : p'.threads = Function.update p.threads i t) (htemplates : p'.templates = p.templates)
    (hs : t.finished M (p.isolates i) = (p.threads i).finished M (p.isolates i)) : p'.Serialized M q := by
  intro j
  rw [h j, finished_eq, finished_eq, hp, ht, htemplates]
  by_cases hji : j = i
  · subst hji
    rw [Function.update_self, hs]
  · rw [Function.update_of_ne hji]

end Serialized

variable {p p' q : Process ι κ}

/-- A collection, wherever the `Wrap` is. -/
theorem finished_collect (hfit : p.Fits M) {i : κ} {o : ObjectId} (hne : (p.threads i).holds ≠ some o) {s : State ι}
    (hx : (p.isolate i).collect o = some s) :
    (p.finished M.toHierarchy i).collect o =
      some (Hierarchy.setMode .kCreateNewObject ((p.threads i).finished M.toHierarchy s)) := by
  have hc := hfit.coherent i
  have hf := hfit.threads i
  have hmode : ∀ {s s' : State ι}, Coherent M s → s.collect o = some s' →
      (Hierarchy.setMode .kCreateNewObject s).collect o = some (Hierarchy.setMode .kCreateNewObject s') :=
    fun hc hx => hc.collect_congr rfl rfl rfl rfl (fun _ _ => rfl) hx
  have hgive : ∀ {s s' : State ι} (o' : ObjectId), Coherent M s → s.collect o = some s' →
      (Hierarchy.setMode .kCreateNewObject (s.giveWrapper o')).collect o =
        some (Hierarchy.setMode .kCreateNewObject (s'.giveWrapper o')) :=
    fun o' hc hx => hc.collect_congr (g := fun s => Hierarchy.setMode .kCreateNewObject (s.giveWrapper o')) rfl rfl rfl rfl
      (fun _ _ => rfl) hx
  unfold finished
  cases ht : p.threads i with
  | idle => exact hmode hc hx
  | saved f => exact hmode hc hx
  | set f => exact hmode hc hx
  | instantiated f wrapper =>
    rw [ht] at hf hne
    obtain ⟨n, obj, hp, hw, hty, ho, hl, hfield, hcached⟩ := hf
    have hwo : o ≠ wrapper := fun hwo => hne (congrArg some hwo.symm)
    obtain ⟨-, -, hobj, hlive⟩ := hc.collect_keeps hx
    have hbare : Wrappable.getWrapper n (p.isolate i) ≠ some o := by
      rw [Wrappable.getWrapper, hw, Option.bind_none]
      exact (Option.some_ne_none o).symm
    have hp' := (hlive f.this n hp hbare).1
    have hcollect := hc.collect_link hp hw ho hl hfield hcached hwo hx
    simp only [Thread.finished, hp.native, ho, hp'.native, (hobj wrapper hwo.symm).trans ho, ← hty]
    exact hgive wrapper (hc.link hp hw ho hl hfield hcached) hcollect
  | associated f ret =>
    rw [ht] at hf
    obtain ⟨n, c, o', rfl, -⟩ := hf
    exact hgive o' hc hx

/-- What the collector may take, it may take once the `Wrap` has returned. -/
theorem Fits.finished_spares (hfit : p.Fits M) {i : κ} {o : ObjectId} (ho : (p.isolate i).Collectable o)
    (hne : (p.threads i).holds ≠ some o) :
    (p.finished M.toHierarchy i).objects o ≠ none ∧ o ∉ (p.finished M.toHierarchy i).reached := by
  obtain ⟨hobj, hr, -⟩ := ho
  have hf := hfit.threads i
  unfold finished
  cases ht : p.threads i with
  | idle => exact ⟨hobj, hr⟩
  | saved f => exact ⟨hobj, hr⟩
  | set f => exact ⟨hobj, hr⟩
  | instantiated f wrapper =>
    rw [ht] at hf hne
    obtain ⟨n, obj, hp, -, -, hw, -⟩ := hf
    have hwo : o ≠ wrapper := fun hwo => hne (congrArg some hwo.symm)
    simp only [Thread.finished, hp.native, hw]
    refine ⟨?_, List.not_mem_cons_of_ne_of_not_mem hwo hr⟩
    show Function.update (p.isolate i).objects wrapper _ o ≠ none
    rw [Function.update_of_ne hwo]
    exact hobj
  | associated f ret =>
    rw [ht] at hf hne
    obtain ⟨n, c, o', rfl, -⟩ := hf
    exact ⟨hobj, List.not_mem_cons_of_ne_of_not_mem (fun hoo => hne (congrArg some hoo.symm)) hr⟩

variable [DecidableEq κ]

/-- A move of a process whose steps are in order is an operation of one isolate, or none. -/
theorem Serialized.move (h : p.Serialized M.toHierarchy q) (hq : ∀ i, Inv M (q.isolate i)) (hfit : p.Fits M)
    (hr : p.ModeReflects) {a : Move ι κ} (ha : a.InOrder p) (hs : (M.collecting κ).step p a p') :
    p'.emptyInstance = false ∧ (a.action p = none ∧ p'.Serialized M.toHierarchy q ∨ ∃ op q',
      a.action p = some op.action ∧ (M.atomic κ).step q (a.isolate, op) q' ∧ p'.Serialized M.toHierarchy q') := by
  have hempty := hs.1
  have hsame : ∀ i, p.threads = Function.update p.threads i (p.threads i) :=
    fun i => (Function.update_eq_self i _).symm
  have hbusy : ∀ {i f}, p.threads i = .set f → p.mode = .kWrapExistingObject := by
    intro i f ht
    refine hr.busy ⟨i, ?_⟩
    rw [show p.saved.place i = (Thread.set f).place from congrArg Thread.place ht]
    exact trivial
  -- a thread that is in no `Wrap` leaves its isolate as it is
  have hidle : ∀ {i}, p.threads i = .idle → q.isolate i = Hierarchy.setMode .kCreateNewObject (p.isolate i) := by
    intro i ht
    rw [h i, finished, ht]
    rfl
  cases hfit.moved hs with
  | @collect i o s ho hne hx =>
    obtain ⟨hobj, hnot⟩ := hfit.finished_spares ho hne
    refine ⟨hempty, .inr ⟨.collect o, _, rfl, ⟨?_, _, ?_, rfl⟩, h.put rfl (hsame i) rfl rfl⟩⟩
    · rw [← h i] at hobj hnot
      exact (hq i).collectable hobj hnot
    · show (q.isolate i).collect o = _
      rw [h i]
      exact finished_collect hfit hne hx
  | @run i op s ht hw he hx =>
    have hexec : op.exec M.toHierarchy (q.isolate i) = some (Hierarchy.setMode .kCreateNewObject s) := by
      rw [hidle ht]
      by_cases hn : ∀ f args addr, op ≠ .scriptNew f args addr
      · exact (hfit.coherent i).exec_setMode _ hw hn he hx
      · simp only [not_forall, ne_eq, not_not] at hn
        obtain ⟨f, args, addr, rfl⟩ := hn
        have hm : (p.isolate i).mode = .kCreateNewObject := hr.quiet ha.2
        have hm' := (Embedding.exec_statics (hfit.coherent i).templates hw s hx).mode.trans hm
        rw [Hierarchy.setMode_eq_self hm, Hierarchy.setMode_eq_self hm']
        exact hx
    have he' : op.Enabled (q.isolate i) := by
      rw [hidle ht]
      cases op <;> exact he
    refine ⟨hempty, .inr ⟨op, _, rfl, ⟨he', _, hexec, rfl⟩, h.put rfl (hsame i) rfl ?_⟩⟩
    rw [ht]
    rfl
  | @wrapAgain i this context n c o ht hp hw hl =>
    obtain ⟨addr, hfree⟩ := (hfit.coherent i).exists_free
    have hp' : (Hierarchy.setMode .kCreateNewObject (p.isolate i)).Live this n := hp
    have hexec : (Op.wrap this context addr).exec M.toHierarchy (q.isolate i) =
        some (Hierarchy.setMode .kCreateNewObject ((p.isolate i).giveWrapper o)) := by
      rw [hidle ht, Op.exec, Hierarchy.wrap_wrapped hp'.native hw hl.cell]
      rfl
    have he : (Op.wrap this context addr).Enabled (q.isolate i) := by
      rw [hidle ht]
      exact ⟨⟨n, hp⟩, hfree⟩
    refine ⟨hempty, .inr ⟨.wrap this context addr, _, ?_, ⟨he, _, hexec, rfl⟩, h.put rfl (hsame i) rfl ?_⟩⟩
    · simp only [Move.action, hp.native, Option.any_some, Wrappable.containsWrapper, hw]
      rfl
    · rw [ht]
      rfl
  | @save i this context n ht hp hw =>
    refine ⟨hempty, .inl ⟨?_, h.goto rfl rfl rfl ?_⟩⟩
    · simp only [Move.action, hp.native, Option.any_some, Wrappable.containsWrapper, hw]
      rfl
    · rw [ht]
      rfl
  | @setMode i f ht =>
    refine ⟨hempty, .inl ⟨rfl, h.goto rfl rfl rfl ?_⟩⟩
    rw [ht]
    rfl
  | @noInstance i addr f ht hm => exact absurd (hm.symm.trans (hbusy ht)) (by simp)
  | @instantiate i addr f n ft templates ht hm hfree hp hw hty hi hcached hmono hreq =>
    -- the `Wrap` happens here
    rw [← hty] at hcached hreq
    have hexec := exec_wrap_instantiated addr hp hw hty hi hcached (hreq .kWrapExistingObject)
    have hset : q.isolate i = Hierarchy.setMode .kCreateNewObject (p.isolate i) := by
      rw [h i, finished, ht]
      rfl
    rw [← hset] at hexec
    have he : (Op.wrap f.this f.creationContext addr).Enabled (q.isolate i) := by
      rw [hset]
      exact ⟨⟨n, hp⟩, hfree⟩
    refine ⟨hempty, .inr ⟨.wrap f.this f.creationContext addr, _, ?_, ⟨he, _, hexec, rfl⟩, h.put rfl rfl rfl rfl⟩⟩
    simp only [Move.action, ht, Op.action]
  | @associate i f wrapper n obj ht hp hw hty ho hl hfield hcached =>
    refine ⟨hempty, .inl ⟨rfl, h.keep rfl rfl rfl ?_⟩⟩
    rw [finished, ht]
    simp only [Thread.finished, hp.native, ho, ← hty]
  | @restore i f o ht =>
    refine ⟨hempty, .inl ⟨rfl, h.keep rfl rfl rfl ?_⟩⟩
    rw [finished, ht]
    rfl

end Process

/-! ## Runs -/

/-- Whole operations of one isolate keep the invariant in all isolates. -/
theorem Inv.atomic [DecidableEq κ] {q q' : Process ι κ} {a : κ × Op ι} (h : ∀ i, Inv M (q.isolate i))
    (hs : (M.atomic κ).step q a q') : ∀ i, Inv M (q'.isolate i) := by
  obtain ⟨he, s, hx, rfl⟩ := hs
  have heff : Effect M (q.isolate a.1) a.2 s := (h a.1).step ⟨he, hx⟩
  have hs := (h a.1).effect heff
  intro j
  by_cases hji : j = a.1
  · rw [hji, Process.isolate_put]
    exact hs
  · have hiso : (q.put a.1 s).isolate j = (q.isolate j).setTemplates s.templates := by
      have hm : s.mode = q.mode := hs.mode.trans (h a.1).mode.symm
      simp only [Process.isolate, Process.put, Function.update_of_ne hji, hm]
      rfl
    rw [hiso]
    exact (h j).setTemplates hs.coherent.templates fun name ft hc => heff.cached_mono hc

namespace Process

variable [DecidableEq κ]

theorem Kept.move {p p' : Process ι κ} {a : Move ι κ} (h : p.Kept M) (hr : p.ModeReflects) (ha : a.InOrder p)
    (hs : (M.collecting κ).step p a p') : p'.Kept M ∧ p'.ModeReflects := by
  cases a with
  | step a =>
    obtain ⟨hk, hiff⟩ := h.step hr hs
    exact ⟨hk, hiff.mpr ha.1⟩
  | collect i o =>
    obtain ⟨s, hx, hp'⟩ := Option.bind_eq_some_iff.mp hs.2.2
    cases hp'
    have hk := State.collect_statics o (p.isolate i) s hx
    have hsaved : (p.put i s).saved = p.saved := p.saved_put i hk.mode
    rw [ModeReflects, hsaved]
    refine ⟨⟨?_, hsaved ▸ h.saved⟩, hr⟩
    show Templates.Inv M.family [] s.templates
    rw [hk.templates]
    exact h.templates

variable (M) in
/-- `q` follows `p`. -/
structure Tracks (p q : Process ι κ) : Prop where
  serialized : p.Serialized M.toHierarchy q
  inv : ∀ i, Inv M (q.isolate i)
  fits : p.Fits M
  kept : p.Kept M
  mode : p.ModeReflects
  emptyInstance : p.emptyInstance = false

/-- A process whose steps are in order does what isolates do that take turns. -/
theorem abstraction : Lib.Abstraction (M.collecting κ) (M.atomic κ) (Tracks M)
    (fun p a => (a.action p).map fun b => (a.isolate, b)) (fun a => (a.1, a.2.action)) fun p a => a.InOrder p where
  init p hi := by
    obtain ⟨hk, hr⟩ := kept_initial hi
    obtain ⟨isolate, context, hinj, rfl⟩ := hi
    refine ⟨_, ⟨isolate, context, hinj, rfl⟩, fun i => rfl, fun i => .initial (isolate i) (context i), ?_, hk, hr, rfl⟩
    exact ⟨fun i => .initial (isolate i) (context i), fun _ => trivial⟩
  step p a p' q h ha hs := by
    obtain ⟨hk, hr⟩ := h.kept.move h.mode ha hs
    have hfit := h.fits.move hs
    obtain ⟨hab, ⟨hnone, hser⟩ | ⟨op, q', hsome, hstep, hser⟩⟩ := h.serialized.move h.inv h.fits h.mode ha hs
    · exact .inl ⟨by rw [hnone, Option.map_none], hser, h.inv, hfit, hk, hr, hab⟩
    · exact .inr ⟨(a.isolate, op), q', by rw [hsome, Option.map_some], hstep, hser, Inv.atomic h.inv hstep, hfit, hk,
        hr, hab⟩

omit [DecidableEq ι] [DecidableEq κ] in
theorem Quiet.finished {M : Hierarchy ι} {p : Process ι κ} (h : p.Quiet) (hr : p.ModeReflects) (i : κ) :
    p.finished M i = p.isolate i := by
  rw [Process.finished, h i]
  exact Hierarchy.setMode_eq_self (s := p.isolate i) (hr.quiet h.not_busy)

end Process

/-- Where isolates use classes of their own, and their steps are in order: no `NewInstance`
of a `Wrap` comes back empty, and every request was answered with a template of the
isolate that asked. Whenever there is no `Wrap`, the isolates are as they are after the
same operations, each isolate's at once, one after another. -/
theorem wraps_serialize [DecidableEq κ] {owner : ι → κ}
    (howner : ∀ t u, M.family.parent t = some u → owner u = owner t) {tr : List (Process ι κ × Move ι κ)}
    {p : Process ι κ} (h : (M.separate owner).Run tr p) (hK : ∀ x ∈ tr, x.2.InOrder x.1) :
    p.emptyInstance = false ∧ p.templates.PerIsolate ∧ (p.Quiet → (∀ i, Inv M (p.isolate i)) ∧
      ∃ tr' q, (M.atomic κ).Run tr' q ∧ (∀ i, q.isolate i = p.isolate i) ∧
        (System.labels tr').map (fun a => (a.1, a.2.action)) =
          tr.filterMap fun x => (x.2.action x.1).map fun b => (x.2.isolate, b)) := by
  obtain ⟨tr', q, hrun, ht, hact⟩ := Process.abstraction.run (Hierarchy.collecting_of_separate h) hK
  refine ⟨ht.emptyInstance, Process.perIsolate_run howner h, fun hq => ?_⟩
  have hiso : ∀ i, q.isolate i = p.isolate i := fun i => (ht.serialized i).trans (hq.finished ht.mode i)
  exact ⟨fun i => hiso i ▸ ht.inv i, tr', q, hrun, hiso, hact⟩

/-- Two `Wrap`s overlap; the second saves the mode when the first has set it, and restores
it before the first does. -/
theorem wraps_serialize_roots : ∃ tr p, (V8Event.roots.separate (id : Bool → Bool)).Run tr p ∧
    (p.isolate true).reached = [0] ∧ (p.isolate false).reached = [0] ∧ p.emptyInstance = false ∧
    p.templates.PerIsolate ∧ (∀ i, Inv V8Event.roots (p.isolate i)) ∧
    ∃ tr' q, (V8Event.roots.atomic Bool).Run tr' q ∧ (∀ i, q.isolate i = p.isolate i) ∧
      (System.labels tr').map (fun a => (a.1, a.2.action)) =
        tr.filterMap fun x => (x.2.action x.1).map fun b => (x.2.isolate, b) := by
  have h₀ : (V8Event.roots.separate (id : Bool → Bool)).Run [] (.initial Bool.toNat fun _ => 0) :=
    .start ⟨_, _, by decide, rfl⟩
  have h₁ := Hierarchy.separate_next (.step (.run true (.nativeNew true [97] 0))) h₀ id rfl rfl
    ⟨rfl, id, by decide, rfl⟩ (by decide)
  have h₂ := Hierarchy.separate_next (.step (.run false (.nativeNew false [98] 0))) h₁ id rfl rfl
    ⟨rfl, id, by decide, rfl⟩ (by decide)
  have h₃ := Hierarchy.separate_next (.step (.wrap true ⟨0, 0⟩ 0)) h₂ id trivial rfl ⟨rfl, _, rfl, rfl⟩ (by decide)
  have h₄ := Hierarchy.separate_next (.step (.setMode true)) h₃ id trivial rfl trivial (by decide)
  have h₅ := Hierarchy.separate_next (.step (.wrap false ⟨0, 0⟩ 0)) h₄ id trivial rfl ⟨rfl, _, rfl, rfl⟩ (by decide)
  have h₆ := Hierarchy.separate_next (.step (.setMode false)) h₅ id trivial rfl trivial (by decide)
  have h₇ := Hierarchy.separate_next (.step (.newInstance false 1)) h₆ id trivial rfl rfl (by decide)
  have h₈ := Hierarchy.separate_next (.step (.newInstance true 1)) h₇ id trivial rfl rfl (by decide)
  have h₉ := Hierarchy.separate_next (.step (.associateWithWrapper false)) h₈ id trivial rfl trivial (by decide)
  have h₁₀ := Hierarchy.separate_next (.step (.restoreMode false)) h₉ id trivial rfl trivial (by decide)
  have h₁₁ := Hierarchy.separate_next (.step (.associateWithWrapper true)) h₁₀ id trivial rfl trivial (by decide)
  have h₁₂ := Hierarchy.separate_next (.step (.restoreMode true)) h₁₁ id trivial rfl trivial (by decide)
  have hser := wraps_serialize V8Event.roots_parent h₁₂ (by
    simp only [List.forall_mem_cons, Move.InOrder, Step.Restores, Step.Undisturbed, List.not_mem_nil, false_imp_iff,
      implies_true, and_true, true_and]
    constructor
    · refine Lib.SavedVar.State.inOrder_restore rfl ?_ fun j hj hi => ?_
      · exact Process.Quiet.not_busy fun _ => rfl
      · cases j with
        | true => exact hj rfl
        | false => exact hi
    · refine Lib.SavedVar.State.inOrder_of_iff rfl ?_
      exact iff_of_true ⟨true, trivial⟩ ⟨true, by decide, trivial⟩)
  exact ⟨_, _, h₁₂, by decide, by decide, hser.1, hser.2.1, hser.2.2 fun i => by cases i <;> rfl⟩

/-! ## One isolate -/

namespace Process

variable [DecidableEq κ] [Subsingleton κ]

/-- The one `Wrap` saved the mode when none had set it. -/
theorem alone_run {tr : List (Process ι κ × Move ι κ)} {p : Process ι κ} (h : (M.collecting κ).Run tr p) :
    p.Fits M ∧ p.saved.Alone := by
  refine h.invariant' (P := fun p => p.Fits M ∧ p.saved.Alone) ?_ fun p a p' hp hs => ⟨hp.1.move hs, ?_⟩
  · rintro p ⟨isolate, context, -, rfl⟩
    refine ⟨⟨fun i => .initial (isolate i) (context i), fun _ => trivial⟩, fun i v o hi => ?_⟩
    rcases hi with hi | hi <;> cases hi
  · obtain ⟨hfit, hal⟩ := hp
    cases a with
    | collect i o =>
      obtain ⟨s, hx, hp'⟩ := Option.bind_eq_some_iff.mp hs.2.2
      cases hp'
      rw [p.saved_put i (State.collect_statics o (p.isolate i) s hx).mode]
      exact hal
    | step a =>
      by_cases hne : Nonempty κ
      · obtain ⟨i⟩ := hne
        obtain ⟨-, ⟨heq, -⟩ | ⟨b, hb, -⟩⟩ := saved_step (hfit.coherent i).templates hs
        · rw [heq]
          exact hal
        · exact hb.alone hal
      · exact fun i => absurd ⟨i⟩ hne

theorem inOrder_run {tr : List (Process ι κ × Move ι κ)} {p : Process ι κ} (h : (M.collecting κ).Run tr p) :
    ∀ x ∈ tr, x.2.InOrder x.1 := by
  intro x hx
  obtain ⟨tr', p', hr, hs, -⟩ := h.of_mem hx
  obtain ⟨-, hal⟩ := alone_run hr
  obtain ⟨p, a⟩ := x
  cases a with
  | collect i o => trivial
  | step a =>
    refine ⟨?_, ?_⟩
    · cases a with
      | restoreMode i => exact hal.inOrder (a := .restore i)
      | _ => trivial
    · cases a with
      | run i op =>
        have hidle : p.threads i = .idle := hs.2.1.1
        have hquiet : p.Quiet := fun j => Subsingleton.elim i j ▸ hidle
        cases op with
        | scriptNew => exact hquiet.not_busy
        | _ => trivial
      | _ => trivial

end Process

omit [DecidableEq ι] in
/-- The operations of one isolate are a program. -/
theorem Hierarchy.system_of_atomic {M : Hierarchy ι} {tr : List (Process ι Unit × (Unit × Op ι))}
    {q : Process ι Unit} (h : (M.atomic Unit).Run tr q) :
    M.system.Run (tr.map fun x => (x.1.isolate (), x.2.2)) (q.isolate ()) := by
  induction h with
  | start hi =>
    obtain ⟨isolate, context, -, rfl⟩ := hi
    exact .start ⟨isolate (), context (), rfl⟩
  | @step tr q q' a _ hs ih =>
    obtain ⟨he, s, hx, rfl⟩ := hs
    have hs : M.system.step (q.isolate ()) a.2 s := ⟨he, hx⟩
    rw [Process.isolate_put]
    exact ih.step hs

/-- In a process with one isolate, whose collector runs at any time and where execution is
not terminated, no `NewInstance` of a `Wrap` comes back empty. Whenever it is in no
`Wrap`, it is in a state that a program reaches by the same operations, with each `Wrap`
at once. -/
theorem wrap_atomic {tr : List (Process ι Unit × Move ι Unit)} {p : Process ι Unit}
    (h : ((M.collecting Unit).restrict fun a => ¬ a.Terminates).Run tr p) :
    p.emptyInstance = false ∧ (p.Quiet → ∃ tr', M.system.Run tr' (p.isolate ()) ∧
      (System.labels tr').map Op.action = tr.filterMap fun x => x.2.action x.1) := by
  have h := h.of_restrict
  obtain ⟨tr', q, hrun, ht, hact⟩ := Process.abstraction.run h (Process.inOrder_run h)
  refine ⟨ht.emptyInstance, fun hq => ?_⟩
  have hiso : q.isolate () = p.isolate () := (ht.serialized ()).trans (hq.finished ht.mode ())
  refine ⟨_, hiso ▸ Hierarchy.system_of_atomic hrun, ?_⟩
  have hsnd := congrArg (List.map Prod.snd) hact
  simp only [System.labels, List.map_map, List.map_filterMap, Option.map_map] at hsnd ⊢
  simpa [Function.comp_def] using hsnd

/-- While a `Wrap` is about to make the instance, the collector takes an event that
was wrapped before. -/
theorem wrap_atomic_event : ∃ tr p,
    (((V8Event.embedding .standard).collecting Unit).restrict fun a => ¬ a.Terminates).Run tr p ∧
    ((p.isolate ()).natives 1).isNone ∧ ((p.isolate ()).objects 1).isSome ∧ p.emptyInstance = false ∧
    ∃ tr', (V8Event.embedding .standard).system.Run tr' (p.isolate ()) ∧
      (System.labels tr').map Op.action = tr.filterMap fun x => x.2.action x.1 := by
  have h₀ : ((V8Event.embedding .standard).collecting Unit).Run [] (.initial (fun _ => 0) fun _ => 0) :=
    .start ⟨_, _, fun _ _ _ => rfl, rfl⟩
  have h₁ := Hierarchy.collecting_next (.step (.run () (.nativeNew .event [97] 0))) h₀ rfl ⟨rfl, id, by decide, rfl⟩
    (by decide)
  have h₂ := Hierarchy.collecting_next (.step (.run () (.nativeNew .event [98] 1))) h₁ rfl ⟨rfl, id, by decide, rfl⟩
    (by decide)
  have h₃ := Hierarchy.collecting_next (.step (.wrap () ⟨1, 1⟩ 0)) h₂ rfl ⟨rfl, _, rfl, rfl⟩ (by decide)
  have h₄ := Hierarchy.collecting_next (.step (.setMode ())) h₃ rfl trivial (by decide)
  have h₅ := Hierarchy.collecting_next (.step (.newInstance () 2)) h₄ rfl rfl (by decide)
  have h₆ := Hierarchy.collecting_next (.step (.associateWithWrapper ())) h₅ rfl trivial (by decide)
  have h₇ := Hierarchy.collecting_next (.step (.restoreMode ())) h₆ rfl trivial (by decide)
  have h₈ := Hierarchy.collecting_next (.step (.run () (.drop 0))) h₇ rfl ⟨rfl, id, List.mem_singleton_self 0⟩ (by decide)
  have h₉ := Hierarchy.collecting_next (.step (.wrap () ⟨0, 0⟩ 0)) h₈ rfl ⟨rfl, _, rfl, rfl⟩ (by decide)
  have h₁₀ := Hierarchy.collecting_next (.step (.setMode ())) h₉ rfl trivial (by decide)
  have h₁₁ := Hierarchy.collecting_next (.collect () 0) h₁₀ rfl
    ⟨((Process.Fits.run h₁₀).coherent ()).collectable (by decide) (by decide), by decide⟩ (by decide)
  have h₁₂ := Hierarchy.collecting_next (.step (.newInstance () 2)) h₁₁ rfl rfl (by decide)
  have h₁₃ := Hierarchy.collecting_next (.step (.associateWithWrapper ())) h₁₂ rfl trivial (by decide)
  have h₁₄ := Hierarchy.collecting_next (.step (.restoreMode ())) h₁₃ rfl trivial (by decide)
  have h₁₄ := h₁₄.restrict (C := fun a => ¬ a.Terminates) (by simp [Move.Terminates, Op.Terminates])
  exact ⟨_, _, h₁₄, by decide, by decide, (wrap_atomic h₁₄).1, (wrap_atomic h₁₄).2 fun _ => rfl⟩

end NativeObjects
