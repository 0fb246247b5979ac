import NativeObjects.Model.Collections
import NativeObjects.Proof.Frames
import NativeObjects.Proof.Modes

/-!
# What races for the mode cannot break

The isolates of a process race for the constructor mode, and collectors run at any
time. `Process.Moved` lists all that a move can do to a process whose heaps fit
together, and they do so in every state of it, whatever mode a constructor callback
finds (`Process.Fits.run`).
-/

namespace NativeObjects

open Lib (System)

variable {ι κ : Type} [Fintype ι] [DecidableEq ι] {M : Embedding ι}

/-! ## Operations in any mode -/

theorem Coherent.effect {s s' : State ι} {op : Op ι} (h : Coherent M s) (he : Effect M s op s') : Coherent M s' := by
  have hgive : ∀ {t : State ι} {o}, Coherent M t → Coherent M (t.giveWrapper o) :=
    fun ht => ht.frame rfl rfl rfl rfl rfl rfl rfl
  cases he with
  | interfaceTemplate hi hc => exact h.setTemplates hi hc
  | newRejected => exact h.newObject (Hierarchy.blank_field _ _)
  | @newAccepted f args addr t v ht hfree ha =>
    have h₁ := h.newObject (Hierarchy.blank_field (M := M.toHierarchy) f t)
    have h₂ : Coherent M ((s.newObject (M.blank f t)).2.allocate ⟨addr, s.births⟩ (M.scripted t v s.births)) :=
      h₁.allocate hfree rfl rfl rfl rfl rfl
    exact hgive (h₂.link (n := M.scripted t v s.births) (State.live_self_allocate hfree rfl) rfl
      (Function.update_self ..) (M.two_le_length_blank f t) (Hierarchy.blank_field f t) ht)
  | nativeNew hfree => exact h.allocate hfree rfl rfl rfl rfl rfl
  | wrapAgain => exact hgive h
  | @wrapBare p context addr n ft templates hp hw hi ht hc =>
    have h₁ := (h.setTemplates hi hc).newObject (Hierarchy.blank_field (M := M.toHierarchy) ⟨ft, s.context⟩ n.typeInfo)
    exact hgive (h₁.link hp hw (Function.update_self ..) (M.two_le_length_blank _ _) (Hierarchy.blank_field _ _) ht)
  | repaint hp hn =>
    refine h.setNative hp hn.birth hn.typeInfo hn.wrapper fun q hq => ?_
    rcases hq with hq | hq
    · rcases hn.target with ht | ht
      · exact h.targets _ _ q hp (.inl (ht.symm.trans hq))
      · exact h.birth_lt_of_isLive (ht q hq)
    · rcases hn.currentTarget with ht | ht
      · exact h.targets _ _ q hp (.inr (ht.symm.trans hq))
      · exact h.birth_lt_of_isLive (ht q hq)
  | destroy hp => exact h.remove hp .nativeCode
  | collectOrphan ho hc => exact h.discard hc
  | collectWrapper ho hp hw hl =>
    rw [State.remove_discard]
    exact (h.remove hp .collector).discard (h.cell_ne_of_remove hw hl .collector)
  | _ => exact h.frame rfl rfl rfl rfl rfl rfl rfl

/-- What an operation can do in any mode: what `Effect` lists, or make a bare object,
where `new` finds the mode to wrap. -/
theorem Op.exec_cases {s s' : State ι} {op : Op ι} (h : Coherent M s) (he : op.Enabled s)
    (hx : op.exec M.toHierarchy s = some s') :
    Effect M s op s' ∨ ∃ f args addr t, op = .scriptNew f args addr ∧
      s' = (s.newObject (M.blank f t)).2.giveWrapper s.nextObject := by
  cases op with
  | scriptNew f args addr =>
    cases hm : s.mode with
    | kCreateNewObject => exact .inl (Op.exec_effect h hm he hx)
    | kWrapExistingObject =>
      obtain ⟨t, -, hcons⟩ := Embedding.constructs_of_exposed h.templates he.1
      refine .inr ⟨f, args, addr, t, rfl, ?_⟩
      simp only [Op.exec, Hierarchy.construct_wrap hcons hm, Option.bind_eq_bind, Option.bind_some, Option.pure_def,
        Option.some.injEq] at hx
      exact hx.symm
  | _ => exact .inl (Op.exec_effect_of_new h (by simp) he hx)

/-- An operation leaves heaps that fit together, in whatever mode it finds. -/
theorem Coherent.exec {s s' : State ι} {op : Op ι} (h : Coherent M s) (he : op.Enabled s)
    (hx : op.exec M.toHierarchy s = some s') :
    Coherent M s' ∧ ∀ name ft, s.templates.cached name = some ft → s'.templates.cached name = some ft := by
  rcases Op.exec_cases h he hx with heff | ⟨f, args, addr, t, rfl, rfl⟩
  · exact ⟨h.effect heff, fun name ft => heff.cached_mono⟩
  · exact ⟨(h.newObject (Hierarchy.blank_field f t)).frame rfl rfl rfl rfl rfl rfl rfl, fun _ _ => id⟩

/-- What the collector leaves as it is when it takes an object. -/
theorem Coherent.collect_keeps {s s' : State ι} {o : ObjectId} (h : Coherent M s) (hx : s.collect o = some s') :
    Coherent M s' ∧ s'.templates = s.templates ∧ (∀ o', o' ≠ o → s'.objects o' = s.objects o') ∧
      ∀ p n, s.Live p n → Wrappable.getWrapper n s ≠ some o →
        s'.Live p n ∧ ∀ c, n.wrapper = some c → s'.cells c = s.cells c := by
  rcases h.collect o with ⟨hc, heq⟩ | ⟨q, m, c, hq, hw, hl, heq⟩
  · cases heq.symm.trans hx
    exact ⟨h.discard hc, rfl, fun o' ho' => Function.update_of_ne ho' .., fun p n hp _ => ⟨hp, fun _ _ => rfl⟩⟩
  · cases heq.symm.trans hx
    refine ⟨?_, rfl, fun o' ho' => Function.update_of_ne ho' .., fun p n hp hne => ?_⟩
    · rw [State.remove_discard]
      exact (h.remove hq .collector).discard (h.cell_ne_of_remove hw hl .collector)
    · have hpq : p ≠ q := by
        rintro rfl
        cases hp.unique hq
        exact hne (by rw [Wrappable.getWrapper, hw, Option.bind_some, hl.cell, Option.map_some])
      have hlive : (s.remove .collector q m).Live p n := (State.live_remove hq .collector).mpr ⟨hpq, hp⟩
      obtain ⟨-, hkept⟩ := h.kept_remove hq .collector hlive
      exact ⟨hlive, fun d hd => (hkept.wrapper d hd).2⟩

/-- The fast path of `Wrap`. -/
theorem Coherent.wrapFast {s : State ι} (h : Coherent M s) {p : NativePtr} {n : Event ι} (hp : s.Live p n) :
    (∃ c o, n.wrapper = some c ∧ Linked M s p n c o ∧ Hierarchy.wrapFast p s = some (some (some o))) ∨
      n.wrapper = none ∧ Hierarchy.wrapFast p s = some none := by
  cases hw : n.wrapper with
  | some c =>
    obtain ⟨o, hl⟩ := h.linked p n c hp hw
    refine .inl ⟨c, o, rfl, hl, ?_⟩
    simp [Hierarchy.wrapFast, hp.native, Wrappable.containsWrapper, hw, Wrappable.isEqualTo, Wrappable.getWrapper, hl.cell]
  | none =>
    refine .inr ⟨rfl, ?_⟩
    simp [Hierarchy.wrapFast, hp.native, Wrappable.containsWrapper, hw]

/-- `NewInstance` in a `Wrap`: it gets an object if it finds the mode to wrap, and
else there is no object to go on with. -/
theorem Coherent.wrapInstance {s : State ι} (h : Coherent M s) (t : ι) (context : ContextId) (addr : Addr) :
    s.mode = .kCreateNewObject ∧ M.wrapInstance t context addr s = none ∨
      s.mode = .kWrapExistingObject ∧ ∃ ft templates, Templates.Inv M.family [] templates ∧
        templates.cached (M.family.name t) = some ft ∧
        (∀ name ft, s.templates.cached name = some ft → templates.cached name = some ft) ∧
        (∀ mode, M.interfaceTemplate t (Hierarchy.setMode mode s) =
          some (ft, (Hierarchy.setMode mode s).setTemplates templates)) ∧
        M.wrapInstance t context addr s =
          some (s.nextObject, ((s.setTemplates templates).newObject (M.blank ⟨ft, s.context⟩ t)).2) := by
  obtain ⟨ft, templates, heq, hreq, hi, ht, hc⟩ := M.interfaceTemplate_eq h.templates t
  have hcons : M.Constructs (s.setTemplates templates) (Hierarchy.getFunction ft (s.setTemplates templates)).template t :=
    Embedding.constructs_of_cached hi ht
  cases hm : s.mode with
  | kCreateNewObject =>
    refine .inl ⟨rfl, ?_⟩
    have hrej : M.construct (Hierarchy.getFunction ft (s.setTemplates templates)) [] addr (s.setTemplates templates) = _ :=
      Hierarchy.construct_reject hcons hm rfl
    simp only [Hierarchy.wrapInstance, M.templateFunction_self, heq, hrej, Option.bind_eq_bind, Option.bind_some,
      Option.bind_none]
  | kWrapExistingObject =>
    exact .inr ⟨rfl, ft, templates, hi, ht, hc, hreq,
      Hierarchy.wrapInstance_eq heq (Hierarchy.construct_wrap hcons hm)⟩

/-! ## The local variables of a `Wrap` -/

variable (M) in
/-- What a thread knows of the heaps of its isolate. -/
def Thread.Fits (s : State ι) : Thread ι → Prop
  | .idle => True
  | .saved f | .set f => ∃ n, s.Live f.this n ∧ n.wrapper = none ∧ n.typeInfo = f.wrapperTypeInfo
  | .instantiated f wrapper => ∃ n obj, s.Live f.this n ∧ n.wrapper = none ∧ n.typeInfo = f.wrapperTypeInfo ∧
      s.objects wrapper = some obj ∧ 2 ≤ obj.fields.length ∧ (∀ q, obj.fields[0]? ≠ some (.native q)) ∧
      s.templates.cached (M.family.name n.typeInfo) = some obj.template
  | .associated f ret => ∃ n c o, ret = some o ∧ s.Live f.this n ∧ n.wrapper = some c ∧ Linked M s f.this n c o

omit [DecidableEq ι] in
theorem Thread.Fits.setTemplates {s s' : State ι} {t : Thread ι} (h : t.Fits M s) (hn : s'.natives = s.natives)
    (ho : s'.objects = s.objects) (hc : s'.cells = s.cells)
    (ht : ∀ name ft, s.templates.cached name = some ft → s'.templates.cached name = some ft) : t.Fits M s' := by
  have hlive : ∀ {p n}, s.Live p n → s'.Live p n := by
    intro p n hp
    rw [State.Live, hn]
    exact hp
  cases t with
  | idle => trivial
  | saved f =>
    obtain ⟨n, hp, hrest⟩ := h
    exact ⟨n, hlive hp, hrest⟩
  | set f =>
    obtain ⟨n, hp, hrest⟩ := h
    exact ⟨n, hlive hp, hrest⟩
  | instantiated f wrapper =>
    obtain ⟨n, obj, hp, hw, hty, hobj, hl, hf, hcached⟩ := h
    exact ⟨n, obj, hlive hp, hw, hty, ho ▸ hobj, hl, hf, ht _ _ hcached⟩
  | associated f ret =>
    obtain ⟨n, c, o, hret, hp, hw, hl⟩ := h
    exact ⟨n, c, o, hret, hlive hp, hw, hl.mono (by rw [hc]) (by rw [ho]) ht⟩

/-- The collector leaves the local variables of the `Wrap` as they are. -/
theorem Thread.Fits.collect {s s' : State ι} {t : Thread ι} {o : ObjectId} (h : t.Fits M s) (hc : Coherent M s)
    (hne : t.holds ≠ some o) (hx : s.collect o = some s') : t.Fits M s' := by
  obtain ⟨-, ht, ho, hlive⟩ := hc.collect_keeps hx
  have hbare : ∀ {p n}, s.Live p n → n.wrapper = none → s'.Live p n := by
    intro p n hp hw
    exact (hlive p n hp (by rw [Wrappable.getWrapper, hw, Option.bind_none]; exact (Option.some_ne_none o).symm)).1
  cases t with
  | idle => trivial
  | saved f =>
    obtain ⟨n, hp, hw, hty⟩ := h
    exact ⟨n, hbare hp hw, hw, hty⟩
  | set f =>
    obtain ⟨n, hp, hw, hty⟩ := h
    exact ⟨n, hbare hp hw, hw, hty⟩
  | instantiated f wrapper =>
    obtain ⟨n, obj, hp, hw, hty, hobj, hl, hf, hcached⟩ := h
    have hoo : wrapper ≠ o := fun hoo => hne (congrArg some hoo)
    exact ⟨n, obj, hbare hp hw, hw, hty, (ho wrapper hoo).trans hobj, hl, hf, ht ▸ hcached⟩
  | associated f ret =>
    obtain ⟨n, c, o', rfl, hp, hw, hl⟩ := h
    have hoo : o' ≠ o := fun hoo => hne (congrArg some hoo)
    have hg : Wrappable.getWrapper n s = some o' := by
      rw [Wrappable.getWrapper, hw, Option.bind_some, hl.cell, Option.map_some]
    obtain ⟨hp', hcell⟩ := hlive f.this n hp (fun h => hoo (Option.some.inj (hg.symm.trans h)))
    exact ⟨n, c, o', rfl, hp', hw, hl.mono (hcell c hw) (ho o' hoo) (ht ▸ fun _ _ => id)⟩

variable (M) in
structure Process.Fits (p : Process ι κ) : Prop where
  coherent : ∀ i, Coherent M (p.isolate i)
  threads : ∀ i, (p.threads i).Fits M (p.isolate i)

namespace Process

variable [DecidableEq κ] {p : Process ι κ}

/-- The isolate `i` was changed to `s`, its thread is at `t` now, and the mode is set. -/
theorem Fits.put (h : p.Fits M) {i : κ} {s : State ι} {t : Thread ι} {p' : Process ι κ}
    (hp : p'.isolates = Function.update p.isolates i s) (hthreads : p'.threads = Function.update p.threads i t)
    (htemplates : p'.templates = s.templates) (hs : Coherent M s)
    (hc : ∀ name ft, p.templates.cached name = some ft → s.templates.cached name = some ft)
    (ht : t.Fits M s) : p'.Fits M := by
  have hi : Coherent M (p'.isolate i) ∧ t.Fits M (p'.isolate i) := by
    have hiso : p'.isolate i = { s with mode := p'.mode } := by
      simp only [isolate, hp, htemplates, Function.update_self]
    rw [hiso]
    exact ⟨hs.frame rfl rfl rfl rfl rfl rfl rfl, ht.setTemplates rfl rfl rfl fun _ _ => id⟩
  have hj : ∀ j, j ≠ i → p'.isolate j = { (p.isolate j).setTemplates s.templates with mode := p'.mode } := by
    intro j hj
    simp only [isolate, hp, htemplates, Function.update_of_ne hj]
    rfl
  refine ⟨fun j => ?_, fun j => ?_⟩
  · by_cases hji : j = i
    · exact hji ▸ hi.1
    · rw [hj j hji]
      exact ((h.coherent j).setTemplates hs.templates hc).frame rfl rfl rfl rfl rfl rfl rfl
  · by_cases hji : j = i
    · rw [hji, hthreads, Function.update_self]
      exact hi.2
    · rw [hthreads, Function.update_of_ne hji, hj j hji]
      exact (h.threads j).setTemplates rfl rfl rfl hc

/-- The thread `i` is at `t` now, and the mode is set. -/
theorem Fits.goto (h : p.Fits M) {i : κ} {t : Thread ι} {p' : Process ι κ} (hp : p'.isolates = p.isolates)
    (hthreads : p'.threads = Function.update p.threads i t) (htemplates : p'.templates = p.templates)
    (ht : t.Fits M (p.isolate i)) : p'.Fits M := by
  have hiso : ∀ j, p'.isolate j = { p.isolate j with mode := p'.mode } := by
    intro j
    simp only [isolate, hp, htemplates]
  refine ⟨fun j => ?_, fun j => ?_⟩
  · rw [hiso]
    exact (h.coherent j).frame rfl rfl rfl rfl rfl rfl rfl
  · rw [hthreads, hiso]
    by_cases hji : j = i
    · rw [hji, Function.update_self]
      exact ht.setTemplates rfl rfl rfl fun _ _ => id
    · rw [Function.update_of_ne hji]
      exact (h.threads j).setTemplates rfl rfl rfl fun _ _ => id

variable (M p) in
/-- All that a move can do to a process whose heaps fit together. -/
inductive Moved : Move ι κ → Process ι κ → Prop
  | run {i : κ} {op : Op ι} {s : State ι} (hidle : p.threads i = .idle) (hw : ¬ op.IsWrap)
      (he : op.Enabled (p.isolate i)) (hx : op.exec M.toHierarchy (p.isolate i) = some s) :
      Moved (.step (.run i op)) (p.put i s)
  | wrapAgain {i : κ} {this : NativePtr} {context : ContextId} {n : Event ι} {c : CellId} {o : ObjectId}
      (hidle : p.threads i = .idle) (hp : (p.isolate i).Live this n) (hw : n.wrapper = some c)
      (hl : Linked M (p.isolate i) this n c o) :
      Moved (.step (.wrap i this context)) (p.put i ((p.isolate i).giveWrapper o))
  | save {i : κ} {this : NativePtr} {context : ContextId} {n : Event ι} (hidle : p.threads i = .idle)
      (hp : (p.isolate i).Live this n) (hw : n.wrapper = none) :
      Moved (.step (.wrap i this context)) (p.goto i (.saved
        { this := this, creationContext := context, wrapperTypeInfo := n.typeInfo, prevConstructorMode := p.mode,
          overlapped := p.saved.Busy }))
  | setMode {i : κ} {f : WrapFrame ι} (ht : p.threads i = .saved f) :
      Moved (.step (.setMode i)) (Process.goto i (.set f) { p with mode := .kWrapExistingObject })
  /-- The callback finds the mode to create objects, and no argument. -/
  | noInstance {i : κ} {addr : Addr} {f : WrapFrame ι} (ht : p.threads i = .set f) (hm : p.mode = .kCreateNewObject) :
      Moved (.step (.newInstance i addr)) { p with emptyInstance := true }
  | instantiate {i : κ} {addr : Addr} {f : WrapFrame ι} {n : Event ι} {ft : TemplateId} {templates : Templates ι}
      (ht : p.threads i = .set f) (hm : p.mode = .kWrapExistingObject) (hfree : (p.isolate i).Free addr)
      (hp : (p.isolate i).Live f.this n) (hw : n.wrapper = none) (hty : n.typeInfo = f.wrapperTypeInfo)
      (hi : Templates.Inv M.family [] templates) (hcached : templates.cached (M.family.name f.wrapperTypeInfo) = some ft)
      (hmono : ∀ name ft, p.templates.cached name = some ft → templates.cached name = some ft)
      (hreq : ∀ mode, M.interfaceTemplate f.wrapperTypeInfo (Hierarchy.setMode mode (p.isolate i)) =
        some (ft, (Hierarchy.setMode mode (p.isolate i)).setTemplates templates)) :
      Moved (.step (.newInstance i addr))
        ((p.put i (((p.isolate i).setTemplates templates).newObject
          (M.blank ⟨ft, (p.isolate i).context⟩ f.wrapperTypeInfo)).2).goto i
            (.instantiated f (p.isolate i).nextObject))
  | associate {i : κ} {f : WrapFrame ι} {wrapper : ObjectId} {n : Event ι} {obj : JSObject ι}
      (ht : p.threads i = .instantiated f wrapper) (hp : (p.isolate i).Live f.this n) (hw : n.wrapper = none)
      (hty : n.typeInfo = f.wrapperTypeInfo) (ho : (p.isolate i).objects wrapper = some obj)
      (hl : 2 ≤ obj.fields.length) (hf : ∀ q, obj.fields[0]? ≠ some (.native q))
      (hcached : p.templates.cached (M.family.name n.typeInfo) = some obj.template) :
      Moved (.step (.associateWithWrapper i))
        ((p.put i ((p.isolate i).link M.info f.this n n.typeInfo wrapper obj)).goto i (.associated f (some wrapper)))
  | restore {i : κ} {f : WrapFrame ι} {o : ObjectId} (ht : p.threads i = .associated f (some o)) :
      Moved (.step (.restoreMode i))
        ((Process.goto i .idle { p with mode := f.prevConstructorMode }).finish i (some o))
  | collect {i : κ} {o : ObjectId} {s : State ι} (ho : (p.isolate i).Collectable o)
      (hne : (p.threads i).holds ≠ some o) (hx : (p.isolate i).collect o = some s) :
      Moved (.collect i o) (p.put i s)

/-- The inversion lemma of moves. -/
theorem Fits.moved (h : p.Fits M) {a : Move ι κ} {p' : Process ι κ} (hs : (M.collecting κ).step p a p') :
    p.Moved M a p' := by
  obtain ⟨-, hen, hx⟩ := hs
  cases a with
  | collect i o =>
    obtain ⟨s, hs, hp'⟩ := Option.bind_eq_some_iff.mp hx
    cases hp'
    exact .collect hen.1 hen.2 hs
  | step a =>
    cases a with
    | run i op =>
      obtain ⟨s, hs, hp'⟩ := Option.bind_eq_some_iff.mp hx
      cases hp'
      exact .run hen.1 hen.2.1 hen.2.2 hs
    | wrap i this context =>
      obtain ⟨hidle, n, hp⟩ := hen
      rcases (h.coherent i).wrapFast hp with ⟨c, o, hw, hl, hfast⟩ | ⟨hw, hfast⟩
      · simp only [Move.exec, Step.exec, hfast, Option.bind_eq_bind, Option.bind_some, Option.pure_def, finish,
          Option.some.injEq] at hx
        subst hx
        exact .wrapAgain hidle hp hw hl
      · simp only [Move.exec, Step.exec, hfast, hp.native, Option.bind_eq_bind, Option.bind_some, Option.pure_def,
          Option.some.injEq] at hx
        subst hx
        exact .save hidle hp hw
    | setMode i =>
      cases ht : p.threads i with
      | saved f =>
        simp only [Move.exec, Step.exec, ht, Option.some.injEq] at hx
        subst hx
        exact .setMode ht
      | _ => simp only [Move.exec, Step.exec, ht, reduceCtorEq] at hx
    | newInstance i addr =>
      cases ht : p.threads i with
      | set f =>
        have hf := h.threads i
        rw [ht] at hf
        obtain ⟨n, hp, hw, hty⟩ := hf
        rcases (h.coherent i).wrapInstance f.wrapperTypeInfo f.creationContext addr with
          ⟨hm, hnone⟩ | ⟨hm, ft, templates, hi, hcached, hmono, hreq, hsome⟩
        · simp only [Move.exec, Step.exec, ht, hnone, Option.some.injEq] at hx
          subst hx
          exact .noInstance ht hm
        · simp only [Move.exec, Step.exec, ht, hsome, Option.some.injEq] at hx
          subst hx
          exact .instantiate ht hm hen hp hw hty hi hcached hmono hreq
      | _ => simp only [Move.exec, Step.exec, ht, reduceCtorEq] at hx
    | associateWithWrapper i =>
      cases ht : p.threads i with
      | instantiated f wrapper =>
        have hf := h.threads i
        rw [ht] at hf
        obtain ⟨n, obj, hp, hw, hty, ho, hl, hfield, hcached⟩ := hf
        have hassoc : Wrappable.associateWithWrapper M.info f.this n.typeInfo (some wrapper) (p.isolate i) = _ :=
          Wrappable.associateWithWrapper_eq hp.native hw ho hl
        simp only [Move.exec, Step.exec, ht, ← hty, hassoc, Option.bind_eq_bind, Option.bind_some, Option.pure_def,
          Option.some.injEq] at hx
        subst hx
        exact .associate ht hp hw hty ho hl hfield hcached
      | _ => simp only [Move.exec, Step.exec, ht, reduceCtorEq] at hx
    | restoreMode i =>
      cases ht : p.threads i with
      | associated f ret =>
        have hf := h.threads i
        rw [ht] at hf
        obtain ⟨n, c, o, rfl, -⟩ := hf
        simp only [Move.exec, Step.exec, ht, Option.some.injEq] at hx
        subst hx
        exact .restore ht
      | _ => simp only [Move.exec, Step.exec, ht, reduceCtorEq] at hx

/-- Whatever the threads and the collectors do, the heaps fit together. -/
theorem Fits.move (h : p.Fits M) {a : Move ι κ} {p' : Process ι κ} (hs : (M.collecting κ).step p a p') : p'.Fits M := by
  have hsame : ∀ i, p.threads = Function.update p.threads i (p.threads i) :=
    fun i => (Function.update_eq_self i _).symm
  cases h.moved hs with
  | @run i op s hidle hw he hx =>
    obtain ⟨hc, hmono⟩ := (h.coherent i).exec he hx
    exact h.put rfl (hsame i) rfl hc hmono (by rw [hidle]; trivial)
  | @wrapAgain i this context n c o hidle hp hw hl =>
    exact h.put rfl (hsame i) rfl ((h.coherent i).frame rfl rfl rfl rfl rfl rfl rfl) (fun _ _ => id)
      (by rw [hidle]; trivial)
  | @save i this context n hidle hp hw => exact h.goto rfl rfl rfl ⟨n, hp, hw, rfl⟩
  | @setMode i f ht =>
    have hf := h.threads i
    rw [ht] at hf
    exact h.goto rfl rfl rfl hf
  | noInstance => exact ⟨h.coherent, h.threads⟩
  | @instantiate i addr f n ft templates ht hm hfree hp hw hty hi hcached hmono hreq =>
    refine h.put rfl rfl rfl (((h.coherent i).setTemplates hi hmono).newObject (Hierarchy.blank_field _ _)) hmono ?_
    exact ⟨n, M.blank ⟨ft, (p.isolate i).context⟩ f.wrapperTypeInfo, hp, hw, hty, Function.update_self ..,
      M.two_le_length_blank _ _, Hierarchy.blank_field _ _, hty ▸ hcached⟩
  | @associate i f wrapper n obj ht hp hw hty ho hl hfield hcached =>
    refine h.put rfl rfl rfl ((h.coherent i).link hp hw ho hl hfield hcached) (fun _ _ => id) ?_
    exact ⟨_, _, wrapper, rfl, (State.live_replace { n with wrapper := some (p.isolate i).nextCell } hp rfl rfl).mpr
      (.inl ⟨rfl, rfl⟩), rfl, linked_link hl hcached⟩
  | @restore i f o ht => exact h.put rfl rfl rfl ((h.coherent i).frame rfl rfl rfl rfl rfl rfl rfl) (fun _ _ => id) trivial
  | @collect i o s ho hne hx =>
    obtain ⟨hc, ht, -⟩ := (h.coherent i).collect_keeps hx
    exact h.put rfl (hsame i) rfl hc (ht ▸ fun _ _ => id) ((h.threads i).collect (h.coherent i) hne hx)

/-- The one move that records an empty `NewInstance`. -/
theorem Moved.emptyInstance {a : Move ι κ} {p' : Process ι κ} (h : p.Moved M a p') (hp : p.emptyInstance = false)
    (hp' : p'.emptyInstance = true) : (∃ i addr, a = .step (.newInstance i addr)) ∧ p.mode = .kCreateNewObject := by
  cases h with
  | @noInstance i addr f ht hm => exact ⟨⟨i, addr, rfl⟩, hm⟩
  | _ => exact absurd (hp.symm.trans hp') Bool.false_ne_true

end Process

/-! ## Runs -/

theorem Process.Fits.run [DecidableEq κ] {tr : List (Process ι κ × Move ι κ)} {p : Process ι κ}
    (h : (M.collecting κ).Run tr p) : p.Fits M := by
  refine h.invariant' ?_ fun p a p' hp hs => hp.move hs
  rintro p ⟨isolate, context, -, rfl⟩
  exact ⟨fun i => .initial (isolate i) (context i), fun _ => trivial⟩

omit [DecidableEq ι] in
/-- A run, one step longer. -/
theorem Hierarchy.collecting_next [DecidableEq κ] {M : Hierarchy ι} {tr : List (Process ι κ × Move ι κ)}
    {p : Process ι κ} (a : Move ι κ) (h : (M.collecting κ).Run tr p) (hab : p.emptyInstance = false) (he : a.Enabled p)
    (hx : (a.exec M p).isSome) : (M.collecting κ).Run ((p, a) :: tr) ((a.exec M p).get hx) :=
  .step h ⟨hab, he, (Option.some_get hx).symm⟩

end NativeObjects
