import NativeObjects.Proof.Effect

/-!
# The invariant of a program

`Inv` holds between the operations of every program (`Inv.effect`,
`Inv.run`): the heaps fit together, the mode is to create objects, and what
script reaches was handed to it by an accepted `new` or by a `Wrap`.
-/

namespace NativeObjects

variable {ι : Type} [Fintype ι] [DecidableEq ι] (M : Embedding ι)

structure Inv (s : State ι) : Prop where
  coherent : Coherent M s
  mode : s.mode = .kCreateNewObject
  /-- The wrappers of live natives were handed out. -/
  handed : ∀ c cell, s.cells c = some cell → cell.object ∈ s.history.returned
  /-- What was handed out names a native, until it is collected. -/
  returned : ∀ o ∈ s.history.returned, o < s.nextObject ∧
    ∀ obj, s.objects o = some obj → ∃ p, obj.fields[0]? = some (.native p)
  /-- What script reaches was handed out, and is not collected. -/
  reached : ∀ o ∈ s.reached, o ∈ s.history.returned ∧ ∃ obj, s.objects o = some obj

variable {M}

namespace Inv

variable {s : State ι}

theorem initial (isolate : IsolateId) (context : ContextId) : Inv M (.initial isolate context : State ι) where
  coherent := .initial isolate context
  mode := rfl
  handed _ _ h := nomatch h
  returned _ h := nomatch h
  reached _ h := nomatch h

theorem setTemplates (h : Inv M s) {templates : Templates ι} (ht : Templates.Inv M.family [] templates)
    (hc : ∀ name ft, s.templates.cached name = some ft → templates.cached name = some ft) :
    Inv M (s.setTemplates templates) :=
  ⟨h.coherent.setTemplates ht hc, h.mode, h.handed, h.returned, h.reached⟩

theorem newObject (h : Inv M s) {obj : JSObject ι} (hobj : ∀ p, obj.fields[0]? ≠ some (.native p)) :
    Inv M (s.newObject obj).2 := by
  have hold : ∀ o ∈ s.history.returned, (s.newObject obj).2.objects o = s.objects o :=
    fun o ho => Function.update_of_ne (Nat.ne_of_lt (h.returned o ho).1) ..
  refine ⟨h.coherent.newObject hobj, h.mode, h.handed, fun o ho => ?_, fun o ho => ?_⟩
  · rw [hold o ho]
    exact ⟨Nat.lt_succ_of_lt (h.returned o ho).1, (h.returned o ho).2⟩
  · rw [hold o (h.reached o ho).1]
    exact h.reached o ho

theorem allocate (h : Inv M s) {p : NativePtr} {ev : Event ι} (hfree : s.natives p.addr = none)
    (hp : p.birth = s.births) (hb : ev.birth = p.birth) (hw : ev.wrapper = none) (ht : ev.target = none)
    (hct : ev.currentTarget = none) : Inv M (s.allocate p ev) :=
  ⟨h.coherent.allocate hfree hp hb hw ht hct, h.mode, h.handed, h.returned, h.reached⟩

/-- Linking a native with an object, and handing the object out. -/
theorem link (h : Inv M s) {p : NativePtr} {n : Event ι} {o : ObjectId} {obj : JSObject ι} (hp : s.Live p n)
    (hw : n.wrapper = none) (ho : s.objects o = some obj) (hl : 2 ≤ obj.fields.length)
    (hf : ∀ q, obj.fields[0]? ≠ some (.native q))
    (ht : s.templates.cached (M.family.name n.typeInfo) = some obj.template) :
    Inv M ((s.link M.info p n n.typeInfo o obj).giveWrapper o) := by
  have hc := h.coherent.link hp hw ho hl hf ht
  have hlink := linked_link (p := p) (o := o) hl ht
  obtain ⟨obj', ho', hf', -⟩ := hlink.object
  refine ⟨hc.frame rfl rfl rfl rfl rfl rfl rfl, h.mode, fun c cell hcell => ?_, fun o' hr => ?_, fun o' hr => ?_⟩
  · by_cases hcn : c = s.nextCell
    · subst hcn
      cases hlink.cell.symm.trans hcell
      exact List.mem_cons_self
    · exact List.mem_cons_of_mem _ (h.handed c cell ((Function.update_of_ne hcn ..).symm.trans hcell))
  · by_cases hoo : o' = o
    · subst hoo
      refine ⟨(h.coherent.objects o' obj ho).1, fun obj'' ho'' => ?_⟩
      cases ho'.symm.trans ho''
      exact ⟨p, hf'⟩
    · obtain ⟨hlt, hr⟩ := h.returned o' ((List.mem_cons.mp hr).resolve_left hoo)
      exact ⟨hlt, fun obj'' ho'' => hr obj'' ((Function.update_of_ne hoo ..).symm.trans ho'')⟩
  · by_cases hoo : o' = o
    · subst hoo
      exact ⟨List.mem_cons_self, obj', ho'⟩
    · obtain ⟨hr, obj'', ho''⟩ := h.reached o' ((List.mem_cons.mp hr).resolve_left hoo)
      exact ⟨List.mem_cons_of_mem _ hr, obj'', (Function.update_of_ne hoo ..).trans ho''⟩

/-- Handing script the wrapper of a live native. -/
theorem reach (h : Inv M s) {p : NativePtr} {n : Event ι} {c : CellId} {o : ObjectId} (hl : Linked M s p n c o) :
    Inv M (s.reach o) := by
  refine ⟨h.coherent.frame rfl rfl rfl rfl rfl rfl rfl, h.mode, h.handed, h.returned, fun o' ho' => ?_⟩
  rcases List.mem_cons.mp ho' with rfl | ho'
  · obtain ⟨obj, ho, -⟩ := hl.object
    exact ⟨h.handed c _ hl.cell, obj, ho⟩
  · exact h.reached o' ho'

theorem giveWrapper (h : Inv M s) {p : NativePtr} {n : Event ι} {c : CellId} {o : ObjectId}
    (hl : Linked M s p n c o) : Inv M (s.giveWrapper o) := by
  have hr := h.reach hl
  refine ⟨h.coherent.frame rfl rfl rfl rfl rfl rfl rfl, h.mode,
    fun c cell hc => List.mem_cons_of_mem _ (h.handed c cell hc), fun o' ho' => ?_,
    fun o' ho' => ⟨List.mem_cons_of_mem _ (hr.reached o' ho').1, (hr.reached o' ho').2⟩⟩
  rcases List.mem_cons.mp ho' with rfl | ho'
  · exact h.returned o' (h.handed c _ hl.cell)
  · exact h.returned o' ho'

theorem setNative (h : Inv M s) {p : NativePtr} {n n' : Event ι} (hp : s.Live p n) (hn : Repaint s n n') :
    Inv M (s.setNative p n') := by
  refine ⟨h.coherent.setNative hp hn.birth hn.typeInfo hn.wrapper fun q hq => ?_, h.mode, h.handed, h.returned,
    h.reached⟩
  have hlive : ∀ q, s.IsLive q → q.birth < s.births := fun q ⟨m, hm⟩ => h.coherent.births q m hm
  rcases hq with hq | hq
  · rcases hn.target with ht | ht
    · exact h.coherent.targets p n q hp (.inl (ht.symm.trans hq))
    · exact hlive q (ht q hq)
  · rcases hn.currentTarget with ht | ht
    · exact h.coherent.targets p n q hp (.inr (ht.symm.trans hq))
    · exact hlive q (ht q hq)

theorem remove (h : Inv M s) {p : NativePtr} {n : Event ι} (hp : s.Live p n) (deleter : Deleter) :
    Inv M (s.remove deleter p n) :=
  ⟨h.coherent.remove hp deleter, h.mode, fun c cell hc => h.handed c cell (State.cells_of_remove hc).1,
    h.returned, h.reached⟩

theorem discard (h : Inv M s) {o : ObjectId} (hr : o ∉ s.reached)
    (hc : ∀ c cell, s.cells c = some cell → cell.object ≠ o) : Inv M (s.discard o) := by
  refine ⟨h.coherent.discard hc, h.mode, h.handed, fun o' ho' => ⟨(h.returned o' ho').1, fun obj ho => ?_⟩,
    fun o' ho' => ⟨(h.reached o' ho').1, ?_⟩⟩
  · by_cases hoo : o' = o
    · subst hoo
      exact absurd ((Function.update_self ..).symm.trans ho) (by simp)
    · exact (h.returned o' ho').2 obj ((Function.update_of_ne hoo ..).symm.trans ho)
  · obtain ⟨obj, ho⟩ := (h.reached o' ho').2
    have hne : o' ≠ o := fun hoo => hr (hoo ▸ ho')
    exact ⟨obj, (Function.update_of_ne hne ..).trans ho⟩

end Inv

/-! ## Operations keep the invariant -/

/-- The collected wrapper is no longer referred to when its native is deleted. -/
theorem Coherent.cell_ne_of_remove {s : State ι} (h : Coherent M s) {p : NativePtr} {n : Event ι} {c : CellId}
    {o : ObjectId} (hw : n.wrapper = some c) (hl : Linked M s p n c o) (deleter : Deleter) :
    ∀ d cell, (s.remove deleter p n).cells d = some cell → cell.object ≠ o := by
  intro d cell hd ho
  obtain ⟨hd, hne⟩ := State.cells_of_remove hd
  exact hne (h.cell_unique hl.cell hd ho ▸ hw)

omit [Fintype ι] [DecidableEq ι] in
theorem State.remove_discard (deleter : Deleter) (p : NativePtr) (n : Event ι) (o : ObjectId) (s : State ι) :
    (s.discard o).remove deleter p n = (s.remove deleter p n).discard o := rfl

theorem Inv.effect {s s' : State ι} {op : Op ι} (h : Inv M s) (he : Effect M s op s') : Inv M s' := by
  cases he with
  | interfaceTemplate hi hc => exact h.setTemplates hi hc
  | newRejected => exact h.newObject (Hierarchy.blank_field _ _)
  | @newAccepted f args addr t v ht hfree ha =>
    have h₁ := h.newObject (Hierarchy.blank_field (M := M.toHierarchy) f t)
    have h₂ : Inv M ((s.newObject (M.blank f t)).2.allocate ⟨addr, s.births⟩ (M.scripted t v s.births)) :=
      h₁.allocate hfree rfl rfl rfl rfl rfl
    exact h₂.link (State.live_self_allocate hfree rfl) rfl (Function.update_self ..) (M.two_le_length_blank f t)
      (Hierarchy.blank_field f t) ht
  | callNothing => exact h
  | callReach hq hm ho =>
    obtain ⟨c, -, hl⟩ := h.coherent.linked_of_getWrapper (State.live_of_native hm) ho
    exact h.reach hl
  | drop =>
    exact ⟨h.coherent.frame rfl rfl rfl rfl rfl rfl rfl, h.mode, h.handed, h.returned,
      fun o ho => h.reached o (List.mem_of_mem_filter ho)⟩
  | nativeNew hfree => exact h.allocate hfree rfl rfl rfl rfl rfl
  | wrapAgain hp hl hw => exact h.giveWrapper hl
  | @wrapBare p context addr n ft templates hp hw hi ht hc =>
    have h₁ := (h.setTemplates hi hc).newObject (Hierarchy.blank_field (M := M.toHierarchy) ⟨ft, s.context⟩ n.typeInfo)
    exact h₁.link hp hw (Function.update_self ..) (M.two_le_length_blank _ _) (Hierarchy.blank_field _ _) ht
  | repaint hp hn => exact h.setNative hp hn
  | destroy hp => exact h.remove hp .nativeCode
  | collectOrphan ho hc => exact h.discard ho.2.1 hc
  | collectWrapper ho hp hw hl =>
    rw [State.remove_discard]
    exact (h.remove hp .collector).discard ho.2.1 (h.coherent.cell_ne_of_remove hw hl .collector)
  | enterContext => exact ⟨h.coherent.frame rfl rfl rfl rfl rfl rfl rfl, h.mode, h.handed, h.returned, h.reached⟩
  | setTerminating => exact ⟨h.coherent.frame rfl rfl rfl rfl rfl rfl rfl, h.mode, h.handed, h.returned, h.reached⟩

theorem Inv.step {s s' : State ι} {op : Op ι} (h : Inv M s) (hs : M.system.step s op s') : Effect M s op s' :=
  Op.exec_effect h.coherent h.mode hs.1 hs.2

/-- The invariant holds at the end of every run. -/
theorem Inv.run {tr : List (State ι × Op ι)} {s : State ι} (h : M.system.Run tr s) : Inv M s := by
  refine h.invariant' ?_ fun s op s' hi hs => hi.effect (hi.step hs)
  rintro s ⟨isolate, context, rfl⟩
  exact .initial isolate context

omit [DecidableEq ι] in
/-- A run, one operation longer. -/
theorem Hierarchy.run_next {M : Hierarchy ι} {tr : List (State ι × Op ι)} {s : State ι} (op : Op ι)
    (h : M.system.Run tr s) (he : op.Enabled s) (hx : (op.exec M s).isSome) :
    M.system.Run ((s, op) :: tr) ((op.exec M s).get hx) :=
  .step h ⟨he, (Option.some_get hx).symm⟩

omit [DecidableEq ι] in
/-- The rest of a run, one operation longer. -/
theorem Hierarchy.path_next {M : Hierarchy ι} {tr : List (State ι × Op ι)} {s s' : State ι} (op : Op ι)
    (h : M.system.Path s tr s') (he : op.Enabled s') (hx : (op.exec M s').isSome) :
    M.system.Path s ((s', op) :: tr) ((op.exec M s').get hx) :=
  .step h ⟨he, (Option.some_get hx).symm⟩

/-- Strong handles do not keep objects alive, as there are none. -/
theorem Coherent.collectable {s : State ι} (h : Coherent M s) {o : ObjectId} (ho : s.objects o ≠ none)
    (hr : o ∉ s.reached) : s.Collectable o := by
  refine ⟨ho, hr, fun c cell hc _ => ?_⟩
  obtain ⟨-, p, n, hp, hw⟩ := h.cells c cell hc
  have hl := h.linked_of_cell hp hw hc
  rw [show cell.weak = some p from congrArg Cell.weak (Option.some.inj (hc.symm.trans hl.cell))]
  exact nofun

theorem Inv.collectable {s : State ι} (h : Inv M s) {o : ObjectId} (ho : s.objects o ≠ none) (hr : o ∉ s.reached) :
    s.Collectable o :=
  h.coherent.collectable ho hr

end NativeObjects
