import NativeObjects.Proof.Interfaces

/-!
# What one operation does

`Effect M s op s'` lists all that an operation can do to a state whose heaps fit
together (`Coherent`) and whose mode is to create objects; `Op.exec_effect` is
the inversion lemma that every invariant below goes through.
-/

namespace NativeObjects

variable {ι : Type} [Fintype ι] [DecidableEq ι] (M : Embedding ι)

/-- A script call of `f` on `receiver` reads the target or the current target of
the receiver's native, and that is `q`. -/
def State.Reads (s : State ι) (f : FunctionValue ι TemplateId) (receiver : ObjectId) (q : NativePtr) : Prop :=
  ∃ obj p n, s.objects receiver = some obj ∧ signatureAccepts s.templates f.signature obj = true ∧
    obj.fields[0]? = some (.native p) ∧ s.native p = some n ∧
    (f.callback = some .targetGetter ∧ n.target = some q ∨
      f.callback = some .currentTargetGetter ∧ n.currentTarget = some q)

/-- A change to a native that leaves its wrapper as it is, and gives it no target
that was not made. -/
structure Repaint (s : State ι) (n n' : Event ι) : Prop where
  birth : n'.birth = n.birth
  typeInfo : n'.typeInfo = n.typeInfo
  wrapper : n'.wrapper = n.wrapper
  target : n'.target = n.target ∨ s.NullOrLive n'.target
  currentTarget : n'.currentTarget = n.currentTarget ∨ s.NullOrLive n'.currentTarget

/-- Setting a data member of the native at `p`. -/
def Op.Payload (p : NativePtr) : Op ι → Prop
  | .setTarget this _ | .setCurrentTarget this _ | .setTimeStamp this _ => this = p
  | _ => False

inductive Effect (s : State ι) : Op ι → State ι → Prop
  | interfaceTemplate {t : ι} {templates : Templates ι} (hi : Templates.Inv M.family [] templates)
      (hc : ∀ name ft, s.templates.cached name = some ft → templates.cached name = some ft) :
      Effect s (.interfaceTemplate t) (s.setTemplates templates)
  /-- `new` without a string: an object that nobody gets. -/
  | newRejected {f : JSFunction} {args : List JSValue} {addr : Addr} {t : ι} :
      Effect s (.scriptNew f args addr) (s.newObject (M.blank f t)).2
  | newAccepted {f : JSFunction} {args : List JSValue} {addr : Addr} {t : ι} {v : JSString}
      (ht : s.templates.cached (M.family.name t) = some f.template) (hfree : s.natives addr = none)
      (ha : args.getD 0 .undefined = .string v) :
      Effect s (.scriptNew f args addr)
        ((((s.newObject (M.blank f t)).2.allocate ⟨addr, s.births⟩ (M.scripted t v s.births)).link M.info
          ⟨addr, s.births⟩ (M.scripted t v s.births) t s.nextObject (M.blank f t)).giveWrapper s.nextObject)
  | callNothing {ft : TemplateId} {place : Place} {f : FunctionValue ι TemplateId} {receiver : ObjectId}
      {args : List JSValue} {addr : Addr}
      (h : ∀ q m, s.Reads f receiver q → s.native q = some m → Wrappable.getWrapper m s = none) :
      Effect s (.scriptCall ft place f receiver args addr) s
  /-- A getter hands out the wrapper of a target. -/
  | callReach {ft : TemplateId} {place : Place} {f : FunctionValue ι TemplateId} {receiver : ObjectId}
      {args : List JSValue} {addr : Addr} {q : NativePtr} {m : Event ι} {o : ObjectId}
      (hq : s.Reads f receiver q) (hm : s.native q = some m) (ho : Wrappable.getWrapper m s = some o) :
      Effect s (.scriptCall ft place f receiver args addr) (s.reach o)
  | drop {o : ObjectId} : Effect s (.drop o) { s with reached := s.reached.filter (· ≠ o) }
  | nativeNew {t : ι} {event : List UInt8} {addr : Addr} (hfree : s.natives addr = none) :
      Effect s (.nativeNew t event addr) (s.allocate ⟨addr, s.births⟩ (Event.fresh t event s.births))
  | wrapAgain {p : NativePtr} {context : ContextId} {addr : Addr} {n : Event ι} {c : CellId} {o : ObjectId}
      (hp : s.Live p n) (hl : Linked M s p n c o) (hw : n.wrapper = some c) :
      Effect s (.wrap p context addr) (s.giveWrapper o)
  | wrapBare {p : NativePtr} {context : ContextId} {addr : Addr} {n : Event ι} {ft : TemplateId}
      {templates : Templates ι} (hp : s.Live p n) (hw : n.wrapper = none)
      (hi : Templates.Inv M.family [] templates) (ht : templates.cached (M.family.name n.typeInfo) = some ft)
      (hc : ∀ name ft, s.templates.cached name = some ft → templates.cached name = some ft) :
      Effect s (.wrap p context addr)
        ((((s.setTemplates templates).newObject (M.blank ⟨ft, s.context⟩ n.typeInfo)).2.link M.info p n
          n.typeInfo s.nextObject (M.blank ⟨ft, s.context⟩ n.typeInfo)).giveWrapper s.nextObject)
  | repaint {op : Op ι} {p : NativePtr} {n n' : Event ι} (hp : s.Live p n) (hn : Repaint s n n')
      (hop : op.Payload p) : Effect s op (s.setNative p n')
  | destroy {p : NativePtr} {n : Event ι} (hp : s.Live p n) : Effect s (.destroy p) (s.remove .nativeCode p n)
  | collectOrphan {o : ObjectId} (h : s.Collectable o) (hc : ∀ c cell, s.cells c = some cell → cell.object ≠ o) :
      Effect s (.collect o) (s.discard o)
  | collectWrapper {o : ObjectId} {p : NativePtr} {n : Event ι} {c : CellId} (h : s.Collectable o)
      (hp : s.Live p n) (hw : n.wrapper = some c) (hl : Linked M s p n c o) :
      Effect s (.collect o) ((s.discard o).remove .collector p n)
  | enterContext {context : ContextId} : Effect s (.enterContext context) { s with context := context }
  | setTerminating {terminating : Bool} :
      Effect s (.setTerminating terminating) { s with executionTerminating := terminating }

variable {M}

omit [Fintype ι] [DecidableEq ι] in
theorem JSValue.reachValue_eq (v : JSValue) (s : State ι) :
    s.reachValue v = s ∨ ∃ o, v = .object o ∧ s.reachValue v = s.reach o := by
  cases v with
  | object o => exact .inr ⟨o, rfl, rfl⟩
  | _ => exact .inl rfl

/-- Collecting does not go wrong. -/
theorem Coherent.collect {s : State ι} (h : Coherent M s) (o : ObjectId) :
    (∀ c cell, s.cells c = some cell → cell.object ≠ o) ∧ s.collect o = some (s.discard o) ∨
      ∃ p n c, s.Live p n ∧ n.wrapper = some c ∧ Linked M s p n c o ∧
        s.collect o = some ((s.discard o).remove .collector p n) := by
  by_cases hc : ∃ c cell, s.cells c = some cell ∧ cell.object = o
  · obtain ⟨c, cell, hcell, rfl⟩ := hc
    obtain ⟨hlt, p, n, hp, hw⟩ := h.cells c cell hcell
    have hl := h.linked_of_cell hp hw hcell
    have hweak : cell.weak = some p := congrArg Cell.weak (Option.some.inj (hcell.symm.trans hl.cell))
    exact .inr ⟨p, n, c, hp, hw, hl, State.collect_wrapper hcell rfl hweak hp.native hw hlt
      fun c' cell' hc' ho' => h.cell_unique hcell hc' ho'⟩
  · have hnone : ∀ c cell, s.cells c = some cell → cell.object ≠ o := fun c cell hcell ho => hc ⟨c, cell, hcell, ho⟩
    exact .inl ⟨hnone, State.collect_orphan hnone⟩

/-- Wrapping does not go wrong. -/
theorem Coherent.wrap {s : State ι} (h : Coherent M s) {p : NativePtr} {n : Event ι} (hp : s.Live p n)
    (context : ContextId) (addr : Addr) :
    (∃ c o, n.wrapper = some c ∧ Linked M s p n c o ∧ M.wrap p context addr s = some (some o, s)) ∨
      n.wrapper = none ∧ ∃ ft templates, Templates.Inv M.family [] templates ∧
        templates.cached (M.family.name n.typeInfo) = some ft ∧
        (∀ name ft, s.templates.cached name = some ft → templates.cached name = some ft) ∧
        M.wrap p context addr s = some (some s.nextObject,
          ((s.setTemplates templates).newObject (M.blank ⟨ft, s.context⟩ n.typeInfo)).2.link M.info p n
            n.typeInfo s.nextObject (M.blank ⟨ft, s.context⟩ n.typeInfo)) := by
  cases hw : n.wrapper with
  | some c =>
    obtain ⟨o, hl⟩ := h.linked p n c hp hw
    exact .inl ⟨c, o, rfl, hl, Hierarchy.wrap_wrapped hp.native hw hl.cell⟩
  | none =>
    obtain ⟨ft, templates, -, hreq, hi, ht, hc⟩ := M.interfaceTemplate_eq h.templates n.typeInfo
    exact .inr ⟨rfl, ft, templates, hi, ht, hc, Hierarchy.wrap_bare hp.native hw (hreq _)
      (show M.Constructs (s.setTemplates templates) ft n.typeInfo from Embedding.constructs_of_cached hi ht)⟩

omit [Fintype ι] [DecidableEq ι] in
theorem Config.toImpl_eq {s : State ι} {o : ObjectId} {obj : JSObject ι} {p : NativePtr}
    (ho : s.objects o = some obj) (hf : obj.fields[0]? = some (.native p)) : Config.toImpl o s = some (some p) := by
  rw [Config.toImpl, ho, Option.bind_some, hf]

omit [Fintype ι] [DecidableEq ι] in
theorem Config.toImpl_eq_some_iff {s : State ι} {o : ObjectId} {p : NativePtr} :
    Config.toImpl o s = some (some p) ↔ ∃ obj, s.objects o = some obj ∧ obj.fields[0]? = some (.native p) := by
  refine ⟨fun h => ?_, fun ⟨obj, ho, hf⟩ => Config.toImpl_eq ho hf⟩
  unfold Config.toImpl at h
  split at h
  · rename_i q hq
    rw [Option.some.injEq, Option.some.injEq] at h
    exact h ▸ Option.bind_eq_some_iff.mp hq
  · exact absurd h (by simp)
  · exact absurd h (by simp)

omit [Fintype ι] [DecidableEq ι] in
/-- A getter reads the native that its holder names. -/
theorem getterOf_eq {read : Event ι → State ι → Option JSValue} {holder : ObjectId} {s : State ι} {p : NativePtr}
    {n : Event ι} (himpl : Config.toImpl holder s = some (some p)) (hn : s.native p = some n) :
    getterOf read holder s = read n s := by
  simp only [getterOf, himpl, hn, Option.bind_eq_bind, Option.bind_some]

omit [Fintype ι] [DecidableEq ι] in
/-- A getter returns no object, or the wrapper that it read. -/
theorem getterOf_object {read : Event ι → State ι → Option JSValue} {holder o : ObjectId} {s : State ι}
    (h : getterOf read holder s = some (.object o)) :
    ∃ obj p n, s.objects holder = some obj ∧ obj.fields[0]? = some (.native p) ∧ s.native p = some n ∧
      read n s = some (.object o) := by
  simp only [getterOf, Option.bind_eq_bind, Option.bind_eq_some_iff] at h
  obtain ⟨impl, himpl, h⟩ := h
  cases impl with
  | none => exact absurd h (by simp)
  | some p =>
    obtain ⟨n, hn, hread⟩ := Option.bind_eq_some_iff.mp h
    obtain ⟨obj, hobj, hf⟩ := Config.toImpl_eq_some_iff.mp himpl
    exact ⟨obj, p, n, hobj, hf, hn, hread⟩

omit [Fintype ι] [DecidableEq ι] in
theorem readTarget_object {field : Option NativePtr} {o : ObjectId} {s : State ι}
    (h : V8EventInternal.readTarget field s = some (.object o)) :
    ∃ q m, field = some q ∧ s.native q = some m ∧ Wrappable.getWrapper m s = some o := by
  cases field with
  | none => exact absurd h (by simp [V8EventInternal.readTarget])
  | some q =>
    obtain ⟨m, hm, hv⟩ := Option.map_eq_some_iff.mp h
    cases hg : Wrappable.getWrapper m s with
    | none =>
      rw [hg] at hv
      exact absurd hv (by simp [JSValue.ofLocal])
    | some o' =>
      rw [hg] at hv
      cases hv
      exact ⟨q, m, rfl, hm, hg⟩

omit [DecidableEq ι] in
/-- The values that a script call can return: an object only from a getter of a target. -/
theorem Hierarchy.invoke_object (M : Hierarchy ι) {callback : FunctionCallback ι} {ci : CallInfo} {addr : Addr}
    {s s' : State ι} {outcome : Outcome} (hci : ci.isConstructCall = false)
    (h : M.invoke callback ci addr s = some (outcome, s')) :
    s' = s ∧ ∀ o, outcome = .returned (.object o) →
      callback = .targetGetter ∧ V8EventInternal.targetGetter ci.holder s = some (.object o) ∨
      callback = .currentTargetGetter ∧ V8EventInternal.currentTargetGetter ci.holder s = some (.object o) := by
  cases callback with
  | constructorCallback t =>
    simp only [invoke, constructorCallback, hci, Bool.false_eq_true, not_false_eq_true, if_true, Option.some.injEq,
      Prod.mk.injEq] at h
    obtain ⟨rfl, rfl⟩ := h
    exact ⟨rfl, fun o ho => absurd ho (by simp [Config.throw])⟩
  | typeGetter =>
    obtain ⟨v, hv, h⟩ := Option.map_eq_some_iff.mp h
    cases h
    refine ⟨rfl, fun o ho => ?_⟩
    cases ho
    obtain ⟨obj, p, n, -, -, -, hread⟩ := getterOf_object hv
    split at hread <;> simp at hread
  | timeStampGetter =>
    obtain ⟨v, hv, h⟩ := Option.map_eq_some_iff.mp h
    cases h
    refine ⟨rfl, fun o ho => ?_⟩
    cases ho
    obtain ⟨obj, p, n, -, -, -, hread⟩ := getterOf_object hv
    exact absurd hread (by simp)
  | targetGetter =>
    obtain ⟨v, hv, h⟩ := Option.map_eq_some_iff.mp h
    cases h
    exact ⟨rfl, fun o ho => .inl ⟨rfl, by cases ho; exact hv⟩⟩
  | currentTargetGetter =>
    obtain ⟨v, hv, h⟩ := Option.map_eq_some_iff.mp h
    cases h
    exact ⟨rfl, fun o ho => .inr ⟨rfl, by cases ho; exact hv⟩⟩
  | preventDefault =>
    cases h
    exact ⟨rfl, fun o ho => absurd ho (by simp)⟩
  | other n =>
    cases h
    exact ⟨rfl, fun o ho => absurd ho (by simp)⟩

omit [DecidableEq ι] in
/-- A call that reads `q` hands out what the native at `q` has as its wrapper. -/
theorem State.Reads.scriptCall_eq {M : Hierarchy ι} {s : State ι} {f : FunctionValue ι TemplateId} {receiver : ObjectId}
    {q : NativePtr} (h : s.Reads f receiver q) (args : List JSValue) (addr : Addr) :
    M.scriptCall f receiver args addr s =
      (s.native q).map fun m => s.reachValue (.ofLocal (Wrappable.getWrapper m s)) := by
  obtain ⟨obj, p, n, ho, hs, hf, hn, hq⟩ := h
  have himpl := Config.toImpl_eq ho hf
  rcases hq with ⟨hc, ht⟩ | ⟨hc, ht⟩
  · have hget : V8EventInternal.targetGetter receiver s = V8EventInternal.readTarget n.target s := getterOf_eq himpl hn
    simp only [Hierarchy.scriptCall, ho, hs, hc, if_true, Hierarchy.invoke, hget, ht, V8EventInternal.readTarget,
      Option.bind_eq_bind, Option.bind_some]
    cases s.native q <;> rfl
  · have hget : V8EventInternal.currentTargetGetter receiver s = V8EventInternal.readTarget n.currentTarget s :=
      getterOf_eq himpl hn
    simp only [Hierarchy.scriptCall, ho, hs, hc, if_true, Hierarchy.invoke, hget, ht, V8EventInternal.readTarget,
      Option.bind_eq_bind, Option.bind_some]
    cases s.native q <;> rfl

omit [DecidableEq ι] in
/-- A script call leaves the state as it is, but for the wrapper of a target that it hands out. -/
theorem Hierarchy.scriptCall_cases {M : Hierarchy ι} {f : FunctionValue ι TemplateId} {receiver : ObjectId}
    {args : List JSValue} {addr : Addr} {s s' : State ι} (h : M.scriptCall f receiver args addr s = some s') :
    s' = s ∨ ∃ q m o, s.Reads f receiver q ∧ s.native q = some m ∧ Wrappable.getWrapper m s = some o := by
  simp only [scriptCall, Option.bind_eq_bind, Option.bind_eq_some_iff] at h
  obtain ⟨obj, ho, h⟩ := h
  split at h
  case isFalse => exact .inl (Option.some.inj h).symm
  case isTrue hs =>
    split at h
    case h_1 => exact .inl (Option.some.inj h).symm
    case h_2 callback hc =>
      obtain ⟨⟨outcome, s₁⟩, hinv, h⟩ := Option.bind_eq_some_iff.mp h
      obtain ⟨rfl, hobj⟩ := M.invoke_object rfl hinv
      cases outcome with
      | rejected error => exact .inl (Option.some.inj h).symm
      | returned v =>
        cases h
        rcases v.reachValue_eq s₁ with heq | ⟨o, rfl, -⟩
        · exact .inl heq
        · refine .inr ?_
          rcases hobj o rfl with ⟨rfl, hget⟩ | ⟨rfl, hget⟩
          · obtain ⟨obj', p, n, ho', hf, hn, hread⟩ := getterOf_object hget
            cases ho.symm.trans ho'
            obtain ⟨q, m, hq, hm, hg⟩ := readTarget_object hread
            exact ⟨q, m, o, ⟨obj, p, n, ho, hs, hf, hn, .inl ⟨hc, hq⟩⟩, hm, hg⟩
          · obtain ⟨obj', p, n, ho', hf, hn, hread⟩ := getterOf_object hget
            cases ho.symm.trans ho'
            obtain ⟨q, m, hq, hm, hg⟩ := readTarget_object hread
            exact ⟨q, m, o, ⟨obj, p, n, ho, hs, hf, hn, .inr ⟨hc, hq⟩⟩, hm, hg⟩

/-- The inversion lemma: an operation does what `Effect` lists. Only `new` reads the mode. -/
theorem Op.exec_effect_of_new {s s' : State ι} {op : Op ι} (h : Coherent M s)
    (hm : ∀ f args addr, op = .scriptNew f args addr → s.mode = .kCreateNewObject)
    (he : op.Enabled s) (hx : op.exec M.toHierarchy s = some s') : Effect M s op s' := by
  cases op with
  | interfaceTemplate t =>
    obtain ⟨ft, templates, heq, -, hi, -, hc⟩ := M.interfaceTemplate_eq h.templates t
    simp only [exec, heq, Option.bind_eq_bind, Option.bind_some, Option.pure_def, Option.some.injEq] at hx
    subst hx
    exact .interfaceTemplate hi hc
  | scriptNew f args addr =>
    obtain ⟨hf, hfree⟩ := he
    obtain ⟨t, ht, hcons⟩ := Embedding.constructs_of_exposed h.templates hf
    have hm := hm f args addr rfl
    cases ha : args.getD 0 .undefined with
    | string v =>
      simp only [exec, Hierarchy.construct_create hcons hm ha hfree, Option.bind_eq_bind, Option.bind_some,
        Option.pure_def, Option.some.injEq] at hx
      subst hx
      exact .newAccepted ht hfree ha
    | _ =>
      simp only [exec, Hierarchy.construct_reject hcons hm (by rw [ha]; rfl), Option.bind_eq_bind, Option.bind_some,
        Option.pure_def, Option.some.injEq] at hx
      subst hx
      exact .newRejected
  | scriptCall ft place f receiver args addr =>
    by_cases hr : ∃ q m o, s.Reads f receiver q ∧ s.native q = some m ∧ Wrappable.getWrapper m s = some o
    · obtain ⟨q, m, o, hq, hm, ho⟩ := hr
      have hx' := (hq.scriptCall_eq args addr).symm.trans hx
      rw [hm, Option.map_some, ho] at hx'
      cases hx'
      exact .callReach hq hm ho
    · cases (Hierarchy.scriptCall_cases hx).resolve_right hr
      refine .callNothing fun q m hq hm => Option.eq_none_iff_forall_ne_some.mpr fun o ho => ?_
      exact hr ⟨q, m, o, hq, hm, ho⟩
  | drop o =>
    cases hx
    exact .drop
  | nativeNew t event addr =>
    simp only [exec, Event.create_eq he.1 he.2, Option.bind_eq_bind, Option.bind_some, Option.pure_def,
      Option.some.injEq] at hx
    subst hx
    exact .nativeNew he.2
  | wrap p context addr =>
    obtain ⟨⟨n, hp⟩, -⟩ := he
    rcases h.wrap hp context addr with ⟨c, o, hw, hl, heq⟩ | ⟨hw, ft, templates, hi, ht, hc, heq⟩
    · simp only [exec, heq, Option.bind_eq_bind, Option.bind_some, Option.pure_def, Option.some.injEq] at hx
      subst hx
      exact .wrapAgain hp hl hw
    · simp only [exec, heq, Option.bind_eq_bind, Option.bind_some, Option.pure_def, Option.some.injEq] at hx
      subst hx
      exact .wrapBare hp hw hi ht hc
  | setTarget p target =>
    obtain ⟨⟨n, hp⟩, ht⟩ := he
    simp only [exec, hp.native, Option.bind_eq_bind, Option.bind_some, Option.pure_def, Option.some.injEq] at hx
    subst hx
    exact .repaint hp ⟨rfl, rfl, rfl, .inr ht, .inl rfl⟩ rfl
  | setCurrentTarget p target =>
    obtain ⟨⟨n, hp⟩, ht⟩ := he
    simp only [exec, hp.native, Option.bind_eq_bind, Option.bind_some, Option.pure_def, Option.some.injEq] at hx
    subst hx
    exact .repaint hp ⟨rfl, rfl, rfl, .inl rfl, .inr ht⟩ rfl
  | setTimeStamp p timeStamp =>
    obtain ⟨n, hp⟩ := he
    simp only [exec, hp.native, Option.bind_eq_bind, Option.bind_some, Option.pure_def, Option.some.injEq] at hx
    subst hx
    exact .repaint hp ⟨rfl, rfl, rfl, .inl rfl, .inl rfl⟩ rfl
  | destroy p =>
    obtain ⟨n, hp⟩ := he
    cases (Wrappable.delete_eq hp.native).symm.trans hx
    exact .destroy hp
  | collect o =>
    rcases h.collect o with ⟨hc, heq⟩ | ⟨p, n, c, hp, hw, hl, heq⟩
    · cases heq.symm.trans hx
      exact .collectOrphan he hc
    · cases heq.symm.trans hx
      exact .collectWrapper he hp hw hl
  | enterContext context =>
    cases hx
    exact .enterContext
  | setTerminating terminating =>
    cases hx
    exact .setTerminating

theorem Op.exec_effect {s s' : State ι} {op : Op ι} (h : Coherent M s) (hm : s.mode = .kCreateNewObject)
    (he : op.Enabled s) (hx : op.exec M.toHierarchy s = some s') : Effect M s op s' :=
  Op.exec_effect_of_new h (fun _ _ _ _ => hm) he hx

end NativeObjects
