import NativeObjects.Proof.Invariant

/-!
# What operations leave as it is

Names of natives and objects are not used again, so that a name that was given
out before an operation means the same after it. An object keeps its fields
until it is collected (`Inv.object_cases`); a native keeps its class, its
type and, once it has one, its wrapper until it is deleted, and gets another time
stamp from native code only (`Inv.live_cases`). `Continues` is this for the rest
of a run.
-/

namespace NativeObjects

open Lib (System)

variable {ι : Type} [Fintype ι] [DecidableEq ι] {M : Embedding ι}

/-! ## Objects -/

namespace Effect

variable {s s' : State ι} {op : Op ι}

theorem nextObject_le (he : Effect M s op s') : s.nextObject ≤ s'.nextObject := by
  cases he with
  | newRejected => exact Nat.le_succ _
  | newAccepted => exact Nat.le_succ _
  | wrapBare => exact Nat.le_succ _
  | _ => exact Nat.le_refl _

theorem births_le (he : Effect M s op s') : s.births ≤ s'.births := by
  cases he with
  | newAccepted => exact Nat.le_succ _
  | nativeNew => exact Nat.le_succ _
  | _ => exact Nat.le_refl _

theorem cached_mono (he : Effect M s op s') {name : String} {ft : TemplateId}
    (hc : s.templates.cached name = some ft) : s'.templates.cached name = some ft := by
  cases he with
  | interfaceTemplate _ h => exact h name ft hc
  | wrapBare _ _ _ _ h => exact h name ft hc
  | _ => exact hc

end Effect

/-- The native that an operation links the object `o` with: `new` and `Wrap` link a
new object, with the new native or with a native that has no wrapper. -/
def Op.links (s : State ι) (op : Op ι) (o : ObjectId) : Option NativePtr :=
  match op with
  | .scriptNew _ args addr =>
    if o = s.nextObject ∧ (args.getD 0 .undefined).isString then some ⟨addr, s.births⟩ else none
  | .wrap this _ _ =>
    if o = s.nextObject ∧ (s.native this).any fun n => ¬ Wrappable.containsWrapper n then some this else none
  | _ => none

omit [Fintype ι] [DecidableEq ι] in
/-- Objects that were there are not linked again. -/
theorem Op.links_of_lt {s : State ι} (op : Op ι) {o : ObjectId} (h : o < s.nextObject) : op.links s o = none := by
  cases op with
  | scriptNew f args addr => exact if_neg fun hc => absurd hc.1 (Nat.ne_of_lt h)
  | wrap this context addr => exact if_neg fun hc => absurd hc.1 (Nat.ne_of_lt h)
  | _ => rfl

variable (M) in
/-- The operation instantiated the object `obj` from the template of some type, and
linked it if it names a native. -/
structure Instantiated (s : State ι) (op : Op ι) (s' : State ι) (obj : JSObject ι) : Prop where
  template : ∃ t, s'.templates.cached (M.family.name t) = some obj.template
  links : ∀ p, obj.fields[0]? = some (.native p) → op.links s s.nextObject = some p

/-- An object that is there after an operation was there before, as it is now, or
was instantiated by it. -/
theorem Inv.object_cases {s s' : State ι} {op : Op ι} (hi : Inv M s) (hs : M.system.step s op s') {o : ObjectId}
    {obj : JSObject ι} (ho : s'.objects o = some obj) :
    s.objects o = some obj ∨ o = s.nextObject ∧ Instantiated M s op s' obj := by
  have hupdate : ∀ {f : ObjectId → Option (JSObject ι)} {o' : ObjectId} {x : Option (JSObject ι)},
      o ≠ o' → Function.update f o' x o = some obj → f o = some obj :=
    fun hne ho => (Function.update_of_ne hne ..).symm.trans ho
  cases hi.step hs with
  | @newRejected f args addr t =>
    by_cases hoo : o = s.nextObject
    · obtain ⟨u, hu, -⟩ := Embedding.constructs_of_exposed hi.coherent.templates hs.1.1
      rw [hoo] at ho
      cases (Function.update_self ..).symm.trans ho
      exact .inr ⟨hoo, ⟨u, hu⟩, fun p hf => absurd hf (Hierarchy.blank_field f t p)⟩
    · exact .inl (hupdate hoo ho)
  | @newAccepted f args addr t v ht hfree ha =>
    by_cases hoo : o = s.nextObject
    · obtain ⟨obj', ho', hf', -, htpl⟩ := (linked_new M s addr v ht).object
      rw [hoo] at ho
      cases ho'.symm.trans ho
      refine .inr ⟨hoo, ⟨t, htpl⟩, fun p hf => ?_⟩
      cases hf'.symm.trans hf
      exact if_pos ⟨rfl, by rw [ha]; rfl⟩
    · exact .inl (hupdate hoo (hupdate hoo ho))
  | @wrapBare p context addr n ft templates hp hw ht hc hg =>
    by_cases hoo : o = s.nextObject
    · obtain ⟨obj', ho', hf', -, htpl⟩ := (linked_wrap M s p hc).object
      rw [hoo] at ho
      cases ho'.symm.trans ho
      refine .inr ⟨hoo, ⟨n.typeInfo, htpl⟩, fun p hf => ?_⟩
      cases hf'.symm.trans hf
      exact if_pos ⟨rfl, by simp [hp.native, Wrappable.containsWrapper, hw]⟩
    · exact .inl (hupdate hoo (hupdate hoo ho))
  | @collectOrphan o' =>
    by_cases hoo : o = o'
    · rw [hoo] at ho
      exact absurd ((Function.update_self ..).symm.trans ho) (by simp)
    · exact .inl (hupdate hoo ho)
  | @collectWrapper o' =>
    by_cases hoo : o = o'
    · rw [hoo] at ho
      exact absurd ((Function.update_self ..).symm.trans ho) (by simp)
    · exact .inl (hupdate hoo ho)
  | _ => exact .inl ho

/-! ## Natives -/

/-- What operations leave of the native `n` until it is deleted: `n'` is what it
has become, in the state `s'`. -/
structure Kept (s s' : State ι) (n n' : Event ι) : Prop where
  typeInfo : n'.typeInfo = n.typeInfo
  type : n'.type = n.type
  wrapper : ∀ c, n.wrapper = some c → n'.wrapper = some c ∧ s'.cells c = s.cells c

namespace Kept

variable {s s' s'' : State ι} {n n' n'' : Event ι}

omit [Fintype ι] [DecidableEq ι] in
theorem of_cells (hc : s'.cells = s.cells) : Kept s s' n n := ⟨rfl, rfl, fun c hw => ⟨hw, by rw [hc]⟩⟩

omit [Fintype ι] [DecidableEq ι] in
theorem trans (h : Kept s s' n n') (h' : Kept s' s'' n' n'') : Kept s s'' n n'' := by
  refine ⟨h'.typeInfo.trans h.typeInfo, h'.type.trans h.type, fun c hw => ?_⟩
  obtain ⟨hw', hc⟩ := h.wrapper c hw
  obtain ⟨hw'', hc'⟩ := h'.wrapper c hw'
  exact ⟨hw'', hc'.trans hc⟩

omit [Fintype ι] [DecidableEq ι] in
/-- The wrapper stays the wrapper. -/
theorem getWrapper (h : Kept s s' n n') {o : ObjectId} (hg : Wrappable.getWrapper n s = some o) :
    Wrappable.getWrapper n' s' = some o := by
  obtain ⟨c, hw, hcell⟩ := Option.bind_eq_some_iff.mp hg
  obtain ⟨hw', hc⟩ := h.wrapper c hw
  rw [Wrappable.getWrapper, hw', Option.bind_some, hc]
  exact hcell

end Kept

/-- The bytes that an operation constructs the native at `p` with. -/
def Op.constructs (V : StringConversions) (s : State ι) (op : Op ι) (p : NativePtr) : Option (List UInt8) :=
  match op with
  | .scriptNew _ args addr =>
    if p = ⟨addr, s.births⟩ ∧ (args.getD 0 .undefined).isString then
      some (V.utf8ValueOf (args.getD 0 .undefined) ++ [0])
    else none
  | .nativeNew _ event addr => if p = ⟨addr, s.births⟩ then some event else none
  | _ => none

omit [Fintype ι] [DecidableEq ι] in
/-- Natives that were made are not constructed again. -/
theorem Op.constructs_of_lt (V : StringConversions) {s : State ι} (op : Op ι) {p : NativePtr} (h : p.birth < s.births) :
    op.constructs V s p = none := by
  have hne : ∀ addr, p ≠ ⟨addr, s.births⟩ := fun addr hp => absurd h (by simp [hp])
  cases op with
  | scriptNew f args addr => exact if_neg fun hc => hne addr hc.1
  | nativeNew t event addr => exact if_neg (hne addr)
  | _ => rfl

/-- The time stamp that an operation sets for the native at `p`. -/
def Op.stamped (_ : State ι) (op : Op ι) (p : NativePtr) : Option (BitVec 32) :=
  match op with
  | .setTimeStamp this timeStamp => if p = this then some timeStamp else none
  | _ => none

omit [Fintype ι] [DecidableEq ι] in
theorem Op.stamped_eq_none {s : State ι} {p q : NativePtr} {op : Op ι} (hop : op.Payload p) (hq : q ≠ p) :
    op.stamped s q = none := by
  cases op with
  | setTimeStamp this timeStamp =>
    cases hop
    exact if_neg hq
  | _ => rfl

omit [DecidableEq ι] in
/-- Setting a data member of a native. -/
theorem Op.exec_payload {M : Hierarchy ι} {s s' : State ι} {op : Op ι} {p : NativePtr} {n : Event ι}
    (hop : op.Payload p) (hp : s.Live p n) (hx : op.exec M s = some s') :
    ∃ n', s' = s.setNative p n' ∧ n'.birth = n.birth ∧ Kept s s' n n' ∧
      n'.timeStamp = (op.stamped s p).getD n.timeStamp := by
  cases op with
  | setTarget this target =>
    cases hop
    simp only [exec, hp.native, Option.bind_eq_bind, Option.bind_some, Option.pure_def, Option.some.injEq] at hx
    exact ⟨_, hx.symm, rfl, ⟨rfl, rfl, fun c hw => ⟨hw, hx ▸ rfl⟩⟩, rfl⟩
  | setCurrentTarget this target =>
    cases hop
    simp only [exec, hp.native, Option.bind_eq_bind, Option.bind_some, Option.pure_def, Option.some.injEq] at hx
    exact ⟨_, hx.symm, rfl, ⟨rfl, rfl, fun c hw => ⟨hw, hx ▸ rfl⟩⟩, rfl⟩
  | setTimeStamp this timeStamp =>
    cases hop
    simp only [exec, hp.native, Option.bind_eq_bind, Option.bind_some, Option.pure_def, Option.some.injEq] at hx
    refine ⟨_, hx.symm, rfl, ⟨rfl, rfl, fun c hw => ⟨hw, hx ▸ rfl⟩⟩, ?_⟩
    rw [stamped, if_pos rfl, Option.getD_some]
  | _ => exact hop.elim

/-! A native that was there before: what linking and deleting others leave of it. -/

theorem Coherent.kept_link {s : State ι} (h : Coherent M s) {p q : NativePtr} {n m' : Event ι} (hp : s.Live p n)
    (hw : n.wrapper = none) (o : ObjectId) (obj : JSObject ι)
    (hq : (s.link M.info p n n.typeInfo o obj).Live q m') :
    ∃ m, s.Live q m ∧ Kept s (s.link M.info p n n.typeInfo o obj) m m' ∧ m'.timeStamp = m.timeStamp := by
  rcases (State.live_replace { n with wrapper := some s.nextCell } hp rfl rfl).mp hq with ⟨rfl, hm⟩ | ⟨-, hq⟩
  · cases hm
    exact ⟨n, hp, ⟨rfl, rfl, fun c hc => absurd (hw.symm.trans hc) (by simp)⟩, rfl⟩
  · refine ⟨m', hq, ⟨rfl, rfl, fun c hc => ⟨hc, ?_⟩⟩, rfl⟩
    obtain ⟨o', hl⟩ := h.linked q m' c hq hc
    exact Function.update_of_ne (Nat.ne_of_lt (h.cells c _ hl.cell).1) ..

theorem Coherent.kept_remove {s : State ι} (h : Coherent M s) {p q : NativePtr} {n m : Event ι} (hp : s.Live p n)
    (deleter : Deleter) (hq : (s.remove deleter p n).Live q m) :
    s.Live q m ∧ Kept s (s.remove deleter p n) m m := by
  obtain ⟨hqp, hq⟩ := (State.live_remove hp deleter).mp hq
  refine ⟨hq, rfl, rfl, fun c hc => ⟨hc, State.cells_remove_of_ne fun hw => hqp ?_⟩⟩
  -- the cell of another native's handle is another cell
  obtain ⟨o, hl⟩ := h.linked q m c hq hc
  obtain ⟨o', hl'⟩ := h.linked p n c hp hw
  exact Option.some.inj (congrArg Cell.weak (Option.some.inj (hl.cell.symm.trans hl'.cell)))

variable (M) in
/-- The native `n`, at `p` after the operation, was made by it. -/
structure Made (s : State ι) (op : Op ι) (p : NativePtr) (n : Event ι) : Prop where
  birth : p.birth = s.births
  type : ∃ event, op.constructs M.strings s p = some event ∧ n.type = cString event ++ [0]
  timeStamp : n.timeStamp = 0
  stamped : op.stamped s p = none

/-- A native that is there after an operation was there before, or was made by it. -/
theorem Inv.live_cases {s s' : State ι} {op : Op ι} (hi : Inv M s) (hs : M.system.step s op s') {q : NativePtr}
    {m' : Event ι} (hq : s'.Live q m') :
    (∃ m, s.Live q m ∧ Kept s s' m m' ∧ m'.timeStamp = (op.stamped s q).getD m.timeStamp) ∨ Made M s op q m' := by
  by_cases hpay : ∃ p n, op.Payload p ∧ s.Live p n
  · obtain ⟨p, n, hop, hp⟩ := hpay
    obtain ⟨n', rfl, hb', hkept, hstamp⟩ := Op.exec_payload hop hp hs.2
    rcases (State.live_replace n' hp hb' rfl).mp hq with ⟨rfl, hm⟩ | ⟨hqp, hq⟩
    · cases hm
      exact .inl ⟨n, hp, hkept, hstamp⟩
    · refine .inl ⟨m', hq, .of_cells rfl, ?_⟩
      rw [Op.stamped_eq_none hop hqp, Option.getD_none]
  cases hi.step hs with
  | @newAccepted f args addr t v ht hfree ha =>
    have h₁ := hi.coherent.newObject (Hierarchy.blank_field (M := M.toHierarchy) f t)
    have h₂ : Coherent M ((s.newObject (M.blank f t)).2.allocate ⟨addr, s.births⟩ (M.scripted t v s.births)) :=
      h₁.allocate hfree rfl rfl rfl rfl rfl
    obtain ⟨m, hm, hkept, hstamp⟩ := h₂.kept_link (n := M.scripted t v s.births)
      (State.live_self_allocate hfree rfl) rfl _ (M.blank f t) hq
    rcases (State.live_allocate hfree rfl).mp hm with ⟨rfl, rfl⟩ | hm
    · refine .inr ⟨rfl, ⟨M.strings.utf8Value v ++ [0], ?_, hkept.type⟩, hstamp, rfl⟩
      simp only [Op.constructs, ha, JSValue.isString, StringConversions.utf8ValueOf, true_and, if_true]
    · exact .inl ⟨m, hm, ⟨hkept.typeInfo, hkept.type, hkept.wrapper⟩, hstamp⟩
  | nativeNew hfree =>
    rcases (State.live_allocate hfree rfl).mp hq with ⟨rfl, rfl⟩ | hq
    · exact .inr ⟨rfl, ⟨_, if_pos rfl, rfl⟩, rfl, rfl⟩
    · exact .inl ⟨m', hq, .of_cells rfl, rfl⟩
  | @wrapBare p context addr n ft templates hp hw ht hc hg =>
    have h₁ := (hi.coherent.setTemplates ht hg).newObject
      (Hierarchy.blank_field (M := M.toHierarchy) ⟨ft, s.context⟩ n.typeInfo)
    obtain ⟨m, hm, hkept, hstamp⟩ := h₁.kept_link hp hw _ (M.blank ⟨ft, s.context⟩ n.typeInfo) hq
    exact .inl ⟨m, hm, ⟨hkept.typeInfo, hkept.type, hkept.wrapper⟩, hstamp⟩
  | repaint hp hn hop => exact absurd ⟨_, _, hop, hp⟩ hpay
  | destroy hp =>
    obtain ⟨hq, hkept⟩ := hi.coherent.kept_remove hp .nativeCode hq
    exact .inl ⟨m', hq, hkept, rfl⟩
  | @collectWrapper o p n c ho hp hw hl =>
    obtain ⟨hq, hkept⟩ := hi.coherent.kept_remove hp .collector hq
    exact .inl ⟨m', hq, ⟨rfl, rfl, hkept.wrapper⟩, rfl⟩
  | _ => exact .inl ⟨m', hq, .of_cells rfl, rfl⟩

/-! ## The rest of a run -/

variable (M) in
/-- What the state `s'`, after `s` in a run, has of the objects and natives of `s`. -/
structure Continues (s s' : State ι) : Prop where
  inv : Inv M s'
  births : s.births ≤ s'.births
  nextObject : s.nextObject ≤ s'.nextObject
  object : ∀ o obj, s'.objects o = some obj → o < s.nextObject → s.objects o = some obj
  native : ∀ q m', s'.Live q m' → q.birth < s.births → ∃ m, s.Live q m ∧ Kept s s' m m'

namespace Continues

variable {s s' s'' : State ι}

theorem refl (hi : Inv M s) : Continues M s s :=
  ⟨hi, Nat.le_refl _, Nat.le_refl _, fun _ _ ho _ => ho, fun _ m' hq _ => ⟨m', hq, .of_cells rfl⟩⟩

theorem step (h : Continues M s s') {op : Op ι} (hs : M.system.step s' op s'') : Continues M s s'' := by
  have he := h.inv.step hs
  refine ⟨h.inv.effect he, h.births.trans he.births_le, h.nextObject.trans he.nextObject_le, fun o obj ho hlt => ?_,
    fun q m' hq hb => ?_⟩
  · rcases h.inv.object_cases hs ho with ho | ⟨hnew, -⟩
    · exact h.object o obj ho hlt
    · exact absurd (hnew ▸ hlt) (Nat.not_lt.mpr h.nextObject)
  · rcases h.inv.live_cases hs hq with ⟨m₁, hm₁, hkept₁, -⟩ | hmade
    · obtain ⟨m, hm, hkept⟩ := h.native q m₁ hm₁ hb
      exact ⟨m, hm, hkept.trans hkept₁⟩
    · exact absurd hb (hmade.birth ▸ Nat.not_lt.mpr h.births)

theorem path {tr : List (State ι × Op ι)} (hi : Inv M s) (h : M.system.Path s tr s') : Continues M s s' :=
  h.invariant (refl hi) fun _ _ _ hc hs => hc.step hs

/-- A native that was live, and is live still. -/
theorem kept (h : Continues M s s') (hi : Inv M s) {p : NativePtr} {n n' : Event ι} (hp : s.Live p n)
    (hp' : s'.Live p n') : Kept s s' n n' := by
  obtain ⟨m, hm, hkept⟩ := h.native p n' hp' (hi.coherent.births p n hp)
  cases hp.unique hm
  exact hkept

end Continues

end NativeObjects
