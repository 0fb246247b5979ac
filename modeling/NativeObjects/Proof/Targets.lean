import NativeObjects.Proof.Links

/-!
# Targets of events

The targets of an event are raw pointers, which no collection follows. Where
native code deletes nothing, events whose wrapper script reaches have targets
that are null or live, in every state of a run, exactly when no collection takes
a target of such an event, and script is given no wrapper of an event whose
targets are gone (`targets_live_iff`).
-/

namespace NativeObjects

open Lib (System)

variable {ι : Type} [Fintype ι] [DecidableEq ι] {M : Embedding ι}

/-- Both targets of `n` are null or live. -/
def State.TargetsLive (s : State ι) (n : Event ι) : Prop := s.NullOrLive n.target ∧ s.NullOrLive n.currentTarget

omit [Fintype ι] [DecidableEq ι] in
theorem State.nullOrLive_none (s : State ι) : s.NullOrLive none := fun _ hq => nomatch hq

omit [Fintype ι] [DecidableEq ι] in
theorem State.nullOrLive_some {s : State ι} {q : NativePtr} {n : Event ι} (hq : s.Live q n) :
    s.NullOrLive (some q) := by
  intro q' hq'
  cases hq'
  exact ⟨n, hq⟩

omit [Fintype ι] [DecidableEq ι] in
theorem State.nullOrLive_remove {s : State ι} {p : NativePtr} {n : Event ι} (hp : s.Live p n) (deleter : Deleter)
    {impl : Option NativePtr} : (s.remove deleter p n).NullOrLive impl ↔ s.NullOrLive impl ∧ impl ≠ some p := by
  constructor
  · intro h
    refine ⟨fun q hq => ?_, ?_⟩
    · obtain ⟨m, hm⟩ := h q hq
      exact ⟨m, ((State.live_remove hp deleter).mp hm).2⟩
    · rintro rfl
      obtain ⟨m, hm⟩ := h p rfl
      exact ((State.live_remove hp deleter).mp hm).1 rfl
  · rintro ⟨h, hne⟩ q hq
    obtain ⟨m, hm⟩ := h q hq
    exact ⟨m, (State.live_remove hp deleter).mpr ⟨fun hqp => hne (hqp ▸ hq), hm⟩⟩

/-- Every live event whose wrapper script reaches has targets that are null or live. -/
def ReachedTargetsLive (s : State ι) : Prop :=
  ∀ p n o, s.Live p n → Wrappable.getWrapper n s = some o → o ∈ s.reached → s.TargetsLive n

/-- A collection takes no target of an event whose wrapper script reaches, and an
operation that hands out the wrapper of an event hands it out while its targets
are null or live. -/
def SparesTargets (s : State ι) : Op ι → Prop
  | .wrap p _ _ => ∀ n, s.Live p n → s.TargetsLive n
  | .scriptCall _ _ f receiver _ _ => ∀ q m o, s.Reads f receiver q → s.native q = some m →
      Wrappable.getWrapper m s = some o → s.TargetsLive m
  | .collect o => ∀ p n, s.Live p n → Wrappable.getWrapper n s = some o →
      ∀ q m o', s.Live q m → Wrappable.getWrapper m s = some o' → o' ∈ s.reached →
        m.target ≠ some p ∧ m.currentTarget ≠ some p
  | _ => True

/-! ## By the objects that script reaches -/

/-- Every native that an object of `R` names has targets that are null or live. -/
def NamedTargetsLive (R : ObjectId → Prop) (s : State ι) : Prop :=
  ∀ o obj p n, R o → s.objects o = some obj → obj.fields[0]? = some (.native p) → s.Live p n → s.TargetsLive n

/-- The wrapper of a live native is the object that names it. -/
theorem Coherent.getWrapper_iff {s : State ι} (h : Coherent M s) {p : NativePtr} {n : Event ι} {o : ObjectId}
    (hp : s.Live p n) :
    Wrappable.getWrapper n s = some o ↔ ∃ obj, s.objects o = some obj ∧ obj.fields[0]? = some (.native p) := by
  constructor
  · intro hg
    obtain ⟨c, -, hl⟩ := h.linked_of_getWrapper hp hg
    obtain ⟨obj, ho, hf, -⟩ := hl.object
    exact ⟨obj, ho, hf⟩
  · rintro ⟨obj, ho, hf⟩
    obtain ⟨c, hw, hl⟩ := h.linked_of_field ho hf hp
    exact hl.getWrapper hw

theorem Coherent.reachedTargetsLive_iff {s : State ι} (h : Coherent M s) :
    ReachedTargetsLive s ↔ NamedTargetsLive (· ∈ s.reached) s := by
  constructor
  · intro ht o obj p n hr ho hf hp
    exact ht p n o hp ((h.getWrapper_iff hp).mpr ⟨obj, ho, hf⟩) hr
  · intro ht p n o hp hg hr
    obtain ⟨obj, ho, hf⟩ := (h.getWrapper_iff hp).mp hg
    exact ht o obj p n hr ho hf hp

namespace NamedTargetsLive

variable {s s' : State ι} {R : ObjectId → Prop}

omit [Fintype ι] [DecidableEq ι] in
/-- A step that keeps what `R` names, and the live natives, with targets that are
as they were, null or live. -/
theorem mono (h : NamedTargetsLive R s) (hobj : ∀ o, R o → s'.objects o = s.objects o)
    (hlive : ∀ q, s.IsLive q → s'.IsLive q)
    (hn : ∀ o obj p m, R o → s.objects o = some obj → obj.fields[0]? = some (.native p) → s'.Live p m →
      ∃ n, s.Live p n ∧ (m.target = n.target ∨ s.NullOrLive m.target) ∧
        (m.currentTarget = n.currentTarget ∨ s.NullOrLive m.currentTarget)) :
    NamedTargetsLive R s' := by
  intro o obj p m hR ho hf hm
  rw [hobj o hR] at ho
  obtain ⟨n, hp, ht, hct⟩ := hn o obj p m hR ho hf hm
  obtain ⟨hnt, hnct⟩ := h o obj p n hR ho hf hp
  refine ⟨fun q hq => hlive q ?_, fun q hq => hlive q ?_⟩
  · rcases ht with ht | ht
    · exact hnt q (ht.symm.trans hq)
    · exact ht q hq
  · rcases hct with hct | hct
    · exact hnct q (hct.symm.trans hq)
    · exact hct q hq

omit [Fintype ι] [DecidableEq ι] in
theorem cons_iff {o : ObjectId} {l : List ObjectId} :
    NamedTargetsLive (· ∈ o :: l) s ↔ NamedTargetsLive (· = o) s ∧ NamedTargetsLive (· ∈ l) s := by
  constructor
  · intro h
    exact ⟨fun o' obj p n ho' => h o' obj p n (ho' ▸ List.mem_cons_self),
      fun o' obj p n ho' => h o' obj p n (List.mem_cons_of_mem _ ho')⟩
  · rintro ⟨h₁, h₂⟩ o' obj p n ho'
    exact (List.mem_cons.mp ho').elim (h₁ o' obj p n) (h₂ o' obj p n)

omit [DecidableEq ι] in
/-- An object that is linked with a native names that native only. -/
theorem eq_iff {p : NativePtr} {n : Event ι} {c : CellId} {o : ObjectId} (hp : s.Live p n) (hl : Linked M s p n c o) :
    NamedTargetsLive (· = o) s ↔ s.TargetsLive n := by
  obtain ⟨obj, ho, hf, -⟩ := hl.object
  constructor
  · exact fun h => h o obj p n rfl ho hf hp
  · rintro hn o' obj' q m rfl ho' hf' hq
    cases ho.symm.trans ho'
    cases hf.symm.trans hf'
    cases hp.unique hq
    exact hn

end NamedTargetsLive

omit [Fintype ι] [DecidableEq ι] in
theorem State.Reads.unique {s : State ι} {f : FunctionValue ι TemplateId} {receiver : ObjectId} {q q' : NativePtr}
    (h : s.Reads f receiver q) (h' : s.Reads f receiver q') : q = q' := by
  obtain ⟨obj, p, n, ho, -, hf, hn, hq⟩ := h
  obtain ⟨obj', p', n', ho', -, hf', hn', hq'⟩ := h'
  cases ho.symm.trans ho'
  cases hf.symm.trans hf'
  cases hn.symm.trans hn'
  rcases hq with ⟨hc, hq⟩ | ⟨hc, hq⟩ <;> rcases hq' with ⟨hc', hq'⟩ | ⟨hc', hq'⟩
  · exact Option.some.inj (hq.symm.trans hq')
  · exact absurd (hc.symm.trans hc') (by simp)
  · exact absurd (hc.symm.trans hc') (by simp)
  · exact Option.some.inj (hq.symm.trans hq')

theorem Inv.ne_nextObject {s : State ι} (h : Inv M s) {o : ObjectId} (ho : o ∈ s.reached) : o ≠ s.nextObject :=
  Nat.ne_of_lt (h.returned o (h.reached o ho).1).1

/-- What an object names was made before. -/
theorem Coherent.ne_of_field {s : State ι} (h : Coherent M s) {o : ObjectId} {obj : JSObject ι} {p : NativePtr}
    (ho : s.objects o = some obj) (hf : obj.fields[0]? = some (.native p)) (addr : Addr) : p ≠ ⟨addr, s.births⟩ := by
  rintro rfl
  exact absurd ((h.objects o obj ho).2 _ hf).1 (lt_irrefl _)

namespace NamedTargetsLive

variable {s : State ι}

/-- Wrapping a native hands out an event whose targets are those of the native. -/
theorem wrap_iff (h : NamedTargetsLive (· ∈ s.reached) s) (hi : Inv M s) {p : NativePtr} {n : Event ι}
    {ft : TemplateId} {templates : Templates ι} (hp : s.Live p n)
    (hc : templates.cached (M.family.name n.typeInfo) = some ft) (context : ContextId) (addr : Addr) :
    NamedTargetsLive (· ∈ s.nextObject :: s.reached)
        (((s.setTemplates templates).newObject (M.blank ⟨ft, s.context⟩ n.typeInfo)).2.link M.info p n n.typeInfo
          s.nextObject (M.blank ⟨ft, s.context⟩ n.typeInfo)) ↔
      SparesTargets s (.wrap p context addr) := by
  have hl := linked_wrap M s p hc
  set n' : Event ι := { n with wrapper := some s.nextCell }
  set s' := ((s.setTemplates templates).newObject (M.blank ⟨ft, s.context⟩ n.typeInfo)).2.link M.info p n n.typeInfo
    s.nextObject (M.blank ⟨ft, s.context⟩ n.typeInfo)
  have hlive : ∀ {q m}, s'.Live q m ↔ q = p ∧ m = n' ∨ q ≠ p ∧ s.Live q m := State.live_replace n' hp rfl rfl
  have hiff : ∀ q, s'.IsLive q ↔ s.IsLive q := fun q => State.isLive_replace n' hp rfl rfl
  have hself := NamedTargetsLive.eq_iff (hlive.mpr (.inl ⟨rfl, rfl⟩)) hl
  refine (NamedTargetsLive.cons_iff.trans (and_congr_left' hself)).trans ?_
  constructor
  · rintro ⟨⟨hn, hnc⟩, -⟩ m hm
    cases hp.unique hm
    exact ⟨fun q hq => (hiff q).mp (hn q hq), fun q hq => (hiff q).mp (hnc q hq)⟩
  · intro hs
    obtain ⟨hn, hnc⟩ := hs n hp
    refine ⟨⟨fun q hq => (hiff q).mpr (hn q hq), fun q hq => (hiff q).mpr (hnc q hq)⟩,
      h.mono (fun o ho => ?_) (fun q => (hiff q).mpr) ?_⟩
    · exact (Function.update_of_ne (hi.ne_nextObject ho) ..).trans (Function.update_of_ne (hi.ne_nextObject ho) ..)
    · intro o obj q m _ ho hfo hm
      rcases hlive.mp hm with ⟨rfl, heq⟩ | ⟨-, hm⟩
      · cases heq
        exact ⟨n, hp, .inl rfl, .inl rfl⟩
      · exact ⟨m, hm, .inl rfl, .inl rfl⟩

/-- The collector deletes a native with its wrapper. -/
theorem collect_iff (h : NamedTargetsLive (· ∈ s.reached) s) (hi : Inv M s) {o : ObjectId} {p : NativePtr}
    {n : Event ι} {c : CellId} (hcol : s.Collectable o) (hp : s.Live p n) (hw : n.wrapper = some c)
    (hl : Linked M s p n c o) :
    NamedTargetsLive (· ∈ s.reached) ((s.discard o).remove .collector p n) ↔ SparesTargets s (.collect o) := by
  have hdis : (s.discard o).Live p n := hp
  have hlive : ∀ {q m}, ((s.discard o).remove .collector p n).Live q m ↔ q ≠ p ∧ s.Live q m :=
    State.live_remove hdis .collector
  have hobj : ∀ {o'}, o' ∈ s.reached → ((s.discard o).remove .collector p n).objects o' = s.objects o' := by
    intro o' ho'
    have hoo : o' ≠ o := fun hoo => hcol.2.1 (hoo ▸ ho')
    exact Function.update_of_ne hoo ..
  constructor
  · intro h' p' n' hp' hg q m o' hq hg' hr
    obtain ⟨obj', ho', hf'⟩ := (hi.coherent.getWrapper_iff hp').mp hg
    obtain ⟨obj, ho, hf₀, -⟩ := hl.object
    cases ho.symm.trans ho'
    cases hf₀.symm.trans hf'
    obtain ⟨obj₂, ho₂, hf₂⟩ := (hi.coherent.getWrapper_iff hq).mp hg'
    have hqp : q ≠ p := by
      rintro rfl
      cases hp.unique hq
      cases (hl.getWrapper hw).symm.trans hg'
      exact hcol.2.1 hr
    obtain ⟨ht, hct⟩ := h' o' obj₂ q m hr ((hobj hr).trans ho₂) hf₂ (hlive.mpr ⟨hqp, hq⟩)
    exact ⟨((State.nullOrLive_remove hdis .collector).mp ht).2, ((State.nullOrLive_remove hdis .collector).mp hct).2⟩
  · intro hs o' obj q m hr ho' hf' hm
    obtain ⟨hqp, hm⟩ := hlive.mp hm
    have ho₁ := (hobj hr).symm.trans ho'
    obtain ⟨ht, hct⟩ := h o' obj q m hr ho₁ hf' hm
    obtain ⟨hnt, hnct⟩ := hs p n hp (hl.getWrapper hw) q m o' hm
      ((hi.coherent.getWrapper_iff hm).mpr ⟨obj, ho₁, hf'⟩) hr
    exact ⟨(State.nullOrLive_remove hdis .collector).mpr ⟨ht, hnt⟩,
      (State.nullOrLive_remove hdis .collector).mpr ⟨hct, hnct⟩⟩

end NamedTargetsLive

/-- A step from a state in which the targets are live leads to such a state
exactly when it spares the targets. -/
theorem Effect.namedTargetsLive_iff {s s' : State ι} {op : Op ι} (hi : Inv M s)
    (h : NamedTargetsLive (· ∈ s.reached) s) (he : Effect M s op s') (hop : op.Spares) :
    NamedTargetsLive (· ∈ s'.reached) s' ↔ SparesTargets s op := by
  cases he with
  | interfaceTemplate => exact iff_of_true h trivial
  | newRejected =>
    refine iff_of_true (h.mono (fun o ho => Function.update_of_ne (hi.ne_nextObject ho) ..) (fun _ => id) ?_) trivial
    exact fun _ _ _ m _ _ _ hm => ⟨m, hm, .inl rfl, .inl rfl⟩
  | @newAccepted f args addr t v ht hfree ha =>
    have hlive : ∀ {q m}, ((s.newObject (M.blank f t)).2.allocate ⟨addr, s.births⟩
        (M.scripted t v s.births)).Live q m ↔ q = ⟨addr, s.births⟩ ∧ m = M.scripted t v s.births ∨ s.Live q m :=
      State.live_allocate hfree rfl
    have hp := hlive.mpr (.inl ⟨rfl, rfl⟩)
    have hl := linked_new M s addr v ht
    set n' : Event ι := { M.scripted t v s.births with wrapper := some s.nextCell }
    refine iff_of_true (NamedTargetsLive.cons_iff.mpr ⟨?_, h.mono (fun o ho => ?_) (fun q hq => ?_) ?_⟩) trivial
    · refine (NamedTargetsLive.eq_iff ⟨Function.update_self .., rfl⟩ (hl.mono rfl rfl fun _ _ => id)).mpr ?_
      exact ⟨State.nullOrLive_none _, State.nullOrLive_none _⟩
    · exact (Function.update_of_ne (hi.ne_nextObject ho) ..).trans (Function.update_of_ne (hi.ne_nextObject ho) ..)
    · obtain ⟨m, hm⟩ := hq
      exact (State.isLive_replace n' hp rfl rfl).mpr ⟨m, hlive.mpr (.inr hm)⟩
    · intro o obj p m _ ho hfo hm
      rcases (State.live_replace n' hp rfl rfl).mp hm with ⟨rfl, -⟩ | ⟨-, hm⟩
      · exact absurd rfl (hi.coherent.ne_of_field ho hfo addr)
      · exact ⟨m, (hlive.mp hm).resolve_left fun hpm => hi.coherent.ne_of_field ho hfo addr hpm.1, .inl rfl, .inl rfl⟩
  | callNothing hr =>
    refine iff_of_true h fun q m o hq hm ho => ?_
    exact absurd ((hr q m hq hm).symm.trans ho) (by simp)
  | @callReach ft place f receiver args addr q m o hq hm ho =>
    obtain ⟨c, -, hl⟩ := hi.coherent.linked_of_getWrapper (State.live_of_native hm) ho
    have hp : (s.reach o).Live ⟨q.addr, m.birth⟩ m := State.live_of_native hm
    show NamedTargetsLive (· ∈ o :: s.reached) (s.reach o) ↔ _
    rw [NamedTargetsLive.cons_iff, NamedTargetsLive.eq_iff hp (hl.mono rfl rfl fun _ _ => id)]
    constructor
    · rintro ⟨hm', -⟩ q' m' o' hq' hm₁ -
      cases hq.unique hq'
      cases hm.symm.trans hm₁
      exact hm'
    · exact fun hs => ⟨hs q m o hq hm ho, h⟩
  | drop => exact iff_of_true (fun o obj p n ho => h o obj p n (List.mem_of_mem_filter ho)) trivial
  | @nativeNew t event addr hfree =>
    have hlive : ∀ {q m}, (s.allocate ⟨addr, s.births⟩ (Event.fresh t event s.births)).Live q m ↔ _ :=
      State.live_allocate hfree rfl
    refine iff_of_true (h.mono (fun _ _ => rfl) (fun q ⟨m, hm⟩ => ⟨m, hlive.mpr (.inr hm)⟩) ?_) trivial
    intro o obj p m _ ho hfo hm
    exact ⟨m, (hlive.mp hm).resolve_left fun hpm => hi.coherent.ne_of_field ho hfo addr hpm.1, .inl rfl, .inl rfl⟩
  | @wrapAgain p context addr n c o hp hl hw =>
    show NamedTargetsLive (· ∈ o :: s.reached) (s.giveWrapper o) ↔ _
    rw [NamedTargetsLive.cons_iff, NamedTargetsLive.eq_iff (show (s.giveWrapper o).Live p n from hp)
      (hl.mono rfl rfl fun _ _ => id)]
    constructor
    · rintro ⟨hn, -⟩ n' hp'
      cases hp.unique hp'
      exact hn
    · exact fun hs => ⟨hs n hp, h⟩
  | wrapBare hp hw ht hc hg => exact h.wrap_iff hi hp hc _ _
  | @repaint op p n n' hp hn hpay =>
    have hs : SparesTargets s op := by
      cases op <;> first | exact trivial | exact hpay.elim
    have hlive : ∀ {q m}, (s.setNative p n').Live q m ↔ q = p ∧ m = n' ∨ q ≠ p ∧ s.Live q m :=
      State.live_replace n' hp hn.birth rfl
    refine iff_of_true (h.mono (fun _ _ => rfl) (fun q => (State.isLive_replace n' hp hn.birth rfl).mpr) ?_) hs
    intro o obj q m _ ho hfo hm
    rcases hlive.mp hm with ⟨rfl, heq⟩ | ⟨-, hm⟩
    · cases heq
      exact ⟨n, hp, hn.target, hn.currentTarget⟩
    · exact ⟨m, hm, .inl rfl, .inl rfl⟩
  | destroy => exact hop.elim
  | @collectOrphan o hcol hc =>
    refine iff_of_true (h.mono (fun o' ho' => ?_) (fun _ => id) ?_) fun p n hp hg => ?_
    · have hoo : o' ≠ o := fun hoo => hcol.2.1 (hoo ▸ ho')
      exact Function.update_of_ne hoo ..
    · exact fun _ _ _ m _ _ _ hm => ⟨m, hm, .inl rfl, .inl rfl⟩
    · obtain ⟨c, hw, hg⟩ := Option.bind_eq_some_iff.mp hg
      obtain ⟨cell, hcell, ho⟩ := Option.map_eq_some_iff.mp hg
      exact absurd ho (hc c cell hcell)
  | collectWrapper hcol hp hw hl => exact h.collect_iff hi hcol hp hw hl
  | enterContext => exact iff_of_true h trivial
  | setTerminating => exact iff_of_true h trivial

/-- A getter of a target that script calls reads a live target. -/
theorem ReachedTargetsLive.reads {s : State ι} (h : ReachedTargetsLive s) (hi : Inv M s)
    (hf : FieldsLive (fun _ => True) s) {f : FunctionValue ι TemplateId} {receiver : ObjectId} {q : NativePtr}
    (hr : receiver ∈ s.reached) (hq : s.Reads f receiver q) : s.IsLive q := by
  obtain ⟨obj, p, n, ho, -, hfo, hn, hq⟩ := hq
  obtain ⟨m, hm⟩ := hf receiver obj p trivial ho hfo
  cases hn.symm.trans hm.1
  obtain ⟨ht, hct⟩ := h p n receiver hm ((hi.coherent.getWrapper_iff hm).mpr ⟨obj, ho, hfo⟩) hr
  rcases hq with ⟨-, hq⟩ | ⟨-, hq⟩
  · exact ht q hq
  · exact hct q hq

/-- In a run without a `delete`, the events whose wrapper script reaches have live
targets in every state exactly when every step spares the targets; the getters of
the targets then read live natives only. -/
theorem targets_live_iff {tr : List (State ι × Op ι)} {s : State ι} (h : M.system.Run tr s)
    (hop : ∀ x ∈ tr, x.2.Spares) :
    ((∀ t ∈ System.visited tr s, ReachedTargetsLive t) ↔ ∀ x ∈ tr, SparesTargets x.1 x.2) ∧
      ∀ t ∈ System.visited tr s, ReachedTargetsLive t →
        ∀ f receiver q, receiver ∈ t.reached → t.Reads f receiver q → t.IsLive q := by
  constructor
  · refine (h.restrict hop).forall_visited_iff (I := Inv M) ?_ (fun s op s' hi _ _ hs => hi.effect (hi.step hs.2))
      fun s op s' hi ht hs => ?_
    · rintro s ⟨isolate, context, rfl⟩
      exact ⟨.initial isolate context, fun _ _ _ hp => nomatch hp.1⟩
    · have he := hi.step hs.2
      rw [(hi.effect he).coherent.reachedTargetsLive_iff]
      exact he.namedTargetsLive_iff hi (hi.coherent.reachedTargetsLive_iff.mp ht) hs.1
  · intro t ht hl f receiver q hr hq
    obtain ⟨tr', hrun, hsub⟩ := h.of_visited ht
    obtain ⟨hi, hf⟩ := FieldsLive.run hrun fun x hx => hop x (hsub x hx)
    exact hl.reads hi hf hr hq

/-- An event gets a target that script keeps. -/
theorem targets_live_iff_event : ∃ tr s, (V8Event.embedding .standard).system.Run tr s ∧
    s.reached = [1, 0] ∧ (s.natives 0).map Event.target = some (some ⟨1, 1⟩) ∧
    ∀ t ∈ System.visited tr s, ReachedTargetsLive t := by
  have h₀ : (V8Event.embedding .standard).system.Run [] (.initial 0 0) := .start ⟨0, 0, rfl⟩
  have h₁ := Hierarchy.run_next (.interfaceTemplate .event) h₀ trivial (by decide)
  have h₂ := Hierarchy.run_next (.scriptNew ⟨0, 0⟩ [.string ⟨[97], by decide⟩] 0) h₁ ⟨⟨"Event", by decide⟩, rfl⟩
    (by decide)
  have h₃ := Hierarchy.run_next (.scriptNew ⟨0, 0⟩ [.string ⟨[98], by decide⟩] 1) h₂ ⟨⟨"Event", by decide⟩, rfl⟩
    (by decide)
  have h₄ := Hierarchy.run_next (.setTarget ⟨0, 0⟩ (some ⟨1, 1⟩)) h₃
    ⟨⟨_, rfl, rfl⟩, State.nullOrLive_some ⟨rfl, rfl⟩⟩ (by decide)
  exact ⟨_, _, h₄, by decide, by decide, (targets_live_iff h₄ (by simp [Op.Spares])).1.mpr (by simp [SparesTargets])⟩

/-- The wrapper of an event's target is dropped and collected while script
reaches the event's: the target getter then uses a pointer to storage that was
given back. -/
theorem not_reachedTargetsLive_event : ∃ tr s, (V8Event.embedding .standard).system.Run tr s ∧
    (∀ x ∈ tr, x.2.Spares) ∧ ¬ ReachedTargetsLive s ∧
    0 ∈ s.reached ∧ V8EventInternal.targetGetter 0 s = none := by
  have h₀ : (V8Event.embedding .standard).system.Run [] (.initial 0 0) := .start ⟨0, 0, rfl⟩
  have h₁ := Hierarchy.run_next (.interfaceTemplate .event) h₀ trivial (by decide)
  have h₂ := Hierarchy.run_next (.scriptNew ⟨0, 0⟩ [.string ⟨[97], by decide⟩] 0) h₁ ⟨⟨"Event", by decide⟩, rfl⟩
    (by decide)
  have h₃ := Hierarchy.run_next (.scriptNew ⟨0, 0⟩ [.string ⟨[98], by decide⟩] 1) h₂ ⟨⟨"Event", by decide⟩, rfl⟩
    (by decide)
  have h₄ := Hierarchy.run_next (.setTarget ⟨0, 0⟩ (some ⟨1, 1⟩)) h₃
    ⟨⟨_, rfl, rfl⟩, State.nullOrLive_some ⟨rfl, rfl⟩⟩ (by decide)
  have h₅ := Hierarchy.run_next (.drop 1) h₄ (show 1 ∈ _ by decide) (by decide)
  have h₆ := Hierarchy.run_next (.collect 1) h₅ ((Inv.run h₅).collectable (by decide) (by decide)) (by decide)
  refine ⟨_, _, h₆, by simp [Op.Spares], fun hl => ?_, by decide, by decide⟩
  obtain ⟨ht, -⟩ := hl ⟨0, 0⟩ _ 0 ⟨rfl, rfl⟩ rfl (by decide)
  obtain ⟨n, hn, -⟩ := ht ⟨1, 1⟩ rfl
  exact absurd (hn.symm.trans (show _ = none from rfl)) (by simp)

end NativeObjects
