import Mathlib.Data.Set.Function
import NativeObjects.Proof.Invariant

/-!
# The links between wrappers and natives

While native code deletes nothing, every object that names a native names a live
one (`FieldsLive.run`), so that live natives with a wrapper and wrappers that
were handed out correspond (`links_reciprocal`). `delete` undoes one half of a
link only: wrappers keep naming live natives exactly as long as no native with a
wrapper that script reaches is deleted (`reached_live_iff`).
-/

namespace NativeObjects

open Lib (System)

variable {ι : Type} [Fintype ι] [DecidableEq ι] {M : Embedding ι}

/-- The operation is no `delete`. -/
def Op.Spares : Op ι → Prop
  | .destroy _ => False
  | _ => True

/-- Every object of `R` that names a native names a live one. -/
def FieldsLive (R : ObjectId → Prop) (s : State ι) : Prop :=
  ∀ o obj p, R o → s.objects o = some obj → obj.fields[0]? = some (.native p) → s.IsLive p

namespace FieldsLive

variable {s : State ι} {R : ObjectId → Prop}

omit [Fintype ι] [DecidableEq ι] in
theorem newObject (h : FieldsLive R s) {obj : JSObject ι} (hobj : ∀ p, obj.fields[0]? ≠ some (.native p)) :
    FieldsLive R (s.newObject obj).2 := by
  intro o obj' p hR ho hf
  by_cases hnew : o = s.nextObject
  · subst hnew
    cases (Function.update_self ..).symm.trans ho
    exact absurd hf (hobj p)
  · exact h o obj' p hR ((Function.update_of_ne hnew ..).symm.trans ho) hf

omit [Fintype ι] [DecidableEq ι] in
theorem allocate (h : FieldsLive R s) {p : NativePtr} {ev : Event ι} (hfree : s.natives p.addr = none)
    (hb : ev.birth = p.birth) : FieldsLive R (s.allocate p ev) := by
  intro o obj q hR ho hf
  obtain ⟨m, hm⟩ := h o obj q hR ho hf
  exact ⟨m, (State.live_allocate hfree hb).mpr (.inr hm)⟩

variable (M) in
omit [DecidableEq ι] in
theorem link (h : FieldsLive R s) {p : NativePtr} {n : Event ι} {o : ObjectId} {obj : JSObject ι} (hp : s.Live p n)
    (hl : 2 ≤ obj.fields.length) : FieldsLive R (s.link M.info p n n.typeInfo o obj) := by
  have hlive : ∀ q, s.IsLive q → (s.link M.info p n n.typeInfo o obj).IsLive q :=
    fun q => (State.isLive_replace { n with wrapper := some s.nextCell } hp rfl rfl).mpr
  intro o' obj' q hR ho hf
  by_cases hoo : o' = o
  · subst hoo
    cases (Function.update_self ..).symm.trans ho
    rw [List.getElem?_set_ne (by decide), List.getElem?_set_self (by omega)] at hf
    cases hf
    exact hlive p ⟨n, hp⟩
  · exact hlive q (h o' obj' q hR ((Function.update_of_ne hoo ..).symm.trans ho) hf)

omit [Fintype ι] [DecidableEq ι] in
theorem discard (h : FieldsLive R s) (o : ObjectId) : FieldsLive R (s.discard o) := by
  intro o' obj p hR ho hf
  by_cases hoo : o' = o
  · subst hoo
    exact absurd ((Function.update_self ..).symm.trans ho) (by simp)
  · exact h o' obj p hR ((Function.update_of_ne hoo ..).symm.trans ho) hf

/-- Deleting a native together with its wrapper. -/
theorem remove (h : FieldsLive R s) (hc : Coherent M s) {p : NativePtr} {n : Event ι} {c : CellId} {o : ObjectId}
    (hp : s.Live p n) (hw : n.wrapper = some c) (hl : Linked M s p n c o) (deleter : Deleter) :
    FieldsLive R ((s.discard o).remove deleter p n) := by
  intro o' obj q hR ho hf
  have hoo : o' ≠ o := by
    rintro rfl
    exact absurd ((Function.update_self ..).symm.trans ho) (by simp)
  have ho' : s.objects o' = some obj := (Function.update_of_ne hoo ..).symm.trans ho
  obtain ⟨m, hm⟩ := h o' obj q hR ho' hf
  refine ⟨m, (State.live_remove (show (s.discard o).Live p n from hp) deleter).mpr ⟨?_, hm⟩⟩
  rintro rfl
  -- no other object names the native
  obtain ⟨d, hw', hl'⟩ := ((hc.objects o' obj ho').2 q hf).2 n hp
  cases hw.symm.trans hw'
  exact hoo (congrArg Cell.object (Option.some.inj (hl'.cell.symm.trans hl.cell)))

theorem effect {s' : State ι} {op : Op ι} (h : FieldsLive R s) (hi : Inv M s) (he : Effect M s op s')
    (hop : op.Spares) : FieldsLive R s' := by
  cases he with
  | interfaceTemplate => exact h
  | newRejected => exact h.newObject (Hierarchy.blank_field _ _)
  | @newAccepted f args addr t v ht hfree ha =>
    have h₁ : FieldsLive R ((s.newObject (M.blank f t)).2.allocate ⟨addr, s.births⟩ (M.scripted t v s.births)) :=
      (h.newObject (Hierarchy.blank_field (M := M.toHierarchy) f t)).allocate hfree rfl
    exact h₁.link M (State.live_self_allocate hfree rfl) (M.two_le_length_blank f t)
  | callNothing => exact h
  | callReach => exact h
  | drop => exact h
  | nativeNew hfree => exact h.allocate hfree rfl
  | wrapAgain => exact h
  | @wrapBare p context addr n ft templates hp hw hi ht hc =>
    have h₁ : FieldsLive R ((s.setTemplates templates).newObject (M.blank ⟨ft, s.context⟩ n.typeInfo)).2 :=
      newObject h (Hierarchy.blank_field _ _)
    exact h₁.link M hp (M.two_le_length_blank _ _)
  | repaint hp hn => exact fun o obj q hR ho hf => (State.isLive_replace _ hp hn.birth rfl).mpr (h o obj q hR ho hf)
  | destroy => exact hop.elim
  | @collectOrphan o => exact h.discard o
  | collectWrapper ho hp hw hl => exact h.remove hi.coherent hp hw hl .collector
  | enterContext => exact h
  | setTerminating => exact h

/-- Without a `delete`, every object that names a native names a live one. -/
theorem run {tr : List (State ι × Op ι)} {s : State ι} (h : M.system.Run tr s) (hop : ∀ x ∈ tr, x.2.Spares) :
    Inv M s ∧ FieldsLive (fun _ => True) s := by
  refine h.invariant (fun _ op => op.Spares) hop ?_
    fun s op s' (hs : Inv M s ∧ FieldsLive (fun _ => True) s) hop he =>
      ⟨hs.1.effect (hs.1.step he), hs.2.effect hs.1 (hs.1.step he) hop⟩
  rintro s ⟨isolate, context, rfl⟩
  exact ⟨.initial isolate context, fun _ _ _ _ ho => nomatch ho⟩

end FieldsLive

/-! ## The links go both ways -/

/-- Script reaches wrappers of live natives only, natives have wrappers that name
them, and the two correspond. -/
structure Reciprocal (s : State ι) : Prop where
  /-- A wrapper names a live native and its class, and the native's handle refers to it. -/
  wrapper : ∀ o ∈ s.reached, ∃ obj p n, s.objects o = some obj ∧ obj.fields[0]? = some (.native p) ∧ s.Live p n ∧
    obj.fields[1]? = some (.typeInfo n.typeInfo) ∧ Wrappable.getWrapper n s = some o
  /-- The handle of a native refers to an uncollected object that names the native. -/
  native : ∀ p n, s.Live p n → Wrappable.containsWrapper n = true → ∃ o obj,
    Wrappable.getWrapper n s = some o ∧ s.objects o = some obj ∧ obj.fields[0]? = some (.native p)
  /-- The live natives with a wrapper correspond to the uncollected objects that
  an accepted `new` or a `Wrap` returned. -/
  bijection : ∃ f, Set.BijOn f {p | ∃ n, s.Live p n ∧ Wrappable.containsWrapper n = true}
      {o | o ∈ s.history.returned ∧ ∃ obj, s.objects o = some obj} ∧
    ∀ p n, s.Live p n → Wrappable.containsWrapper n = true → Wrappable.getWrapper n s = some (f p)
  /-- A weak registration is that of the handle of its parameter, which is live. -/
  registration : ∀ c cell, s.cells c = some cell → ∃ p n, cell.weak = some p ∧ s.Live p n ∧ n.wrapper = some c
  mode : s.mode = .kCreateNewObject

omit [DecidableEq ι] in
theorem Linked.getWrapper {s : State ι} {p : NativePtr} {n : Event ι} {c : CellId} {o : ObjectId}
    (h : Linked M s p n c o) (hw : n.wrapper = some c) : Wrappable.getWrapper n s = some o := by
  rw [Wrappable.getWrapper, hw, Option.bind_some, h.cell, Option.map_some]

/-- The object that names a live native is its wrapper. -/
theorem Coherent.linked_of_field {s : State ι} (h : Coherent M s) {o : ObjectId} {obj : JSObject ι} {p : NativePtr}
    {n : Event ι} (ho : s.objects o = some obj) (hf : obj.fields[0]? = some (.native p)) (hp : s.Live p n) :
    ∃ c, n.wrapper = some c ∧ Linked M s p n c o :=
  ((h.objects o obj ho).2 p hf).2 n hp

/-- Without a `delete` by native code, the links between wrappers and natives go
both ways in every state that a program reaches. -/
theorem links_reciprocal {tr : List (State ι × Op ι)} {s : State ι} (h : M.system.Run tr s)
    (hop : ∀ x ∈ tr, x.2.Spares) : Reciprocal s := by
  obtain ⟨hi, hf⟩ := FieldsLive.run h hop
  have hwrapped : ∀ p n, s.Live p n → Wrappable.containsWrapper n = true →
      ∃ c o, n.wrapper = some c ∧ Linked M s p n c o := by
    intro p n hp hw
    obtain ⟨c, hc⟩ := Option.isSome_iff_exists.mp hw
    obtain ⟨o, hl⟩ := hi.coherent.linked p n c hp hc
    exact ⟨c, o, hc, hl⟩
  have hreturned : ∀ o obj, o ∈ s.history.returned → s.objects o = some obj →
      ∃ p n c, obj.fields[0]? = some (.native p) ∧ s.Live p n ∧ n.wrapper = some c ∧ Linked M s p n c o := by
    intro o obj hr ho
    obtain ⟨p, hp⟩ := (hi.returned o hr).2 obj ho
    obtain ⟨n, hn⟩ := hf o obj p trivial ho hp
    obtain ⟨c, hw, hl⟩ := hi.coherent.linked_of_field ho hp hn
    exact ⟨p, n, c, hp, hn, hw, hl⟩
  constructor
  case wrapper =>
    intro o hr
    obtain ⟨hret, obj, ho⟩ := hi.reached o hr
    obtain ⟨p, n, c, hp, hn, hw, hl⟩ := hreturned o obj hret ho
    obtain ⟨obj', ho', -, hf₁, -⟩ := hl.object
    cases ho.symm.trans ho'
    exact ⟨obj, p, n, ho, hp, hn, hf₁, hl.getWrapper hw⟩
  case native =>
    intro p n hp hw
    obtain ⟨c, o, hc, hl⟩ := hwrapped p n hp hw
    obtain ⟨obj, ho, hf₀, -⟩ := hl.object
    exact ⟨o, obj, hl.getWrapper hc, ho, hf₀⟩
  case bijection =>
    set f : NativePtr → ObjectId := fun p => ((s.native p).bind fun n => Wrappable.getWrapper n s).getD 0
    have hfun : ∀ {p n c o}, s.Live p n → n.wrapper = some c → Linked M s p n c o → f p = o := by
      intro p n c o hp hw hl
      show ((s.native p).bind _).getD 0 = o
      rw [hp.native, Option.bind_some, hl.getWrapper hw, Option.getD_some]
    refine ⟨f, ⟨?_, ?_, ?_⟩, ?_⟩
    · rintro p ⟨n, hp, hw⟩
      obtain ⟨c, o, hc, hl⟩ := hwrapped p n hp hw
      obtain ⟨obj, ho, -⟩ := hl.object
      rw [hfun hp hc hl]
      exact ⟨hi.handed c _ hl.cell, obj, ho⟩
    · rintro p ⟨n, hp, hw⟩ q ⟨m, hq, hw'⟩ heq
      obtain ⟨c, o, hc, hl⟩ := hwrapped p n hp hw
      obtain ⟨d, o', hd, hl'⟩ := hwrapped q m hq hw'
      rw [hfun hp hc hl, hfun hq hd hl'] at heq
      subst heq
      exact hl.unique hl'
    · rintro o ⟨hr, obj, ho⟩
      obtain ⟨p, n, c, -, hn, hw, hl⟩ := hreturned o obj hr ho
      exact ⟨p, ⟨n, hn, Option.isSome_iff_exists.mpr ⟨c, hw⟩⟩, hfun hn hw hl⟩
    · intro p n hp hw
      obtain ⟨c, o, hc, hl⟩ := hwrapped p n hp hw
      rw [hl.getWrapper hc, hfun hp hc hl]
  case registration =>
    intro c cell hc
    obtain ⟨-, p, n, hp, hw⟩ := hi.coherent.cells c cell hc
    have hl := hi.coherent.linked_of_cell hp hw hc
    exact ⟨p, n, congrArg Cell.weak (Option.some.inj (hc.symm.trans hl.cell)), hp, hw⟩
  case mode => exact hi.mode

/-- An event is made, dropped and collected, and one made by native code at the
same address is wrapped. -/
theorem links_reciprocal_event :
    ∃ tr s, (V8Event.embedding .standard).system.Run tr s ∧ s.reached = [1] ∧ Reciprocal s := by
  have h₀ : (V8Event.embedding .standard).system.Run [] (.initial 0 0) := .start ⟨0, 0, rfl⟩
  have h₁ := Hierarchy.run_next (.interfaceTemplate .event) h₀ trivial (by decide)
  have h₂ := Hierarchy.run_next (.scriptNew ⟨0, 0⟩ [.string ⟨[97], by decide⟩] 0) h₁ ⟨⟨"Event", by decide⟩, rfl⟩
    (by decide)
  have h₃ := Hierarchy.run_next (.drop 0) h₂ (show 0 ∈ _ by decide) (by decide)
  have h₄ := Hierarchy.run_next (.collect 0) h₃ ((Inv.run h₃).collectable (by decide) (by decide)) (by decide)
  have h₅ := Hierarchy.run_next (.nativeNew .event [98] 0) h₄ ⟨by decide, rfl⟩ (by decide)
  have h₆ := Hierarchy.run_next (.wrap ⟨0, 1⟩ 0 1) h₅ ⟨⟨_, rfl, rfl⟩, rfl⟩ (by decide)
  exact ⟨_, _, h₆, by decide, links_reciprocal h₆ (by simp [Op.Spares])⟩

/-! ## Deleting natives -/

/-- Every object that script reaches has a pointer in its field 0 that is null or
points to a live native. -/
def ReachedLive (s : State ι) : Prop := ∀ o ∈ s.reached, ∃ impl, Config.toImpl o s = some impl ∧ s.NullOrLive impl

/-- A `delete` is of a native whose wrapper, if it has one, script does not reach. -/
def SparesReached (s : State ι) : Op ι → Prop
  | .destroy p => ∀ n o, s.Live p n → Wrappable.getWrapper n s = some o → o ∉ s.reached
  | _ => True

omit [Fintype ι] [DecidableEq ι] in
theorem sparesReached_of_bare {s : State ι} {p : NativePtr} {n : Event ι} (hp : s.Live p n) (hw : n.wrapper = none) :
    SparesReached s (.destroy p) := by
  intro m o hm ho
  cases hp.unique hm
  rw [Wrappable.getWrapper, hw] at ho
  exact absurd ho (by simp)

/-- What script reaches names a native. -/
theorem Inv.reached_field {s : State ι} (h : Inv M s) {o : ObjectId} (ho : o ∈ s.reached) :
    ∃ obj p, s.objects o = some obj ∧ obj.fields[0]? = some (.native p) := by
  obtain ⟨hr, obj, hobj⟩ := h.reached o ho
  obtain ⟨p, hp⟩ := (h.returned o hr).2 obj hobj
  exact ⟨obj, p, hobj, hp⟩

theorem Inv.reachedLive_iff {s : State ι} (h : Inv M s) : ReachedLive s ↔ FieldsLive (· ∈ s.reached) s := by
  constructor
  · intro hl o obj p ho hobj hf
    obtain ⟨impl, himpl, hlive⟩ := hl o ho
    rw [Config.toImpl_eq hobj hf] at himpl
    cases himpl
    exact hlive p rfl
  · intro hl o ho
    obtain ⟨obj, p, hobj, hf⟩ := h.reached_field ho
    refine ⟨some p, Config.toImpl_eq hobj hf, fun q hq => ?_⟩
    cases hq
    exact hl o obj p ho hobj hf

/-- Script gets to reach wrappers of live natives only. -/
theorem Effect.reached {s s' : State ι} {op : Op ι} (hi : Inv M s) (he : Effect M s op s') {o : ObjectId}
    (ho : o ∈ s'.reached) : o ∈ s.reached ∨ ∃ p n c, s'.Live p n ∧ n.wrapper = some c ∧ Linked M s' p n c o := by
  have hgive : ∀ {t : State ι} {p n c o'}, Linked M t p n c o' → Linked M (t.giveWrapper o') p n c o' :=
    fun hl => hl.mono rfl rfl fun _ _ => id
  cases he with
  | @newAccepted f args addr t v ht hfree ha =>
    rcases List.mem_cons.mp ho with rfl | ho
    · have hl := linked_new M s addr v ht
      exact .inr ⟨_, _, _, ⟨Function.update_self .., rfl⟩, rfl, hgive hl⟩
    · exact .inl ho
  | callReach hq hm hg =>
    rcases List.mem_cons.mp ho with rfl | ho
    · obtain ⟨c, hw, hl⟩ := hi.coherent.linked_of_getWrapper (State.live_of_native hm) hg
      exact .inr ⟨_, _, c, State.live_of_native hm, hw, hl.mono rfl rfl fun _ _ => id⟩
    · exact .inl ho
  | wrapAgain hp hl hw =>
    rcases List.mem_cons.mp ho with rfl | ho
    · exact .inr ⟨_, _, _, hp, hw, hgive hl⟩
    · exact .inl ho
  | @wrapBare p context addr n ft templates hp hw ht hc hg =>
    rcases List.mem_cons.mp ho with rfl | ho
    · have hl := linked_wrap M s p hc
      exact .inr ⟨_, _, _, ⟨Function.update_self .., hp.2⟩, rfl, hgive hl⟩
    · exact .inl ho
  | drop => exact .inl (List.mem_of_mem_filter ho)
  | _ => exact .inl ho

/-- A step from a state where script reaches wrappers of live natives only leads
to such a state exactly when it does not delete the native of a wrapper that
script reaches. -/
theorem Effect.reachedLive_iff {s s' : State ι} {op : Op ι} (hi : Inv M s) (h : ReachedLive s)
    (he : Effect M s op s') : ReachedLive s' ↔ SparesReached s op := by
  have hi' := hi.effect he
  rw [hi'.reachedLive_iff]
  rw [hi.reachedLive_iff] at h
  by_cases hop : op.Spares
  · have hs : SparesReached s op := by
      cases op <;> first | exact trivial | exact hop.elim
    refine iff_of_true (fun o obj q ho hobj hf => ?_) hs
    rcases he.reached hi ho with ho | ⟨p, n, c, hp, -, hl⟩
    · exact h.effect hi he hop o obj q ho hobj hf
    · obtain ⟨obj', hobj', hf', -⟩ := hl.object
      cases hobj.symm.trans hobj'
      cases hf.symm.trans hf'
      exact ⟨n, hp⟩
  · obtain ⟨p, rfl⟩ : ∃ p, op = .destroy p := by
      cases op <;> first | exact ⟨_, rfl⟩ | exact absurd trivial hop
    cases he with
    | repaint hp hn hpay => exact hpay.elim
    | @destroy _ n hp =>
      have hlive : ∀ {q m}, (s.remove .nativeCode p n).Live q m ↔ q ≠ p ∧ s.Live q m := State.live_remove hp .nativeCode
      constructor
      · intro hl m o hm ho hr
        cases hp.unique hm
        obtain ⟨c, -, hlink⟩ := hi.coherent.linked_of_getWrapper hp ho
        obtain ⟨obj, hobj, hf, -⟩ := hlink.object
        obtain ⟨m, hm⟩ := hl o obj p hr hobj hf
        exact (hlive.mp hm).1 rfl
      · intro hs o obj q ho hobj hf
        obtain ⟨m, hm⟩ := h o obj q ho hobj hf
        refine ⟨m, hlive.mpr ⟨?_, hm⟩⟩
        rintro rfl
        obtain ⟨c, hw, hl⟩ := hi.coherent.linked_of_field hobj hf hp
        exact hs n o hp (hl.getWrapper hw) ho

omit [Fintype ι] [DecidableEq ι] in
/-- Where script reaches wrappers of live natives only, a getter that script calls
finds a null pointer and gives null, or reads a live native. -/
theorem ReachedLive.getterOf {s : State ι} (h : ReachedLive s) {o : ObjectId} (ho : o ∈ s.reached)
    (read : Event ι → State ι → Option JSValue) :
    Config.toImpl o s = some none ∧ getterOf read o s = some .null ∨
      ∃ p n, Config.toImpl o s = some (some p) ∧ s.Live p n ∧ getterOf read o s = read n s := by
  obtain ⟨impl, himpl, hlive⟩ := h o ho
  cases impl with
  | none =>
    refine .inl ⟨himpl, ?_⟩
    rw [NativeObjects.getterOf, himpl]
    rfl
  | some p =>
    obtain ⟨n, hn⟩ := hlive p rfl
    exact .inr ⟨p, n, himpl, hn, getterOf_eq himpl hn.native⟩

/-- In a run script reaches only wrappers of live natives, in every state,
exactly when native code deletes no native whose wrapper script reaches; the
getters that script calls then read live natives only. -/
theorem reached_live_iff {tr : List (State ι × Op ι)} {s : State ι} (h : M.system.Run tr s) :
    ((∀ t ∈ System.visited tr s, ReachedLive t) ↔ ∀ x ∈ tr, SparesReached x.1 x.2) ∧
      ∀ t ∈ System.visited tr s, ReachedLive t → ∀ o ∈ t.reached, ∀ read,
        Config.toImpl o t = some none ∧ getterOf read o t = some .null ∨
          ∃ p n, Config.toImpl o t = some (some p) ∧ t.Live p n ∧ getterOf read o t = read n t := by
  refine ⟨h.forall_visited_iff (I := Inv M) ?_ (fun s op s' hi _ _ hs => hi.effect (hi.step hs))
    fun s op s' hi hl hs => (hi.step hs).reachedLive_iff hi hl, fun t _ ht o ho read => ht.getterOf ho read⟩
  rintro s ⟨isolate, context, rfl⟩
  exact ⟨.initial isolate context, fun _ ho => nomatch ho⟩

/-- Native code deletes a native that it made and did not wrap. -/
theorem reached_live_iff_event : ∃ tr s, (V8Event.embedding .standard).system.Run tr s ∧
    s.reached = [0] ∧ s.history.deleted = [(1, .nativeCode)] ∧ ∀ t ∈ System.visited tr s, ReachedLive t := by
  have h₀ : (V8Event.embedding .standard).system.Run [] (.initial 0 0) := .start ⟨0, 0, rfl⟩
  have h₁ := Hierarchy.run_next (.interfaceTemplate .event) h₀ trivial (by decide)
  have h₂ := Hierarchy.run_next (.scriptNew ⟨0, 0⟩ [.string ⟨[97], by decide⟩] 0) h₁ ⟨⟨"Event", by decide⟩, rfl⟩
    (by decide)
  have h₃ := Hierarchy.run_next (.nativeNew .event [98] 1) h₂ ⟨by decide, rfl⟩ (by decide)
  have h₄ := Hierarchy.run_next (.destroy ⟨1, 1⟩) h₃ ⟨_, rfl, rfl⟩ (by decide)
  refine ⟨_, _, h₄, by decide, by decide, (reached_live_iff h₄).1.mpr ?_⟩
  exact List.forall_mem_cons.mpr
    ⟨sparesReached_of_bare (n := Event.fresh V8Event.EventType.event [98] 1) ⟨rfl, rfl⟩ rfl, by simp [SparesReached]⟩

/-- Native code deletes the native of an event that script made: the type getter
then uses a pointer to storage that was given back. -/
theorem not_reachedLive_event : ∃ tr s, (V8Event.embedding .standard).system.Run tr s ∧ ¬ ReachedLive s ∧
    0 ∈ s.reached ∧ V8EventInternal.typeGetter .standard 0 s = none := by
  have h₀ : (V8Event.embedding .standard).system.Run [] (.initial 0 0) := .start ⟨0, 0, rfl⟩
  have h₁ := Hierarchy.run_next (.interfaceTemplate .event) h₀ trivial (by decide)
  have h₂ := Hierarchy.run_next (.scriptNew ⟨0, 0⟩ [.string ⟨[97], by decide⟩] 0) h₁ ⟨⟨"Event", by decide⟩, rfl⟩
    (by decide)
  have h₃ := Hierarchy.run_next (.destroy ⟨0, 0⟩) h₂ ⟨_, rfl, rfl⟩ (by decide)
  refine ⟨_, _, h₃, fun hl => ?_, by decide, by decide⟩
  obtain ⟨impl, himpl, hlive⟩ := hl 0 (by decide)
  cases himpl.symm.trans (show _ = some (some ⟨0, 0⟩) by decide)
  obtain ⟨n, hn, -⟩ := hlive ⟨0, 0⟩ rfl
  exact absurd (hn.symm.trans (show _ = none from rfl)) (by simp)

end NativeObjects
