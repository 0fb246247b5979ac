import NativeObjects.Proof.Refinement

/-!
# Addresses cannot be observed

A native stays at the address that it was made at, and a pointer has the address
of the native that it was made for (`PlacedAt.effect`). So a script call that the
abstract model gives a meaning dereferences live natives only
(`Abstracts.readsLive`), and script gets the same answers of two programs that do
the same, wherever the allocator puts the natives (`addresses_unobservable`).
-/

namespace NativeObjects

open Lib (System Simulation)

variable {ι : Type}

/-- Every pointer has the address of the native that it was made for, by `place`. -/
structure PlacedAt (place : Nat → Addr) (s : State ι) : Prop where
  live : ∀ p n, s.Live p n → p.addr = place p.birth
  targets : ∀ p n q, s.Live p n → n.target = some q ∨ n.currentTarget = some q → q.addr = place q.birth
  fields : ∀ o obj p, s.objects o = some obj → obj.fields[0]? = some (.native p) → p.addr = place p.birth

namespace PlacedAt

variable {s s' : State ι} {place : Nat → Addr}

theorem initial (isolate : IsolateId) (context : ContextId) :
    PlacedAt place (.initial isolate context : State ι) where
  live _ _ h := nomatch h.1
  targets _ _ _ h := nomatch h.1
  fields _ _ _ h := nomatch h

/-- A pointer of the birth of a live native points to it. -/
theorem eq_of_live (h : PlacedAt place s) {p q : NativePtr} {n : Event ι} (hq : q.addr = place q.birth)
    (hp : s.Live p n) (hb : p.birth = q.birth) : p = q :=
  NativePtr.eq_of_addr (by rw [h.live p n hp, hq, hb]) hb

/-- No native and no object was added, and no target set. -/
theorem mono (h : PlacedAt place s) (hl : ∀ p n, s'.Live p n → s.Live p n)
    (ho : ∀ o obj, s'.objects o = some obj → s.objects o = some obj) : PlacedAt place s' :=
  ⟨fun p n hp => h.live p n (hl p n hp), fun p n q hp => h.targets p n q (hl p n hp),
    fun o obj p hobj => h.fields o obj p (ho o obj hobj)⟩

theorem newObject (h : PlacedAt place s) {obj : JSObject ι} (hobj : ∀ p, obj.fields[0]? ≠ some (.native p)) :
    PlacedAt place (s.newObject obj).2 := by
  refine ⟨h.live, h.targets, fun o obj' p ho hf => ?_⟩
  by_cases hnew : o = s.nextObject
  · subst hnew
    cases (Function.update_self ..).symm.trans ho
    exact absurd hf (hobj p)
  · exact h.fields o obj' p ((Function.update_of_ne hnew ..).symm.trans ho) hf

theorem setNative (h : PlacedAt place s) {p : NativePtr} {n n' : Event ι} (hp : s.Live p n) (hn : Repaint s n n') :
    PlacedAt place (s.setNative p n') := by
  have hlive : ∀ {q m}, (s.setNative p n').Live q m ↔ q = p ∧ m = n' ∨ q ≠ p ∧ s.Live q m :=
    State.live_replace n' hp hn.birth rfl
  have hnull : ∀ {target q}, s.NullOrLive target → target = some q → q.addr = place q.birth := by
    intro target q ht hq
    obtain ⟨m, hm⟩ := ht q hq
    exact h.live q m hm
  refine ⟨fun q m hq => ?_, fun q m r hq hr => ?_, h.fields⟩
  · rcases hlive.mp hq with ⟨rfl, -⟩ | ⟨-, hq⟩
    · exact h.live q n hp
    · exact h.live q m hq
  · rcases hlive.mp hq with ⟨rfl, hm⟩ | ⟨-, hq⟩
    · cases hm
      rcases hr with hr | hr
      · rcases hn.target with ht | ht
        · exact h.targets q n r hp (.inl (ht.symm.trans hr))
        · exact hnull ht hr
      · rcases hn.currentTarget with ht | ht
        · exact h.targets q n r hp (.inr (ht.symm.trans hr))
        · exact hnull ht hr
    · exact h.targets q m r hq hr

variable [Fintype ι] [DecidableEq ι] {M : Embedding ι}

/-- A new native: the pointers there are were made for natives made before. -/
theorem allocate (h : PlacedAt place s) (hc : Coherent M s) {addr : Addr} {ev : Event ι}
    (hfree : s.natives addr = none) (hb : ev.birth = s.births) (ht : ev.target = none) (hct : ev.currentTarget = none) :
    PlacedAt (Function.update place s.births addr) (s.allocate ⟨addr, s.births⟩ ev) := by
  have hold : ∀ {q : NativePtr}, q.birth < s.births → q.addr = place q.birth →
      q.addr = Function.update place s.births addr q.birth := by
    intro q hlt hq
    rw [Function.update_of_ne (Nat.ne_of_lt hlt), hq]
  refine ⟨fun q m hq => ?_, fun q m r hq hr => ?_, fun o obj q ho hf => ?_⟩
  · rcases (State.live_allocate hfree hb).mp hq with ⟨rfl, -⟩ | hq
    · rw [Function.update_self]
    · exact hold (hc.births q m hq) (h.live q m hq)
  · rcases (State.live_allocate hfree hb).mp hq with ⟨-, rfl⟩ | hq
    · rw [ht, hct] at hr
      exact absurd hr (by simp)
    · exact hold (hc.targets q m r hq hr) (h.targets q m r hq hr)
  · exact hold ((hc.objects o obj ho).2 q hf).1 (h.fields o obj q ho hf)

variable (M) in
omit [DecidableEq ι] in
theorem link (h : PlacedAt place s) {p : NativePtr} {n : Event ι} {o : ObjectId} {obj : JSObject ι} (hp : s.Live p n)
    (hl : 2 ≤ obj.fields.length) : PlacedAt place (s.link M.info p n n.typeInfo o obj) := by
  have hlive : ∀ {q m}, (s.link M.info p n n.typeInfo o obj).Live q m ↔
      q = p ∧ m = { n with wrapper := some s.nextCell } ∨ q ≠ p ∧ s.Live q m :=
    State.live_replace { n with wrapper := some s.nextCell } hp rfl rfl
  refine ⟨fun q m hq => ?_, fun q m r hq hr => ?_, fun o' obj' q ho hf => ?_⟩
  · rcases hlive.mp hq with ⟨rfl, -⟩ | ⟨-, hq⟩
    · exact h.live q n hp
    · exact h.live q m hq
  · rcases hlive.mp hq with ⟨rfl, rfl⟩ | ⟨-, hq⟩
    · exact h.targets q n r hp hr
    · exact h.targets q m r hq hr
  · by_cases hoo : o' = o
    · subst hoo
      cases (Function.update_self ..).symm.trans ho
      rw [List.getElem?_set_ne (by decide), List.getElem?_set_self (by omega)] at hf
      cases hf
      exact h.live p n hp
    · exact h.fields o' obj' q ((Function.update_of_ne hoo ..).symm.trans ho) hf

omit [Fintype ι] [DecidableEq ι] in
theorem discard (h : PlacedAt place s) (o : ObjectId) : PlacedAt place (s.discard o) := by
  refine h.mono (fun _ _ => id) fun o' obj ho => ?_
  by_cases hoo : o' = o
  · subst hoo
    exact absurd ((Function.update_self ..).symm.trans ho) (by simp)
  · exact (Function.update_of_ne hoo ..).symm.trans ho

omit [Fintype ι] [DecidableEq ι] in
theorem remove (h : PlacedAt place s) {p : NativePtr} {n : Event ι} (hp : s.Live p n) (deleter : Deleter) :
    PlacedAt place (s.remove deleter p n) :=
  h.mono (fun _ _ hq => ((State.live_remove hp deleter).mp hq).2) fun _ _ => id

/-- Operations keep the places that natives have. -/
theorem effect {op : Op ι} (h : PlacedAt place s) (hi : Inv M s) (he : Effect M s op s') :
    ∃ place', PlacedAt place' s' := by
  cases he with
  | newRejected => exact ⟨place, h.newObject (Hierarchy.blank_field _ _)⟩
  | @newAccepted f args addr t v ht hfree ha =>
    have hc₁ := hi.coherent.newObject (Hierarchy.blank_field (M := M.toHierarchy) f t)
    have h₁ : PlacedAt place (s.newObject (M.blank f t)).2 := h.newObject (Hierarchy.blank_field f t)
    have h₂ : PlacedAt _ ((s.newObject (M.blank f t)).2.allocate ⟨addr, s.births⟩ (M.scripted t v s.births)) :=
      h₁.allocate hc₁ hfree rfl rfl rfl
    exact ⟨_, (h₂.link M (State.live_self_allocate hfree rfl) (M.two_le_length_blank f t)).mono (fun _ _ => id)
      fun _ _ => id⟩
  | nativeNew hfree => exact ⟨_, h.allocate hi.coherent hfree rfl rfl rfl⟩
  | @wrapBare p context addr n ft templates hp hw ht hc hg =>
    have h₀ : PlacedAt place (s.setTemplates templates) := h.mono (fun _ _ => id) fun _ _ => id
    have h₁ := h₀.newObject (Hierarchy.blank_field (M := M.toHierarchy) ⟨ft, s.context⟩ n.typeInfo)
    exact ⟨_, (h₁.link M (n := n) hp (M.two_le_length_blank _ _)).mono (fun _ _ => id) fun _ _ => id⟩
  | repaint hp hn => exact ⟨place, h.setNative hp hn⟩
  | destroy hp => exact ⟨place, h.remove hp .nativeCode⟩
  | @collectOrphan o => exact ⟨place, h.discard o⟩
  | @collectWrapper o p n c _ hp =>
    exact ⟨place, (h.discard o).remove (show (s.discard o).Live p n from hp) .collector⟩
  | _ => exact ⟨place, h.mono (fun _ _ => id) fun _ _ => id⟩

end PlacedAt

/-! ## What the abstract model gives a meaning -/

/-- A getter reads events that are there. -/
theorem World.events_of_invoke {V : StringConversions} {callback : FunctionCallback ι} {b : Option Nat} {w : World ι}
    {r : Outcome} (hg : callback.Getter) (h : w.invoke V callback b = some r) :
    ∃ c m, b = some c ∧ w.events c = some m ∧
      (callback = .targetGetter → ∀ d, m.target = some d → w.IsLive d) ∧
      (callback = .currentTargetGetter → ∀ d, m.currentTarget = some d → w.IsLive d) := by
  have htarget : ∀ {target v}, World.readTarget target w = some v → ∀ d, target = some d → w.IsLive d := by
    intro target v hv d hd
    subst hd
    obtain ⟨m, hm, -⟩ := Option.map_eq_some_iff.mp hv
    exact ⟨m, hm⟩
  cases callback with
  | constructorCallback t => exact hg.elim
  | typeGetter =>
    simp only [invoke, Option.bind_eq_bind, Option.bind_eq_some_iff] at h
    obtain ⟨c, rfl, m, hm, -⟩ := h
    exact ⟨c, m, rfl, hm, by simp, by simp⟩
  | timeStampGetter =>
    simp only [invoke, Option.bind_eq_bind, Option.bind_eq_some_iff] at h
    obtain ⟨c, rfl, m, hm, -⟩ := h
    exact ⟨c, m, rfl, hm, by simp, by simp⟩
  | targetGetter =>
    simp only [invoke, Option.bind_eq_bind, Option.bind_eq_some_iff] at h
    obtain ⟨c, rfl, m, hm, v, hv, -⟩ := h
    exact ⟨c, m, rfl, hm, fun _ => htarget hv, by simp⟩
  | currentTargetGetter =>
    simp only [invoke, Option.bind_eq_bind, Option.bind_eq_some_iff] at h
    obtain ⟨c, rfl, m, hm, v, hv, -⟩ := h
    exact ⟨c, m, rfl, hm, by simp, fun _ => htarget hv⟩
  | preventDefault => exact hg.elim
  | other n => exact hg.elim

namespace Abstracts

variable {s : State ι} {w : World ι}

/-- A pointer to an event that is there in the abstract model points to a live native. -/
theorem isLive_of_isLive (h : Abstracts s w) {place : Nat → Addr} (hp : PlacedAt place s) {q : NativePtr}
    (hq : q.addr = place q.birth) (hl : w.IsLive q.birth) : s.IsLive q := by
  obtain ⟨m, hm⟩ := hl
  obtain ⟨p, n, hn, hb, -⟩ := (h.events _ _).mp hm
  exact ⟨n, hp.eq_of_live hq hn hb ▸ hn⟩

variable [Fintype ι] {M : Hierarchy ι}

/-- A script call that the abstract model gives a meaning dereferences live natives only. -/
theorem readsLive (h : Abstracts s w) {place : Nat → Addr} (hp : PlacedAt place s) {op : Op ι} {w' : World ι}
    (hx : op.action.exec M w = some w') : op.ReadsLive s := by
  cases op with
  | scriptCall ft p f receiver args addr =>
    rintro q ⟨obj, callback, p, ho, hs, hc, hg, hf, hq⟩
    obtain ⟨r, hr, -⟩ := Option.bind_eq_some_iff.mp hx
    have hview : w.objects receiver = some obj.view := by rw [h.objects, ho, Option.map_some]
    have hsig : signatureAccepts (ι := ι) w.templates f.signature ⟨obj.view.template, obj.view.context, []⟩ = true := by
      rw [h.templates, ← hs]
      exact signatureAccepts_eq _ _ rfl
    simp only [World.answer, hview, hsig, hc, if_true, Option.bind_eq_bind, Option.bind_some] at hr
    obtain ⟨outcome, hinv, -⟩ := Option.bind_eq_some_iff.mp hr
    obtain ⟨c, m, hc', hm, ht, hct⟩ := World.events_of_invoke hg hinv
    have hb : c = p.birth := by
      rw [JSObject.view, hf, Option.bind_some, Field.birth, Option.some.injEq] at hc'
      exact hc'.symm
    subst hb
    obtain ⟨n, hn⟩ := h.isLive_of_isLive hp (hp.fields receiver obj p ho hf) ⟨m, hm⟩
    have hmn : m = n.view s := Option.some.inj (hm.symm.trans (h.event hn))
    rcases hq with rfl | ⟨n', hn', hq⟩
    · exact ⟨n, hn⟩
    · cases hn.native.symm.trans hn'
      cases callback with
      | targetGetter =>
        refine h.isLive_of_isLive hp (hp.targets p n q hn (.inl hq)) (ht rfl _ ?_)
        rw [hmn, Event.view, show n.target = some q from hq, Option.map_some]
      | currentTargetGetter =>
        refine h.isLive_of_isLive hp (hp.targets p n q hn (.inr hq)) (hct rfl _ ?_)
        rw [hmn, Event.view, show n.currentTarget = some q from hq, Option.map_some]
      | _ => exact hq.elim
  | _ => exact trivial

end Abstracts

/-! ## Programs that do the same -/

variable [Fintype ι] [DecidableEq ι]

omit [DecidableEq ι] in
theorem Hierarchy.world_deterministic (M : Hierarchy ι) : M.world.Deterministic :=
  fun _ _ _ _ h h' => Option.some.inj (h.2.symm.trans h'.2)

/-- The simulation, with the places of natives. -/
theorem Abstracts.simulation_placed (M : Embedding ι) :
    Simulation M.system M.world (fun s w => Inv M s ∧ Abstracts s w ∧ ∃ place, PlacedAt place s) Op.action Op.ReadsLive where
  init := by
    rintro s ⟨isolate, context, rfl⟩
    exact ⟨_, ⟨isolate, context, rfl⟩, .initial isolate context, .initial isolate context, fun _ => 0,
      .initial isolate context⟩
  step s op s' w h hlive hs := by
    obtain ⟨hi, ha, place, hp⟩ := h
    obtain ⟨w', hs', hi', ha'⟩ := (Abstracts.simulation M).step s op s' w ⟨hi, ha⟩ hlive hs
    exact ⟨w', hs', hi', ha', hp.effect hi (hi.step hs)⟩

/-- Two programs that do the same, with natives at any addresses: if the script
calls of one dereference live natives only, those of the other do, and script gets
the same answers, and reaches the same objects. -/
theorem addresses_unobservable {M : Embedding ι} {isolate : IsolateId} {context : ContextId}
    {tr₁ tr₂ : List (State ι × Op ι)} {s₁ s₂ : State ι} (h₁ : M.system.Path (.initial isolate context) tr₁ s₁)
    (h₂ : M.system.Path (.initial isolate context) tr₂ s₂)
    (hact : (System.labels tr₁).map Op.action = (System.labels tr₂).map Op.action)
    (hlive : ∀ x ∈ tr₁, x.2.ReadsLive x.1) :
    (∀ x ∈ tr₂, x.2.ReadsLive x.1) ∧ s₁.reached = s₂.reached ∧
      List.Forall₂ (fun x y => x.1.reached = y.1.reached ∧
        x.2.answer M.toHierarchy x.1 = y.2.answer M.toHierarchy y.1) tr₁ tr₂ := by
  have hstart : Inv M (.initial isolate context : State ι) ∧
      Abstracts (.initial isolate context : State ι) (.initial isolate context) ∧
      ∃ place, PlacedAt place (.initial isolate context : State ι) :=
    ⟨.initial isolate context, .initial isolate context, fun _ => 0, .initial isolate context⟩
  obtain ⟨hlive₂, hall, w, ⟨-, ha₁, -⟩, -, ha₂, -⟩ := (Abstracts.simulation_placed M).agree M.world_deterministic
    (fun s op s' w w' h _ hw => h.2.1.readsLive h.2.2.choose_spec hw.2) hstart hstart h₁ h₂ hact hlive
  refine ⟨hlive₂, ha₁.reached.symm.trans ha₂.reached, hall.imp ?_⟩
  rintro x₁ x₂ ⟨⟨w, a⟩, ⟨⟨hi₁, ha₁, -⟩, hop₁, hl₁, w', hs⟩, ⟨⟨hi₂, ha₂, -⟩, hop₂, hl₂, -⟩⟩
  cases hop₁
  have hop : x₁.2.action = x₂.2.action := hop₂
  refine ⟨ha₁.reached.symm.trans ha₂.reached, ?_⟩
  rw [ha₁.answer_eq hi₁ hs.1 hl₁, hop]
  exact (ha₂.answer_eq hi₂ (hop ▸ hs.1) hl₂).symm

/-- An event is collected, and another one made, at the same address or elsewhere. -/
theorem addresses_unobservable_event : ∃ tr₁ s₁ tr₂ s₂,
    (V8Event.embedding .standard).system.Path (.initial 0 0) tr₁ s₁ ∧
    (V8Event.embedding .standard).system.Path (.initial 0 0) tr₂ s₂ ∧
    s₁.natives 5 = none ∧ s₂.natives 0 = none ∧ s₁.reached = s₂.reached ∧
    List.Forall₂ (fun x y => x.1.reached = y.1.reached ∧
      x.2.answer (V8Event.embedding .standard).toHierarchy x.1 =
        y.2.answer (V8Event.embedding .standard).toHierarchy y.1) tr₁ tr₂ := by
  have h₀ : (V8Event.embedding .standard).system.Run [] (.initial 0 0) := .start ⟨0, 0, rfl⟩
  have h₁ := Hierarchy.path_next (.interfaceTemplate .event) h₀.rest trivial (by decide)
  have h₂ := Hierarchy.path_next (.scriptNew ⟨0, 0⟩ [.string ⟨[97], by decide⟩] 0) h₁ ⟨⟨"Event", by decide⟩, rfl⟩
    (by decide)
  have h₃ := Hierarchy.path_next (.drop 0) h₂ (show 0 ∈ _ by decide) (by decide)
  have h₄ := Hierarchy.path_next (.collect 0) h₃ ((Inv.run (h₀.append h₃)).collectable (by decide) (by decide)) (by decide)
  have h₅ := Hierarchy.path_next (.scriptNew ⟨0, 0⟩ [.string ⟨[98], by decide⟩] 0) h₄ ⟨⟨"Event", by decide⟩, rfl⟩
    (by decide)
  have h₆ := Hierarchy.path_next (.scriptNew ⟨0, 0⟩ [.string ⟨[98], by decide⟩] 5) h₄ ⟨⟨"Event", by decide⟩, rfl⟩
    (by decide)
  let getter : FunctionValue V8Event.EventType TemplateId :=
    { callback := some .typeGetter, signature := some 0, length := 0, prototypeRemoved := true,
      acceptAnyReceiver := true }
  let setter : FunctionValue V8Event.EventType TemplateId :=
    { callback := none, signature := some 0, length := 1, prototypeRemoved := true, acceptAnyReceiver := true }
  have h₇ := Hierarchy.path_next (.scriptCall 0 .onPrototype getter 1 [] 2) h₅
    ⟨⟨"Event", by decide⟩, ⟨_, rfl, .accessor "type" getter setter V8Event.dontDelete, by decide, by decide⟩,
      by decide, rfl⟩ (by decide)
  have h₈ := Hierarchy.path_next (.scriptCall 0 .onPrototype getter 1 [] 2) h₆
    ⟨⟨"Event", by decide⟩, ⟨_, rfl, .accessor "type" getter setter V8Event.dontDelete, by decide, by decide⟩,
      by decide, rfl⟩ (by decide)
  have hagree := addresses_unobservable h₇ h₈ (by simp only [System.labels, List.map_cons, List.map_nil, Op.action])
  obtain ⟨-, hr, hall⟩ := hagree (by
    refine List.forall_mem_cons.mpr
      ⟨Op.readsLive_of_live (p := ⟨0, 1⟩) (by decide) ⟨rfl, rfl⟩ (fun callback q hc hq => ?_) _ _, by simp [Op.ReadsLive]⟩
    cases hc
    exact hq.elim)
  exact ⟨_, _, _, _, h₇, h₈, by decide, by decide, hr, hall⟩

end NativeObjects
