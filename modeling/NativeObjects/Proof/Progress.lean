import NativeObjects.Proof.Refinement
import NativeObjects.Proof.Targets

/-!
# What can go wrong

Where execution is not terminated, an operation that can be started goes through, unless
a script call dereferences a pointer to storage that holds no native (`fails_iff`).
Programs that delete no native, and keep the wrappers of targets as long as script
reaches the event's, never dereference a pointer to a native that is gone
(`spared_progress`).
-/

namespace NativeObjects

open Lib (System)

variable {ι : Type}

/-- The operation dereferences a pointer to storage that holds no native. -/
def Op.ReadsFreed (s : State ι) : Op ι → Prop
  | .scriptCall _ _ f receiver _ _ => ∃ q, s.Dereferences f receiver q ∧ s.native q = none
  | _ => False

theorem Op.not_readsFreed_of_readsLive {s : State ι} {op : Op ι} (h : op.ReadsLive s) : ¬ op.ReadsFreed s := by
  cases op with
  | scriptCall ft place f receiver args addr =>
    rintro ⟨q, hq, hn⟩
    obtain ⟨n, hlive⟩ := h q hq
    exact absurd (hlive.native.symm.trans hn) (by simp)
  | _ => exact id

/-! ## Script calls -/

theorem getterOf_bind {read : Event ι → State ι → Option JSValue} {holder : ObjectId} {s : State ι} {p : NativePtr}
    (himpl : Config.toImpl holder s = some (some p)) :
    getterOf read holder s = (s.native p).bind fun n => read n s := by
  simp only [getterOf, himpl, Option.bind_eq_bind, Option.bind_some]

theorem V8EventInternal.readTarget_eq_none_iff {field : Option NativePtr} {s : State ι} :
    readTarget field s = none ↔ ∃ q, field = some q ∧ s.native q = none := by
  cases field with
  | none => simp [readTarget]
  | some q => simp [readTarget]

variable [Fintype ι]

/-- A call of a native function as a method fails where a getter dereferences
storage that holds no native. -/
theorem Hierarchy.invoke_eq_none_iff (M : Hierarchy ι) {callback : FunctionCallback ι} {receiver : ObjectId}
    {p : NativePtr} {s : State ι} (himpl : Config.toImpl receiver s = some (some p)) (args : List JSValue) (addr : Addr) :
    M.invoke callback { isConstructCall := false, holder := receiver, args := args } addr s = none ↔
      callback.Getter ∧ (s.native p = none ∨ ∃ n q, s.native p = some n ∧ callback.ReadsTarget n q ∧ s.native q = none) := by
  have hread : ∀ {read : Event ι → State ι → Option JSValue} {T : Event ι → NativePtr → Prop},
      (∀ n, read n s = none ↔ ∃ q, T n q ∧ s.native q = none) →
      (((getterOf read receiver s).map fun v => (Outcome.returned v, s)) = none ↔
        s.native p = none ∨ ∃ n q, s.native p = some n ∧ T n q ∧ s.native q = none) := by
    intro read T hT
    rw [Option.map_eq_none_iff, getterOf_bind himpl]
    cases hn : s.native p with
    | none => simp
    | some n => simp [hT]
  cases callback with
  | constructorCallback t =>
    simp [invoke, constructorCallback, FunctionCallback.Getter]
  | typeGetter =>
    rw [FunctionCallback.Getter, true_and]
    exact hread fun n => by simp [FunctionCallback.ReadsTarget]
  | timeStampGetter =>
    rw [FunctionCallback.Getter, true_and]
    exact hread fun n => by simp [FunctionCallback.ReadsTarget]
  | targetGetter =>
    rw [FunctionCallback.Getter, true_and]
    exact hread fun n => V8EventInternal.readTarget_eq_none_iff
  | currentTargetGetter =>
    rw [FunctionCallback.Getter, true_and]
    exact hread fun n => V8EventInternal.readTarget_eq_none_iff
  | preventDefault => simp [invoke, FunctionCallback.Getter]
  | other n => simp [invoke, FunctionCallback.Getter]

theorem Hierarchy.scriptCall_eq_none_iff (M : Hierarchy ι) {f : FunctionValue ι TemplateId} {receiver : ObjectId}
    {obj : JSObject ι} {s : State ι} (ho : s.objects receiver = some obj) (args : List JSValue) (addr : Addr) :
    M.scriptCall f receiver args addr s = none ↔ signatureAccepts s.templates f.signature obj = true ∧
      ∃ callback, f.callback = some callback ∧
        M.invoke callback { isConstructCall := false, holder := receiver, args := args } addr s = none := by
  simp only [scriptCall, ho, Option.bind_eq_bind, Option.bind_some]
  split
  · rename_i hs
    rw [hs]
    cases f.callback with
    | none => simp
    | some callback =>
      cases hinv : M.invoke callback { isConstructCall := false, holder := receiver, args := args } addr s with
      | none => simp [hinv]
      | some r =>
        obtain ⟨outcome, s'⟩ := r
        cases outcome <;> simp [hinv]
  · rename_i hs
    simp [hs]

variable [DecidableEq ι] {M : Embedding ι}

/-- A script call fails exactly if it dereferences storage that holds no native. -/
theorem Inv.scriptCall_eq_none_iff {s : State ι} (hi : Inv M s) {f : FunctionValue ι TemplateId} {receiver : ObjectId}
    (hr : receiver ∈ s.reached) (args : List JSValue) (addr : Addr) :
    M.scriptCall f receiver args addr s = none ↔ ∃ q, s.Dereferences f receiver q ∧ s.native q = none := by
  obtain ⟨obj, p, ho, hf⟩ := hi.reached_field hr
  rw [M.scriptCall_eq_none_iff ho]
  constructor
  · rintro ⟨hs, callback, hc, hinv⟩
    obtain ⟨hg, hn | ⟨n, q, hn, hq, hnone⟩⟩ := (M.invoke_eq_none_iff (Config.toImpl_eq ho hf) args addr).mp hinv
    · exact ⟨p, ⟨obj, callback, p, ho, hs, hc, hg, hf, .inl rfl⟩, hn⟩
    · exact ⟨q, ⟨obj, callback, p, ho, hs, hc, hg, hf, .inr ⟨n, hn, hq⟩⟩, hnone⟩
  · rintro ⟨q, ⟨obj', callback, p', ho', hs, hc, hg, hf', hq⟩, hnone⟩
    cases ho.symm.trans ho'
    cases hf.symm.trans hf'
    refine ⟨hs, callback, hc, (M.invoke_eq_none_iff (Config.toImpl_eq ho hf) args addr).mpr ⟨hg, ?_⟩⟩
    rcases hq with rfl | ⟨n, hn, hq⟩
    · exact .inl hnone
    · exact .inr ⟨n, q, hn, hq, hnone⟩

/-! ## Operations -/

/-- Operations other than script calls do not fail. -/
theorem Inv.exec_isSome {s : State ι} (hi : Inv M s) {op : Op ι} (he : op.Enabled s)
    (hop : ∀ ft place f receiver args addr, op ≠ .scriptCall ft place f receiver args addr) :
    (op.exec M.toHierarchy s).isSome := by
  cases op with
  | interfaceTemplate t =>
    obtain ⟨ft, templates, heq, -⟩ := M.interfaceTemplate_eq hi.coherent.templates t
    rw [Op.exec, heq]
    rfl
  | scriptNew f args addr =>
    obtain ⟨t, -, hcons⟩ := Embedding.constructs_of_exposed hi.coherent.templates he.1
    cases ha : args.getD 0 .undefined with
    | string v =>
      rw [Op.exec, Hierarchy.construct_create hcons hi.mode ha he.2]
      rfl
    | _ =>
      rw [Op.exec, Hierarchy.construct_reject hcons hi.mode (by rw [ha]; rfl)]
      rfl
  | scriptCall ft place f receiver args addr => exact absurd rfl (hop ft place f receiver args addr)
  | nativeNew t event addr =>
    rw [Op.exec, Event.create_eq he.1 he.2]
    rfl
  | wrap p context addr =>
    obtain ⟨n, hp⟩ := he.1
    rcases hi.coherent.wrap hp context addr with ⟨c, o, -, -, heq⟩ | ⟨-, ft, templates, -, -, -, heq⟩
    all_goals
      rw [Op.exec, heq]
      rfl
  | setTarget p target =>
    obtain ⟨n, hp⟩ := he.1
    rw [Op.exec, hp.native]
    rfl
  | setCurrentTarget p target =>
    obtain ⟨n, hp⟩ := he.1
    rw [Op.exec, hp.native]
    rfl
  | setTimeStamp p timeStamp =>
    obtain ⟨n, hp⟩ := he
    rw [Op.exec, hp.native]
    rfl
  | destroy p =>
    obtain ⟨n, hp⟩ := he
    rw [Op.exec, Wrappable.delete_eq hp.native]
    rfl
  | collect o =>
    rcases hi.coherent.collect o with ⟨-, heq⟩ | ⟨p, n, c, -, -, -, heq⟩
    all_goals
      rw [Op.exec, heq]
      rfl
  | _ => rfl

theorem Inv.exec_eq_none_iff {s : State ι} (hi : Inv M s) {op : Op ι} (he : op.Enabled s) :
    op.exec M.toHierarchy s = none ↔ op.ReadsFreed s := by
  by_cases hop : ∀ ft place f receiver args addr, op ≠ .scriptCall ft place f receiver args addr
  · have hsome := hi.exec_isSome he hop
    refine iff_of_false (fun hnone => ?_) ?_
    · rw [hnone] at hsome
      exact absurd hsome (by simp)
    · cases op with
      | scriptCall ft place f receiver args addr => exact absurd rfl (hop ft place f receiver args addr)
      | _ => exact id
  · simp only [not_forall, ne_eq, not_not] at hop
    obtain ⟨ft, place, f, receiver, args, addr, rfl⟩ := hop
    exact hi.scriptCall_eq_none_iff he.2.2.1 args addr

/-- In every state that a program reaches without terminating execution, an operation
that can be started fails exactly if it is a script call that dereferences storage that
holds no native. -/
theorem fails_iff {tr : List (State ι × Op ι)} {s : State ι} (h : M.running.Run tr s) {op : Op ι}
    (he : op.Enabled s) : op.exec M.toHierarchy s = none ↔ op.ReadsFreed s :=
  (Inv.run h.of_restrict).exec_eq_none_iff he

/-- The target of an event is collected, and script then reads it. -/
theorem fails_iff_event : ∃ tr s, ∃ op : Op V8Event.EventType, (V8Event.embedding .standard).running.Run tr s ∧
    op.Enabled s ∧ op.ReadsFreed s := by
  have h₀ : (V8Event.embedding .standard).system.Run [] (.initial 0 0) := .start ⟨0, 0, rfl⟩
  have h₁ := Hierarchy.run_next (.interfaceTemplate .event) h₀ trivial (by decide)
  have h₂ := Hierarchy.run_next (.scriptNew ⟨0, 0⟩ [.string ⟨[97], by decide⟩] 0) h₁ ⟨⟨"Event", by decide⟩, rfl⟩
    (by decide)
  have h₃ := Hierarchy.run_next (.scriptNew ⟨0, 0⟩ [.string ⟨[98], by decide⟩] 1) h₂ ⟨⟨"Event", by decide⟩, rfl⟩
    (by decide)
  have h₄ := Hierarchy.run_next (.setTarget ⟨0, 0⟩ (some ⟨1, 1⟩)) h₃
    ⟨⟨_, rfl, rfl⟩, State.nullOrLive_some ⟨rfl, rfl⟩⟩ (by decide)
  have h₅ := Hierarchy.run_next (.drop 1) h₄ (show 1 ∈ _ by decide) (by decide)
  have h₆ := Hierarchy.run_next (.collect 1) h₅ ((Inv.run h₅).collectable (by decide) (by decide)) (by decide)
  have h₆ := h₆.restrict (C := fun op => ¬ op.Terminates) (by simp [Op.Terminates])
  let getter : FunctionValue V8Event.EventType TemplateId :=
    { callback := some .targetGetter, signature := some 0, length := 0, prototypeRemoved := true,
      acceptAnyReceiver := true }
  let setter : FunctionValue V8Event.EventType TemplateId :=
    { callback := none, signature := some 0, length := 1, prototypeRemoved := true, acceptAnyReceiver := true }
  refine ⟨_, _, .scriptCall 0 .onPrototype getter 0 [] 2, h₆, ?start,
    (fails_iff h₆ ?start).mp (Option.isNone_iff_eq_none.mp (by decide))⟩
  exact ⟨⟨"Event", by decide⟩, ⟨_, rfl, .accessor "target" getter setter V8Event.dontDelete, by decide, by decide⟩,
    by decide, rfl⟩

/-! ## Programs that spare what script reaches -/

/-- Where wrappers that script reaches name live natives, with live targets, script
calls dereference live natives only. -/
theorem Inv.readsLive {s : State ι} (hi : Inv M s) (hf : FieldsLive (· ∈ s.reached) s) (ht : ReachedTargetsLive s)
    {op : Op ι} (he : op.Enabled s) : op.ReadsLive s := by
  cases op with
  | scriptCall ft place f receiver args addr =>
    have hr : receiver ∈ s.reached := he.2.2.1
    rintro q ⟨obj, callback, p, ho, -, -, -, hfield, hq⟩
    obtain ⟨n, hp⟩ := hf receiver obj p hr ho hfield
    rcases hq with rfl | ⟨m, hm, hq⟩
    · exact ⟨n, hp⟩
    · cases hp.native.symm.trans hm
      obtain ⟨hlive, hlive'⟩ := ht p n receiver hp ((hi.coherent.getWrapper_iff hp).mpr ⟨obj, ho, hfield⟩) hr
      cases callback with
      | targetGetter => exact hlive q hq
      | currentTargetGetter => exact hlive' q hq
      | _ => exact hq.elim
  | _ => exact trivial

/-- What the states of programs that spare natives and targets keep. -/
theorem spares_invariant {tr : List (State ι × Op ι)} {s : State ι} (h : M.system.Run tr s)
    (hop : ∀ x ∈ tr, x.2.Spares ∧ SparesTargets x.1 x.2) :
    Inv M s ∧ FieldsLive (fun _ => True) s ∧ ReachedTargetsLive s := by
  refine h.invariant (P := fun s => Inv M s ∧ FieldsLive (fun _ => True) s ∧ ReachedTargetsLive s)
    (fun s op => op.Spares ∧ SparesTargets s op) hop ?_ fun s op s' hs hop hst => ?_
  · rintro s ⟨isolate, context, rfl⟩
    exact ⟨.initial isolate context, fun _ _ _ _ ho => (nomatch ho), fun _ _ _ hp => (nomatch hp.1)⟩
  · obtain ⟨hi, hf, ht⟩ := hs
    have he := hi.step hst
    have ht' := (he.namedTargetsLive_iff hi (hi.coherent.reachedTargetsLive_iff.mp ht) hop.1).mpr hop.2
    exact ⟨hi.effect he, hf.effect hi he hop.1, (hi.effect he).coherent.reachedTargetsLive_iff.mpr ht'⟩

/-- A program that terminates no execution, deletes no native, and spares the targets of
events that script reaches, has dereferenced live natives only; whatever is started
next does so too, and does not fail. -/
theorem spared_progress {tr : List (State ι × Op ι)} {s : State ι} (h : M.running.Run tr s)
    (hop : ∀ x ∈ tr, x.2.Spares ∧ SparesTargets x.1 x.2) :
    (∀ x ∈ tr, x.2.ReadsLive x.1) ∧
      ∀ op : Op ι, op.Enabled s → op.ReadsLive s ∧ (op.exec M.toHierarchy s).isSome := by
  have h := h.of_restrict
  have hlive : ∀ {tr s}, M.system.Run tr s → (∀ x ∈ tr, x.2.Spares ∧ SparesTargets x.1 x.2) → ∀ op : Op ι,
      op.Enabled s → op.ReadsLive s := by
    intro tr s h hop op he
    obtain ⟨hi, hf, ht⟩ := spares_invariant h hop
    exact hi.readsLive (fun o obj p _ => hf o obj p trivial) ht he
  refine ⟨fun x hx => ?_, fun op he => ⟨hlive h hop op he, ?_⟩⟩
  · obtain ⟨tr', s', hr, hs, hsub⟩ := h.of_mem hx
    exact hlive hr (fun y hy => hop y (hsub y hy)) x.2 hs.1
  · rw [Option.isSome_iff_ne_none, ne_eq, (Inv.run h).exec_eq_none_iff he]
    exact Op.not_readsFreed_of_readsLive (hlive h hop op he)

/-- Script may read the target of an event that it keeps with its target. -/
theorem spared_progress_event : ∃ tr s, ∃ op : Op V8Event.EventType,
    (V8Event.embedding .standard).running.Run tr s ∧ op.Enabled s ∧ s.reached = [1, 0] ∧
      (op.exec (V8Event.embedding .standard).toHierarchy s).isSome := by
  have h₀ : (V8Event.embedding .standard).system.Run [] (.initial 0 0) := .start ⟨0, 0, rfl⟩
  have h₁ := Hierarchy.run_next (.interfaceTemplate .event) h₀ trivial (by decide)
  have h₂ := Hierarchy.run_next (.scriptNew ⟨0, 0⟩ [.string ⟨[97], by decide⟩] 0) h₁ ⟨⟨"Event", by decide⟩, rfl⟩
    (by decide)
  have h₃ := Hierarchy.run_next (.scriptNew ⟨0, 0⟩ [.string ⟨[98], by decide⟩] 1) h₂ ⟨⟨"Event", by decide⟩, rfl⟩
    (by decide)
  have h₄ := Hierarchy.run_next (.setTarget ⟨0, 0⟩ (some ⟨1, 1⟩)) h₃
    ⟨⟨_, rfl, rfl⟩, State.nullOrLive_some ⟨rfl, rfl⟩⟩ (by decide)
  let getter : FunctionValue V8Event.EventType TemplateId :=
    { callback := some .targetGetter, signature := some 0, length := 0, prototypeRemoved := true,
      acceptAnyReceiver := true }
  let setter : FunctionValue V8Event.EventType TemplateId :=
    { callback := none, signature := some 0, length := 1, prototypeRemoved := true, acceptAnyReceiver := true }
  have h₄ := h₄.restrict (C := fun op => ¬ op.Terminates) (by simp [Op.Terminates])
  have hprogress := spared_progress h₄ (by simp [Op.Spares, SparesTargets])
  refine ⟨_, _, .scriptCall 0 .onPrototype getter 0 [] 2, h₄, ?start, by decide, (hprogress.2 _ ?start).2⟩
  exact ⟨⟨"Event", by decide⟩, ⟨_, rfl, .accessor "target" getter setter V8Event.dontDelete, by decide, by decide⟩,
    by decide, rfl⟩

end NativeObjects
