import NativeObjects.Proof.Creation
import NativeObjects.Proof.Statics

/-!
# The constructor mode of isolates that run at once

The mode is one variable of the process, which each `Wrap` saves, sets and
restores (`Process.saved_step`). It is to wrap exactly while a `Wrap` is between
setting and restoring it, and constructor callbacks find it as they need it, just
in the runs whose steps are in order (`modes_iff`): script constructs no event
while a `Wrap` has set the mode, and a `Wrap` restores the mode under another one
just if it saved it under one.
-/

namespace NativeObjects

open Lib (System)

variable {ι κ : Type}

/-! ## Steps and the mode -/

namespace Step

/-- A `Wrap` restores the mode while another has set it, just if one had when it
saved the mode. -/
def Restores (p : Process ι κ) : Step ι κ → Prop
  | .restoreMode i => p.saved.InOrder (.restore i)
  | _ => True

/-- Script constructs no event while a `Wrap` has set the mode. -/
def Undisturbed (p : Process ι κ) : Step ι κ → Prop
  | .run _ (.scriptNew ..) => ¬ p.saved.Busy
  | _ => True

end Step

namespace Process

theorem Quiet.not_busy {p : Process ι κ} (h : p.Quiet) : ¬ p.saved.Busy := by
  rintro ⟨i, hi⟩
  rw [show p.saved.place i = (Thread.idle : Thread ι).place from congrArg Thread.place (h i)] at hi
  exact hi.elim

variable [DecidableEq κ]

theorem saved_goto (p : Process ι κ) (i : κ) (t : Thread ι) :
    (p.goto i t).saved = { p.saved with place := Function.update p.saved.place i t.place } :=
  congrArg _ (Function.comp_update Thread.place p.threads i t)

theorem saved_put (p : Process ι κ) (i : κ) {s : State ι} (h : s.mode = p.mode) : (p.put i s).saved = p.saved := by
  rw [saved, put, h]
  rfl

theorem saved_finish (p : Process ι κ) (i : κ) (ret : Local ObjectId) : (p.finish i ret).saved = p.saved := by
  cases ret <;> rfl

/-- The thread `i` is where it was, as far as the mode is concerned. -/
theorem saved_goto_self {p : Process ι κ} {i : κ} {t t' : Thread ι} (h : p.threads i = t)
    (ht : t'.place = t.place) : (p.goto i t').saved = p.saved := by
  rw [saved_goto, ht, ← h]
  exact congrArg _ (Function.update_eq_self i p.saved.place)

variable [Fintype ι] [DecidableEq ι] {M : Embedding ι}

/-- A step leaves the mode and what threads saved of it as they are, or saves, sets
or restores the mode. -/
theorem saved_step {p p' : Process ι κ} {a : Step ι κ} (hi : Templates.Inv M.family [] p.templates)
    (h : (M.processes κ).step p a p') : Templates.Inv M.family [] p'.templates ∧
      (p'.saved = p.saved ∧ (∀ i, a ≠ .restoreMode i) ∨
        ∃ b, Lib.SavedVar.Step .kWrapExistingObject p.saved b p'.saved ∧ ∀ i, a = .restoreMode i ↔ b = .restore i) := by
  obtain ⟨-, hen, hx⟩ := h
  cases a with
  | run i op =>
    obtain ⟨s, hs, hp'⟩ := Option.bind_eq_some_iff.mp hx
    cases hp'
    have hk := Embedding.exec_statics (s := p.isolate i) hi hen.2.1 s hs
    exact ⟨hk.templates, .inl ⟨p.saved_put i hk.mode, by simp⟩⟩
  | wrap i this context =>
    obtain ⟨fast, hfast, hx⟩ := Option.bind_eq_some_iff.mp hx
    cases fast with
    | some othis =>
      cases hx
      refine ⟨?_, .inl ⟨p.saved_finish i othis, by simp⟩⟩
      cases othis <;> exact hi
    | none =>
      obtain ⟨n, hn, hp'⟩ := Option.bind_eq_some_iff.mp hx
      cases hp'
      have hout : p.saved.place i = .outside := congrArg Thread.place hen.1
      refine ⟨hi, .inr ⟨.save i, ?_, fun _ => by simp⟩⟩
      rw [saved_goto]
      exact .save hout
  | setMode i =>
    cases ht : p.threads i with
    | saved f =>
      simp only [Step.exec, ht, Option.some.injEq] at hx
      subst hx
      have hsaved : p.saved.place i = .saved f.prevConstructorMode f.overlapped := congrArg Thread.place ht
      refine ⟨hi, .inr ⟨.set i, ?_, fun _ => by simp⟩⟩
      rw [saved_goto]
      exact .set hsaved
    | _ => simp only [Step.exec, ht, reduceCtorEq] at hx
  | newInstance i addr =>
    cases ht : p.threads i with
    | set f =>
      simp only [Step.exec, ht] at hx
      split at hx
      · next wrapper s hs =>
        cases hx
        have hk := Embedding.wrapInstance_statics (s := p.isolate i) hi _ _ _ _ hs
        refine ⟨hk.templates, .inl ⟨?_, by simp⟩⟩
        have hplace : (Thread.instantiated f wrapper).place = (Thread.set f).place := rfl
        exact (saved_goto_self (p := p.put i s) ht hplace).trans (p.saved_put i hk.mode)
      · cases hx
        exact ⟨hi, .inl ⟨rfl, by simp⟩⟩
    | _ => simp only [Step.exec, ht, reduceCtorEq] at hx
  | associateWithWrapper i =>
    cases ht : p.threads i with
    | instantiated f wrapper =>
      simp only [Step.exec, ht] at hx
      obtain ⟨r, hs, hp'⟩ := Option.bind_eq_some_iff.mp hx
      cases hp'
      have hk := Embedding.Statics.of_same (M := M) (s := p.isolate i) hi
        (Wrappable.associateWithWrapper_statics _ _ _ _ _ r hs)
      refine ⟨hk.templates, .inl ⟨?_, by simp⟩⟩
      have hplace : (Thread.associated f r.1).place = (Thread.instantiated f wrapper).place := rfl
      exact (saved_goto_self (p := p.put i r.2) ht hplace).trans (p.saved_put i hk.mode)
    | _ => simp only [Step.exec, ht, reduceCtorEq] at hx
  | restoreMode i =>
    cases ht : p.threads i with
    | associated f ret =>
      simp only [Step.exec, ht, Option.some.injEq] at hx
      subst hx
      have hin : p.saved.place i = .inside f.prevConstructorMode f.overlapped := congrArg Thread.place ht
      refine ⟨?_, .inr ⟨.restore i, ?_, fun j => ?_⟩⟩
      · cases ret <;> exact hi
      · rw [saved_finish, saved_goto]
        exact .restore hin
      · rw [Step.restoreMode.injEq, Lib.SavedVar.Action.restore.injEq]
    | _ => simp only [Step.exec, ht, reduceCtorEq] at hx

end Process

/-! ## One thread alone -/

namespace Process

variable [DecidableEq κ]

@[simp] theorem isolate_put (p : Process ι κ) (i : κ) (s : State ι) : (p.put i s).isolate i = s := by
  simp only [isolate, put, Function.update_self]

@[simp] theorem isolate_goto (p : Process ι κ) (i j : κ) (t : Thread ι) : (p.goto i t).isolate j = p.isolate j := rfl

@[simp] theorem threads_goto (p : Process ι κ) (i : κ) (t : Thread ι) : (p.goto i t).threads i = t :=
  Function.update_self ..

theorem goto_goto (p : Process ι κ) (i : κ) (t t' : Thread ι) : (p.goto i t).goto i t' = p.goto i t' := by
  simp only [goto, Function.update_idem]

theorem put_put (p : Process ι κ) (i : κ) (s s' : State ι) : (p.put i s).put i s' = p.put i s' := by
  simp only [put, Function.update_idem]

theorem put_goto (p : Process ι κ) (i : κ) (t : Thread ι) (s : State ι) :
    (p.goto i t).put i s = (p.put i s).goto i t := rfl

end Process

/-- Taken one after another, the steps of a `Wrap` do what `Wrap` does. -/
theorem exec_wrap_alone [Fintype ι] [DecidableEq κ] (M : Hierarchy ι) {p : Process ι κ} {i : κ}
    (hidle : p.threads i = .idle) {this : NativePtr} {creationContext : ContextId} {addr : Addr}
    (hfast : Hierarchy.wrapFast this (p.isolate i) = some none) {o : ObjectId} {s : State ι}
    (hw : M.wrap this creationContext addr (p.isolate i) = some (some o, s)) :
    [Step.wrap i this creationContext, .setMode i, .newInstance i addr, .associateWithWrapper i,
      .restoreMode i].foldlM (fun p a => a.exec M p) p = some (p.put i (s.giveWrapper o)) := by
  simp only [Hierarchy.wrap, hfast, Option.bind_eq_bind, Option.bind_some, Option.bind_eq_some_iff] at hw
  obtain ⟨n, hn, ⟨wrapper, s₁⟩, hinst, ⟨ret, s₂⟩, hassoc, hret⟩ := hw
  cases hret
  let f : WrapFrame ι :=
    { this := this, creationContext := creationContext, wrapperTypeInfo := n.typeInfo,
      prevConstructorMode := p.mode, overlapped := p.saved.Busy }
  let p₀ : Process ι κ := { p with mode := .kWrapExistingObject }
  have h₁ : (Step.wrap i this creationContext).exec M p = some (p.goto i (.saved f)) := by
    simp only [Step.exec, hfast, hn, Option.bind_eq_bind, Option.bind_some, Option.pure_def, f]
  have h₂ : (Step.setMode i).exec M (p.goto i (.saved f)) = some (p₀.goto i (.set f)) := by
    simp only [Step.exec, Process.threads_goto]
    exact congrArg some (p₀.goto_goto i (.saved f) (.set f))
  have h₃ : (Step.newInstance i addr).exec M (p₀.goto i (.set f)) =
      some ((p₀.put i s₁).goto i (.instantiated f wrapper)) := by
    simp only [Step.exec, Process.threads_goto, Process.isolate_goto]
    rw [show M.wrapInstance f.wrapperTypeInfo f.creationContext addr (p₀.isolate i) = some (wrapper, s₁) from hinst]
    simp only [Process.put_goto, Process.goto_goto]
  have h₄ : (Step.associateWithWrapper i).exec M ((p₀.put i s₁).goto i (.instantiated f wrapper)) =
      some ((p₀.put i s₂).goto i (.associated f (some o))) := by
    simp only [Step.exec, Process.threads_goto, Process.isolate_goto, Process.isolate_put]
    rw [show Wrappable.associateWithWrapper M.info f.this f.wrapperTypeInfo (some wrapper) s₁ = some (some o, s₂)
      from hassoc]
    simp only [Option.bind_eq_bind, Option.bind_some, Option.pure_def, Process.put_goto, Process.goto_goto,
      Process.put_put]
  have h₅ : (Step.restoreMode i).exec M ((p₀.put i s₂).goto i (.associated f (some o))) =
      some (p.put i ((Hierarchy.setMode p.mode s₂).giveWrapper o)) := by
    have hthreads : Function.update p.threads i .idle = p.threads := by rw [← hidle, Function.update_eq_self]
    simp only [Step.exec, Process.finish, Process.put, Process.goto, Process.isolate, Function.update_idem,
      Function.update_self]
    rw [hthreads]
    rfl
  simp only [List.foldlM_cons, List.foldlM_nil, h₁, h₂, h₃, h₄, h₅, Option.bind_eq_bind, Option.bind_some,
    Option.pure_def]
  rfl

/-! ## Constructor callbacks -/

/-- What a constructor callback of the step does: called by script it takes the
branch that creates an event, and links a new native if it was passed a string;
called by a `Wrap` it takes the other branch, and makes no native. -/
def Step.Served [Fintype ι] (M : Hierarchy ι) (p : Process ι κ) : Step ι κ → Prop
  | .run i (.scriptNew f args addr) =>
    p.mode = .kCreateNewObject ∧ ∀ v, args.getD 0 .undefined = .string v → ∃ t,
      (Op.scriptNew f args addr).exec M (p.isolate i) =
        some ((p.isolate i).created M.info t f (cString (M.strings.utf8Value v)) addr)
  | .newInstance i addr =>
    p.mode = .kWrapExistingObject ∧ ∀ f, p.threads i = .set f → ∃ wrapper s,
      M.wrapInstance f.wrapperTypeInfo f.creationContext addr (p.isolate i) = some (wrapper, s) ∧
        s.natives = (p.isolate i).natives ∧ s.births = (p.isolate i).births
  | _ => True

/-- The mode is to wrap exactly while a `Wrap` has set it and not restored it. -/
abbrev Process.ModeReflects (p : Process ι κ) : Prop := p.saved.Reflects .kCreateNewObject .kWrapExistingObject

variable [Fintype ι] [DecidableEq ι] [DecidableEq κ] {M : Embedding ι}

/-- Where the mode is as it should be, only script can disturb a constructor callback. -/
theorem Step.served_iff {p p' : Process ι κ} {a : Step ι κ} (hi : Templates.Inv M.family [] p.templates)
    (hr : p.ModeReflects) (h : (M.processes κ).step p a p') : a.Served M.toHierarchy p ↔ a.Undisturbed p := by
  obtain ⟨-, hen, hx⟩ := h
  cases a with
  | run i op =>
    cases op with
    | scriptNew f args addr =>
      obtain ⟨-, -, hexp, hfree⟩ := hen
      obtain ⟨t, -, hcons⟩ := Embedding.constructs_of_exposed (M := M) (s := p.isolate i) hi hexp
      constructor
      · rintro ⟨hm, -⟩ hb
        exact absurd (hm.symm.trans (hr.busy hb)) (by simp)
      · intro hb
        have hm : p.mode = .kCreateNewObject := hr.quiet hb
        exact ⟨hm, fun v hv => ⟨t, Hierarchy.exec_scriptNew hcons hm hv hfree⟩⟩
    | _ => exact Iff.rfl
  | newInstance i addr =>
    obtain ⟨f, ht⟩ : ∃ f, p.threads i = .set f := by
      cases ht : p.threads i with
      | set f => exact ⟨f, rfl⟩
      | _ => simp only [exec, ht, reduceCtorEq] at hx
    -- the thread itself is between setting and restoring the mode
    have hb : p.saved.Busy := ⟨i, by
      rw [show p.saved.place i = (Thread.set f).place from congrArg Thread.place ht]
      exact trivial⟩
    have hm : p.mode = .kWrapExistingObject := hr.busy hb
    refine iff_of_true ⟨hm, fun f _ => ?_⟩ trivial
    obtain ⟨ft, templates, hreq, -, hi', hcached, -⟩ :=
      Embedding.interfaceTemplate_eq (M := M) (s := p.isolate i) hi f.wrapperTypeInfo
    have hcons : M.construct (Hierarchy.getFunction ft ((p.isolate i).setTemplates templates)) [] addr
        ((p.isolate i).setTemplates templates) = _ :=
      Hierarchy.construct_wrap (Embedding.constructs_of_cached hi' hcached) hm
    exact ⟨_, _, Hierarchy.wrapInstance_eq hreq hcons, rfl, rfl⟩
  | _ => exact Iff.rfl

/-! ## Runs -/

variable (M) in
structure Process.Kept (p : Process ι κ) : Prop where
  templates : Templates.Inv M.family [] p.templates
  saved : p.saved.Saved .kCreateNewObject .kWrapExistingObject

theorem Process.kept_initial {p : Process ι κ} (h : (M.processes κ).init p) : p.Kept M ∧ p.ModeReflects := by
  obtain ⟨isolate, context, -, rfl⟩ := h
  refine ⟨⟨.empty, fun i v o hi => ?_⟩, ⟨fun hb => absurd hb (Quiet.not_busy fun _ => rfl), fun _ => rfl⟩⟩
  rcases hi with hi | hi <;> simp [initial, saved, Thread.place] at hi

theorem Process.Kept.step {p p' : Process ι κ} {a : Step ι κ} (hk : p.Kept M) (hr : p.ModeReflects)
    (h : (M.processes κ).step p a p') : p'.Kept M ∧ (p'.ModeReflects ↔ a.Restores p) := by
  obtain ⟨ht, ⟨heq, ha⟩ | ⟨b, hb, ha⟩⟩ := saved_step hk.templates h
  · have hp' : a.Restores p := by
      cases a with
      | restoreMode i => exact absurd rfl (ha i)
      | _ => exact trivial
    rw [ModeReflects, heq]
    exact ⟨⟨ht, heq ▸ hk.saved⟩, iff_of_true hr hp'⟩
  · refine ⟨⟨ht, hb.saved hk.saved hr⟩, (hb.reflects_iff (by decide) hk.saved hr).trans ?_⟩
    cases a with
    | restoreMode i => rw [(ha i).mp rfl, Step.Restores]
    | _ =>
      refine iff_of_true ?_ trivial
      cases b with
      | restore i => exact absurd ((ha i).mpr rfl) (by simp)
      | _ => exact trivial

theorem Process.kept_run {tr : List (Process ι κ × Step ι κ)} {p : Process ι κ} (h : (M.processes κ).Run tr p)
    (hK : ∀ x ∈ tr, x.2.Restores x.1) : p.Kept M ∧ p.ModeReflects := by
  refine h.invariant (fun p a => a.Restores p) hK (fun _ => kept_initial) fun p a p' hp ha hs => ?_
  obtain ⟨hk, hiff⟩ := hp.1.step hp.2 hs
  exact ⟨hk, hiff.mpr ha⟩

/-- In a run whose steps are in order, constructor callbacks take the branches that
they should, and the mode is to create objects whenever no `Wrap` is in progress.
The steps are in order exactly when also the mode is to wrap just while a `Wrap` has
set it and not restored it. -/
theorem modes_iff {tr : List (Process ι κ × Step ι κ)} {p : Process ι κ} (h : (M.processes κ).Run tr p) :
    ((∀ x ∈ tr, x.2.Restores x.1 ∧ x.2.Undisturbed x.1) →
      (∀ x ∈ tr, x.2.Served M.toHierarchy x.1) ∧
        ∀ t ∈ System.visited tr p, t.Quiet → t.mode = .kCreateNewObject) ∧
    ((∀ x ∈ tr, x.2.Restores x.1 ∧ x.2.Undisturbed x.1) ↔
      (∀ t ∈ System.visited tr p, t.ModeReflects) ∧ ∀ x ∈ tr, x.2.Served M.toHierarchy x.1) := by
  have hvisited : (∀ t ∈ System.visited tr p, t.ModeReflects) ↔ ∀ x ∈ tr, x.2.Restores x.1 :=
    h.forall_visited_iff (I := Process.Kept M) (fun _ => Process.kept_initial)
      (fun _ _ _ hk hr _ hs => (hk.step hr hs).1) fun _ _ _ hk hr hs => (hk.step hr hs).2
  have hserved : (∀ x ∈ tr, x.2.Restores x.1) → ∀ x ∈ tr, (x.2.Served M.toHierarchy x.1 ↔ x.2.Undisturbed x.1) := by
    intro hK x hx
    obtain ⟨tr', p', hr, hs, hsub⟩ := h.of_mem hx
    obtain ⟨hk, hm⟩ := Process.kept_run hr fun y hy => hK y (hsub y hy)
    exact Step.served_iff hk.templates hm hs
  have hiff : (∀ x ∈ tr, x.2.Restores x.1 ∧ x.2.Undisturbed x.1) ↔
      (∀ t ∈ System.visited tr p, t.ModeReflects) ∧ ∀ x ∈ tr, x.2.Served M.toHierarchy x.1 := by
    rw [hvisited]
    constructor
    · intro hK
      have hK' : ∀ x ∈ tr, x.2.Restores x.1 := fun x hx => (hK x hx).1
      exact ⟨hK', fun x hx => (hserved hK' x hx).mpr (hK x hx).2⟩
    · rintro ⟨hK, hs⟩ x hx
      exact ⟨hK x hx, (hserved hK x hx).mp (hs x hx)⟩
  exact ⟨fun hK => ⟨(hiff.mp hK).2, fun t ht hq => ((hiff.mp hK).1 t ht).quiet hq.not_busy⟩, hiff⟩

omit [DecidableEq ι] in
/-- A run, one step longer. -/
theorem Hierarchy.processes_next {M : Hierarchy ι} {tr : List (Process ι κ × Step ι κ)} {p : Process ι κ} (a : Step ι κ)
    (h : (M.processes κ).Run tr p) (hab : p.emptyInstance = false) (he : a.Enabled p) (hx : (a.exec M p).isSome) :
    (M.processes κ).Run ((p, a) :: tr) ((a.exec M p).get hx) :=
  .step h ⟨hab, he, (Option.some_get hx).symm⟩

/-- While a `Wrap` of another isolate has set the mode, script constructs an event:
it gets an object that no native is linked with. -/
theorem not_modes_event : ∃ tr p, ((V8Event.embedding .standard).processes Bool).Run tr p ∧
    (∃ x ∈ tr, ¬ x.2.Served (V8Event.embedding .standard).toHierarchy x.1) ∧ (p.isolate true).reached = [0] ∧
    ((p.isolate true).objects 0).map JSObject.fields = some [.undefined, .undefined] := by
  have h₀ : ((V8Event.embedding .standard).processes Bool).Run [] (.initial Bool.toNat fun _ => 0) :=
    .start ⟨_, _, by decide, rfl⟩
  have h₁ := Hierarchy.processes_next (.run true (.interfaceTemplate .event)) h₀ rfl ⟨rfl, id, trivial⟩ (by decide)
  have h₂ := Hierarchy.processes_next (.run false (.nativeNew .event [97] 0)) h₁ rfl ⟨rfl, id, by decide, rfl⟩
    (by decide)
  have h₃ := Hierarchy.processes_next (.wrap false ⟨0, 0⟩ 0) h₂ rfl ⟨rfl, _, rfl, rfl⟩ (by decide)
  have h₄ := Hierarchy.processes_next (.setMode false) h₃ rfl trivial (by decide)
  have h₅ := Hierarchy.processes_next (.run true (.scriptNew ⟨0, 0⟩ [.string ⟨[98], by decide⟩] 0)) h₄ rfl
    ⟨rfl, id, ⟨"Event", by decide⟩, rfl⟩ (by decide)
  refine ⟨_, _, h₅, ⟨_, List.mem_cons_self, ?_⟩, by decide, by decide⟩
  rintro ⟨hm, -⟩
  exact absurd hm (by decide)

/-- Script constructs an event, and native code then wraps one on another isolate. -/
theorem modes_iff_event : ∃ tr p, ((V8Event.embedding .standard).processes Bool).Run tr p ∧
    (p.isolate true).reached = [0] ∧ (p.isolate false).reached = [0] ∧
    (∀ x ∈ tr, x.2.Served (V8Event.embedding .standard).toHierarchy x.1) ∧
    ∀ t ∈ System.visited tr p, t.Quiet → t.mode = .kCreateNewObject := by
  have h₀ : ((V8Event.embedding .standard).processes Bool).Run [] (.initial Bool.toNat fun _ => 0) :=
    .start ⟨_, _, by decide, rfl⟩
  have h₁ := Hierarchy.processes_next (.run true (.interfaceTemplate .event)) h₀ rfl ⟨rfl, id, trivial⟩ (by decide)
  have h₂ := Hierarchy.processes_next (.run true (.scriptNew ⟨0, 0⟩ [.string ⟨[98], by decide⟩] 0)) h₁ rfl
    ⟨rfl, id, ⟨"Event", by decide⟩, rfl⟩ (by decide)
  have h₃ := Hierarchy.processes_next (.run false (.nativeNew .event [97] 0)) h₂ rfl ⟨rfl, id, by decide, rfl⟩
    (by decide)
  have h₄ := Hierarchy.processes_next (.wrap false ⟨0, 0⟩ 0) h₃ rfl ⟨rfl, _, rfl, rfl⟩ (by decide)
  have h₅ := Hierarchy.processes_next (.setMode false) h₄ rfl trivial (by decide)
  have h₆ := Hierarchy.processes_next (.newInstance false 1) h₅ rfl rfl (by decide)
  have h₇ := Hierarchy.processes_next (.associateWithWrapper false) h₆ rfl trivial (by decide)
  have h₈ := Hierarchy.processes_next (.restoreMode false) h₇ rfl trivial (by decide)
  refine ⟨_, _, h₈, by decide, by decide, (modes_iff h₈).1 ?_⟩
  simp only [List.forall_mem_cons, Step.Restores, Step.Undisturbed, List.not_mem_nil, false_imp_iff, implies_true,
    and_true, true_and]
  constructor
  · refine Lib.SavedVar.State.inOrder_restore rfl ?_ fun j hj hi => ?_
    · exact Process.Quiet.not_busy fun _ => rfl
    · cases j with
      | false => exact hj rfl
      | true => exact hi
  · exact Process.Quiet.not_busy fun _ => rfl

end NativeObjects
