import NativeObjects.Proof.Casts
import NativeObjects.Proof.Frames
import NativeObjects.Proof.Requests

/-!
# Where installed functions can be called

V8 accepts a receiver for a signature exactly if the receiver is an instance of
the type of the signature's template (`receiverAccepted_iff`). `InstallMethod`
leaves out the signature on the constructor function, which is an instance of
nothing; `InstallAccessor` does not, so that what is installed can be called
where it is installed exactly if there are no accessors of the constructor
function (`callable_iff`).
-/

namespace NativeObjects

open Lib.Forest (Above climb)

variable {ι : Type} [Fintype ι] [DecidableEq ι] {M : Embedding ι}

/-! ## Objects and their types -/

variable (M) in
/-- Every object was instantiated from the template of some type. -/
def Templated (s : State ι) : Prop :=
  ∀ o obj, s.objects o = some obj → ∃ t, s.templates.cached (M.family.name t) = some obj.template

namespace Templated

theorem step {s s' : State ι} (h : Templated M s) (hi : Inv M s) {op : Op ι} (hs : M.system.step s op s') :
    Templated M s' := by
  intro o obj ho
  rcases hi.object_cases hs ho with ho | ⟨-, hnew⟩
  · obtain ⟨t, ht⟩ := h o obj ho
    exact ⟨t, (hi.step hs).cached_mono ht⟩
  · exact hnew.template

theorem run {tr : List (State ι × Op ι)} {s : State ι} (h : M.system.Run tr s) : Inv M s ∧ Templated M s := by
  refine h.invariant' (P := fun s => Inv M s ∧ Templated M s) ?_
    fun s op s' hi hs => ⟨hi.1.effect (hi.1.step hs), hi.2.step hi.1 hs⟩
  rintro s ⟨isolate, context, rfl⟩
  exact ⟨.initial isolate context, fun _ _ ho => nomatch ho⟩

end Templated

variable (M) in
/-- The receiver is an instance of the type `A`: an object of `A` or of a type below it. -/
def State.InstanceOf (s : State ι) (A : ι) : Receiver → Prop
  | .object o => ∃ obj t, s.objects o = some obj ∧ s.templates.cached (M.family.name t) = some obj.template ∧
      Above M.family.parent t A
  | _ => False

/-! ## The check of a signature -/

/-- The templates inherit as the types do. -/
theorem Embedding.climb_cached {templates : Templates ι} (h : Templates.Inv M.family [] templates) {n : Nat} {t A : ι}
    {a : TemplateId} (ht : templates.cached (M.family.name t) = some a) (hc : climb M.family.parent n t = some A) :
    ∃ ft, templates.cached (M.family.name A) = some ft ∧ climb templates.parent n a = some ft := by
  induction n generalizing t a with
  | zero => exact ⟨a, Option.some.inj hc ▸ ht, rfl⟩
  | succ n ih =>
    obtain ⟨u, hu, hc⟩ := Option.bind_eq_some_iff.mp hc
    obtain ⟨e, he, rfl⟩ := Option.map_eq_some_iff.mp ht
    obtain ⟨e', he', -⟩ := h.parent he hu
    have hu' := Templates.cached_of_holds he'
    obtain ⟨isolate, p, hbuilt, hp⟩ := cached_built h ht
    obtain ⟨ft, hft, hclimb⟩ := ih hu' hc
    refine ⟨ft, hft, ?_⟩
    rw [climb, Templates.parent, hbuilt, Option.bind_some, (Templates.built_parent ..).1, hp, hu, Option.bind_some,
      hu', Option.bind_some, hclimb]

/-- An object of a type below `A` is found to be one before the templates are exhausted. -/
theorem Embedding.climb_lt {templates : Templates ι} (h : Templates.Inv M.family [] templates) {t A : ι}
    {a : TemplateId} (ht : templates.cached (M.family.name t) = some a) {n : Nat}
    (hc : climb M.family.parent n t = some A) : n < templates.next := by
  have hcached : ∀ v, Above M.family.parent t v → ∃ e, Templates.Holds M.family templates v e := by
    obtain ⟨e, he, -⟩ := Option.map_eq_some_iff.mp ht
    exact fun v hv => h.above hv ⟨e, he⟩
  refine Lib.Forest.lt_of_climb M.acyclic (fun v => (templates.cached (M.family.name v)).getD 0)
    (fun v hv => ?_) (fun v w hv hw heq => ?_) hc
  · obtain ⟨e, he⟩ := hcached v hv
    rw [Templates.cached_of_holds he]
    exact h.lt v e he
  · obtain ⟨e, he⟩ := hcached v hv
    obtain ⟨e', he'⟩ := hcached w hw
    rw [Templates.cached_of_holds he, Templates.cached_of_holds he'] at heq
    exact h.inj v w e e' he he' heq

/-- The check of a signature accepts the instances of its type, and no other receiver. -/
theorem receiverAccepted_iff {s : State ι} (hi : Templates.Inv M.family [] s.templates) (ht : Templated M s) {A : ι}
    {ft : TemplateId} (hA : s.templates.cached (M.family.name A) = some ft) (r : Receiver) :
    s.receiverAccepted (some ft) r = true ↔ s.InstanceOf M A r := by
  cases r with
  | object o =>
    rw [State.receiverAccepted, Option.any_eq_true]
    constructor
    · rintro ⟨obj, ho, hs⟩
      obtain ⟨t, htpl⟩ := ht o obj ho
      obtain ⟨n, -, hn⟩ := List.any_eq_true.mp hs
      exact ⟨obj, t, ho, htpl, Embedding.above_of_climb hi htpl hA (beq_iff_eq.mp hn)⟩
    · rintro ⟨obj, t, ho, htpl, habove⟩
      obtain ⟨n, hn⟩ := Lib.Forest.exists_climb_of_above habove
      obtain ⟨ft', hft', hclimb⟩ := Embedding.climb_cached hi htpl hn
      cases hA.symm.trans hft'
      exact ⟨obj, ho, List.any_eq_true.mpr
        ⟨n, List.mem_range.mpr (Embedding.climb_lt hi htpl hn), beq_iff_eq.mpr hclimb⟩⟩
  | function f => simp [State.receiverAccepted, State.InstanceOf]
  | other => simp [State.receiverAccepted, State.InstanceOf]

/-! ## What is installed -/

/-- What is installed at a place of the template of `A`. -/
theorem Embedding.installed_iff {templates : Templates ι} (h : Templates.Inv M.family [] templates) {A : ι}
    {ft : TemplateId} (hA : templates.cached (M.family.name A) = some ft) {place : Place}
    {f : FunctionValue ι TemplateId} :
    templates.Installed ft place f ↔
      (∃ prop ∈ M.props A, Config.has prop.propertyLocationConfiguration (Config.bit place) ∧
        f ∈ (Config.accessorProperty (some ft) prop).functions) ∨
      ∃ method ∈ M.methods A, Config.has method.propertyLocationConfiguration (Config.bit place) ∧
        f ∈ (Config.methodProperty (Config.methodSignature (some ft) place) method).functions := by
  obtain ⟨isolate, p, hb, -⟩ := cached_built h hA
  rw [← M.mem_built_properties isolate A ft p place, Templates.Installed]
  simp only [hb, Option.some.injEq, exists_eq_left']

variable (M) in
/-- The getters, setters and methods of `A`, whose template is `ft`, can be called
where they are installed. -/
structure Callable (s : State ι) (A : ι) (ft : TemplateId) : Prop where
  /-- On the instances and the prototype: with an instance as the receiver, and no other. -/
  onObjects : ∀ place f, place ≠ .onInterface → s.templates.Installed ft place f →
    ∀ r, s.receiverAccepted f.signature r = true ↔ s.InstanceOf M A r
  /-- On the constructor function: with the function, in whatever context, as the receiver. -/
  onInterface : ∀ f, s.templates.Installed ft .onInterface f →
    ∀ context, s.receiverAccepted f.signature (.function ⟨ft, context⟩) = true

/-- An accessor of the constructor function has the signature of the template, which
is the constructor function's own. -/
theorem not_callable_of_accessor {s : State ι} (hi : Templates.Inv M.family [] s.templates) {A : ι} {ft : TemplateId}
    (hA : s.templates.cached (M.family.name A) = some ft) {prop : AccessorConfiguration ι} (hmem : prop ∈ M.props A)
    (hhas : Config.has prop.propertyLocationConfiguration Config.kOnInterface) : ¬ Callable M s A ft := by
  intro hcall
  have hget := hcall.onInterface _ ((Embedding.installed_iff hi hA).mpr
    (.inl ⟨prop, hmem, hhas, List.mem_cons_self⟩)) 0
  exact absurd hget (by simp [State.receiverAccepted])

/-- In every state of a program, for any accessors and methods: what is installed
can be called where it is installed exactly if no accessor is for the constructor
function. -/
theorem callable_iff {tr : List (State ι × Op ι)} {s : State ι} (h : M.system.Run tr s) {A : ι} {ft : TemplateId}
    (hA : s.templates.cached (M.family.name A) = some ft) :
    Callable M s A ft ↔ ∀ prop ∈ M.props A, ¬ Config.has prop.propertyLocationConfiguration Config.kOnInterface := by
  obtain ⟨hi, ht⟩ := Templated.run h
  have hinv := hi.coherent.templates
  constructor
  · exact fun hcall prop hmem hhas => not_callable_of_accessor hinv hA hmem hhas hcall
  · intro hprops
    constructor
    · intro place f hplace hf r
      rw [Embedding.signature_of_installed hinv hA hplace hf]
      exact receiverAccepted_iff hinv ht hA r
    · intro f hf context
      rcases (Embedding.installed_iff hinv hA).mp hf with ⟨prop, hmem, hhas, -⟩ | ⟨method, -, -, hf⟩
      · exact absurd hhas (hprops prop hmem)
      · rw [Config.methodProperty_signature hf]
        rfl

/-- What Event installs is for prototypes. -/
theorem callable_iff_event : ∃ tr s, (V8Event.embedding .standard).system.Run tr s ∧
    s.templates.cached "Event" = some 0 ∧ Callable (V8Event.embedding .standard) s .event 0 := by
  have h₀ : (V8Event.embedding .standard).system.Run [] (.initial 0 0) := .start ⟨0, 0, rfl⟩
  have h₁ := Hierarchy.run_next (.interfaceTemplate .event) h₀ trivial (by decide)
  exact ⟨_, _, h₁, by decide, (callable_iff h₁ (show _ = some 0 by decide)).mpr (by decide)⟩

namespace V8Event

/-- Event, with an accessor and a method of the constructor function. -/
def withInterface : Embedding EventType :=
  { embedding .standard with
    props := fun _ => ⟨"count", some (.other 0), none, dontDelete, Config.kOnInterface⟩ :: props
    methods := fun _ => ⟨"create", some (.other 1), dontDelete, Config.kOnInterface, 0⟩ :: methods }

end V8Event

/-- `Event.create()` is called; to read `Event.count` is a `TypeError`. -/
theorem not_callable_withInterface : ∃ tr s, V8Event.withInterface.system.Run tr s ∧
    s.templates.cached "Event" = some 0 ∧ ¬ Callable V8Event.withInterface s .event 0 ∧
    ∃ getter method, s.templates.Installed 0 .onInterface getter ∧ getter.callback = some (.other 0) ∧
      s.receiverAccepted getter.signature (.function ⟨0, 0⟩) = false ∧
      s.templates.Installed 0 .onInterface method ∧ method.callback = some (.other 1) ∧
      s.receiverAccepted method.signature (.function ⟨0, 0⟩) = true := by
  have h₀ : V8Event.withInterface.system.Run [] (.initial 0 0) := .start ⟨0, 0, rfl⟩
  have h₁ := Hierarchy.run_next (.interfaceTemplate .event) h₀ trivial (by decide)
  let getter : FunctionValue V8Event.EventType TemplateId :=
    { callback := some (.other 0), signature := some 0, length := 0, prototypeRemoved := true,
      acceptAnyReceiver := true }
  let setter : FunctionValue V8Event.EventType TemplateId :=
    { callback := none, signature := some 0, length := 1, prototypeRemoved := true, acceptAnyReceiver := true }
  let method : FunctionValue V8Event.EventType TemplateId :=
    { callback := some (.other 1), signature := none, length := 0, prototypeRemoved := true }
  exact ⟨_, _, h₁, by decide,
    not_callable_of_accessor (Inv.run h₁).coherent.templates (show _ = some 0 by decide) List.mem_cons_self (by decide),
    getter, method, ⟨_, rfl, .accessor "count" getter setter V8Event.dontDelete, by decide, by decide⟩, rfl, by decide,
    ⟨_, rfl, .method "create" method V8Event.dontDelete, by decide, by decide⟩, rfl, by decide⟩

end NativeObjects
