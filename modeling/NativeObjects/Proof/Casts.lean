import NativeObjects.Proof.Links

/-!
# The casts of native callbacks

`ToImpl<A>` casts the pointer in field 0 of a receiver without a check. V8's
check of the receiver against the function's signature makes up for it: a
template inherits from the templates of the type's ancestors only
(`Embedding.above_of_climb`), so that a receiver that the signature of `A`
accepts names a live native of `A`'s class or of one below it
(`receiver_class`). This needs types with distinct names, as the cache of
templates knows a type by its name only (`not_receiver_class_twins`).
-/

namespace NativeObjects

open Lib.Forest (Above climb)

variable {ι : Type} [Fintype ι] [DecidableEq ι] {M : Embedding ι}

/-- What the template of `t` inherits from is the template of an ancestor of `t`. -/
theorem Embedding.above_of_climb {templates : Templates ι} (h : Templates.Inv M.family [] templates) {n : Nat}
    {t A : ι} {a ft : TemplateId} (ht : templates.cached (M.family.name t) = some a)
    (hA : templates.cached (M.family.name A) = some ft) (hc : climb templates.parent n a = some ft) :
    Above M.family.parent t A := by
  induction n generalizing t a with
  | zero =>
    cases hc
    rw [cached_injective h ht hA]
    exact Lib.Forest.above_self A
  | succ n ih =>
    obtain ⟨b, hb, hc⟩ := Option.bind_eq_some_iff.mp hc
    obtain ⟨isolate, p, hbuilt, hp⟩ := cached_built h ht
    rw [Templates.parent, hbuilt, Option.bind_some, (Templates.built_parent ..).1, hp] at hb
    obtain ⟨u, hu, hb⟩ := Option.bind_eq_some_iff.mp hb
    exact Lib.Forest.above_head hu (ih hb hc)

/-- A function on the instances or the prototype of a cached template has the
template as its signature. -/
theorem Embedding.signature_of_installed {templates : Templates ι} (h : Templates.Inv M.family [] templates) {A : ι}
    {ft : TemplateId} {place : Place} {f : FunctionValue ι TemplateId}
    (hA : templates.cached (M.family.name A) = some ft) (hplace : place ≠ .onInterface)
    (hf : templates.Installed ft place f) : f.signature = some ft := by
  obtain ⟨template, ht, hf⟩ := hf
  obtain ⟨isolate, parent, hb, -⟩ := cached_built h hA
  cases ht.symm.trans hb
  exact M.built_signature hplace hf

/-- Where native code deletes nothing: a receiver that script passes to a function
on the instances or the prototype of `A`, and that the check of its signature
accepts, names a live native of the class `A` or of one below it. -/
theorem receiver_class {tr : List (State ι × Op ι)} {s : State ι} (h : M.system.Run tr s)
    (hop : ∀ x ∈ tr, x.2.Spares) {A : ι} {ft : TemplateId} {place : Place} {f : FunctionValue ι TemplateId}
    {receiver : ObjectId} {obj : JSObject ι} (hA : s.templates.cached (M.family.name A) = some ft)
    (hplace : place ≠ .onInterface) (hf : s.templates.Installed ft place f) (hr : receiver ∈ s.reached)
    (ho : s.objects receiver = some obj) (hs : signatureAccepts s.templates f.signature obj = true) :
    ∃ p n, Config.toImpl receiver s = some (some p) ∧ s.Live p n ∧ Above M.family.parent n.typeInfo A := by
  obtain ⟨hi, hl⟩ := FieldsLive.run h hop
  obtain ⟨obj', p, ho', hp⟩ := hi.reached_field hr
  cases ho.symm.trans ho'
  obtain ⟨n, hn⟩ := hl receiver obj p trivial ho hp
  obtain ⟨c, -, hlink⟩ := hi.coherent.linked_of_field ho hp hn
  obtain ⟨obj', ho', -, -, ht⟩ := hlink.object
  cases ho.symm.trans ho'
  rw [Embedding.signature_of_installed hi.coherent.templates hA hplace hf, signatureAccepts, List.any_eq_true] at hs
  obtain ⟨k, -, hk⟩ := hs
  exact ⟨p, n, Config.toImpl_eq ho hp, hn,
    Embedding.above_of_climb hi.coherent.templates ht hA (beq_iff_eq.mp hk)⟩

/-! ## Event and a class below it -/

namespace V8Event

/-- `false` is Event, `true` is a class below it. -/
def pairInfo : Bool → WrapperTypeInfo Bool
  | false => { templateFunction := false, interfaceName := "Event", parentClass := none, internalFieldCount := 2,
               gcClassId := hcGarbageCollectedClassId }
  | true => { templateFunction := true, interfaceName := "SubEvent", parentClass := some false,
              internalFieldCount := 3, gcClassId := hcGarbageCollectedClassId }

/-- The getter of the type is Event's, on prototypes. -/
def pair : Embedding Bool where
  info := pairInfo
  props
    | false => [⟨"type", some .typeGetter, none, dontDelete, Config.kOnPrototype⟩]
    | true => []
  methods _ := []
  strings := .standard
  interfaceName_injective := by decide
  templateFunction_self := by decide
  acyclic := by
    intro t h
    obtain ⟨u, hu, h⟩ := Relation.TransGen.head'_iff.mp h
    cases t with
    | false => exact nomatch hu
    | true =>
      cases hu
      rcases Relation.ReflTransGen.cases_head h with h | ⟨u, hu, -⟩
      · exact nomatch h
      · exact nomatch hu
  two_le_internalFieldCount := by decide

end V8Event

/-- The type getter of Event is called on an object of the class below. -/
theorem receiver_class_pair : ∃ tr s, V8Event.pair.system.Run tr s ∧
    ∃ p n, Config.toImpl 0 s = some (some p) ∧ s.Live p n ∧ Above V8Event.pair.family.parent n.typeInfo false := by
  have h₀ : V8Event.pair.system.Run [] (.initial 0 0) := .start ⟨0, 0, rfl⟩
  have h₁ := Hierarchy.run_next (.interfaceTemplate true) h₀ trivial (by decide)
  have h₂ := Hierarchy.run_next (.scriptNew ⟨0, 0⟩ [.string ⟨[97], by decide⟩] 0) h₁ ⟨⟨"SubEvent", by decide⟩, rfl⟩
    (by decide)
  let getter : FunctionValue Bool TemplateId :=
    { callback := some .typeGetter, signature := some 1, length := 0, prototypeRemoved := true,
      acceptAnyReceiver := true }
  let setter : FunctionValue Bool TemplateId :=
    { callback := none, signature := some 1, length := 1, prototypeRemoved := true, acceptAnyReceiver := true }
  refine ⟨_, _, h₂, receiver_class (A := false) (f := getter) h₂ (by simp [Op.Spares]) (show _ = some 1 by decide)
    (show Place.onPrototype ≠ .onInterface by decide)
    ⟨_, rfl, .accessor "type" getter setter V8Event.dontDelete, by decide, by decide⟩ (by decide) rfl (by decide)⟩

/-! ## Two classes of one name -/

namespace V8Event

/-- Two unrelated classes, both with Event's name. -/
def twins : Hierarchy Bool where
  info t := { templateFunction := t, interfaceName := "Event", parentClass := none, internalFieldCount := 2,
              gcClassId := hcGarbageCollectedClassId }
  props
    | false => [⟨"type", some .typeGetter, none, dontDelete, Config.kOnPrototype⟩]
    | true => []
  methods _ := []
  strings := .standard
  templateFunction_self := by decide
  acyclic := by
    intro t h
    obtain ⟨u, hu, -⟩ := Relation.TransGen.head'_iff.mp h
    exact nomatch hu
  two_le_internalFieldCount := by decide

end V8Event

/-- A native of the class `true` is wrapped with the template of the class
`false`, whose getter then accepts the wrapper. -/
theorem not_receiver_class_twins : ∃ tr s, V8Event.twins.system.Run tr s ∧ (∀ x ∈ tr, x.2.Spares) ∧
    ∃ ft place f receiver obj, s.templates.cached (V8Event.twins.family.name false) = some ft ∧
      place ≠ .onInterface ∧ s.templates.Installed ft place f ∧ receiver ∈ s.reached ∧
      s.objects receiver = some obj ∧ signatureAccepts s.templates f.signature obj = true ∧
      ¬ ∃ p n, Config.toImpl receiver s = some (some p) ∧ s.Live p n ∧
        Above V8Event.twins.family.parent n.typeInfo false := by
  have h₀ : V8Event.twins.system.Run [] (.initial 0 0) := .start ⟨0, 0, rfl⟩
  have h₁ := Hierarchy.run_next (.interfaceTemplate false) h₀ trivial (by decide)
  have h₂ := Hierarchy.run_next (.nativeNew true [97] 0) h₁ ⟨by decide, rfl⟩ (by decide)
  have h₃ := Hierarchy.run_next (.wrap ⟨0, 0⟩ 0 1) h₂ ⟨⟨_, rfl, rfl⟩, rfl⟩ (by decide)
  let getter : FunctionValue Bool TemplateId :=
    { callback := some .typeGetter, signature := some 0, length := 0, prototypeRemoved := true,
      acceptAnyReceiver := true }
  let setter : FunctionValue Bool TemplateId :=
    { callback := none, signature := some 0, length := 1, prototypeRemoved := true, acceptAnyReceiver := true }
  refine ⟨_, _, h₃, by simp [Op.Spares], 0, .onPrototype, getter, 0, _, by decide, by decide,
    ⟨_, rfl, .accessor "type" getter setter V8Event.dontDelete, by decide, by decide⟩, by decide, rfl, by decide, ?_⟩
  rintro ⟨p, n, hp, hn, ha⟩
  have hp' : p = ⟨0, 0⟩ := Option.some.inj (Option.some.inj (hp.symm.trans (by decide)))
  subst hp'
  have ht : (some n).map Event.typeInfo = some true := by
    rw [← hn.1]
    decide
  rw [Option.some.inj ht] at ha
  rcases Relation.ReflTransGen.cases_head ha with h | ⟨u, hu, -⟩
  · cases h
  · cases hu

end NativeObjects
