import NativeObjects.Proof.Coherent
import NativeObjects.Proof.Locations

/-!
# The interface templates of an embedding

What V8Event's install function makes of a template: its function constructs
objects of its own class (`Embedding.built_constructs`), and the functions that
it puts on instances and prototypes have the template itself as their signature
(`Embedding.built_signature`). A request for a template returns, and keeps what
is cached (`Embedding.interfaceTemplate_eq`).
-/

namespace NativeObjects

variable {ι : Type}

/-! ## What the install function makes -/

namespace V8Event

variable {τ : Type}

/-- The properties that the install function sets with the signature `signature`, and where. -/
def entries (props : List (AccessorConfiguration ι)) (methods : List (MethodConfiguration ι)) (signature : τ) :
    List (Place × Property ι τ) :=
  (props.flatMap fun prop => Config.placed (Config.nonEmpty true true) prop.propertyLocationConfiguration
      fun _ => Config.accessorProperty (some signature) prop) ++
    methods.flatMap fun method => Config.placed (Config.nonEmpty true true) method.propertyLocationConfiguration
      fun place => Config.methodProperty (Config.methodSignature (some signature) place) method

theorem installCalls_eq (t : ι) (props : List (AccessorConfiguration ι)) (methods : List (MethodConfiguration ι))
    (interfaceTemplate : τ) :
    installCalls t props methods interfaceTemplate = some (.setCallHandler (.constructorCallback t) :: .setLength 1 ::
      (entries props methods interfaceTemplate).map fun c => .setProperty c.1 c.2) := by
  have haccessors := Config.installAccessors_eq true true (some interfaceTemplate)
    (show ∀ prop ∈ props, _ from fun _ _ _ _ => rfl)
  have hmethods := Config.installMethods_eq (some interfaceTemplate) methods
  show ((Config.installAccessors (Config.handle true true .onInstance) (Config.handle true true .onPrototype)
    (Config.handle true true .onInterface) _ props).bind _) = _
  rw [haccessors, Option.bind_some, hmethods]
  rfl

/-- The entries whose masks name a place. -/
theorem callsOn_entries (place : Place) (props : List (AccessorConfiguration ι))
    (methods : List (MethodConfiguration ι)) (signature : τ) :
    Config.callsOn place (entries props methods signature) =
      (props.filter fun prop => Config.has prop.propertyLocationConfiguration (Config.bit place)).map
          (Config.accessorProperty (some signature)) ++
        (methods.filter fun method => Config.has method.propertyLocationConfiguration (Config.bit place)).map
          (Config.methodProperty (Config.methodSignature (some signature) place)) := by
  rw [entries, Config.callsOn_append, Config.callsOn_flatMap, Config.callsOn_flatMap, Config.nonEmpty_true]
  rfl

end V8Event

/-- Setting properties adds to the properties, and changes nothing else. -/
theorem foldl_setProperty {τ : Type} (calls : List (Place × Property ι τ)) (f : FunctionTemplate ι τ) :
    ((calls.map fun c => TemplateCall.setProperty c.1 c.2).foldl FunctionTemplate.call f).callHandler =
        f.callHandler ∧
      ((calls.map fun c => TemplateCall.setProperty c.1 c.2).foldl FunctionTemplate.call f).instanceFieldCount =
        f.instanceFieldCount ∧
      ∀ place, ((calls.map fun c => TemplateCall.setProperty c.1 c.2).foldl FunctionTemplate.call
        f).properties place = f.properties place ++ Config.callsOn place calls := by
  induction calls generalizing f with
  | nil => exact ⟨rfl, rfl, fun place => (List.append_nil _).symm⟩
  | cons c calls ih =>
    obtain ⟨hh, hn, hp⟩ := ih (f.call (.setProperty c.1 c.2))
    refine ⟨hh, hn, fun place => (hp place).trans ?_⟩
    by_cases hc : c.1 = place
    · subst hc
      simp [FunctionTemplate.call, FunctionTemplate.setProperty, Config.callsOn]
    · simp [FunctionTemplate.call, FunctionTemplate.setProperty, Config.callsOn, hc, Ne.symm hc]

namespace Embedding

variable [Fintype ι] (M : Embedding ι)

/-- The calls on the template `ft` are those of the install function, each on `ft`. -/
theorem built_eq (isolate : IsolateId) (t : ι) (ft : TemplateId) (p : Option TemplateId) :
    Templates.built M.family isolate t ft p =
      (((V8Event.entries (M.props t) (M.methods t) ()).map fun c => (c.1, c.2.map fun _ => ft)).map
        fun c => .setProperty c.1 c.2).foldl FunctionTemplate.call
          (((Templates.initialized M.family isolate t p).call (.setCallHandler (.constructorCallback t))).call
            (.setLength 1)) := by
  have hinstall : M.family.install t = .setCallHandler (.constructorCallback t) :: .setLength 1 ::
      (V8Event.entries (M.props t) (M.methods t) ()).map fun c => .setProperty c.1 c.2 :=
    Option.some.inj ((Option.some_get (V8Event.installCalls_isSome ..)).trans (V8Event.installCalls_eq ..))
  unfold Templates.built
  rw [hinstall, List.map_cons, List.map_cons, List.map_map, List.map_map]
  rfl

theorem built_constructs (isolate : IsolateId) (t : ι) (ft : TemplateId) (p : Option TemplateId) :
    (Templates.built M.family isolate t ft p).callHandler = some (.constructorCallback t) ∧
      (Templates.built M.family isolate t ft p).instanceFieldCount = (M.info t).internalFieldCount := by
  rw [built_eq, (foldl_setProperty _ _).1, (foldl_setProperty _ _).2.1]
  refine ⟨rfl, ?_⟩
  cases p <;> rfl

theorem initialized_properties (isolate : IsolateId) (t : ι) (p : Option TemplateId) (place : Place) :
    (Templates.initialized M.family isolate t p).properties place =
      if place = .onPrototype then [.toStringTag (newFromOneByte (M.family.name t)) Config.readOnlyDontEnum] else [] := by
  cases p <;> cases place <;> rfl

/-- The properties at a place of `t`'s template: after the class string, the
accessors and methods whose masks name the place. -/
theorem built_properties (isolate : IsolateId) (t : ι) (ft : TemplateId) (p : Option TemplateId) (place : Place) :
    (Templates.built M.family isolate t ft p).properties place =
      (if place = .onPrototype then [.toStringTag (newFromOneByte (M.family.name t)) Config.readOnlyDontEnum] else []) ++
        (((M.props t).filter fun prop => Config.has prop.propertyLocationConfiguration (Config.bit place)).map
            (Config.accessorProperty (some ft)) ++
          ((M.methods t).filter fun method =>
            Config.has method.propertyLocationConfiguration (Config.bit place)).map
              (Config.methodProperty (Config.methodSignature (some ft) place))) := by
  have hsignature : (Config.methodSignature (some ()) place).map (fun _ => ft) =
      Config.methodSignature (some ft) place := by
    cases place <;> rfl
  rw [built_eq, (foldl_setProperty _ _).2.2, Config.callsOn_map, V8Event.callsOn_entries, List.map_append,
    List.map_map, List.map_map]
  show (Templates.initialized M.family isolate t p).properties place ++ _ = _
  rw [initialized_properties, ← hsignature]
  rfl

/-- The functions at a place of `t`'s template. -/
theorem mem_built_properties (isolate : IsolateId) (t : ι) (ft : TemplateId) (p : Option TemplateId) (place : Place)
    {f : FunctionValue ι TemplateId} :
    (∃ q ∈ (Templates.built M.family isolate t ft p).properties place, f ∈ q.functions) ↔
      (∃ prop ∈ M.props t, Config.has prop.propertyLocationConfiguration (Config.bit place) ∧
        f ∈ (Config.accessorProperty (some ft) prop).functions) ∨
      ∃ method ∈ M.methods t, Config.has method.propertyLocationConfiguration (Config.bit place) ∧
        f ∈ (Config.methodProperty (Config.methodSignature (some ft) place) method).functions := by
  have hclass : ¬ ∃ q ∈ (if place = .onPrototype then
      [Property.toStringTag (newFromOneByte (M.family.name t)) Config.readOnlyDontEnum] else []), f ∈ q.functions := by
    split <;> simp [Property.functions]
  simp only [built_properties, List.mem_append, List.mem_map, List.mem_filter, decide_eq_true_eq]
  constructor
  · rintro ⟨q, hq | ⟨prop, ⟨hmem, hhas⟩, rfl⟩ | ⟨method, ⟨hmem, hhas⟩, rfl⟩, hf⟩
    · exact absurd ⟨q, hq, hf⟩ hclass
    · exact .inl ⟨prop, hmem, hhas, hf⟩
    · exact .inr ⟨method, hmem, hhas, hf⟩
  · rintro (⟨prop, hmem, hhas, hf⟩ | ⟨method, hmem, hhas, hf⟩)
    · exact ⟨_, .inr (.inl ⟨prop, ⟨hmem, hhas⟩, rfl⟩), hf⟩
    · exact ⟨_, .inr (.inr ⟨method, ⟨hmem, hhas⟩, rfl⟩), hf⟩

/-- A function on the instances or the prototype of `t`'s template has the
template as its signature. -/
theorem built_signature {isolate : IsolateId} {t : ι} {ft : TemplateId} {p : Option TemplateId} {place : Place}
    (hplace : place ≠ .onInterface) {f : FunctionValue ι TemplateId}
    (hf : ∃ q ∈ (Templates.built M.family isolate t ft p).properties place, f ∈ q.functions) :
    f.signature = some ft := by
  rcases (M.mem_built_properties ..).mp hf with ⟨prop, -, -, hf⟩ | ⟨method, -, -, hf⟩
  · exact Config.accessorProperty_signature hf
  · rw [Config.methodProperty_signature hf]
    cases place with
    | onInterface => exact absurd rfl hplace
    | _ => rfl

end Embedding

namespace Embedding

variable [Fintype ι] {M : Embedding ι}

/-! ## Requests -/

variable [DecidableEq ι]

theorem cached_isSome_name {templates : Templates ι} (h : Templates.Inv M.family [] templates) {name : String}
    {ft : TemplateId} (hc : templates.cached name = some ft) : ∃ t, M.family.name t = name := by
  obtain ⟨e, he, -⟩ := Option.map_eq_some_iff.mp hc
  exact h.named name e he

/-- The template in the cache for `t` is what the install function of `t` makes. -/
theorem cached_built {templates : Templates ι} (h : Templates.Inv M.family [] templates) {t : ι} {ft : TemplateId}
    (hc : templates.cached (M.family.name t) = some ft) :
    ∃ isolate p, templates.templates ft = some (Templates.built M.family isolate t ft p) ∧
      p = (M.family.parent t).bind fun u => templates.cached (M.family.name u) := by
  obtain ⟨e, he, rfl⟩ := Option.map_eq_some_iff.mp hc
  obtain ⟨p, hp, hb⟩ := h.built t e he
  exact ⟨e.isolate, p, hb, Templates.parentHandle_eq hp⟩

theorem cached_injective {templates : Templates ι} (h : Templates.Inv M.family [] templates) {t u : ι}
    {ft : TemplateId} (ht : templates.cached (M.family.name t) = some ft)
    (hu : templates.cached (M.family.name u) = some ft) : t = u := by
  obtain ⟨e, he, rfl⟩ := Option.map_eq_some_iff.mp ht
  obtain ⟨e', he', heq⟩ := Option.map_eq_some_iff.mp hu
  exact h.inj t u e e' he he' heq.symm

/-- A cached template constructs objects of its type. -/
theorem constructs_of_cached {s : State ι} (h : Templates.Inv M.family [] s.templates) {t : ι} {ft : TemplateId}
    (hc : s.templates.cached (M.family.name t) = some ft) : M.Constructs s ft t := by
  obtain ⟨isolate, p, hb, -⟩ := cached_built h hc
  obtain ⟨hh, hn⟩ := M.built_constructs isolate t ft p
  exact ⟨_, hb, hh, hn⟩

/-- A template that script has the function of constructs objects of some type. -/
theorem constructs_of_exposed {s : State ι} (h : Templates.Inv M.family [] s.templates) {ft : TemplateId}
    (he : s.Exposed ft) : ∃ t, s.templates.cached (M.family.name t) = some ft ∧ M.Constructs s ft t := by
  obtain ⟨name, hc⟩ := he
  obtain ⟨t, rfl⟩ := cached_isSome_name h hc
  exact ⟨t, hc, constructs_of_cached h hc⟩

/-- A request for a template returns; the cache then has the template, and all it had. -/
theorem interfaceTemplate_eq {s : State ι} (h : Templates.Inv M.family [] s.templates) (t : ι) :
    ∃ ft templates, M.interfaceTemplate t s = some (ft, s.setTemplates templates) ∧
      (∀ mode, M.interfaceTemplate t (Hierarchy.setMode mode s) =
        some (ft, (Hierarchy.setMode mode s).setTemplates templates)) ∧
      Templates.Inv M.family [] templates ∧ templates.cached (M.family.name t) = some ft ∧
      ∀ name ft', s.templates.cached name = some ft' → templates.cached name = some ft' := by
  obtain ⟨ft, templates, heq, hi, hr⟩ := Templates.interfaceTemplate_spec s.isolate h (fun _ hx => nomatch hx)
    (Lib.Forest.ends_card_of_acyclic M.acyclic t)
  obtain ⟨e, he, rfl⟩ := hr.holds
  have heq' : M.family.interfaceTemplate M.fuel s.isolate t s.templates = some (e.template, templates) := heq
  refine ⟨e.template, templates, ?_, fun mode => ?_, hi, Templates.cached_of_holds he, fun name ft' hc => ?_⟩
  · show (M.family.interfaceTemplate M.fuel s.isolate t s.templates).map _ = _
    rw [heq']
    rfl
  · show (M.family.interfaceTemplate M.fuel s.isolate t s.templates).map _ = _
    rw [heq']
    rfl
  · obtain ⟨e', he', rfl⟩ := Option.map_eq_some_iff.mp hc
    rw [Templates.cached, hr.progress.cache name e' he', Option.map_some]

end Embedding

end NativeObjects
