import Mathlib.Data.List.Find
import NativeObjects.Model.Lookup
import NativeObjects.Proof.Receivers

/-!
# What script finds of a configuration

`Hierarchy.Provides` says what the configuration of the types is for: a property of an
object is what its class, or the nearest ancestor, configures for instances, or else for
prototypes. Where no class sets a key twice, and only the object's own class configures
properties of instances, this is what V8 finds in the templates (`Embedding.lookup_iff`),
whatever requests for them have been made, and the functions found accept the object
(`property_lookup`). Where the names of methods are ASCII the keys are the names
(`lookup_by_name`): the name of an accessor is read as UTF-8, that of a method byte by
byte.
-/

namespace NativeObjects

open Lib.Forest (Above Ends Nearest climb nearest)
open Lib.Utf (utf16 takeWhile_utf8 map_utf8_eq_utf16_iff)

variable {ι τ τ' : Type}

/-! ## Properties and their keys -/

namespace Property

theorem key_map (ρ : τ → τ') (p : Property ι τ) : (p.map ρ).key = p.key := by
  cases p <;> rfl

theorem find_map (ρ : τ → τ') (key : PropertyKey) (properties : List (Property ι τ)) :
    find key (properties.map (Property.map ρ)) = (find key properties).map (Property.map ρ) := by
  rw [find, find, List.find?_map]
  simp only [Function.comp_def, key_map]

theorem mem_of_find {key : PropertyKey} {properties : List (Property ι τ)} {p : Property ι τ}
    (h : find key properties = some p) : p ∈ properties ∧ p.key = key := by
  refine ⟨List.mem_of_find?_eq_some h, ?_⟩
  simpa only [decide_eq_true_eq] using List.find?_some h

theorem find_ne_none_iff {key : PropertyKey} {properties : List (Property ι τ)} :
    find key properties ≠ none ↔ ∃ p ∈ properties, p.key = key := by
  rw [find, ne_eq, List.find?_eq_none]
  simp only [decide_eq_true_eq, not_forall, not_not, exists_prop]

/-- Where no key is set twice, a property is found exactly under its key. -/
theorem find_eq_some_iff {properties : List (Property ι τ)} (hn : (properties.map key).Nodup) {key : PropertyKey}
    {p : Property ι τ} : find key properties = some p ↔ p ∈ properties ∧ p.key = key := by
  refine ⟨mem_of_find, fun ⟨hp, hkey⟩ => ?_⟩
  obtain ⟨q, hq⟩ := Option.ne_none_iff_exists'.mp (find_ne_none_iff.mpr ⟨p, hp, hkey⟩)
  obtain ⟨hmem, hqkey⟩ := mem_of_find hq
  rw [hq, List.inj_on_of_nodup_map hn hmem hp (hqkey.trans hkey.symm)]

theorem functions_map (ρ : τ → τ') (p : Property ι τ) : (p.map ρ).functions = p.functions.map (FunctionValue.map ρ) := by
  cases p <;> rfl

end Property

/-! ## The configuration of a hierarchy -/

variable [Fintype ι]

namespace Hierarchy

variable (M : Hierarchy ι)

/-- What `t` configures for a place of its template; a type names its template. -/
def configured (place : Place) (t : ι) : List (Property ι ι) :=
  (if place = .onPrototype then [.toStringTag (newFromOneByte (M.family.name t)) Config.readOnlyDontEnum] else []) ++
    (((M.props t).filter fun prop => Config.has prop.propertyLocationConfiguration (Config.bit place)).map
        (Config.accessorProperty (some t)) ++
      ((M.methods t).filter fun method => Config.has method.propertyLocationConfiguration (Config.bit place)).map
        (Config.methodProperty (Config.methodSignature (some t) place)))

theorem mem_configured {place : Place} {t : ι} {p : Property ι ι} : p ∈ M.configured place t ↔
    (place = .onPrototype ∧ p = .toStringTag (newFromOneByte (M.family.name t)) Config.readOnlyDontEnum) ∨
    (∃ prop ∈ M.props t, Config.has prop.propertyLocationConfiguration (Config.bit place) ∧
      p = Config.accessorProperty (some t) prop) ∨
    ∃ method ∈ M.methods t, Config.has method.propertyLocationConfiguration (Config.bit place) ∧
      p = Config.methodProperty (Config.methodSignature (some t) place) method := by
  have hclass : p ∈ (if place = .onPrototype then
        [.toStringTag (newFromOneByte (M.family.name t)) Config.readOnlyDontEnum] else []) ↔
      place = .onPrototype ∧ p = .toStringTag (newFromOneByte (M.family.name t)) Config.readOnlyDontEnum := by
    split <;> simp_all
  simp only [configured, List.mem_append, hclass, List.mem_map, List.mem_filter, decide_eq_true_eq, and_assoc,
    eq_comm (a := p)]

/-- The functions for the instances of a class are for receivers of the class. -/
theorem signature_of_configured {place : Place} (hplace : place ≠ .onInterface) {t : ι} {p : Property ι ι}
    (hp : p ∈ M.configured place t) {f : FunctionValue ι ι} (hf : f ∈ p.functions) : f.signature = some t := by
  rcases M.mem_configured.mp hp with ⟨-, rfl⟩ | ⟨prop, -, -, rfl⟩ | ⟨method, -, -, rfl⟩
  · exact absurd hf List.not_mem_nil
  · exact Config.accessorProperty_signature hf
  · rw [Config.methodProperty_signature hf]
    cases place with
    | onInterface => exact absurd rfl hplace
    | _ => rfl

/-- A class string is for prototypes, and every class has its own. -/
theorem find_toStringTag (place : Place) (t : ι) :
    Property.find .toStringTag (M.configured place t) = if place = .onPrototype then
      some (.toStringTag (newFromOneByte (M.family.name t)) Config.readOnlyDontEnum) else none := by
  cases hp : Property.find .toStringTag (M.configured place t) with
  | none =>
    rw [if_neg]
    rintro rfl
    exact Property.find_ne_none_iff.mpr ⟨_, M.mem_configured.mpr (.inl ⟨rfl, rfl⟩), rfl⟩ hp
  | some p =>
    obtain ⟨hmem, hkey⟩ := Property.mem_of_find hp
    rcases M.mem_configured.mp hmem with ⟨rfl, rfl⟩ | ⟨prop, -, -, rfl⟩ | ⟨method, -, -, rfl⟩
    · rfl
    · cases hkey
    · cases hkey

/-! ## What the configuration is for -/

/-- `p` meets `P`, and is configured for the place by the nearest class at or above `t`
that configures anything there that meets `P`. -/
def Configures (place : Place) (P : Property ι ι → Prop) (t : ι) (p : Property ι ι) : Prop :=
  ∃ u, Nearest M.family.parent (fun u => ∃ q ∈ M.configured place u, P q) t u ∧ p ∈ M.configured place u ∧ P p

/-- An object of the class `t` is to have `p`: of what meets `P`, this is configured for
instances, or else for prototypes. -/
def Provides (P : Property ι ι → Prop) (t : ι) (p : Property ι ι) : Prop :=
  M.Configures .onInstance P t p ∨ (∀ q, ¬ M.Configures .onInstance P t q) ∧ M.Configures .onPrototype P t p

/-- No class at or above `t` sets a key twice at one place, and only `t` sets properties
of instances. -/
structure Orderly (t : ι) : Prop where
  distinct : ∀ u, Above M.family.parent t u → ∀ place, place ≠ .onInterface →
    ((M.configured place u).map Property.key).Nodup
  onInstance : ∀ u, Above M.family.parent t u → u ≠ t → M.configured .onInstance u = []

variable {M}

theorem Configures.congr {place : Place} {P Q : Property ι ι → Prop} {t : ι} {p : Property ι ι}
    (h : M.Configures place P t p)
    (hPQ : ∀ u, Above M.family.parent t u → ∀ q ∈ M.configured place u, (P q ↔ Q q)) : M.Configures place Q t p := by
  obtain ⟨u, hu, hmem, hp⟩ := h
  refine ⟨u, hu.congr fun v hv => ?_, hmem, (hPQ u hu.above p hmem).mp hp⟩
  exact exists_congr fun q => and_congr_right fun hq => hPQ v hv q hq

theorem provides_congr {P Q : Property ι ι → Prop} {t : ι}
    (hPQ : ∀ u, Above M.family.parent t u → ∀ place, ∀ q ∈ M.configured place u, (P q ↔ Q q)) (p : Property ι ι) :
    M.Provides P t p ↔ M.Provides Q t p := by
  have hcongr : ∀ place q, M.Configures place P t q ↔ M.Configures place Q t q := fun place q =>
    ⟨fun h => h.congr fun u hu => hPQ u hu place, fun h => h.congr fun u hu q hq => (hPQ u hu place q hq).symm⟩
  simp only [Provides, hcongr]

/-- Only `t` itself may configure a property of its instances. -/
theorem Orderly.configures_onInstance_iff {t : ι} (h : M.Orderly t) {P : Property ι ι → Prop} {p : Property ι ι} :
    M.Configures .onInstance P t p ↔ p ∈ M.configured .onInstance t ∧ P p := by
  constructor
  · rintro ⟨u, hu, hmem, hp⟩
    by_cases hut : u = t
    · exact hut ▸ ⟨hmem, hp⟩
    · rw [h.onInstance u hu.above hut] at hmem
      exact absurd hmem List.not_mem_nil
  · rintro ⟨hmem, hp⟩
    exact ⟨t, ⟨0, rfl, ⟨p, hmem, hp⟩, fun m hm => absurd hm (Nat.not_lt_zero m)⟩, hmem, hp⟩

variable (M) in
/-- What V8 is to find: what `t` configures for instances, or else what the nearest class
configures for prototypes. -/
def lookup (key : PropertyKey) (t : ι) : Option (Property ι ι) :=
  (Property.find key (M.configured .onInstance t)).or
    (nearest M.family.parent (fun u => Property.find key (M.configured .onPrototype u)) M.fuel t)

theorem lookup_toStringTag (t : ι) : M.lookup .toStringTag t =
    some (.toStringTag (newFromOneByte (M.family.name t)) Config.readOnlyDontEnum) := by
  have hprototype : nearest M.family.parent (fun u => Property.find .toStringTag (M.configured .onPrototype u)) M.fuel
      t = some (.toStringTag (newFromOneByte (M.family.name t)) Config.readOnlyDontEnum) := by
    refine Lib.Forest.nearest_eq_some_iff.mpr ⟨0, t, Fintype.card_pos_iff.mpr ⟨t⟩, rfl, ?_, ?_⟩
    · rw [find_toStringTag]
      rfl
    · exact fun j hj => absurd hj (Nat.not_lt_zero j)
  rw [lookup, find_toStringTag, hprototype]
  rfl

/-- What is found is configured at or above the class, for instances or prototypes. -/
theorem lookup_eq_some {key : PropertyKey} {t : ι} {p : Property ι ι} (h : M.lookup key t = some p) :
    p.key = key ∧ ∃ place u, place ≠ .onInterface ∧ Above M.family.parent t u ∧ p ∈ M.configured place u := by
  rcases Option.or_eq_some_iff.mp h with h | ⟨-, h⟩
  · obtain ⟨hmem, hkey⟩ := Property.mem_of_find h
    exact ⟨hkey, .onInstance, t, by decide, Lib.Forest.above_self t, hmem⟩
  · obtain ⟨k, u, -, hu, hp, -⟩ := Lib.Forest.nearest_eq_some_iff.mp h
    obtain ⟨hmem, hkey⟩ := Property.mem_of_find hp
    exact ⟨hkey, .onPrototype, u, by decide, Lib.Forest.above_of_climb hu, hmem⟩

/-- What is found is what the configuration provides. -/
theorem Orderly.lookup_iff {t : ι} (h : M.Orderly t) (hends : Ends M.family.parent M.fuel t) {key : PropertyKey}
    {p : Property ι ι} : M.lookup key t = some p ↔ M.Provides (·.key = key) t p := by
  have hself := h.distinct t (Lib.Forest.above_self t) .onInstance (by decide)
  have hinstance : Property.find key (M.configured .onInstance t) = none ↔
      ∀ q, ¬ M.Configures .onInstance (·.key = key) t q := by
    rw [← not_iff_not, ← ne_eq, Property.find_ne_none_iff, not_forall_not]
    exact exists_congr fun q => (h.configures_onInstance_iff (P := fun p => p.key = key)).symm
  have hprototype : nearest M.family.parent (fun u => Property.find key (M.configured .onPrototype u)) M.fuel t = some p ↔
      M.Configures .onPrototype (·.key = key) t p := by
    rw [Lib.Forest.nearest_eq_some_iff_of_ends hends]
    refine exists_congr fun u => ?_
    constructor
    · rintro ⟨hu, hp⟩
      exact ⟨hu.congr fun v _ => Property.find_ne_none_iff, Property.mem_of_find hp⟩
    · rintro ⟨hu, hp⟩
      have hdistinct := h.distinct u hu.above .onPrototype (by decide)
      exact ⟨hu.congr fun v _ => Property.find_ne_none_iff.symm, (Property.find_eq_some_iff hdistinct).mpr hp⟩
  rw [lookup, Option.or_eq_some_iff, hinstance, hprototype, Property.find_eq_some_iff hself, Provides,
    h.configures_onInstance_iff]

end Hierarchy

/-! ## Names -/

def NulFree (name : String) : Prop := '\x00' ∉ name.toList

def IsAscii (name : String) : Prop := ∀ c ∈ name.toList, c.toNat < 0x80

theorem NulFree.takeWhile {name : String} (h : NulFree name) : name.toList.takeWhile (· ≠ '\x00') = name.toList :=
  List.takeWhile_eq_self_iff.mpr fun _ hc => decide_eq_true fun hz => h (hz ▸ hc)

/-- An accessor is found under its name. -/
theorem Config.accessorName_eq {name : String} (h : NulFree name) : accessorName name = .ofName name := by
  rw [accessorName, h.takeWhile, PropertyKey.ofName]

/-- A method is found under its name exactly if the name is ASCII. -/
theorem Config.methodName_eq_iff {name : String} (h : NulFree name) :
    methodName name = .ofName name ↔ IsAscii name := by
  rw [methodName, newFromOneByte, cString, takeWhile_utf8, h.takeWhile, PropertyKey.ofName, PropertyKey.name.injEq,
    map_utf8_eq_utf16_iff, IsAscii]

namespace Property

def name? : Property ι τ → Option String
  | accessor name .. | method name .. => some name
  | toStringTag .. => none

/-- The configuration names the property by the string of these code units. -/
def Named (units : List UInt16) (p : Property ι τ) : Prop := ∃ name, p.name? = some name ∧ utf16 name.toList = units

end Property

namespace Hierarchy

variable (M : Hierarchy ι)

/-- The names of the methods of a class are ASCII. -/
structure PlainNames (t : ι) : Prop where
  props : ∀ prop ∈ M.props t, NulFree prop.name
  methods : ∀ method ∈ M.methods t, NulFree method.name ∧ IsAscii method.name

variable {M}

theorem PlainNames.key_iff {t : ι} (h : M.PlainNames t) {place : Place} {p : Property ι ι}
    (hp : p ∈ M.configured place t) (units : List UInt16) : p.key = .name units ↔ p.Named units := by
  have hnamed : ∀ {name}, p.name? = some name → p.key = .ofName name → (p.key = .name units ↔ p.Named units) := by
    intro name hname hkey
    rw [hkey, PropertyKey.ofName, PropertyKey.name.injEq]
    exact ⟨fun hu => ⟨name, hname, hu⟩, fun ⟨name', hname', hu⟩ => by cases hname.symm.trans hname'; exact hu⟩
  rcases M.mem_configured.mp hp with ⟨-, rfl⟩ | ⟨prop, hprop, -, rfl⟩ | ⟨method, hmethod, -, rfl⟩
  · exact iff_of_false (by simp [Property.key]) (by simp [Property.Named, Property.name?])
  · exact hnamed rfl (Config.accessorName_eq (h.props prop hprop))
  · obtain ⟨hnul, hascii⟩ := h.methods method hmethod
    exact hnamed rfl ((Config.methodName_eq_iff hnul).mpr hascii)

end Hierarchy

/-! ## The templates of a configuration -/

namespace Embedding

variable {M : Embedding ι} {templates : Templates ι}

variable (M templates) in
/-- The template in the cache for a type. -/
def templateOf (t : ι) : TemplateId := (templates.cached (M.family.name t)).getD 0

theorem templateOf_eq {t : ι} {ft : TemplateId} (ht : templates.cached (M.family.name t) = some ft) :
    M.templateOf templates t = ft := by
  rw [templateOf, ht, Option.getD_some]

theorem configured_map (place : Place) (t : ι) (ρ : ι → τ) :
    (M.configured place t).map (Property.map ρ) =
      (if place = .onPrototype then [.toStringTag (newFromOneByte (M.family.name t)) Config.readOnlyDontEnum] else []) ++
        (((M.props t).filter fun prop => Config.has prop.propertyLocationConfiguration (Config.bit place)).map
            (Config.accessorProperty (some (ρ t))) ++
          ((M.methods t).filter fun method => Config.has method.propertyLocationConfiguration (Config.bit place)).map
            (Config.methodProperty (Config.methodSignature (some (ρ t)) place))) := by
  rw [Hierarchy.configured, List.map_append, List.map_append, List.map_map, List.map_map]
  cases place <;> rfl

variable [DecidableEq ι]

/-- What the cached template of a type has at its places. -/
theorem properties_eq (h : Templates.Inv M.family [] templates) {t : ι} {ft : TemplateId}
    (ht : templates.cached (M.family.name t) = some ft) : ∃ template, templates.templates ft = some template ∧
      ∀ place, template.properties place = (M.configured place t).map (Property.map (M.templateOf templates)) := by
  obtain ⟨isolate, p, hb, -⟩ := cached_built h ht
  refine ⟨_, hb, fun place => ?_⟩
  rw [built_properties, configured_map, templateOf_eq ht]

theorem own_eq (h : Templates.Inv M.family [] templates) {t : ι} {ft : TemplateId}
    (ht : templates.cached (M.family.name t) = some ft) (place : Place) (key : PropertyKey) :
    templates.own place key ft =
      (Property.find key (M.configured place t)).map (Property.map (M.templateOf templates)) := by
  obtain ⟨template, htemplate, hp⟩ := properties_eq h ht
  rw [Templates.own, htemplate, Option.bind_some, hp, Property.find_map]

theorem parent_eq (h : Templates.Inv M.family [] templates) {t : ι} {ft : TemplateId}
    (ht : templates.cached (M.family.name t) = some ft) :
    templates.parent ft = (M.family.parent t).map (M.templateOf templates) := by
  obtain ⟨isolate, p, hb, hp⟩ := cached_built h ht
  rw [Templates.parent, hb, Option.bind_some, (Templates.built_parent ..).1, hp]
  cases hu : M.family.parent t with
  | none => rfl
  | some u =>
    obtain ⟨e, he, -⟩ := Option.map_eq_some_iff.mp ht
    obtain ⟨e', he', -⟩ := h.parent he hu
    rw [Option.bind_some, Option.map_some, Templates.cached_of_holds he', templateOf_eq (Templates.cached_of_holds he')]

/-- Above a cached type, all are. -/
theorem cached_templateOf (h : Templates.Inv M.family [] templates) {t u : ι} {ft : TemplateId}
    (ht : templates.cached (M.family.name t) = some ft) (hu : Above M.family.parent t u) :
    templates.cached (M.family.name u) = some (M.templateOf templates u) := by
  obtain ⟨e, he, -⟩ := Option.map_eq_some_iff.mp ht
  obtain ⟨e', he'⟩ := h.above hu ⟨e, he⟩
  rw [templateOf_eq (Templates.cached_of_holds he'), Templates.cached_of_holds he']

/-- V8 finds what the types configure. The bounds of the two searches are not the same,
and no chain is longer than either. -/
theorem lookup_eq (h : Templates.Inv M.family [] templates) {t : ι} {ft : TemplateId}
    (ht : templates.cached (M.family.name t) = some ft) {key : PropertyKey} (hkey : key ≠ .ofName "constructor") :
    templates.lookup key ft = (M.lookup key t).map fun p => .property (p.map (M.templateOf templates)) := by
  have hends : Ends M.family.parent templates.next t := by
    refine Option.eq_none_iff_forall_ne_some.mpr fun A hA => ?_
    exact absurd (climb_lt h ht hA) (Nat.lt_irrefl _)
  have hfuel : Ends M.family.parent M.fuel t := Lib.Forest.ends_card_of_acyclic M.acyclic t
  have hown : ∀ u, Above M.family.parent t u → templates.ofPrototype key (M.templateOf templates u) =
      (Property.find key (M.configured .onPrototype u)).map fun p => .property (p.map (M.templateOf templates)) := by
    intro u hu
    rw [Templates.ofPrototype, if_neg hkey, own_eq h (cached_templateOf h ht hu), Option.map_map]
    rfl
  have hprototype : nearest templates.parent (templates.ofPrototype key) templates.next ft =
      (nearest M.family.parent (fun u => Property.find key (M.configured .onPrototype u)) M.fuel t).map
        fun p => .property (p.map (M.templateOf templates)) := by
    calc nearest templates.parent (templates.ofPrototype key) templates.next ft
      _ = nearest templates.parent (templates.ofPrototype key) templates.next (M.templateOf templates t) := by
          rw [templateOf_eq ht]
      _ = (nearest M.family.parent (fun u => Property.find key (M.configured .onPrototype u)) templates.next t).map
            fun p => .property (p.map (M.templateOf templates)) :=
          Lib.Forest.nearest_map _ _ (fun u hu => parent_eq h (cached_templateOf h ht hu)) hown _
      _ = _ := by rw [Lib.Forest.nearest_of_ends hends hfuel]
  rw [Templates.lookup, hprototype, own_eq h ht, Option.map_map, Hierarchy.lookup, Option.map_or]
  rfl

/-- V8 finds what the configuration provides. -/
theorem lookup_iff (h : Templates.Inv M.family [] templates) {t : ι} {ft : TemplateId}
    (ht : templates.cached (M.family.name t) = some ft) (hM : M.Orderly t) {key : PropertyKey}
    (hkey : key ≠ .ofName "constructor") (found : Found ι) : templates.lookup key ft = some found ↔
      ∃ p, M.Provides (·.key = key) t p ∧ found = .property (p.map (M.templateOf templates)) := by
  have hends : Ends M.family.parent M.fuel t := Lib.Forest.ends_card_of_acyclic M.acyclic t
  rw [lookup_eq h ht hkey, Option.map_eq_some_iff]
  exact exists_congr fun p => and_congr (hM.lookup_iff hends) eq_comm

end Embedding

/-! ## Objects -/

variable [DecidableEq ι] {M : Embedding ι}

namespace Embedding

variable (M) in
/-- Script finds on `obj`, which is `o`, what the class `t` is to have. -/
structure Resolves (s : State ι) (o : ObjectId) (obj : JSObject ι) (t : ι) : Prop where
  template : s.templates.cached (M.family.name t) = some obj.template
  cached : ∀ u, Above M.family.parent t u →
    s.templates.cached (M.family.name u) = some (M.templateOf s.templates u)
  /-- The property is the one provided, with the signatures of the class that configures it. -/
  lookup : ∀ key, key ≠ .ofName "constructor" → ∀ found, s.templates.lookup key obj.template = some found ↔
    ∃ p, M.Provides (·.key = key) t p ∧ found = .property (p.map (M.templateOf s.templates))
  classString : s.templates.lookup .toStringTag obj.template =
    some (.property (.toStringTag (newFromOneByte (M.family.name t)) Config.readOnlyDontEnum))
  /-- Its functions are installed for the instances of a class at or above `t`, and
  accept the object. -/
  functions : ∀ key p, key ≠ .ofName "constructor" → s.templates.lookup key obj.template = some (.property p) →
    ∀ f ∈ p.functions,
      (∃ place u, place ≠ .onInterface ∧ Above M.family.parent t u ∧
        s.templates.Installed (M.templateOf s.templates u) place f) ∧
      s.receiverAccepted f.signature (.object o) = true

theorem resolves {s : State ι} (hi : Templates.Inv M.family [] s.templates) (hs : Templated M s) {o : ObjectId}
    {obj : JSObject ι} (ho : s.objects o = some obj) {t : ι}
    (ht : s.templates.cached (M.family.name t) = some obj.template) (hM : M.Orderly t) : M.Resolves s o obj t := by
  have hcached : ∀ u, Above M.family.parent t u →
      s.templates.cached (M.family.name u) = some (M.templateOf s.templates u) := fun u hu => cached_templateOf hi ht hu
  refine ⟨ht, hcached, fun key hkey => lookup_iff hi ht hM hkey, ?_, fun key p hkey hp f hf => ?_⟩
  · rw [lookup_eq hi ht (by simp [PropertyKey.ofName]), M.lookup_toStringTag]
    rfl
  rw [lookup_eq hi ht hkey] at hp
  obtain ⟨q, hq, hqp⟩ := Option.map_eq_some_iff.mp hp
  cases hqp
  rw [Property.functions_map] at hf
  obtain ⟨g, hg, rfl⟩ := List.mem_map.mp hf
  obtain ⟨-, place, u, hplace, hu, hmem⟩ := M.lookup_eq_some hq
  have hsignature : (g.map (M.templateOf s.templates)).signature = some (M.templateOf s.templates u) := by
    rw [FunctionValue.map, M.signature_of_configured hplace hmem hg, Option.map_some]
  constructor
  · obtain ⟨template, htemplate, hproperties⟩ := properties_eq hi (hcached u hu)
    refine ⟨place, u, hplace, hu, template, htemplate, q.map (M.templateOf s.templates), ?_, ?_⟩
    · rw [hproperties]
      exact List.mem_map_of_mem hmem
    · rw [Property.functions_map]
      exact List.mem_map_of_mem hg
  · rw [hsignature]
    exact (receiverAccepted_iff hi hs (hcached u hu) (.object o)).mpr ⟨obj, t, ho, ht, hu⟩

end Embedding

/-- In every state of a program, whatever requests were made and in whatever order: each
object is of a class, and if the class and those above it are orderly, script finds on
the object what their configurations say. Where native code deletes nothing, the native
of an object that script reaches is of the class. -/
theorem property_lookup {tr : List (State ι × Op ι)} {s : State ι} (h : M.system.Run tr s) {o : ObjectId}
    {obj : JSObject ι} (ho : s.objects o = some obj) :
    ∃ t, s.templates.cached (M.family.name t) = some obj.template ∧ (M.Orderly t → M.Resolves s o obj t) ∧
      ((∀ x ∈ tr, x.2.Spares) → o ∈ s.reached →
        ∃ p n, Config.toImpl o s = some (some p) ∧ s.Live p n ∧ n.typeInfo = t) := by
  obtain ⟨hi, hs⟩ := Templated.run h
  have htemplates := hi.coherent.templates
  obtain ⟨t, ht⟩ := hs o obj ho
  refine ⟨t, ht, Embedding.resolves htemplates hs ho ht, fun hop hr => ?_⟩
  obtain ⟨-, hl⟩ := FieldsLive.run h hop
  obtain ⟨obj', p, ho', hp⟩ := hi.reached_field hr
  cases ho.symm.trans ho'
  obtain ⟨n, hn⟩ := hl o obj p trivial ho hp
  obtain ⟨c, -, hlink⟩ := hi.coherent.linked_of_field ho hp hn
  obtain ⟨obj', ho', -, -, ht'⟩ := hlink.object
  cases ho.symm.trans ho'
  exact ⟨p, n, Config.toImpl_eq ho hp, hn, Embedding.cached_injective htemplates ht' ht⟩

/-- The class below Event is orderly. -/
theorem V8Event.orderly_pair (t : Bool) : V8Event.pair.Orderly t where
  distinct u _ place _ := by
    cases u <;> cases place <;> decide
  onInstance u _ _ := by
    cases u <;> rfl

/-- An object of the class below Event finds the getter of the type that Event configures. -/
theorem property_lookup_pair : ∃ tr s, V8Event.pair.system.Run tr s ∧ ∃ obj getter setter,
    s.objects 0 = some obj ∧
    s.templates.lookup (.ofName "type") obj.template =
      some (.property (.accessor "type" getter setter V8Event.dontDelete)) ∧
    getter.callback = some .typeGetter ∧ getter.signature = some (V8Event.pair.templateOf s.templates false) ∧
    ∃ t, V8Event.pair.Resolves s 0 obj t ∧
      ∃ p n, Config.toImpl 0 s = some (some p) ∧ s.Live p n ∧ n.typeInfo = t := by
  have h₀ : V8Event.pair.system.Run [] (.initial 0 0) := .start ⟨0, 0, rfl⟩
  have h₁ := Hierarchy.run_next (.interfaceTemplate true) h₀ trivial (by decide)
  have h₂ := Hierarchy.run_next (.scriptNew ⟨0, 0⟩ [.string ⟨[97], by decide⟩] 0) h₁ ⟨⟨"SubEvent", by decide⟩, rfl⟩
    (by decide)
  obtain ⟨t, -, ht, hnative⟩ := property_lookup (o := 0) h₂ rfl
  let getter : FunctionValue Bool TemplateId :=
    { callback := some .typeGetter, signature := some 1, length := 0, prototypeRemoved := true,
      acceptAnyReceiver := true }
  let setter : FunctionValue Bool TemplateId :=
    { callback := none, signature := some 1, length := 1, prototypeRemoved := true, acceptAnyReceiver := true }
  exact ⟨_, _, h₂, _, getter, setter, rfl, by decide, rfl, by decide, t, ht (V8Event.orderly_pair t),
    hnative (by simp [Op.Spares]) (by decide)⟩

/-- In every state of a program, for an orderly class whose methods, own or inherited,
have ASCII names: what V8 finds under a string is what the classes configure under it as
the name. And nowhere is a method found under its name if that is not ASCII. -/
theorem lookup_by_name {tr : List (State ι × Op ι)} {s : State ι} (h : M.system.Run tr s) {t : ι} {ft : TemplateId}
    (ht : s.templates.cached (M.family.name t) = some ft) (hM : M.Orderly t) (units : List UInt16)
    (hunits : PropertyKey.name units ≠ .ofName "constructor") :
    ((∀ u, Above M.family.parent t u → M.PlainNames u) → ∀ found, s.templates.lookup (.name units) ft = some found ↔
      ∃ p, M.Provides (·.Named units) t p ∧ found = .property (p.map (M.templateOf s.templates))) ∧
    ∀ name function attributes, NulFree name → utf16 name.toList = units →
      s.templates.lookup (.name units) ft = some (.property (.method name function attributes)) → IsAscii name := by
  obtain ⟨hi, -⟩ := Templated.run h
  refine ⟨fun hplain found => ?_, fun name function attributes hnul hname hfound => ?_⟩
  · rw [Embedding.lookup_iff hi.coherent.templates ht hM hunits]
    refine exists_congr fun p => and_congr_left' ?_
    exact Hierarchy.provides_congr (fun u hu place q hq => (hplain u hu).key_iff hq units) p
  · rw [Embedding.lookup_eq hi.coherent.templates ht hunits] at hfound
    obtain ⟨p, hp, hmap⟩ := Option.map_eq_some_iff.mp hfound
    have hkey : p.key = .name units := (M.lookup_eq_some hp).1
    rw [← Property.key_map (M.templateOf s.templates), Found.property.inj hmap, ← hname] at hkey
    exact (Config.methodName_eq_iff hnul).mp hkey

theorem lookup_by_name_pair : ∃ tr s, V8Event.pair.system.Run tr s ∧ s.templates.cached "SubEvent" = some 0 ∧
    (s.templates.lookup (.ofName "type") 0).isSome = true ∧
    ∀ found, s.templates.lookup (.ofName "type") 0 = some found ↔
      ∃ p, V8Event.pair.Provides (·.Named (utf16 "type".toList)) true p ∧
        found = .property (p.map (V8Event.pair.templateOf s.templates)) := by
  have h₀ : V8Event.pair.system.Run [] (.initial 0 0) := .start ⟨0, 0, rfl⟩
  have h₁ := Hierarchy.run_next (.interfaceTemplate true) h₀ trivial (by decide)
  have hplain : ∀ u, V8Event.pair.PlainNames u := by
    intro u
    cases u with
    | false => exact ⟨by simp [V8Event.pair, NulFree], fun method hm => absurd hm List.not_mem_nil⟩
    | true => exact ⟨fun prop hp => absurd hp List.not_mem_nil, fun method hm => absurd hm List.not_mem_nil⟩
  exact ⟨_, _, h₁, by decide, by decide,
    (lookup_by_name h₁ (t := true) (show _ = some 0 by decide) (V8Event.orderly_pair true) (utf16 "type".toList)
      (by decide)).1 fun u _ => hplain u⟩

end NativeObjects
