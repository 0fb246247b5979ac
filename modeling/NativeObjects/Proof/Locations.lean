import NativeObjects.Model.Wrap

/-!
# Where accessors and methods are installed

The calls that the installers make, in closed form (`Config.installAccessors_eq`,
`Config.installMethods_eq`): for each entry one on each place that its mask
names. `InstallAccessor` guards the prototype template by a test of the instance
template, so that what it does with the prototype is what the masks say exactly
where both templates are empty, or neither (`accessors_placed_iff`).
-/

namespace NativeObjects

variable {ι τ : Type}

namespace Config

/-! ## Calls by place -/

/-- The bit of a place. -/
def bit : Place → BitVec 3
  | .onInstance => kOnInstance
  | .onPrototype => kOnPrototype
  | .onInterface => kOnInterface

/-- What is called on a place, in order. -/
def callsOn (place : Place) (calls : List (Place × Property ι τ)) : List (Property ι τ) :=
  (calls.filter fun c => c.1 = place).map Prod.snd

theorem callsOn_append (place : Place) (calls calls' : List (Place × Property ι τ)) :
    callsOn place (calls ++ calls') = callsOn place calls ++ callsOn place calls' := by
  simp [callsOn]

theorem callsOn_map {τ' : Type} (place : Place) (ρ : τ → τ') (calls : List (Place × Property ι τ)) :
    callsOn place (calls.map fun c => (c.1, c.2.map ρ)) = (callsOn place calls).map (Property.map ρ) := by
  simp [callsOn, List.filter_map, Function.comp_def]

/-- The call on a place, if calls are performed there and the mask names it. -/
def placedOn (performs : Place → Bool) (location : BitVec 3) (p : Place → Property ι τ) (place : Place) :
    List (Place × Property ι τ) :=
  if performs place ∧ has location (bit place) then [(place, p place)] else []

/-- The calls on the three places: `p place` on each. -/
def placed (performs : Place → Bool) (location : BitVec 3) (p : Place → Property ι τ) : List (Place × Property ι τ) :=
  [Place.onInstance, .onPrototype, .onInterface].flatMap (placedOn performs location p)

theorem callsOn_placedOn (place place' : Place) (performs : Place → Bool) (location : BitVec 3)
    (p : Place → Property ι τ) :
    callsOn place (placedOn performs location p place') =
      if place' = place ∧ performs place ∧ has location (bit place) then [p place] else [] := by
  unfold placedOn
  by_cases hp : place' = place
  · subst hp
    by_cases h : performs place' ∧ has location (bit place')
    · rw [if_pos h, if_pos ⟨rfl, h⟩]
      simp [callsOn]
    · rw [if_neg h, if_neg (by exact fun hc => h hc.2)]
      rfl
  · rw [if_neg (c := place' = place ∧ _) fun hc => hp hc.1]
    split
    · simp [callsOn, hp]
    · rfl

theorem callsOn_placed (place : Place) (performs : Place → Bool) (location : BitVec 3) (p : Place → Property ι τ) :
    callsOn place (placed performs location p) =
      if performs place ∧ has location (bit place) then [p place] else [] := by
  simp only [placed, List.flatMap_cons, List.flatMap_nil, List.append_nil, callsOn_append, callsOn_placedOn]
  cases place <;> simp only [reduceCtorEq, false_and, true_and, if_false, List.nil_append, List.append_nil]

theorem callsOn_flatMap {α : Type} (place : Place) (l : List α) (performs : Place → Bool) (location : α → BitVec 3)
    (p : α → Place → Property ι τ) :
    callsOn place (l.flatMap fun x => placed performs (location x) (p x)) =
      if performs place then (l.filter fun x => has (location x) (bit place)).map fun x => p x place else [] := by
  induction l with
  | nil => cases performs place <;> rfl
  | cons x l ih =>
    rw [List.flatMap_cons, callsOn_append, callsOn_placed, ih]
    cases performs place with
    | false => rfl
    | true =>
      by_cases h : has (location x) (bit place)
      · rw [List.filter_cons_of_pos (by exact decide_eq_true h), if_pos ⟨rfl, h⟩]
        rfl
      · rw [List.filter_cons_of_neg (by simpa using h), if_neg fun hc => h hc.2]
        rfl

/-! ## InstallAccessor -/

/-- The property that a configuration of an accessor makes. -/
def accessorProperty (signature : Option τ) (prop : AccessorConfiguration ι) : Property ι τ :=
  .accessor prop.name
    { callback := prop.getter, signature := signature, length := 0, prototypeRemoved := true,
      acceptAnyReceiver := true }
    { callback := prop.setter, signature := signature, length := 1, prototypeRemoved := true,
      acceptAnyReceiver := true }
    prop.attributes

theorem accessorProperty_signature {signature : Option τ} {prop : AccessorConfiguration ι} {f : FunctionValue ι τ}
    (hf : f ∈ (accessorProperty signature prop).functions) : f.signature = signature := by
  rcases List.mem_cons.mp hf with rfl | hf
  · rfl
  · rw [List.mem_singleton.mp hf]

/-- Whether the template at a place is not empty; the interface template never is. -/
def nonEmpty (onInstance onPrototype : Bool) : Place → Bool
  | .onInstance => onInstance
  | .onPrototype => onPrototype
  | .onInterface => true

/-- The handle to the template at a place. -/
def handle (onInstance onPrototype : Bool) (place : Place) : Option Place :=
  if nonEmpty onInstance onPrototype place then some place else none

theorem nonEmpty_true (place : Place) : nonEmpty true true place = true := by cases place <;> rfl

theorem masks (location : BitVec 3) : location = 0 ∨ location = 1 ∨ location = 2 ∨ location = 3 ∨ location = 4 ∨
    location = 5 ∨ location = 6 ∨ location = 7 := by
  revert location
  decide

/-- What one accessor is installed by. The guard of the prototype template is that of the instance template. -/
theorem installAccessor_eq (onInstance onPrototype : Bool) (signature : Option τ) (prop : AccessorConfiguration ι) :
    installAccessor (handle onInstance onPrototype .onInstance) (handle onInstance onPrototype .onPrototype)
        (handle onInstance onPrototype .onInterface) signature prop =
      if onInstance ∧ onPrototype = false ∧ has prop.propertyLocationConfiguration kOnPrototype then none
      else some (placed (nonEmpty onInstance onInstance) prop.propertyLocationConfiguration
        fun _ => accessorProperty signature prop) := by
  obtain ⟨name, getter, setter, attributes, location⟩ := prop
  rcases masks location with rfl | rfl | rfl | rfl | rfl | rfl | rfl | rfl <;>
    cases onInstance <;> cases onPrototype <;>
    simp [installAccessor, callIf, callOn, handle, nonEmpty, placed, placedOn, bit, kOnInstance, kOnPrototype,
      kOnInterface, accessorProperty]

/-- A call through an empty handle: for an entry of the prototype, where only the
prototype template is empty. -/
theorem installAccessors_eq_none {onInstance onPrototype : Bool} (signature : Option τ)
    {props : List (AccessorConfiguration ι)} {prop : AccessorConfiguration ι} (hmem : prop ∈ props)
    (hprop : has prop.propertyLocationConfiguration kOnPrototype) (hi : onInstance = true) (hp : onPrototype = false) :
    installAccessors (handle onInstance onPrototype .onInstance) (handle onInstance onPrototype .onPrototype)
      (handle onInstance onPrototype .onInterface) signature props = none := by
  induction props with
  | nil => exact absurd hmem List.not_mem_nil
  | cons prop' props ih =>
    simp only [installAccessors, Option.bind_eq_bind]
    rw [installAccessor_eq]
    split
    · rfl
    · rename_i hne
      rw [ih ((List.mem_cons.mp hmem).resolve_left fun h => hne ⟨hi, hp, h ▸ hprop⟩)]
      rfl

theorem installAccessors_eq (onInstance onPrototype : Bool) (signature : Option τ)
    {props : List (AccessorConfiguration ι)}
    (h : ∀ prop ∈ props, has prop.propertyLocationConfiguration kOnPrototype →
      onInstance = true → onPrototype = true) :
    installAccessors (handle onInstance onPrototype .onInstance) (handle onInstance onPrototype .onPrototype)
        (handle onInstance onPrototype .onInterface) signature props =
      some (props.flatMap fun prop => placed (nonEmpty onInstance onInstance) prop.propertyLocationConfiguration
        fun _ => accessorProperty signature prop) := by
  induction props with
  | nil => rfl
  | cons prop props ih =>
    rw [List.forall_mem_cons] at h
    have hprop : ¬ (onInstance = true ∧ onPrototype = false ∧ has prop.propertyLocationConfiguration kOnPrototype) := by
      rintro ⟨hi, hp, hprop⟩
      rw [h.1 hprop hi] at hp
      exact absurd hp (by decide)
    rw [installAccessors, installAccessor_eq, if_neg hprop, ih h.2]
    rfl

/-! ## InstallMethod -/

/-- The property that a configuration of a method makes. -/
def methodProperty (signature : Option τ) (method : MethodConfiguration ι) : Property ι τ :=
  .method method.name
    { callback := method.callback, signature := signature, length := method.length, prototypeRemoved := true }
    method.attributes

theorem methodProperty_signature {signature : Option τ} {method : MethodConfiguration ι} {f : FunctionValue ι τ}
    (hf : f ∈ (methodProperty signature method).functions) : f.signature = signature := by
  rw [List.mem_singleton.mp hf]

/-- The signature of a method: none on the constructor function. -/
def methodSignature (signature : Option τ) : Place → Option τ
  | .onInterface => none
  | _ => signature

theorem installMethod_eq (signature : Option τ) (method : MethodConfiguration ι) :
    installMethod (some Place.onInstance) (some .onPrototype) (some .onInterface) signature method =
      some (placed (nonEmpty true true) method.propertyLocationConfiguration
        fun place => methodProperty (methodSignature signature place) method) := by
  obtain ⟨name, callback, attributes, location, length⟩ := method
  rcases masks location with rfl | rfl | rfl | rfl | rfl | rfl | rfl | rfl <;>
    simp [installMethod, callIf, callOn, nonEmpty, placed, placedOn, bit, kOnInstance, kOnPrototype, kOnInterface,
      methodProperty, methodSignature]

theorem installMethods_eq (signature : Option τ) (methods : List (MethodConfiguration ι)) :
    installMethods (some Place.onInstance) (some .onPrototype) (some .onInterface) signature methods =
      some (methods.flatMap fun method => placed (nonEmpty true true) method.propertyLocationConfiguration
        fun place => methodProperty (methodSignature signature place) method) := by
  induction methods with
  | nil => rfl
  | cons method methods ih =>
    rw [installMethods, installMethod_eq, ih]
    rfl

/-! ## Where accessors go -/

/-- `InstallAccessors` makes its calls on templates that are not empty, and on
each of those exactly one for each entry whose mask names it, in order, with what
the entry says. -/
def PlacesAccessors (onInstance onPrototype : Bool) (signature : Option τ) (props : List (AccessorConfiguration ι)) :
    Prop :=
  ∃ calls, installAccessors (handle onInstance onPrototype .onInstance) (handle onInstance onPrototype .onPrototype)
      (handle onInstance onPrototype .onInterface) signature props = some calls ∧
    ∀ place, callsOn place calls = if nonEmpty onInstance onPrototype place then
      (props.filter fun prop => has prop.propertyLocationConfiguration (bit place)).map (accessorProperty signature)
    else []

/-- For all configurations, and whichever templates are empty: the accessors go
where their masks say exactly if, where there is an entry of the prototype, the
instance and the prototype template are both empty or both not. -/
theorem accessors_placed_iff (onInstance onPrototype : Bool) (signature : Option τ)
    (props : List (AccessorConfiguration ι)) :
    PlacesAccessors onInstance onPrototype signature props ↔
      ∀ prop ∈ props, has prop.propertyLocationConfiguration kOnPrototype → onInstance = onPrototype := by
  constructor
  · rintro ⟨calls, heq, hcalls⟩ prop hmem hprop
    by_contra hne
    cases hi : onInstance with
    | true =>
      have hp : onPrototype = false := by simpa [hi] using hne
      rw [installAccessors_eq_none signature hmem hprop hi hp] at heq
      exact absurd heq (by simp)
    | false =>
      -- nothing is called on the prototype template, though the entry is for it
      have hp : onPrototype = true := by simpa [hi] using hne
      rw [installAccessors_eq _ _ signature fun _ _ _ _ => hp, Option.some.injEq] at heq
      have hcalls := hcalls .onPrototype
      rw [← heq, callsOn_flatMap, hi, hp] at hcalls
      have hnil : (props.filter fun prop => has prop.propertyLocationConfiguration (bit .onPrototype)).map
          (accessorProperty signature) = [] := hcalls.symm
      rw [List.map_eq_nil_iff, List.filter_eq_nil_iff] at hnil
      exact hnil prop hmem (decide_eq_true hprop)
  · intro h
    refine ⟨_, installAccessors_eq _ _ signature fun prop hmem hprop hi => h prop hmem hprop ▸ hi,
      fun place => ?_⟩
    rw [callsOn_flatMap]
    cases place with
    | onInstance => rfl
    | onInterface => rfl
    | onPrototype =>
      by_cases hex : ∃ prop ∈ props, has prop.propertyLocationConfiguration kOnPrototype
      · obtain ⟨prop, hmem, hprop⟩ := hex
        rw [h prop hmem hprop]
      · have hnone : (props.filter fun prop => has prop.propertyLocationConfiguration (bit .onPrototype)) = [] :=
          List.filter_eq_nil_iff.mpr fun prop hmem hprop => hex ⟨prop, hmem, of_decide_eq_true hprop⟩
        rw [hnone]
        split <;> split <;> rfl

/-- The accessors of Event: all of them are lost where only the instance template
is empty, and the empty handle is used where only the prototype template is. -/
theorem not_placesAccessors_event :
    installAccessors (handle false true .onInstance) (handle false true .onPrototype) (handle false true .onInterface)
        (some ()) V8Event.props = some [] ∧
      ¬ PlacesAccessors false true (some ()) V8Event.props ∧
      installAccessors (handle true false .onInstance) (handle true false .onPrototype)
        (handle true false .onInterface) (some ()) V8Event.props = none ∧
      ¬ PlacesAccessors true false (some ()) V8Event.props := by
  refine ⟨by decide, ?_, by decide, ?_⟩
  · rintro ⟨calls, heq, hcalls⟩
    cases heq
    exact absurd (hcalls .onPrototype) (by decide)
  · rintro ⟨calls, heq, -⟩
    cases heq

end Config

end NativeObjects
