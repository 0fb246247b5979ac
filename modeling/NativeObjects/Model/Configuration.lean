import NativeObjects.Model.Strings
import NativeObjects.Model.Template

/-!
# Configuration.h and Configuration.cpp

The configuration records, the installers of accessors and methods, and
`InterfaceTemplate` with `InitializeInterfaceTemplate`. The recursion of
`InterfaceTemplate` through the parent types is bounded by `fuel`; running out
is `none`. A call through an empty handle is `none` too.
-/

namespace NativeObjects

variable {ι τ η : Type}

/-- `ConstructorMode` -/
inductive ConstructorMode where
  | kWrapExistingObject
  | kCreateNewObject
  deriving DecidableEq, Repr

/-- `WrapperTypeInfo`. A `CreateTemplateFunction` is the `InterfaceTemplate` of
some wrapper type, and is named by that type; a null pointer is `none`. -/
structure WrapperTypeInfo (ι : Type) where
  templateFunction : ι
  interfaceName : String
  parentClass : Option ι
  internalFieldCount : Nat
  gcClassId : UInt16
  deriving DecidableEq, Repr

/-- `AccessorConfiguration` -/
structure AccessorConfiguration (ι : Type) where
  name : String
  getter : Option (FunctionCallback ι)
  setter : Option (FunctionCallback ι)
  attributes : BitVec 8
  propertyLocationConfiguration : BitVec 3
  deriving DecidableEq, Repr

/-- `MethodConfiguration` -/
structure MethodConfiguration (ι : Type) where
  name : String
  callback : Option (FunctionCallback ι)
  attributes : BitVec 8
  propertyLocationConfiguration : BitVec 3
  length : Nat
  deriving DecidableEq, Repr

namespace Config

/-! ## PropertyLocationConfiguration -/

def kOnInstance : BitVec 3 := 1
def kOnPrototype : BitVec 3 := 2
def kOnInterface : BitVec 3 := 4

/-- `location & bits`, as a condition. -/
abbrev has (location bits : BitVec 3) : Prop := location &&& bits ≠ 0

/-! ## Installing accessors and methods

A handle to a template is an `Option η`, `none` when it is empty. An installer
returns the calls it makes, each with the template it is made on. -/

/-- `h->SetAccessorProperty(..)` or `h->Set(..)` -/
def callOn (h : Option η) (p : Property ι τ) : Option (List (η × Property ι τ)) :=
  h.map fun h => [(h, p)]

/-- A call made under a condition. -/
def callIf (c : Bool) (calls : Option (List (η × Property ι τ))) : Option (List (η × Property ι τ)) :=
  if c then calls else some []

/-- `InstallAccessor` -/
def installAccessor (instanceOrTemplate prototypeOrTemplate interfaceOrTemplate : Option η)
    (signature : Option τ) (prop : AccessorConfiguration ι) : Option (List (η × Property ι τ)) := do
  let getter : FunctionValue ι τ :=
    { callback := prop.getter, signature := signature, length := 0,
      prototypeRemoved := true, acceptAnyReceiver := true }
  let setter : FunctionValue ι τ :=
    { callback := prop.setter, signature := signature, length := 1,
      prototypeRemoved := true, acceptAnyReceiver := true }
  let location := prop.propertyLocationConfiguration
  let p : Property ι τ := .accessor prop.name getter setter prop.attributes
  let onObjects ← callIf (has location (kOnInstance ||| kOnPrototype)) do
    let onInstance ← callIf (has location kOnInstance ∧ instanceOrTemplate.isSome)
      (callOn instanceOrTemplate p)
    -- the guard of the prototype template tests the instance template
    let onPrototype ← callIf (has location kOnPrototype ∧ instanceOrTemplate.isSome)
      (callOn prototypeOrTemplate p)
    return onInstance ++ onPrototype
  let onInterface ← callIf (has location kOnInterface) (callOn interfaceOrTemplate p)
  return onObjects ++ onInterface

/-- `InstallAccessors` -/
def installAccessors (instanceOrTemplate prototypeOrTemplate interfaceOrTemplate : Option η)
    (signature : Option τ) : List (AccessorConfiguration ι) → Option (List (η × Property ι τ))
  | [] => some []
  | prop :: props => do
    let calls ← installAccessor instanceOrTemplate prototypeOrTemplate interfaceOrTemplate signature prop
    let rest ← installAccessors instanceOrTemplate prototypeOrTemplate interfaceOrTemplate signature props
    return calls ++ rest

/-- `InstallMethod` -/
def installMethod (instanceOrTemplate prototypeOrTemplate interfaceOrTemplate : Option η)
    (signature : Option τ) (method : MethodConfiguration ι) : Option (List (η × Property ι τ)) := do
  let location := method.propertyLocationConfiguration
  let onObjects ← callIf (has location (kOnInstance ||| kOnPrototype)) do
    let functionTemplate : FunctionValue ι τ :=
      { callback := method.callback, signature := signature, length := method.length,
        prototypeRemoved := true }
    let p : Property ι τ := .method method.name functionTemplate method.attributes
    let onInstance ← callIf (has location kOnInstance) (callOn instanceOrTemplate p)
    let onPrototype ← callIf (has location kOnPrototype) (callOn prototypeOrTemplate p)
    return onInstance ++ onPrototype
  let onInterface ← callIf (has location kOnInterface) do
    let functionTemplate : FunctionValue ι τ :=
      { callback := method.callback, signature := none, length := method.length,
        prototypeRemoved := true }
    callOn interfaceOrTemplate (.method method.name functionTemplate method.attributes)
  return onObjects ++ onInterface

/-- `InstallMethods` -/
def installMethods (instanceOrTemplate prototypeOrTemplate interfaceOrTemplate : Option η)
    (signature : Option τ) : List (MethodConfiguration ι) → Option (List (η × Property ι τ))
  | [] => some []
  | method :: methods => do
    let calls ← installMethod instanceOrTemplate prototypeOrTemplate interfaceOrTemplate signature method
    let rest ← installMethods instanceOrTemplate prototypeOrTemplate interfaceOrTemplate signature methods
    return calls ++ rest

/-! ## Interface templates -/

/-- `v8::ReadOnly | v8::DontEnum` -/
def readOnlyDontEnum : BitVec 8 := 3

/-- `SetClassString` on the prototype template. -/
def setClassString (classString : String) (f : FunctionTemplate ι τ) : FunctionTemplate ι τ :=
  f.setProperty .onPrototype (.toStringTag (newFromOneByte classString) readOnlyDontEnum)

/-- `InitializeInterfaceTemplate`. `request` is what a call of a
`CreateTemplateFunction` does; the handle it returns is never empty. -/
def initializeInterfaceTemplate
    (request : IsolateId → ι → Templates ι → Option (TemplateId × Templates ι))
    (isolate : IsolateId) (interfaceTemplate : TemplateId) (typeInfo : WrapperTypeInfo ι)
    (s : Templates ι) : Option (Templates ι) :=
  let s := s.modify interfaceTemplate fun f => { f with className := newFromOneByte typeInfo.interfaceName }
  let s := s.modify interfaceTemplate fun f => { f with prototypeReadOnly := true }
  let s := s.modify interfaceTemplate fun f =>
    { f with instanceFieldCount := typeInfo.internalFieldCount }
  let s := s.modify interfaceTemplate (setClassString typeInfo.interfaceName)
  match typeInfo.parentClass with
  | none => some s
  | some parentClass => do
    let (parentInterfaceTemplate, s) ← request isolate parentClass s
    let s := s.modify interfaceTemplate fun f => { f with parent := some parentInterfaceTemplate }
    some (s.modify interfaceTemplate fun f => { f with prototypeFieldCount := 1 })

end Config

/-- Wrapper types: for each its `WrapperTypeInfo`, and the calls its install
function makes after `InitializeInterfaceTemplate` (in which `()` names the
template being installed). -/
structure TypeTable (ι : Type) where
  info : ι → WrapperTypeInfo ι
  install : ι → List (TemplateCall ι Unit)
  templateFunction_self : ∀ t, (info t).templateFunction = t

namespace TypeTable

variable (T : TypeTable ι)

def name (t : ι) : String := (T.info t).interfaceName

def parent (t : ι) : Option ι := (T.info t).parentClass

/-- The install function of `t`: `InitializeInterfaceTemplate`, then its own
calls on the interface template. -/
def installInterfaceTemplate
    (request : IsolateId → ι → Templates ι → Option (TemplateId × Templates ι))
    (isolate : IsolateId) (t : ι) (interfaceTemplate : TemplateId) (s : Templates ι) :
    Option (Templates ι) := do
  let s ← Config.initializeInterfaceTemplate request isolate interfaceTemplate (T.info t) s
  return ((T.install t).map (TemplateCall.map fun _ => interfaceTemplate)).foldl
    (fun s c => s.modify interfaceTemplate (·.call c)) s

/-- `Config::InterfaceTemplate(isolate, typeInfo, itf)` for the type `t`. -/
def interfaceTemplate : Nat → IsolateId → ι → Templates ι → Option (TemplateId × Templates ι)
  | 0, _, _, _ => none
  | fuel + 1, isolate, t, s =>
    let name := (T.info t).interfaceName
    match s.iterfaceTemplates name with
    | some e => some (e.get isolate, s.record (.returned isolate t (e.get isolate)))
    | none => do
      let (ft, s) := s.new isolate
      let s ← T.installInterfaceTemplate (interfaceTemplate fuel) isolate t ft (s.record (.installed t ft))
      let s := s.insert name ⟨isolate, ft⟩
      return (ft, s.record (.returned isolate t ft))

/-- Requests made one after another, each on an isolate: the templates they return. -/
def requests (fuel : Nat) : List (IsolateId × ι) → Templates ι → Option (List TemplateId × Templates ι)
  | [], s => some ([], s)
  | (isolate, t) :: calls, s => do
    let (ft, s) ← T.interfaceTemplate fuel isolate t s
    let (fts, s) ← requests fuel calls s
    return (ft :: fts, s)

end TypeTable

/-- Wrapper types with distinct names. -/
structure TypeFamily (ι : Type) extends TypeTable ι where
  interfaceName_injective : Function.Injective fun t => (info t).interfaceName

theorem TypeFamily.name_injective (T : TypeFamily ι) : Function.Injective T.name := T.interfaceName_injective

end NativeObjects
