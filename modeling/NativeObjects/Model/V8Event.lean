import Mathlib.Data.Fintype.Basic
import NativeObjects.Model.Wrappable

/-!
# V8Event.cpp

The callbacks of V8Event, its install function, and families of wrapper types
built the same way (`Hierarchy`), of which `V8Event.embedding` is the
repository's. A type of a hierarchy has its own accessors and methods, and the
constructor callback of V8Event with its own class and `WrapperTypeInfo`.
-/

namespace NativeObjects

variable {ι τ : Type}

/-- A JavaScript value, as far as the callbacks tell values apart. `number` is
the double of an `int`-sized number. -/
inductive JSValue where
  | undefined
  | null
  | number (n : Int)
  | string (s : JSString)
  | object (o : ObjectId)
  | other
  deriving DecidableEq

/-- `Value::IsString`: a primitive string. -/
def JSValue.isString : JSValue → Bool
  | .string _ => true
  | _ => false

/-- `*String::Utf8Value(v)`, of a string. -/
def StringConversions.utf8ValueOf (V : StringConversions) : JSValue → List UInt8
  | .string s => V.utf8Value s
  | _ => []

/-- `FunctionCallbackInfo`; the holder is not used by a call that is no
construct call and has no object as its receiver. -/
structure CallInfo where
  isConstructCall : Bool
  holder : ObjectId
  args : List JSValue

/-- `FunctionCallbackInfo::kArgsLength`, the number of implicit arguments. -/
def kArgsLength : Nat := 8

/-- `ci[i]`, undefined at or past the number of arguments. -/
def CallInfo.arg (ci : CallInfo) (i : Nat) : JSValue := ci.args.getD i .undefined

/-- How a callback ends: with a return value, or after `Config::Throw`, with the
message of the `Error` it raised, if any. -/
inductive Outcome where
  | returned (v : JSValue)
  | rejected (error : Option String)
  deriving DecidableEq

/-- `Config::Throw` -/
def Config.throw (s : State ι) (message : String) : Outcome :=
  .rejected (if s.executionTerminating then none else some message)

/-- The value that `GetReturnValue().Set(handle)` sets; of an empty handle it is undefined. -/
def JSValue.ofLocal : Local ObjectId → JSValue
  | some o => .object o
  | none => .undefined

/-- `ToImpl`: the pointer in field 0, `some none` for a null pointer. Reading a
field that no pointer was set in is undefined behaviour. -/
def Config.toImpl (o : ObjectId) (s : State ι) : Option (Option NativePtr) :=
  match (s.objects o).bind fun obj => obj.fields[0]? with
  | some (Field.native p) => some (some p)
  | some Field.null => some none
  | _ => none

/-! ## Accessors -/

/-- The four getters: null for a null pointer, else what `read` gives of the native. -/
def getterOf (read : Event ι → State ι → Option JSValue) (holder : ObjectId) (s : State ι) : Option JSValue := do
  match ← Config.toImpl holder s with
  | none => return .null
  | some p =>
    let ev ← s.native p
    read ev s

namespace V8EventInternal

def typeGetter (V : StringConversions) : ObjectId → State ι → Option JSValue :=
  getterOf fun ev _ => some (match V.newFromUtf8 ev.getType with
    | some string => .string string
    | none => .undefined)

def timeStampGetter : ObjectId → State ι → Option JSValue :=
  getterOf fun ev _ => some (.number ev.getTimeStamp)

/-- What the getter of a `Wrappable*` field gives: null, or the native's wrapper. -/
def readTarget (field : Option NativePtr) (s : State ι) : Option JSValue :=
  match field with
  | none => some .null
  | some p => (s.native p).map fun n => .ofLocal (Wrappable.getWrapper n s)

def targetGetter : ObjectId → State ι → Option JSValue := getterOf fun ev s => readTarget ev.target s

def currentTargetGetter : ObjectId → State ι → Option JSValue :=
  getterOf fun ev s => readTarget ev.currentTarget s

end V8EventInternal

/-! ## The install function -/

namespace V8Event

/-- The calls that `InstallInterfaceTemplate` makes on `interfaceTemplate` after
`InitializeInterfaceTemplate`; the template's own parts are never empty. -/
def installCalls (t : ι) (props : List (AccessorConfiguration ι)) (methods : List (MethodConfiguration ι))
    (interfaceTemplate : τ) : Option (List (TemplateCall ι τ)) := do
  let signature := some interfaceTemplate
  let accessors ← Config.installAccessors (some Place.onInstance) (some .onPrototype) (some .onInterface)
    signature props
  let functions ← Config.installMethods (some Place.onInstance) (some .onPrototype) (some .onInterface)
    signature methods
  return .setCallHandler (.constructorCallback t) :: .setLength 1 ::
    (accessors ++ functions).map fun c => .setProperty c.1 c.2

end V8Event

namespace Config

theorem installAccessor_isSome {η : Type} (i p f : η) (signature : Option τ) (prop : AccessorConfiguration ι) :
    (installAccessor (some i) (some p) (some f) signature prop).isSome := by
  simp only [installAccessor, callIf, callOn, Option.map_some, Option.pure_def, Option.bind_eq_bind]
  repeat' split
  all_goals rfl

theorem installMethod_isSome {η : Type} (i p f : η) (signature : Option τ) (method : MethodConfiguration ι) :
    (installMethod (some i) (some p) (some f) signature method).isSome := by
  simp only [installMethod, callIf, callOn, Option.map_some, Option.pure_def, Option.bind_eq_bind]
  repeat' split
  all_goals rfl

theorem installAccessors_isSome {η : Type} (i p f : η) (signature : Option τ)
    (props : List (AccessorConfiguration ι)) :
    (installAccessors (some i) (some p) (some f) signature props).isSome := by
  induction props with
  | nil => rfl
  | cons prop props ih =>
    obtain ⟨calls, h⟩ := Option.isSome_iff_exists.mp (installAccessor_isSome i p f signature prop)
    obtain ⟨rest, ih⟩ := Option.isSome_iff_exists.mp ih
    simp only [installAccessors, h, ih, Option.bind_eq_bind, Option.bind_some]
    rfl

theorem installMethods_isSome {η : Type} (i p f : η) (signature : Option τ)
    (methods : List (MethodConfiguration ι)) :
    (installMethods (some i) (some p) (some f) signature methods).isSome := by
  induction methods with
  | nil => rfl
  | cons method methods ih =>
    obtain ⟨calls, h⟩ := Option.isSome_iff_exists.mp (installMethod_isSome i p f signature method)
    obtain ⟨rest, ih⟩ := Option.isSome_iff_exists.mp ih
    simp only [installMethods, h, ih, Option.bind_eq_bind, Option.bind_some]
    rfl

end Config

theorem V8Event.installCalls_isSome (t : ι) (props : List (AccessorConfiguration ι))
    (methods : List (MethodConfiguration ι)) (interfaceTemplate : τ) :
    (installCalls t props methods interfaceTemplate).isSome := by
  obtain ⟨a, ha⟩ := Option.isSome_iff_exists.mp (Config.installAccessors_isSome Place.onInstance .onPrototype
    .onInterface (some interfaceTemplate) props)
  obtain ⟨m, hm⟩ := Option.isSome_iff_exists.mp (Config.installMethods_isSome Place.onInstance .onPrototype
    .onInterface (some interfaceTemplate) methods)
  simp only [installCalls, ha, hm, Option.bind_eq_bind, Option.bind_some]
  rfl

/-! ## Embeddings -/

/-- A finite hierarchy of wrapper types built the way V8Event is. -/
structure Hierarchy (ι : Type) [Fintype ι] where
  info : ι → WrapperTypeInfo ι
  props : ι → List (AccessorConfiguration ι)
  methods : ι → List (MethodConfiguration ι)
  strings : StringConversions
  templateFunction_self : ∀ t, (info t).templateFunction = t
  acyclic : Lib.Forest.Acyclic fun t => (info t).parentClass
  two_le_internalFieldCount : ∀ t, 2 ≤ (info t).internalFieldCount

namespace Hierarchy

variable [Fintype ι] (M : Hierarchy ι)

/-- The types, each with V8Event's install function. -/
def family : TypeTable ι where
  info := M.info
  install t := (V8Event.installCalls t (M.props t) (M.methods t) ()).get (V8Event.installCalls_isSome ..)
  templateFunction_self := M.templateFunction_self

/-- Enough for the recursion of `InterfaceTemplate` through the parents. -/
def fuel (_ : Hierarchy ι) : Nat := Fintype.card ι

/-- `T::InterfaceTemplate(isolate)` for the type `t`. -/
def interfaceTemplate (t : ι) (s : State ι) : Option (TemplateId × State ι) :=
  (M.family.interfaceTemplate M.fuel s.isolate t s.templates).map fun (ft, templates) =>
    (ft, { s with templates := templates })

/-- `constructorCallback` of the type `t`; the allocator returns `addr` if it is asked. -/
def constructorCallback (t : ι) (ci : CallInfo) (addr : Addr) (s : State ι) : Option (Outcome × State ι) :=
  if ¬ ci.isConstructCall then
    some (Config.throw s "Must be constructor", s)
  else if s.mode = .kWrapExistingObject then
    some (.returned (.object ci.holder), s)
  else if kArgsLength < 1 ∨ ¬ (ci.arg 0).isString then
    some (Config.throw s "V8Event needs a type string argument.", s)
  else do
    let utf := M.strings.utf8ValueOf (ci.arg 0) ++ [0]
    let (event, s) ← Event.create t utf addr s
    let wrapper := ci.holder
    let (_, s) ← Wrappable.associateWithWrapper M.info event t (some wrapper) s
    return (.returned (.object wrapper), s)

/-- Calling the native function behind a function made from a template. -/
def invoke (callback : FunctionCallback ι) (ci : CallInfo) (addr : Addr) (s : State ι) :
    Option (Outcome × State ι) :=
  match callback with
  | .constructorCallback t => M.constructorCallback t ci addr s
  | .typeGetter => (V8EventInternal.typeGetter M.strings ci.holder s).map fun v => (.returned v, s)
  | .timeStampGetter => (V8EventInternal.timeStampGetter ci.holder s).map fun v => (.returned v, s)
  | .targetGetter => (V8EventInternal.targetGetter ci.holder s).map fun v => (.returned v, s)
  | .currentTargetGetter => (V8EventInternal.currentTargetGetter ci.holder s).map fun v => (.returned v, s)
  | .preventDefault => some (.returned .undefined, s)
  | .other _ => some (.returned .undefined, s)

end Hierarchy

/-- A hierarchy of wrapper types with distinct names. -/
structure Embedding (ι : Type) [Fintype ι] extends Hierarchy ι where
  interfaceName_injective : Function.Injective fun t => (info t).interfaceName

def Embedding.family [Fintype ι] (M : Embedding ι) : TypeFamily ι where
  toTypeTable := M.toHierarchy.family
  interfaceName_injective := M.interfaceName_injective

/-! ## V8Event -/

namespace V8Event

/-- The wrapper types of the repository. -/
inductive EventType where
  | event
  deriving DecidableEq, Repr

instance : Fintype EventType := ⟨{.event}, fun t => by cases t; exact Finset.mem_singleton_self _⟩

def hcGarbageCollectedClassId : UInt16 := 16

/-- `V8Event::wrapperTypeInfo` -/
def wrapperTypeInfo : WrapperTypeInfo EventType :=
  { templateFunction := .event, interfaceName := "Event", parentClass := none, internalFieldCount := 2,
    gcClassId := hcGarbageCollectedClassId }

/-- `v8::DontDelete` -/
def dontDelete : BitVec 8 := 4

def props : List (AccessorConfiguration EventType) :=
  [⟨"type", some .typeGetter, none, dontDelete, Config.kOnPrototype⟩,
    ⟨"timeStamp", some .timeStampGetter, none, dontDelete, Config.kOnPrototype⟩,
    ⟨"target", some .targetGetter, none, dontDelete, Config.kOnPrototype⟩,
    ⟨"currentTarget", some .currentTargetGetter, none, dontDelete, Config.kOnPrototype⟩]

def methods : List (MethodConfiguration EventType) :=
  [⟨"preventDefault", some .preventDefault, dontDelete, Config.kOnPrototype, 0⟩]

/-- The repository's only wrapper type. -/
def embedding (V : StringConversions) : Embedding EventType where
  info _ := wrapperTypeInfo
  props _ := props
  methods _ := methods
  strings := V
  interfaceName_injective := fun _ _ _ => rfl
  templateFunction_self := fun _ => rfl
  acyclic := fun t h => by
    obtain ⟨u, hu, -⟩ := Relation.TransGen.head'_iff.mp h
    cases hu
  two_le_internalFieldCount := fun _ => le_refl 2

end V8Event

end NativeObjects
