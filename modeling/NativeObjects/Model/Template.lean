import Mathlib.Logic.Function.Basic
import NativeObjects.Lib.Forest

/-!
# V8's templates

What `Configuration.cpp` and `V8Event.cpp` use of `v8::FunctionTemplate`,
`v8::ObjectTemplate`, `v8::Signature` and `v8::Eternal`. A template is named by
a `TemplateId`; the templates of a process and the map `iterfaceTemplates_` are
in one `Templates`. Its `log` is history, which no operation reads: which
templates were installed, modified and returned, the last event first.

The types `τ` of template names and `ι` of wrapper types are parameters: an
element of `ι` stands for a class such as `V8Event`, its `WrapperTypeInfo`, and
its `InterfaceTemplate` function.
-/

namespace NativeObjects

abbrev IsolateId := Nat
abbrev TemplateId := Nat

/-- The native functions that functions made from templates call. `other` is a
function of some other wrapper type, which touches no wrapper. -/
inductive FunctionCallback (ι : Type) where
  | constructorCallback (t : ι)
  | typeGetter
  | timeStampGetter
  | targetGetter
  | currentTargetGetter
  | preventDefault
  | other (n : Nat)
  deriving DecidableEq, Repr

/-- A function template for an accessor or a method:
`FunctionTemplate::New(isolate, callback, Local<Value>(), signature, length)`.
`none` for the callback is a null pointer, for the signature an empty handle,
and a signature is named by its receiver template. -/
structure FunctionValue (ι τ : Type) where
  callback : Option (FunctionCallback ι)
  signature : Option τ
  length : Nat
  prototypeRemoved : Bool := false
  acceptAnyReceiver : Bool := false
  deriving DecidableEq, Repr

/-- A property of a template. -/
inductive Property (ι τ : Type) where
  /-- `SetAccessorProperty(name, getter, setter, attribute)` -/
  | accessor (name : String) (getter setter : FunctionValue ι τ) (attributes : BitVec 8)
  /-- `Set(name, function_template, attribute)` -/
  | method (name : String) (function : FunctionValue ι τ) (attributes : BitVec 8)
  /-- `Set(Symbol::GetToStringTag(isolate), string, attribute)` -/
  | toStringTag (string : List UInt16) (attributes : BitVec 8)
  deriving DecidableEq, Repr

/-- The three places of an interface template: its instance template, its
prototype template, and itself (the constructor function). -/
inductive Place where
  | onInstance
  | onPrototype
  | onInterface
  deriving DecidableEq, Repr

/-- An interface template, `v8::FunctionTemplate`. -/
structure FunctionTemplate (ι τ : Type) where
  isolate : IsolateId
  className : List UInt16 := []
  prototypeReadOnly : Bool := false
  callHandler : Option (FunctionCallback ι) := none
  length : Nat := 0
  /-- `Inherit(parent)` -/
  parent : Option τ := none
  /-- `InstanceTemplate()->InternalFieldCount()` -/
  instanceFieldCount : Nat := 0
  prototypeFieldCount : Nat := 0
  properties : Place → List (Property ι τ) := fun _ => []

/-- The calls an install function makes on its interface template after
`InitializeInterfaceTemplate`. -/
inductive TemplateCall (ι τ : Type) where
  | setCallHandler (callback : FunctionCallback ι)
  | setLength (length : Nat)
  | setProperty (place : Place) (property : Property ι τ)
  deriving DecidableEq, Repr

variable {ι τ τ' : Type}

namespace FunctionTemplate

def setProperty (place : Place) (p : Property ι τ) (f : FunctionTemplate ι τ) : FunctionTemplate ι τ :=
  { f with properties := Function.update f.properties place (f.properties place ++ [p]) }

def call (f : FunctionTemplate ι τ) : TemplateCall ι τ → FunctionTemplate ι τ
  | .setCallHandler callback => { f with callHandler := some callback }
  | .setLength length => { f with length := length }
  | .setProperty place p => f.setProperty place p

end FunctionTemplate

/-! ## Renaming templates -/

def FunctionValue.map (ρ : τ → τ') (f : FunctionValue ι τ) : FunctionValue ι τ' :=
  { callback := f.callback, signature := f.signature.map ρ, length := f.length,
    prototypeRemoved := f.prototypeRemoved, acceptAnyReceiver := f.acceptAnyReceiver }

def Property.map (ρ : τ → τ') : Property ι τ → Property ι τ'
  | .accessor name getter setter attributes => .accessor name (getter.map ρ) (setter.map ρ) attributes
  | .method name function attributes => .method name (function.map ρ) attributes
  | .toStringTag string attributes => .toStringTag string attributes

def TemplateCall.map (ρ : τ → τ') : TemplateCall ι τ → TemplateCall ι τ'
  | .setCallHandler callback => .setCallHandler callback
  | .setLength length => .setLength length
  | .setProperty place p => .setProperty place (p.map ρ)

def FunctionTemplate.map (ρ : τ → τ') (f : FunctionTemplate ι τ) : FunctionTemplate ι τ' :=
  { isolate := f.isolate, className := f.className, prototypeReadOnly := f.prototypeReadOnly,
    callHandler := f.callHandler, length := f.length, parent := f.parent.map ρ,
    instanceFieldCount := f.instanceFieldCount, prototypeFieldCount := f.prototypeFieldCount,
    properties := fun place => (f.properties place).map (Property.map ρ) }

/-! ## The templates of a process -/

/-- `v8::Eternal<FunctionTemplate>`: a handle for the lifetime of the isolate it
was created for. -/
structure Eternal where
  isolate : IsolateId
  template : TemplateId
  deriving DecidableEq, Repr

/-- `Eternal::Get` hands the stored handle back, whichever isolate asks. -/
def Eternal.get (e : Eternal) (_isolate : IsolateId) : TemplateId := e.template

inductive TemplateEvent (ι : Type) where
  /-- The install function of `t` starts on a template. -/
  | installed (t : ι) (template : TemplateId)
  | modified (template : TemplateId)
  /-- `InterfaceTemplate(isolate, t, ..)` returns a template. -/
  | returned (isolate : IsolateId) (t : ι) (template : TemplateId)
  deriving DecidableEq, Repr

structure Templates (ι : Type) where
  templates : TemplateId → Option (FunctionTemplate ι TemplateId)
  /-- The name of the next template. -/
  next : TemplateId
  /-- `static std::map<std::string, Eternal<FunctionTemplate>> iterfaceTemplates_` -/
  iterfaceTemplates : String → Option Eternal
  log : List (TemplateEvent ι)

namespace Templates

def empty : Templates ι :=
  { templates := fun _ => none, next := 0, iterfaceTemplates := fun _ => none, log := [] }

def record (e : TemplateEvent ι) (s : Templates ι) : Templates ι := { s with log := e :: s.log }

/-- `v8::FunctionTemplate::New(isolate)`: its name and the state after. -/
def new (isolate : IsolateId) (s : Templates ι) : TemplateId × Templates ι :=
  (s.next, { s with
    templates := Function.update s.templates s.next (some { isolate := isolate })
    next := s.next + 1 })

/-- A call that changes the template `ft`. -/
def modify (ft : TemplateId) (f : FunctionTemplate ι TemplateId → FunctionTemplate ι TemplateId)
    (s : Templates ι) : Templates ι :=
  { s with
    templates := Function.update s.templates ft ((s.templates ft).map f)
    log := .modified ft :: s.log }

/-- `std::map::insert`, which keeps the value of a key that is present. -/
def insert (name : String) (e : Eternal) (s : Templates ι) : Templates ι :=
  match s.iterfaceTemplates name with
  | some _ => s
  | none => { s with iterfaceTemplates := Function.update s.iterfaceTemplates name (some e) }

/-- The template that `t`'s name has in `iterfaceTemplates_`. -/
def cached (name : String) (s : Templates ι) : Option TemplateId :=
  (s.iterfaceTemplates name).map Eternal.template

end Templates

end NativeObjects
