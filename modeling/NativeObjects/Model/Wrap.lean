import NativeObjects.Lib.Run
import NativeObjects.Model.V8Event

/-!
# Wrapping a native, and the steps of a program

`Wrappable::Wrap` with the construction of objects that it and script start,
and the operations that a program with one isolate is made of (`Op`), between
which script, native code and the collector take turns. `exec` runs an
operation; `none` is a dereference of storage that holds no native, or a fatal
error. `Enabled` says when an operation can be started: what script may pass, the
pointers native code may use, an address the allocator may return.
-/

namespace NativeObjects

variable {ι : Type} [Fintype ι]

/-- The instance of an interface template's function in a context. -/
structure JSFunction where
  template : TemplateId
  context : ContextId
  deriving DecidableEq, Repr

namespace Hierarchy

variable (M : Hierarchy ι)

/-- `GetFunction()`: the instance in the current context. -/
def getFunction (ft : TemplateId) (s : State ι) : JSFunction := ⟨ft, s.context⟩

/-- Constructing an object, by `new` or by `NewInstance`, where execution is not
being terminated (V8 then constructs nothing): an instance of the function's
template with its fields undefined, which the call handler gets as its holder.
Empty if the handler rejected the call. -/
def construct (f : JSFunction) (args : List JSValue) (addr : Addr) (s : State ι) :
    Option (Local ObjectId × State ι) := do
  let template ← s.templates.templates f.template
  let (o, s) := s.newObject
    { template := f.template, context := f.context,
      fields := List.replicate template.instanceFieldCount .undefined }
  match template.callHandler with
  | none => return (some o, s)
  | some callback => do
    let (outcome, s) ← M.invoke callback { isConstructCall := true, holder := o, args := args } addr s
    match outcome with
    | .returned (.object o') => return (some o', s)
    | .returned _ => return (some o, s)
    | .rejected _ => return (none, s)

/-! ## Wrappable::Wrap, in the order it touches the mode -/

/-- The fast path of `Wrap`: the wrapper that `this` has. -/
def wrapFast (this : NativePtr) (s : State ι) : Option (Option (Local ObjectId)) := do
  let n ← s.native this
  let othis := Wrappable.getWrapper n s
  return if Wrappable.containsWrapper n ∧ Wrappable.isEqualTo n s othis then some othis else none

/-- `CurrentConstructorMode = m` -/
def setMode (m : ConstructorMode) (s : State ι) : State ι := { s with mode := m }

/-- `template_function(isolate)->GetFunction()->NewInstance(creation_context).ToLocalChecked()`,
where execution is not being terminated; `none` is the fatal error of an empty handle. -/
def wrapInstance (wrapperTypeInfo : ι) (_creationContext : ContextId) (addr : Addr) (s : State ι) :
    Option (ObjectId × State ι) := do
  let (ft, s) ← M.interfaceTemplate (M.info wrapperTypeInfo).templateFunction s
  let (wrapper, s) ← M.construct (getFunction ft s) [] addr s
  let wrapper ← wrapper
  return (wrapper, s)

/-- `Wrappable::Wrap` -/
def wrap (this : NativePtr) (creationContext : ContextId) (addr : Addr) (s : State ι) :
    Option (Local ObjectId × State ι) := do
  match ← wrapFast this s with
  | some othis => return (othis, s)
  | none =>
    let n ← s.native this
    let wrapperTypeInfo := n.typeInfo
    let prevConstructorMode := s.mode
    let s := setMode .kWrapExistingObject s
    let (wrapper, s) ← M.wrapInstance wrapperTypeInfo creationContext addr s
    let (ret, s) ← Wrappable.associateWithWrapper M.info this wrapperTypeInfo (some wrapper) s
    return (ret, setMode prevConstructorMode s)

end Hierarchy

/-! ## Script calls -/

/-- The template that `ft` was made to inherit from. -/
def Templates.parent (templates : Templates ι) (ft : TemplateId) : Option TemplateId :=
  (templates.templates ft).bind FunctionTemplate.parent

/-- V8's check of a receiver: it was instantiated from the signature's template,
or from one that inherits from it, directly or not. -/
def signatureAccepts (templates : Templates ι) (signature : Option TemplateId) (obj : JSObject ι) : Bool :=
  match signature with
  | none => true
  | some receiver =>
    (List.range templates.next).any fun n => Lib.Forest.climb templates.parent n obj.template == some receiver

/-- The receiver of a call. -/
inductive Receiver where
  | object (o : ObjectId)
  /-- A constructor function. -/
  | function (f : JSFunction)
  /-- A primitive value, or an object that no interface template made. -/
  | other
  deriving DecidableEq, Repr

/-- V8's check of any receiver: only an object can meet a signature. -/
def State.receiverAccepted (s : State ι) (signature : Option TemplateId) : Receiver → Bool
  | .object o => (s.objects o).any (signatureAccepts s.templates signature)
  | .function _ | .other => signature.isNone

/-- The functions that a property installs. -/
def Property.functions {τ : Type} : Property ι τ → List (FunctionValue ι τ)
  | .accessor _ getter setter _ => [getter, setter]
  | .method _ function _ => [function]
  | .toStringTag .. => []

/-- `f` is installed at `place` of the template `ft`. -/
def Templates.Installed (templates : Templates ι) (ft : TemplateId) (place : Place)
    (f : FunctionValue ι TemplateId) : Prop :=
  ∃ template, templates.templates ft = some template ∧ ∃ p ∈ template.properties place, f ∈ p.functions

/-- What script gets of a value: an object it reaches from now on. -/
def State.reachValue (v : JSValue) (s : State ι) : State ι :=
  match v with
  | .object o => s.reach o
  | _ => s

namespace Hierarchy

variable (M : Hierarchy ι)

/-- Script calls `f` with the receiver `o`. A receiver that the signature does not
accept raises a `TypeError`; a null callback does nothing. -/
def scriptCall (f : FunctionValue ι TemplateId) (o : ObjectId) (args : List JSValue) (addr : Addr) (s : State ι) :
    Option (State ι) := do
  let obj ← s.objects o
  if signatureAccepts s.templates f.signature obj then
    match f.callback with
    | none => return s
    | some callback => do
      let (outcome, s) ← M.invoke callback { isConstructCall := false, holder := o, args := args } addr s
      match outcome with
      | .returned v => return s.reachValue v
      | .rejected _ => return s
  else return s

end Hierarchy

/-! ## Operations -/

/-- An operation of a program. `addr` is the address that the allocator returns. -/
inductive Op (ι : Type) where
  /-- Native code asks for `T::InterfaceTemplate(isolate)`. -/
  | interfaceTemplate (t : ι)
  /-- Script evaluates `new F(args)`. -/
  | scriptNew (f : JSFunction) (args : List JSValue) (addr : Addr)
  /-- Script calls a function installed at a place of a template. -/
  | scriptCall (ft : TemplateId) (place : Place) (f : FunctionValue ι TemplateId) (receiver : ObjectId)
      (args : List JSValue) (addr : Addr)
  /-- Script drops its references to an object. -/
  | drop (o : ObjectId)
  /-- Native code evaluates `new T(event)`. -/
  | nativeNew (t : ι) (event : List UInt8) (addr : Addr)
  | wrap (this : NativePtr) (creationContext : ContextId) (addr : Addr)
  | setTarget (this : NativePtr) (target : Option NativePtr)
  | setCurrentTarget (this : NativePtr) (target : Option NativePtr)
  | setTimeStamp (this : NativePtr) (timeStamp : BitVec 32)
  /-- Native code evaluates `delete this`. -/
  | destroy (this : NativePtr)
  /-- The collector takes an object. -/
  | collect (o : ObjectId)
  | enterContext (context : ContextId)
  /-- `TerminateExecution` and `CancelTerminateExecution`. -/
  | setTerminating (terminating : Bool)

/-- `addr` is free. -/
def State.Free (addr : Addr) (s : State ι) : Prop := s.natives addr = none

/-- The template is an interface template, whose function script can have. -/
def State.Exposed (s : State ι) (ft : TemplateId) : Prop := ∃ name, s.templates.cached name = some ft

/-- A pointer that is null or points to a live native. -/
def State.NullOrLive (s : State ι) (p : Option NativePtr) : Prop := ∀ q, p = some q → s.IsLive q

namespace Op

/-- When an operation can be started. -/
def Enabled (s : State ι) : Op ι → Prop
  | interfaceTemplate _ => True
  | scriptNew f _ addr => s.Exposed f.template ∧ s.Free addr
  | scriptCall ft place f receiver _ addr =>
    s.Exposed ft ∧ s.templates.Installed ft place f ∧ receiver ∈ s.reached ∧ s.Free addr
  | drop o => o ∈ s.reached
  | nativeNew _ event addr => strlen event + 1 < 2 ^ 31 ∧ s.Free addr
  | wrap this _ addr => s.IsLive this ∧ s.Free addr
  | setTarget this target | setCurrentTarget this target => s.IsLive this ∧ s.NullOrLive target
  | setTimeStamp this _ => s.IsLive this
  | destroy this => s.IsLive this
  | collect o => s.Collectable o
  | enterContext _ | setTerminating _ => True

variable (M : Hierarchy ι)

/-- What an operation does. -/
def exec (s : State ι) : Op ι → Option (State ι)
  | interfaceTemplate t => do
    let (_, s) ← M.interfaceTemplate t s
    return s
  | scriptNew f args addr => do
    let (o, s) ← M.construct f args addr s
    match o with
    | some o => return s.giveWrapper o
    | none => return s
  | scriptCall _ _ f receiver args addr => M.scriptCall f receiver args addr s
  | drop o => some { s with reached := s.reached.filter (· ≠ o) }
  | nativeNew t event addr => do
    let (_, s) ← Event.create t event addr s
    return s
  | wrap this creationContext addr => do
    let (o, s) ← M.wrap this creationContext addr s
    match o with
    | some o => return s.giveWrapper o
    | none => return s
  | setTarget this target => do
    let n ← s.native this
    return s.setNative this { n with target := target }
  | setCurrentTarget this target => do
    let n ← s.native this
    return s.setNative this { n with currentTarget := target }
  | setTimeStamp this timeStamp => do
    let n ← s.native this
    return s.setNative this { n with timeStamp := timeStamp }
  | destroy this => Wrappable.delete .nativeCode this s
  | collect o => s.collect o
  | enterContext context => some { s with context := context }
  | setTerminating terminating => some { s with executionTerminating := terminating }

end Op

/-- The programs with the wrapper types `M`, in one isolate. -/
def Hierarchy.system (M : Hierarchy ι) : Lib.System (State ι) (Op ι) where
  init s := ∃ isolate context, s = State.initial isolate context
  step s op s' := op.Enabled s ∧ op.exec M s = some s'

/-- The operation terminates execution. -/
def Op.Terminates : Op ι → Prop
  | .setTerminating terminating => terminating = true
  | _ => False

/-- The programs in which execution is not terminated. -/
def Hierarchy.running (M : Hierarchy ι) : Lib.System (State ι) (Op ι) :=
  M.system.restrict fun op => ¬ op.Terminates

end NativeObjects
