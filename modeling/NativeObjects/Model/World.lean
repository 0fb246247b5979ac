import NativeObjects.Model.Wrap

/-!
# What wrappers are for

The abstract model: events, the objects that script has of them, and nothing of
how the two are linked. An event is named by the number of events made before
it; there are no addresses, no handles, no internal fields, no constructor mode,
and no history. An event has at most one wrapper, which is what `wrap` makes sure
of, and the collector takes an event together with its wrapper.

`Hierarchy.world` is the transition system. `none` is a read of an event that is
not there, which the abstract model gives no meaning.
-/

namespace NativeObjects

variable {ι : Type}

/-- An event, as it is seen from outside. -/
structure EventView (ι : Type) where
  typeInfo : ι
  wrapper : Option ObjectId
  target : Option Nat
  currentTarget : Option Nat
  timeStamp : BitVec 32
  type : List UInt8
  deriving DecidableEq

/-- A JavaScript object: the function that it is an instance of, and the event
that it is the wrapper of, if any. -/
structure ObjectView where
  template : TemplateId
  context : ContextId
  native : Option Nat
  deriving DecidableEq

structure World (ι : Type) where
  isolate : IsolateId
  templates : Templates ι
  context : ContextId
  executionTerminating : Bool
  events : Nat → Option (EventView ι)
  births : Nat
  objects : ObjectId → Option ObjectView
  nextObject : ObjectId
  reached : List ObjectId

/-- An operation of a program, with events named by their births. -/
inductive Action (ι : Type) where
  | interfaceTemplate (t : ι)
  | scriptNew (f : JSFunction) (args : List JSValue)
  | scriptCall (f : FunctionValue ι TemplateId) (receiver : ObjectId)
  | drop (o : ObjectId)
  | nativeNew (t : ι) (event : List UInt8)
  | wrap (this : Nat)
  | setTarget (this : Nat) (target : Option Nat)
  | setCurrentTarget (this : Nat) (target : Option Nat)
  | setTimeStamp (this : Nat) (timeStamp : BitVec 32)
  | destroy (this : Nat)
  | collect (o : ObjectId)
  | enterContext (context : ContextId)
  | setTerminating (terminating : Bool)

namespace World

def initial (isolate : IsolateId) (context : ContextId) : World ι :=
  { isolate := isolate, templates := .empty, context := context, executionTerminating := false,
    events := fun _ => none, births := 0, objects := fun _ => none, nextObject := 0, reached := [] }

/-! ## Events and objects -/

/-- A new event of the type `event`, with the wrapper `wrapper` if it has one. -/
def make (t : ι) (event : List UInt8) (wrapper : Option ObjectId) (w : World ι) : World ι :=
  { w with
    events := Function.update w.events w.births (some
      { typeInfo := t, wrapper := wrapper, target := none, currentTarget := none, timeStamp := 0,
        type := cString event })
    births := w.births + 1 }

/-- A new instance of `f`, the wrapper of the event `native` if it is one. -/
def instantiate (f : JSFunction) (native : Option Nat) (w : World ι) : World ι :=
  { w with
    objects := Function.update w.objects w.nextObject (some ⟨f.template, f.context, native⟩)
    nextObject := w.nextObject + 1 }

def setEvent (b : Nat) (n : EventView ι) (w : World ι) : World ι :=
  { w with events := Function.update w.events b (some n) }

def reach (o : ObjectId) (w : World ι) : World ι := { w with reached := o :: w.reached }

def IsLive (w : World ι) (b : Nat) : Prop := ∃ n, w.events b = some n

/-- The class of the objects that the function of the template `ft` constructs. -/
def classOf (ft : TemplateId) (w : World ι) : Option ι :=
  match (w.templates.templates ft).bind FunctionTemplate.callHandler with
  | some (.constructorCallback t) => some t
  | _ => none

/-! ## What script reads -/

/-- What the getter of a target gives: null, or the target's wrapper, undefined if it has none. -/
def readTarget (target : Option Nat) (w : World ι) : Option JSValue :=
  match target with
  | none => some .null
  | some b => (w.events b).map fun n => .ofLocal n.wrapper

/-- What a call of a native function as a method of the wrapper of the event `b` returns. -/
def invoke (V : StringConversions) (callback : FunctionCallback ι) (b : Option Nat) (w : World ι) : Option Outcome :=
  match callback with
  | .constructorCallback _ =>
    some (.rejected (if w.executionTerminating then none else some "Must be constructor"))
  | .typeGetter => do
    let n ← w.events (← b)
    return .returned (match V.newFromUtf8 n.type with
      | some string => .string string
      | none => .undefined)
  | .timeStampGetter => do
    let n ← w.events (← b)
    return .returned (.number n.timeStamp.toInt)
  | .targetGetter => do
    let n ← w.events (← b)
    let v ← readTarget n.target w
    return .returned v
  | .currentTargetGetter => do
    let n ← w.events (← b)
    let v ← readTarget n.currentTarget w
    return .returned v
  | .preventDefault | .other _ => some (.returned .undefined)

/-- What script gets of a call of `f` with the receiver `o`; `some none` is a `TypeError`. -/
def answer (V : StringConversions) (f : FunctionValue ι TemplateId) (o : ObjectId) (w : World ι) :
    Option (Option Outcome) := do
  let obj ← w.objects o
  if signatureAccepts (ι := ι) w.templates f.signature ⟨obj.template, obj.context, []⟩ then
    match f.callback with
    | none => return some (.returned .undefined)
    | some callback => do
      let outcome ← invoke V callback obj.native w
      return some outcome
  else return none

end World

/-! ## Operations -/

namespace Action

def Enabled (w : World ι) : Action ι → Prop
  | interfaceTemplate _ | nativeNew .. | enterContext _ | setTerminating _ => True
  | scriptNew f _ => ∃ name, w.templates.cached name = some f.template
  | scriptCall _ receiver => receiver ∈ w.reached
  | drop o => o ∈ w.reached
  | wrap this | setTimeStamp this _ | destroy this => w.IsLive this
  | setTarget this target | setCurrentTarget this target => w.IsLive this ∧ ∀ b, target = some b → w.IsLive b
  | collect o => w.objects o ≠ none ∧ o ∉ w.reached

variable [Fintype ι] (M : Hierarchy ι)

def exec (w : World ι) : Action ι → Option (World ι)
  | interfaceTemplate t => do
    let (_, templates) ← M.family.interfaceTemplate M.fuel w.isolate t w.templates
    return { w with templates := templates }
  | scriptNew f args => do
    let t ← w.classOf f.template
    match args.getD 0 .undefined with
    | .string v =>
      return ((w.instantiate f (some w.births)).make t (M.strings.utf8Value v) (some w.nextObject)).reach w.nextObject
    | _ => return w.instantiate f none
  | scriptCall f receiver => do
    match ← w.answer M.strings f receiver with
    | some (.returned (.object o)) => return w.reach o
    | _ => return w
  | drop o => some { w with reached := w.reached.filter (· ≠ o) }
  | nativeNew t event => some (w.make t event none)
  | wrap this => do
    let n ← w.events this
    match n.wrapper with
    | some o => return w.reach o
    | none => do
      let (ft, templates) ← M.family.interfaceTemplate M.fuel w.isolate n.typeInfo w.templates
      let o := w.nextObject
      let w := { w with templates := templates }.instantiate ⟨ft, w.context⟩ (some this)
      return (w.setEvent this { n with wrapper := some o }).reach o
  | setTarget this target => do
    let n ← w.events this
    return w.setEvent this { n with target := target }
  | setCurrentTarget this target => do
    let n ← w.events this
    return w.setEvent this { n with currentTarget := target }
  | setTimeStamp this timeStamp => do
    let n ← w.events this
    return w.setEvent this { n with timeStamp := timeStamp }
  | destroy this => some { w with events := Function.update w.events this none }
  | collect o =>
    some { w with
      objects := Function.update w.objects o none
      events := fun b => (w.events b).filter fun n => n.wrapper ≠ some o }
  | enterContext context => some { w with context := context }
  | setTerminating terminating => some { w with executionTerminating := terminating }

end Action

/-- The abstract programs with the wrapper types `M`. -/
def Hierarchy.world [Fintype ι] (M : Hierarchy ι) : Lib.System (World ι) (Action ι) where
  init w := ∃ isolate context, w = .initial isolate context
  step w a w' := a.Enabled w ∧ a.exec M w = some w'

/-- What script gets of a call of `f` with the receiver `o`; `some none` is a `TypeError`. -/
def Hierarchy.answer [Fintype ι] (M : Hierarchy ι) (f : FunctionValue ι TemplateId) (o : ObjectId)
    (args : List JSValue) (addr : Addr) (s : State ι) : Option (Option Outcome) := do
  let obj ← s.objects o
  if signatureAccepts s.templates f.signature obj then
    match f.callback with
    | none => return some (.returned .undefined)
    | some callback => do
      let (outcome, _) ← M.invoke callback { isConstructCall := false, holder := o, args := args } addr s
      return some outcome
  else return none

/-! ## What script gets -/

def Op.answer [Fintype ι] (M : Hierarchy ι) (s : State ι) : Op ι → Option (Option Outcome)
  | .scriptCall _ _ f receiver args addr => M.answer f receiver args addr s
  | _ => none

def Action.answer (V : StringConversions) (w : World ι) : Action ι → Option (Option Outcome)
  | .scriptCall f receiver => w.answer V f receiver
  | _ => none

/-! ## Forgetting the addresses -/

/-- An operation, with the pointers to natives forgotten but for which native they were made for. -/
def Op.action : Op ι → Action ι
  | .interfaceTemplate t => .interfaceTemplate t
  | .scriptNew f args _ => .scriptNew f args
  | .scriptCall _ _ f receiver _ _ => .scriptCall f receiver
  | .drop o => .drop o
  | .nativeNew t event _ => .nativeNew t event
  | .wrap this _ _ => .wrap this.birth
  | .setTarget this target => .setTarget this.birth (target.map NativePtr.birth)
  | .setCurrentTarget this target => .setCurrentTarget this.birth (target.map NativePtr.birth)
  | .setTimeStamp this timeStamp => .setTimeStamp this.birth timeStamp
  | .destroy this => .destroy this.birth
  | .collect o => .collect o
  | .enterContext context => .enterContext context
  | .setTerminating terminating => .setTerminating terminating

end NativeObjects
