import NativeObjects.Model.Heap

/-!
# Wrappable.cpp and Event.cpp: natives and their wrappers

Creating and deleting a native, and associating it with a JavaScript object.
`Wrap` itself needs `V8Event.cpp`, and is in `Wrap.lean`. `none` is a use of
storage that holds no native, or a fatal error of V8.
-/

namespace NativeObjects

variable {ι : Type}

/-! ## Event.cpp -/

namespace Event

/-- The buffer that `Event::Event` makes of the C string `event`: `none` where
`new char[len + 1]` has no size to allocate. -/
def typeBuffer (event : List UInt8) : Option (List UInt8) :=
  let len := toInt (strlen event)
  if 0 ≤ len ∧ len + 1 < 2 ^ 31 then some (event.take len.toNat ++ [0]) else none

/-- `Event::Type`, as the C string it returns. -/
def getType (ev : Event ι) : List UInt8 := cString ev.type

/-- `Event::TimeStamp` -/
def getTimeStamp (ev : Event ι) : Int := ev.timeStamp.toInt

/-- `new Event(event)`, for a class whose `GetWrapperTypeInfo` is `t`'s; the
allocator returns `addr`. -/
def create (t : ι) (event : List UInt8) (addr : Addr) (s : State ι) : Option (NativePtr × State ι) := do
  let type ← typeBuffer event
  if (s.natives addr).isSome then none
  let p : NativePtr := ⟨addr, s.births⟩
  let ev : Event ι :=
    { birth := s.births, typeInfo := t, wrapper := none, target := none, currentTarget := none,
      timeStamp := 0, type := type }
  return (p, { s.setNative p ev with births := s.births + 1 })

end Event

/-! ## Wrappable.h and Wrappable.cpp -/

namespace Wrappable

/-- `ContainsWrapper` -/
def containsWrapper (n : Event ι) : Bool := n.wrapper.isSome

/-- `GetWrapper`: `wrapper_.Get(isolate)` -/
def getWrapper (n : Event ι) (s : State ι) : Local ObjectId :=
  n.wrapper.bind fun c => (s.cells c).map Cell.object

/-- `IsEqualTo` -/
def isEqualTo (n : Event ι) (s : State ι) (other : Local ObjectId) : Bool := getWrapper n s == other

/-- `SetWrapper`: whether `this` had no wrapper, and the handle `wrapper` after. -/
def setWrapper (this : NativePtr) (wrapper : Local ObjectId) (typeInfo : WrapperTypeInfo ι) (s : State ι) :
    Option (Bool × Local ObjectId × State ι) := do
  let n ← s.native this
  if containsWrapper n then
    return (false, getWrapper n s, s)
  else
    let o ← wrapper
    let (cell, s) := s.newCell o
    let s := s.setNative this { n with wrapper := some cell }
    let s := s.setWrapperClassId cell typeInfo.gcClassId
    let s := s.setWeak cell this
    let s := { s with history := { s.history with wrapped := (n.birth, cell) :: s.history.wrapped } }
    return (true, wrapper, s)

/-- `SetNativeInfo`: `SetAlignedPointerInInternalFields(2, {0, 1}, {this, t's WrapperTypeInfo})`,
fatal on an object with fewer fields. -/
def setNativeInfo (this : NativePtr) (t : ι) (wrapper : Local ObjectId) (s : State ι) : Option (State ι) := do
  let o ← wrapper
  let obj ← s.objects o
  if 2 ≤ obj.fields.length then
    return s.setObject o { obj with fields := (obj.fields.set 0 (.native this)).set 1 (.typeInfo t) }
  else none

/-- `AssociateWithWrapper`, with `t`'s `WrapperTypeInfo`: the handle returned, and
the state after. -/
def associateWithWrapper (info : ι → WrapperTypeInfo ι) (this : NativePtr) (t : ι) (wrapper : Local ObjectId)
    (s : State ι) : Option (Local ObjectId × State ι) := do
  let (set, wrapper, s) ← setWrapper this wrapper (info t) s
  if set then
    let s ← setNativeInfo this t wrapper s
    return (wrapper, s)
  else
    return (wrapper, s)

/-- `~Wrappable`: `wrapper_.Reset()` if the handle is not empty. -/
def resetWrapper (n : Event ι) (s : State ι) : State ι :=
  match n.wrapper with
  | some c => s.disposeGlobal c
  | none => s

/-- `delete p`: the destructors, then the storage is given back. The `delete` of `~Event`
on the array `type` gives the array back, as `delete[]` does. -/
def delete (deleter : Deleter) (p : NativePtr) (s : State ι) : Option (State ι) := do
  let n ← s.native p
  let s := resetWrapper n s
  return { s with
    natives := Function.update s.natives p.addr none
    history := { s.history with deleted := (n.birth, deleter) :: s.history.deleted } }

/-- `weakCallbackForDOMObjectHolder`, called with the parameter of a registration. -/
def weakCallbackForDOMObjectHolder (parameter : NativePtr) (s : State ι) : Option (State ι) :=
  delete .collector parameter s

end Wrappable

/-! ## The garbage collector -/

namespace State

/-- The weak callback of the cell `c`, if the object `o` that was collected is
its object: V8 takes the registration, and requires of the callback that it
resets the handle. -/
def fireWeak (o : ObjectId) (c : CellId) (s : State ι) : Option (State ι) :=
  match s.cells c with
  | none => some s
  | some cell =>
    if cell.object = o then
      match cell.weak with
      | none => some s
      | some parameter => do
        let s := { s with cells := Function.update s.cells c (some { cell with weak := none }) }
        let s ← Wrappable.weakCallbackForDOMObjectHolder parameter s
        if (s.cells c).isSome then none else return s
    else some s

/-- The collector takes the object `o`, and the weak callbacks registered for it run. -/
def collect (o : ObjectId) (s : State ι) : Option (State ι) :=
  (List.range s.nextCell).foldlM (fun s c => s.fireWeak o c)
    { s with objects := Function.update s.objects o none }

/-- The collector may take `o`: it is there, and neither script, a local handle
nor a strong handle reaches it. -/
def Collectable (o : ObjectId) (s : State ι) : Prop :=
  s.objects o ≠ none ∧ o ∉ s.reached ∧ ∀ c cell, s.cells c = some cell → cell.object = o → cell.weak ≠ none

end State

end NativeObjects
