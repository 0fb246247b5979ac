import NativeObjects.Model.Configuration
import NativeObjects.Model.Strings

/-!
# The heaps of one isolate

The JavaScript objects, V8's handle cells, the native objects, and the
constructor mode. `State.history` is history, which no operation reads.

A native is stored at an address, which `free` natives give back; a
`NativePtr` is an address, with the number of the allocation that it came from
(`birth`, which no operation reads either). So a pointer to a deleted native
reads whatever is at the address now, and `State.Live` says that this is the
native that the pointer was made for.
-/

namespace NativeObjects

abbrev Addr := Nat
abbrev ObjectId := Nat
abbrev CellId := Nat
abbrev ContextId := Nat

/-- `v8::Local`: `none` is an empty handle. -/
abbrev Local (α : Type) := Option α

/-- A `Wrappable*` that is not null. -/
structure NativePtr where
  addr : Addr
  birth : Nat
  deriving DecidableEq, Repr

/-- An internal field of a JavaScript object. -/
inductive Field (ι : Type) where
  | undefined
  /-- a null pointer -/
  | null
  | native (p : NativePtr)
  | typeInfo (t : ι)
  deriving DecidableEq, Repr

/-- A JavaScript object instantiated from an interface template. -/
structure JSObject (ι : Type) where
  template : TemplateId
  /-- The context of the function that constructed it. -/
  context : ContextId
  fields : List (Field ι)
  deriving DecidableEq, Repr

/-- The storage cell of a `v8::Persistent<v8::Object>`. -/
structure Cell where
  object : ObjectId
  /-- 0 when no class ID was assigned. -/
  wrapperClassId : UInt16 := 0
  /-- The parameter `SetWeak` registered; `none` for a strong handle. -/
  weak : Option NativePtr := none
  deriving DecidableEq, Repr

/-- An `Event`, or a native of a class below it; `typeInfo` is its class, whose
`WrapperTypeInfo` its `GetWrapperTypeInfo` returns. -/
structure Event (ι : Type) where
  birth : Nat
  typeInfo : ι
  /-- `wrapper_`: its storage cell, `none` when the handle is empty. -/
  wrapper : Option CellId
  target : Option NativePtr
  currentTarget : Option NativePtr
  /-- a `long` -/
  timeStamp : BitVec 32
  /-- The buffer that `type` points to. -/
  type : List UInt8
  deriving DecidableEq, Repr

/-- Who deletes a native. -/
inductive Deleter where
  | collector
  | nativeCode
  deriving DecidableEq, Repr

structure History where
  /-- What an accepted `new` or a `Wrap` returned. -/
  returned : List ObjectId
  /-- The natives that got a wrapper, with the cell of the handle. -/
  wrapped : List (Nat × CellId)
  /-- The natives deleted. -/
  deleted : List (Nat × Deleter)

structure State (ι : Type) where
  isolate : IsolateId
  templates : Templates ι
  objects : ObjectId → Option (JSObject ι)
  nextObject : ObjectId
  cells : CellId → Option Cell
  nextCell : CellId
  natives : Addr → Option (Event ι)
  births : Nat
  /-- `Config::Status::CurrentConstructorMode` -/
  mode : ConstructorMode
  /-- The current context. -/
  context : ContextId
  executionTerminating : Bool
  /-- The objects that script or a local handle reaches. -/
  reached : List ObjectId
  history : History

namespace State

variable {ι : Type}

/-- The state at the start of a program in the isolate `isolate`. -/
def initial (isolate : IsolateId) (context : ContextId) : State ι :=
  { isolate := isolate, templates := .empty, objects := fun _ => none, nextObject := 0,
    cells := fun _ => none, nextCell := 0, natives := fun _ => none, births := 0,
    mode := .kCreateNewObject, context := context, executionTerminating := false, reached := [],
    history := { returned := [], wrapped := [], deleted := [] } }

/-! ## Natives -/

/-- Dereferencing a pointer. -/
def native (s : State ι) (p : NativePtr) : Option (Event ι) := s.natives p.addr

/-- `n` is at `p`, and is the native that `p` was made for. -/
def Live (s : State ι) (p : NativePtr) (n : Event ι) : Prop := s.natives p.addr = some n ∧ n.birth = p.birth

instance (s : State ι) (p : NativePtr) [DecidableEq ι] (n : Event ι) : Decidable (s.Live p n) :=
  inferInstanceAs (Decidable (_ ∧ _))

/-- `p` points to a live native. -/
def IsLive (s : State ι) (p : NativePtr) : Prop := ∃ n, s.Live p n

def setNative (p : NativePtr) (n : Event ι) (s : State ι) : State ι :=
  { s with natives := Function.update s.natives p.addr (some n) }

/-! ## Objects -/

/-- Instantiating an object: its name and the state after. -/
def newObject (obj : JSObject ι) (s : State ι) : ObjectId × State ι :=
  (s.nextObject, { s with
    objects := Function.update s.objects s.nextObject (some obj)
    nextObject := s.nextObject + 1 })

def setObject (o : ObjectId) (obj : JSObject ι) (s : State ι) : State ι :=
  { s with objects := Function.update s.objects o (some obj) }

/-- Handing an object to script. -/
def reach (o : ObjectId) (s : State ι) : State ι := { s with reached := o :: s.reached }

/-- Handing the result of an accepted `new` or of a `Wrap` to its caller. -/
def giveWrapper (o : ObjectId) (s : State ι) : State ι :=
  { s.reach o with history := { s.history with returned := o :: s.history.returned } }

/-! ## Persistent handles -/

/-- A new storage cell, for a strong handle. -/
def newCell (o : ObjectId) (s : State ι) : CellId × State ι :=
  (s.nextCell, { s with
    cells := Function.update s.cells s.nextCell (some { object := o })
    nextCell := s.nextCell + 1 })

/-- `PersistentBase::SetWrapperClassId` -/
def setWrapperClassId (c : CellId) (classId : UInt16) (s : State ι) : State ι :=
  { s with cells := Function.update s.cells c ((s.cells c).map fun cell => { cell with wrapperClassId := classId }) }

/-- `PersistentBase::SetWeak(parameter, callback, WeakCallbackType::kParameter)` -/
def setWeak (c : CellId) (parameter : NativePtr) (s : State ι) : State ι :=
  { s with cells := Function.update s.cells c ((s.cells c).map fun cell => { cell with weak := some parameter }) }

/-- `V8::DisposeGlobal`: the cell is destroyed, its weak callback cancelled. -/
def disposeGlobal (c : CellId) (s : State ι) : State ι :=
  { s with cells := Function.update s.cells c none }

end State

end NativeObjects
