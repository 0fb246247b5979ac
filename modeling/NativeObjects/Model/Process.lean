import NativeObjects.Lib.SavedVar
import NativeObjects.Model.Wrap

/-!
# Isolates of one process

Isolates with a thread each, which share the static data members of `Config`:
`Config::Status::CurrentConstructorMode` and `iterfaceTemplates_`. Each has heaps
of its own. A thread takes one step at a time; `Wrap` is taken apart where it
reads or writes the mode, any other operation touches the mode at most once. A
request for a template is one step, though nothing locks the map.
-/

namespace NativeObjects

/-- The parameters and local variables of a `Wrap` that has saved the mode. -/
structure WrapFrame (ι : Type) where
  this : NativePtr
  creationContext : ContextId
  wrapperTypeInfo : ι
  prevConstructorMode : ConstructorMode
  /-- Another `Wrap` had set the mode and not restored it when this one saved it;
  history. -/
  overlapped : Prop

/-- Where a thread is: in no `Wrap`, or after the named step of one. -/
inductive Thread (ι : Type) where
  | idle
  | saved (frame : WrapFrame ι)
  | set (frame : WrapFrame ι)
  | instantiated (frame : WrapFrame ι) (wrapper : ObjectId)
  | associated (frame : WrapFrame ι) (ret : Local ObjectId)

/-- Whether the thread has set the mode and not restored it. -/
def Thread.place {ι : Type} : Thread ι → Lib.SavedVar.Place ConstructorMode
  | .idle => .outside
  | .saved f => .saved f.prevConstructorMode f.overlapped
  | .set f | .instantiated f _ | .associated f _ => .inside f.prevConstructorMode f.overlapped

/-- `κ` names the isolates. -/
structure Process (ι κ : Type) where
  /-- The isolates; the data that they share is that of the process instead. -/
  isolates : κ → State ι
  mode : ConstructorMode
  templates : Templates ι
  threads : κ → Thread ι
  /-- A `NewInstance` of a `Wrap` has come back empty, which is fatal. -/
  emptyInstance : Bool

variable {ι κ : Type}

namespace Process

/-- The isolate `i`, with what it shares. -/
def isolate (p : Process ι κ) (i : κ) : State ι :=
  { p.isolates i with mode := p.mode, templates := p.templates }

/-- The mode, and which `Wrap`s have set it and not restored it. -/
def saved (p : Process ι κ) : Lib.SavedVar.State κ ConstructorMode :=
  { var := p.mode, place := fun i => (p.threads i).place }

/-- No `Wrap` is in progress. -/
def Quiet (p : Process ι κ) : Prop := ∀ i, p.threads i = .idle

variable [DecidableEq κ]

/-- The isolate `i` was changed to `s`. -/
def put (i : κ) (s : State ι) (p : Process ι κ) : Process ι κ :=
  { p with isolates := Function.update p.isolates i s, mode := s.mode, templates := s.templates }

def goto (i : κ) (t : Thread ι) (p : Process ι κ) : Process ι κ :=
  { p with threads := Function.update p.threads i t }

/-- `Wrap` returns to the caller of the thread `i`. -/
def finish (i : κ) (ret : Local ObjectId) (p : Process ι κ) : Process ι κ :=
  match ret with
  | some o => p.put i ((p.isolate i).giveWrapper o)
  | none => p

/-- The process at its start, in no isolate anything done. -/
def initial (isolate : κ → IsolateId) (context : κ → ContextId) : Process ι κ :=
  { isolates := fun i => .initial (isolate i) (context i), mode := .kCreateNewObject, templates := .empty,
    threads := fun _ => .idle, emptyInstance := false }

end Process

/-- A step of the thread of an isolate. -/
inductive Step (ι κ : Type) where
  /-- An operation other than `Wrap`. -/
  | run (i : κ) (op : Op ι)
  /-- A call of `Wrap`: its fast path, or else it saves the mode. -/
  | wrap (i : κ) (this : NativePtr) (creationContext : ContextId)
  | setMode (i : κ)
  /-- `NewInstance`, whose constructor callback reads the mode. -/
  | newInstance (i : κ) (addr : Addr)
  | associateWithWrapper (i : κ)
  | restoreMode (i : κ)

def Op.IsWrap : Op ι → Prop
  | .wrap .. => True
  | _ => False

namespace Step

/-- When a step can be taken. -/
def Enabled (p : Process ι κ) : Step ι κ → Prop
  | run i op => p.threads i = .idle ∧ ¬ op.IsWrap ∧ op.Enabled (p.isolate i)
  | wrap i this _ => p.threads i = .idle ∧ (p.isolate i).IsLive this
  | newInstance i addr => (p.isolate i).Free addr
  | setMode _ | associateWithWrapper _ | restoreMode _ => True

variable [Fintype ι] [DecidableEq κ] (M : Hierarchy ι)

/-- What a step does; `none` where it is not the thread's next, or dereferences what is
not there. -/
def exec (p : Process ι κ) : Step ι κ → Option (Process ι κ)
  | run i op => do
    let s ← op.exec M (p.isolate i)
    return p.put i s
  | wrap i this creationContext => do
    match ← Hierarchy.wrapFast this (p.isolate i) with
    | some othis => return p.finish i othis
    | none =>
      let n ← (p.isolate i).native this
      return p.goto i (.saved
        { this := this, creationContext := creationContext, wrapperTypeInfo := n.typeInfo,
          prevConstructorMode := p.mode, overlapped := p.saved.Busy })
  | setMode i =>
    match p.threads i with
    | .saved f => some (Process.goto i (.set f) { p with mode := .kWrapExistingObject })
    | _ => none
  | newInstance i addr =>
    match p.threads i with
    | .set f =>
      match M.wrapInstance f.wrapperTypeInfo f.creationContext addr (p.isolate i) with
      | some (wrapper, s) => some ((p.put i s).goto i (.instantiated f wrapper))
      | none => some { p with emptyInstance := true } -- `ToLocalChecked` of an empty handle
    | _ => none
  | associateWithWrapper i =>
    match p.threads i with
    | .instantiated f wrapper => do
      let (ret, s) ← Wrappable.associateWithWrapper M.info f.this f.wrapperTypeInfo (some wrapper) (p.isolate i)
      return (p.put i s).goto i (.associated f ret)
    | _ => none
  | restoreMode i =>
    match p.threads i with
    | .associated f ret => some ((Process.goto i .idle { p with mode := f.prevConstructorMode }).finish i ret)
    | _ => none

end Step

/-- The processes with the wrapper types `M`, and the isolates `κ`. -/
def Hierarchy.processes [Fintype ι] (M : Hierarchy ι) (κ : Type) [DecidableEq κ] :
    Lib.System (Process ι κ) (Step ι κ) where
  init p := ∃ isolate context, Function.Injective isolate ∧ p = .initial isolate context
  step p a p' := p.emptyInstance = false ∧ a.Enabled p ∧ a.exec M p = some p'

end NativeObjects
