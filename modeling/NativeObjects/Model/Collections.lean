import NativeObjects.Model.Process
import NativeObjects.Model.World

/-!
# Collections

V8 may collect garbage whenever it allocates, also between the steps of a `Wrap`.
Besides what script reaches, the local variables of the `Wrap` then keep objects
(`Thread.holds`). `Hierarchy.collecting` are the processes with such collectors, and
`Hierarchy.separate` those whose isolates use classes of their own. A collection may take
several objects at once (`State.collectAll`), whose weak callbacks run when all of them
are gone.
-/

namespace NativeObjects

variable {ι κ : Type}

/-- The object that a local handle of the `Wrap` refers to. -/
def Thread.holds : Thread ι → Local ObjectId
  | .instantiated _ wrapper => some wrapper
  | .associated _ ret => ret
  | _ => none

inductive Move (ι κ : Type) where
  | step (a : Step ι κ)
  /-- The collector takes an object of the isolate, wherever its thread is. -/
  | collect (i : κ) (o : ObjectId)

namespace Move

def Enabled (p : Process ι κ) : Move ι κ → Prop
  | step a => a.Enabled p
  | collect i o => (p.isolate i).Collectable o ∧ (p.threads i).holds ≠ some o

/-- The operation that a move may be thought to be, with pointers forgotten: a `Wrap`
happens where it finds a wrapper, or where it makes the instance. -/
def action (p : Process ι κ) : Move ι κ → Option (Action ι)
  | step (.run _ op) => some op.action
  | step (.wrap i this _) =>
    if ((p.isolate i).native this).any Wrappable.containsWrapper then some (.wrap this.birth) else none
  | step (.newInstance i _) =>
    match p.threads i with
    | .set f => some (.wrap f.this.birth)
    | _ => none
  | step (.setMode _) | step (.associateWithWrapper _) | step (.restoreMode _) => none
  | collect _ o => some (.collect o)

/-- Whose thread or heap moves. -/
def isolate : Move ι κ → κ
  | step (.run i _) | step (.wrap i _ _) | step (.setMode i) | step (.newInstance i _)
  | step (.associateWithWrapper i) | step (.restoreMode i) | collect i _ => i

variable [Fintype ι] [DecidableEq κ] (M : Hierarchy ι)

def exec (p : Process ι κ) : Move ι κ → Option (Process ι κ)
  | step a => a.exec M p
  | collect i o => do
    let s ← (p.isolate i).collect o
    return p.put i s

end Move

/-- The processes with the wrapper types `M` and the isolates `κ`, whose collectors
run at any time. -/
def Hierarchy.collecting [Fintype ι] (M : Hierarchy ι) (κ : Type) [DecidableEq κ] :
    Lib.System (Process ι κ) (Move ι κ) where
  init p := ∃ isolate context, Function.Injective isolate ∧ p = .initial isolate context
  step p a p' := p.emptyInstance = false ∧ a.Enabled p ∧ a.exec M p = some p'

/-- The same with every operation at once: the isolates take turns, and share nothing
but the templates. Here no thread is ever inside a `Wrap`. -/
def Hierarchy.atomic [Fintype ι] (M : Hierarchy ι) (κ : Type) [DecidableEq κ] :
    Lib.System (Process ι κ) (κ × Op ι) where
  init p := ∃ isolate context, Function.Injective isolate ∧ p = .initial isolate context
  step p a p' := a.2.Enabled (p.isolate a.1) ∧ ∃ s, a.2.exec M (p.isolate a.1) = some s ∧ p' = p.put a.1 s

/-! ## Isolates with classes of their own

An isolate that asks for the template of a class that another isolate has asked for is
handed the other's template. Here `owner` says which isolate uses a class. -/

/-- The template was made on the isolate. -/
def State.Owns (s : State ι) (ft : TemplateId) : Prop :=
  ∃ template, s.templates.templates ft = some template ∧ template.isolate = s.isolate

/-- The classes that the operation of the isolate `i` names are of `i`, and the function
that script has is of the isolate's own templates. -/
def Op.Within (owner : ι → κ) (i : κ) (s : State ι) : Op ι → Prop
  | .interfaceTemplate t | .nativeNew t _ _ => owner t = i
  | .scriptNew f _ _ => s.Owns f.template
  | .scriptCall ft .. => s.Owns ft
  | _ => True

namespace Move

def Terminates : Move ι κ → Prop
  | step (.run _ op) => op.Terminates
  | _ => False

def Within (owner : ι → κ) (p : Process ι κ) : Move ι κ → Prop
  | step (.run i op) => op.Within owner i (p.isolate i)
  | _ => True

end Move

/-- The processes in which no execution is terminated, and each class is used by one
isolate. -/
def Hierarchy.separate [Fintype ι] [DecidableEq κ] (M : Hierarchy ι) (owner : ι → κ) :
    Lib.System (Process ι κ) (Move ι κ) where
  init := (M.collecting κ).init
  step p a p' := ¬ a.Terminates ∧ a.Within owner p ∧ (M.collecting κ).step p a p'

/-! ## Several objects at once -/

namespace State

/-- The objects are gone. -/
def discardAll (os : List ObjectId) (s : State ι) : State ι :=
  { s with objects := fun o => if o ∈ os then none else s.objects o }

/-- The weak callback of the cell `c`, if its object is one of those that were collected. -/
def fireWeakOf (os : List ObjectId) (s : State ι) (c : CellId) : Option (State ι) :=
  match s.cells c with
  | none => some s
  | some cell => if cell.object ∈ os then s.fireWeak cell.object c else some s

/-- The collector takes the objects `os`, then the weak callbacks registered for them
run, in the order of the cells `cs`. -/
def collectAll (os : List ObjectId) (cs : List CellId) (s : State ι) : Option (State ι) :=
  cs.foldlM (fireWeakOf os) (s.discardAll os)

end State

end NativeObjects
