import NativeObjects.Model.Wrap

/-!
# main.cpp

`RunV8Stuff` makes an isolate with Event and `nativeFactory` in its global object,
and runs scripts in it. `Main.program` is this with any scripts: a script constructs
events, calls `nativeFactory` and the functions that are installed, and drops
objects; the collector takes objects between its steps. `log` changes no state and is
left out.
-/

namespace NativeObjects.Main

open V8Event (EventType)

/-- The literal `"factory"`. -/
def factory : List UInt8 := Lib.Utf.utf8 "factory".toList ++ [0]

variable (V : StringConversions)

/-- `nativeFactory`. `tvSec` is what `clock_gettime` gives as the seconds; the allocator
returns `addr` for the event, and `addr'` if it is asked once more. -/
def nativeFactory (tvSec : BitVec 32) (addr addr' : Addr) (s : State EventType) :
    Option (Local ObjectId × State EventType) := do
  let (ev, s) ← Event.create .event factory addr s
  let n ← s.native ev
  let s := s.setNative ev { n with timeStamp := tvSec }
  (V8Event.embedding V).wrap ev s.context addr' s

/-- What `RunV8Stuff` does before it runs scripts. -/
def runV8Stuff (isolate : IsolateId) (context : ContextId) : Option (State EventType) := do
  let (_, s) ← (V8Event.embedding V).interfaceTemplate .event (.initial isolate context)
  return s

/-- The operations of script and of the collector. -/
def ByScript : Op EventType → Prop
  | .scriptNew .. | .scriptCall .. | .drop _ | .collect _ => True
  | _ => False

inductive Step where
  | run (op : Op EventType)
  /-- Script calls `nativeFactory()`. -/
  | nativeFactory (tvSec : BitVec 32) (addr addr' : Addr)

namespace Step

def Enabled (s : State EventType) : Step → Prop
  | run op => ByScript op ∧ op.Enabled s
  | nativeFactory _ addr addr' => s.Free addr ∧ s.Free addr' ∧ addr' ≠ addr

def exec (s : State EventType) : Step → Option (State EventType)
  | run op => op.exec (V8Event.embedding V).toHierarchy s
  | nativeFactory tvSec addr addr' => do
    let (newJsEvent, s) ← Main.nativeFactory V tvSec addr addr' s
    match newJsEvent with
    | some o => return s.giveWrapper o
    | none => return s

end Step

/-- The program, whatever its scripts do. -/
def program : Lib.System (State EventType) Step where
  init s := ∃ isolate context, runV8Stuff V isolate context = some s
  step s a s' := a.Enabled s ∧ a.exec V s = some s'

end NativeObjects.Main
