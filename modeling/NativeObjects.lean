import NativeObjects.Lib.Run
import NativeObjects.Lib.Forest
import NativeObjects.Lib.Utf
import NativeObjects.Model.Template
import NativeObjects.Model.Configuration
import NativeObjects.Model.Strings
import NativeObjects.Model.Heap
import NativeObjects.Model.Wrappable
import NativeObjects.Model.V8Event
import NativeObjects.Model.Wrap
import NativeObjects.Proof.Templates
import NativeObjects.Proof.Requests
import NativeObjects.Proof.Operations
import NativeObjects.Proof.Coherent
import NativeObjects.Proof.Interfaces
import NativeObjects.Proof.Effect
import NativeObjects.Proof.Invariant
import NativeObjects.Proof.Links
import NativeObjects.Proof.Targets
import NativeObjects.Proof.Casts
import NativeObjects.Proof.Deletions
import NativeObjects.Proof.Creation
import NativeObjects.Lib.SavedVar
import NativeObjects.Model.Process
import NativeObjects.Lib.Partial
import NativeObjects.Proof.Statics
import NativeObjects.Proof.Modes
import NativeObjects.Lib.Ledger
import NativeObjects.Proof.Frames
import NativeObjects.Proof.Identity
import NativeObjects.Proof.TargetGetters
import NativeObjects.Proof.Contexts
import NativeObjects.Proof.Rejections
import NativeObjects.Proof.Receivers
import NativeObjects.Proof.Records
import NativeObjects.Lib.Simulation
import NativeObjects.Model.World
import NativeObjects.Proof.Refinement
import NativeObjects.Proof.Addresses
import NativeObjects.Proof.Progress
import NativeObjects.Model.Collections
import NativeObjects.Proof.Races
import NativeObjects.Proof.Owners
import NativeObjects.Proof.Atomicity
import NativeObjects.Model.Main
import NativeObjects.Proof.Main
import NativeObjects.Proof.Cycles
import NativeObjects.Model.Lookup
import NativeObjects.Proof.Lookup
import NativeObjects.Proof.Reclaim
import NativeObjects.Proof.Chains
