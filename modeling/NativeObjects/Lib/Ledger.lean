import NativeObjects.Lib.Run

/-!
# What was written last

`write s a k` is what the step `a`, taken from the state `s`, writes under the
key `k`, if it writes there; `latest write k tr` is what the steps of `tr` wrote
there last. `Run.latest` is the invariant rule for relations between the states
of a run and what was written before them.
-/

namespace NativeObjects.Lib

variable {σ α κ β : Type*}

/-- What was written under `k` last; `tr` lists the steps, the last one first. -/
def latest (write : σ → α → κ → Option β) (k : κ) : List (σ × α) → Option β
  | [] => none
  | (s, a) :: tr => (write s a k).or (latest write k tr)

/-- The rule for a relation `R` between states and what was written: it holds
initially, of nothing written, and each step keeps it, adding what it writes. -/
theorem System.Run.latest {S : System σ α} {tr : List (σ × α)} {s : σ} (h : S.Run tr s)
    (write : σ → α → κ → Option β) {R : σ → (κ → Option β) → Prop} (h0 : ∀ s, S.init s → R s fun _ => none)
    (hs : ∀ s a s' w, R s w → S.step s a s' → R s' fun k => (write s a k).or (w k)) :
    R s fun k => Lib.latest write k tr := by
  induction h with
  | start hi => exact h0 _ hi
  | step _ hst ih => exact hs _ _ _ _ ih hst

end NativeObjects.Lib
