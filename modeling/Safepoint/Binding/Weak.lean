import Safepoint.Binding.Roots
import Safepoint.Weak.Reference
import Safepoint.Weak.Update

/-!
What a binding does about weak references between the end of tracing and the release of the
mutators.
-/
namespace Safepoint.Binding

variable {μ ε τ : Type} (b : Binding μ ε)

def weakTest (mode : WeakProcessing) : WeakTest μ ε := ⟨b.engine, b.codec, mode⟩

/-- Run a scan into a sink that begins in `start`, for what the sink holds at the end. -/
def gather {α : Type} (start : τ) (scan : Act (State μ ε × τ) α) : Act (State μ ε) τ := fun s =>
  match scan (s, start) with
  | (.ok _, s, t) => (.ok t, s)
  | (.error fault, s, _) => (.error fault, s)

/-- Update the host's weak storage and every registered weak handle. -/
def updateWeak (mode : WeakProcessing) : Act (State μ ε) WeakStats := do
  let log ← gather [] (b.scanWeak (.collecting b.options.rootBufferCapacity) .all)
  let handles := (← get).weakHandles.slots
  onMachine ((b.weakTest mode).updateAll {} (FlushLog.slots log ++ handles))

/-- Have the host unload the classes of dead loaders, then clear the weak edges to them. -/
def unloadClasses : Act (State μ ε) WeakStats := do
  let test := b.weakTest b.options.weakProcessing
  onMachine (b.host.unloadClasses test.isAlive)
  let weakEdges ← gather []
    (Act.within ⟨fun p => ((p.1, p.2), ([] : FlushLog)), fun q _ => (q.1.1, q.1.2)⟩
      (b.scanLoaders Sink.discarding (.collecting b.options.rootBufferCapacity) .liveFiltered))
  onMachine (test.updateAll {} (FlushLog.slots weakEdges))

def referenceFields : ReferenceFields :=
  ⟨b.layout.referent, b.layout.discovered, b.options.compressedPointers, b.codec⟩

/-- Put references whose referents died on the host's pending list. -/
def enqueueReferences (refs : List ObjectRef) : Act (State μ ε) Nat :=
  onMachine (b.referenceFields.enqueue b.host refs)

end Safepoint.Binding
