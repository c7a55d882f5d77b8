import Safepoint.Binding.Categories
import Safepoint.Binding.Weak

/-!
What a collector asks of a binding while it works: roots in packets, one packet for each buffer
that was filled, the weak references to be brought up to date, and objects to be copied.
-/
namespace Safepoint.Binding

variable {μ ε : Type} (b : Binding μ ε)

/-- The packets of one scan are the batches that reach this sink. -/
def packetSink : Sink FlushLog := .collecting b.options.rootBufferCapacity

/-- The roots on the stack of one mutator. -/
def mutatorPackets (id : MutatorId) : Act (State μ ε) FlushLog := fun s =>
  match (b.scanThreads b.packetSink (.one id)).run (s, []) with
  | (.ok (.ok _), s, packets) => (.ok packets, s)
  | (.ok (.error breach), s, _) => violation breach s
  | (.error fault, s, _) => (.error fault, s)

/-- The categories of roots that belong to no mutator in particular. -/
def sharedCategories : List RootCategory :=
  (RootCategory.strong b.options.weakProcessing).filter (· ≠ .threadStacks)

/-- The roots that belong to no mutator in particular. A packet holds roots of one category. -/
def sharedPackets : Act (State μ ε) FlushLog := do
  let scans ← insist (← b.scanInOrder b.packetSink [] b.sharedCategories)
  return scans.flatMap Prod.snd

/-- Bring weak references up to date with what the collector found, and unload classes if the
cycle was started for that. -/
def processWeak : Act (State μ ε) Unit := do
  let _ ← b.updateWeak b.options.weakProcessing
  if (← get).unloading then
    let _ ← b.unloadClasses

/-- Copy an object over another place, which may overlap it. The result is the number of bytes
copied. -/
def copyObject (source target : ObjectRef) : Act (State μ ε) Nat := do
  let bytes := b.host.objectSize (← get).machine source
  onMachine (Machine.poke fun m => .ok (m.copy source.address target.address bytes))
  return bytes

end Safepoint.Binding
