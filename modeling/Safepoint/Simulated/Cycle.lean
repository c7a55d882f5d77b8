import Safepoint.Binding.Categories
import Safepoint.Binding.Cycle
import Safepoint.Binding.Weak
import Safepoint.Marking
import Safepoint.Simulated.Engine
import Safepoint.Simulated.Host

/-!
A cycle of the simulation's collector. It marks from the strong roots through strong fields,
clears the referents that stayed unmarked, updates the weak locations, and sweeps; nothing moves.
-/
namespace Safepoint.Simulated

abbrev SimBinding := Binding SimMutator Simulation

abbrev World := Binding.State SimMutator Simulation

/-- The collector follows the strong fields of objects. -/
def marker (b : SimBinding) : Marker Simulation where
  marks :=
    ⟨fun s => s.collector.marks, fun marks s => { s with collector.marks := marks }⟩
  codec := b.codec
  fields := b.host.scanObject

/-- Whether a live reference object has lost its referent. -/
def isDeadReference (b : SimBinding) (m : SimMachine) (reference : ObjectRef) :
    Except Panic Bool := do
  if !b.engine.isLive m reference then return false
  match ← b.referenceFields.getReferent reference m.memory with
  | some referent => return !b.engine.isLive m referent
  | none => return false

/-- The live reference objects whose referents are not live, in the order of allocation. A
collector without a heap knows of no reference objects. -/
def deadReferences (b : SimBinding) (m : SimMachine) : Except Panic (List ObjectRef) :=
  match b.engine.heapRange with
  | some _ => m.env.heap.references.filterM (isDeadReference b m)
  | none => .ok []

/-- Free what has no mark. -/
def sweep (b : SimBinding) : Act SimMachine Nat := do
  match b.engine.heapRange with
  | some _ =>
    let marks := (← get).env.collector.marks
    modifyGet fun m =>
      let (freed, heap) := m.env.heap.sweep (· ∈ marks)
      (freed, { m with env.heap := heap })
  | none => return 0

/-- One whole cycle, on a collector thread. The scans of the roots take turns as `turns` has it, if
they go on side by side. The result is the count of completed cycles. -/
def runCycle (b : SimBinding) (turns : List Nat) (me : ThreadId) : Act World UInt64 := do
  let mode := b.options.weakProcessing
  Binding.onMachine (onCollector fun c => { c with marks := {} })
  let _ ← b.stopAllMutators me b.options.classUnloading
  let scanned ← Binding.insist (← b.scanCategories (.collecting b.options.rootBufferCapacity) [] turns
    (RootCategory.strong mode))
  let roots := scanned.flatMap fun scan => FlushLog.slots scan.2
  let rounds := roots.length + (← get).machine.env.heap.fieldCount
  Binding.onMachine ((marker b).markFrom rounds roots)
  let dead ← Binding.onMachine (Act.read (deadReferences b))
  Binding.onMachine (dead.forM fun reference =>
    Machine.poke (b.referenceFields.clearReferent reference))
  let _ ← b.enqueueReferences dead
  let _ ← b.updateWeak mode
  if (← get).unloading then
    let _ ← b.unloadClasses
  let _ ← Binding.onMachine (sweep b)
  let generation ← b.resumeMutators me
  Binding.onMachine (onCollector fun c => { c with cycles := c.cycles + 1 })
  return generation

end Safepoint.Simulated
