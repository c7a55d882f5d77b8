import Safepoint.Simulated.Basic

/-!
The collector of a simulation: it keeps a list of what barriers tell it, and answers what is live
from its marks. It may have the heap of the simulation, or none, in which case it never looks
into an object.
-/
namespace Safepoint.Simulated

/-- Count a store, and keep the report of it. A report from before the store comes with the old
value, if that lies on the heap. -/
def reportPre (heap : Option (Address × Address)) (w : Write) :
    Act (Attached SimMutator Simulation) Unit := do
  modify fun a => { a with mutator.stores := a.mutator.stores + 1 }
  let onHeap := match heap with
    | some (start, limit) => start ≤ w.slot.address && w.slot.address < limit
    | none => false
  if !w.slot.isNarrow && onHeap then
    let old ← Act.read fun a => w.slot.load .identity a.machine.memory
    Act.within Attached.machinePlace
      (onCollector fun c => { c with oldValues := c.oldValues ++ [old] })
  Act.within Attached.machinePlace (onCollector fun c => { c with events := c.events ++ [.pre w] })

def reportPost (w : Write) : Act (Attached SimMutator Simulation) Unit := do
  modify fun a => { a with mutator.stores := a.mutator.stores + 1 }
  Act.within Attached.machinePlace (onCollector fun c => { c with events := c.events ++ [.post w] })

def reportCopy (event : BarrierEvent) : Act (Attached SimMutator Simulation) Unit :=
  Act.within Attached.machinePlace (onCollector fun c => { c with events := c.events ++ [event] })

/-- State for driving barriers without a binding. -/
def detachedMutator : SimMutator := ⟨⟨0⟩, 0⟩

/-- The collector, with the bounds of its heap if it has one. -/
def engine (heap : Option (Address × Address)) : Engine SimMutator Simulation where
  bind id := do
    onCollector fun c => { c with bound := c.bound ++ [id] }
    return ⟨id, 0⟩
  destroy _ := onCollector fun c => { c with destroyed := c.destroyed + 1 }
  writePre := reportPre heap
  writePost := reportPost
  copyPre c := reportCopy (.copyPre c)
  copyPost c := reportCopy (.copyPost c)
  requestCollection _ := onCollector fun c => { c with requested := true }
  isLive m object := object ∈ m.env.collector.marks
  forwarded m object := match heap with
    | some (start, limit) =>
      if start ≤ object.address ∧ object.address < limit then
        (ForwardingWord.load object m.memory).target
      else .ok none
    | none => .ok none
  heapRange := heap
  objectIsUnlogged m object := object ∉ m.env.collector.logged

end Safepoint.Simulated
