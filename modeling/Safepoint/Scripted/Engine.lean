import Safepoint.Scripted.Script

/-!
The collector of a script. It comes in two forms: a full one that has an answer of its own to
every question, and a plain one that leaves open whatever a collector may leave open.
-/
namespace Safepoint.Scripted

/-- Count a call and log it, with what the calling mutator is. -/
def count (event : MutatorId → Memory → Except Panic Event) : Act (Attached Ops Script) Unit := do
  modify fun a => { a with mutator.ops := a.mutator.ops + 1 }
  let entry ← Act.read fun a => event a.mutator.id a.machine.memory
  Act.within Attached.machinePlace (note entry)

def countWrite (after : Bool) (w : Write) : Act (Attached Ops Script) Unit :=
  count fun id m => .ok (.write after id w (mappedBits m w.slot))

def countCopy (after : Bool) (c : BulkCopy) : Act (Attached Ops Script) Unit :=
  count fun id m => do return .copy after id c (← mappedRange m c.target)

/-- The collector that answers only what it has to. -/
def plainEngine : Engine Ops Script where
  bind id := do
    note (.bind id)
    return ⟨id, 0⟩
  writePre := countWrite false
  writePost := countWrite true
  copyPre := countCopy false
  copyPost := countCopy true
  requestCollection id := note (.requestCollection id)
  isLive m object := object ∈ m.env.engine.live

/-- The collector that answers everything from its tables. -/
def fullEngine (heapRange : Option (Address × Address)) : Engine Ops Script :=
  { plainEngine with
    destroy := fun state => note (.destroy state)
    forwarded := fun m object =>
      if isMapped object.address 8 then (ForwardingWord.load object m.memory).target else .ok none
    referenceCount := fun m object => m.env.engine.counts.getD object 0
    heapRange
    objectIsUnlogged := fun m object => object ∉ m.env.engine.logged
    fieldIsUnlogged := fun m slot => slot ∉ m.env.engine.loggedSlots }

end Safepoint.Scripted
