import Safepoint.Forwarding
import Safepoint.Machine
import Safepoint.Slot.Range

/-!
What a collector brings. Nothing is assumed about how it collects: barriers go to its hooks,
and it answers what is live, where objects moved, and what was logged.
-/
namespace Safepoint

/-- A store of `target` into `slot`, which belongs to `source`. -/
structure Write where
  source : ObjectRef
  slot : Slot
  target : Option ObjectRef
  deriving DecidableEq

/-- A copy of one run of slots to another. -/
structure BulkCopy where
  source : SlotRange
  target : SlotRange
  deriving DecidableEq

/-- A collector with a state `μ` for each mutator, and the rest of its state in `ε`. -/
structure Engine (μ ε : Type) where
  bind : MutatorId → Act (Machine ε) μ
  destroy : μ → Act (Machine ε) Unit := fun _ => pure ()
  /-- Before a store; the old value is still in the slot. -/
  writePre : Write → Act (Attached μ ε) Unit
  /-- After a store; the target is the plain reference. -/
  writePost : Write → Act (Attached μ ε) Unit
  /-- For a store that has already happened. -/
  writeSlow : Write → Act (Attached μ ε) Unit := fun w => do writePre w; writePost w
  copyPre : BulkCopy → Act (Attached μ ε) Unit
  copyPost : BulkCopy → Act (Attached μ ε) Unit
  requestCollection : MutatorId → Act (Machine ε) Unit
  isLive : Machine ε → ObjectRef → Bool
  /-- The new place of an object that was moved in this cycle. -/
  forwarded : Machine ε → ObjectRef → Except Panic (Option ObjectRef) :=
    fun m object => (ForwardingWord.load object m.memory).target
  /-- Collectors that trace report 1 for what is live. -/
  referenceCount : Machine ε → ObjectRef → Nat := fun m object => if isLive m object then 1 else 0
  /-- Where the heap starts and ends, if it is in one piece. -/
  heapRange : Option (Address × Address) := none
  objectIsUnlogged : Machine ε → ObjectRef → Bool := fun _ _ => true
  fieldIsUnlogged : Machine ε → Slot → Bool := fun _ _ => true

end Safepoint
