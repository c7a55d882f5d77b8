import Safepoint.Host
import Safepoint.Layout

/-!
Reference objects: a referent that may die, and a link through which those whose referent died
are chained into the host's pending list.
-/
namespace Safepoint

/-- How the two fields are reached. -/
structure ReferenceFields where
  referent : UInt64
  discovered : UInt64
  compressed : Bool
  codec : PointerCodec
  deriving DecidableEq

namespace ReferenceFields

variable (fields : ReferenceFields)

def referentSlot (reference : ObjectRef) : Except Panic Slot :=
  Slot.ofField reference fields.referent fields.compressed

def discoveredSlot (reference : ObjectRef) : Except Panic Slot :=
  Slot.ofField reference fields.discovered fields.compressed

def getReferent (reference : ObjectRef) (m : Memory) : Except Panic (Option ObjectRef) := do
  (← fields.referentSlot reference).load fields.codec m

def setReferent (reference : ObjectRef) (referent : Option ObjectRef) (m : Memory) :
    Except Panic Memory := do
  (← fields.referentSlot reference).store fields.codec referent m

def clearReferent (reference : ObjectRef) (m : Memory) : Except Panic Memory :=
  fields.setReferent reference none m

def getDiscovered (reference : ObjectRef) (m : Memory) : Except Panic (Option ObjectRef) := do
  (← fields.discoveredSlot reference).load fields.codec m

def setDiscovered (reference : ObjectRef) (next : Option ObjectRef) (m : Memory) :
    Except Panic Memory := do
  (← fields.discoveredSlot reference).store fields.codec next m

/-- Make each reference point at the one after it. A broken check keeps the links made before
it. -/
def link {ε : Type} : List ObjectRef → Act (Machine ε) Unit
  | first :: next :: rest => do
    Machine.poke (fields.setDiscovered first (some next))
    link (next :: rest)
  | _ => return ()

/-- Chain the references, put them in front of the host's pending list, and have the finalizer
run. The result is their number. -/
def enqueue {ε : Type} (host : Host ε) (refs : List ObjectRef) : Act (Machine ε) Nat := do
  match refs with
  | [] => return 0
  | head :: rest =>
    fields.link (head :: rest)
    let old ← host.swapPending (some head)
    Machine.poke (fields.setDiscovered (rest.getLastD head) old)
    host.scheduleFinalizer
    return refs.length

end ReferenceFields

end Safepoint
