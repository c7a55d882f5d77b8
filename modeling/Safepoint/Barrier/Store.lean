import Safepoint.Barrier.Site
import Safepoint.Engine

/-!
Stores and copies with their barriers. The object barrier reports a store after it happened,
the field barrier before; each asks the collector first whether the report is still wanted.
-/
namespace Safepoint.Barrier

variable {μ ε : Type} (kind : BarrierKind) (engine : Engine μ ε)

def writePre (w : Write) : Act (Attached μ ε) Unit := do
  match kind with
  | .field => if engine.fieldIsUnlogged (← get).machine w.slot then engine.writePre w
  | _ => return ()

def writePost (w : Write) : Act (Attached μ ε) Unit := do
  match kind with
  | .object => if engine.objectIsUnlogged (← get).machine w.source then engine.writePost w
  | _ => return ()

/-- For a store that has already happened; nothing is asked first. -/
def writeSlow (w : Write) : Act (Attached μ ε) Unit :=
  match kind with
  | .none => pure ()
  | _ => engine.writeSlow w

def copyPre (c : BulkCopy) : Act (Attached μ ε) Unit :=
  match kind with
  | .none => pure ()
  | _ => engine.copyPre c

def copyPost (c : BulkCopy) : Act (Attached μ ε) Unit :=
  match kind with
  | .none => pure ()
  | _ => engine.copyPost c

/-- A store without barriers. -/
def plainStore (codec : PointerCodec) (slot : Slot) (object : Option ObjectRef) :
    Act (Machine ε) StoredValue :=
  Act.update fun m => (rawStore codec slot object m.memory).map fun (stored, memory) =>
    (stored, { m with memory })

/-- The store that compilers inline. What follows it is shown the reference as it was before
it was encoded. -/
def store (codec : PointerCodec) (d : Decorators) (source : ObjectRef) (slot : Slot)
    (operand : Operand) : Act (Attached μ ε) Unit := do
  let object := operand.object
  if kind.elide d operand then
    let _ ← Act.within Attached.machinePlace (plainStore codec slot object)
  else
    if !d.contains .noKeepalive then writePre kind engine ⟨source, slot, object⟩
    let stored ← Act.within Attached.machinePlace (plainStore codec slot object)
    let object ← Act.check (stored.decompress codec)
    writePost kind engine ⟨source, slot, object⟩

/-- A bulk copy. The hooks run once for the whole of it, also when it is empty. -/
def copy (d : Decorators) (c : BulkCopy) : Act (Attached μ ε) Unit := do
  if d.contains .inHeap && !d.contains .destUninitialized then copyPre kind engine c
  if !c.source.isEmpty then
    Act.within Attached.machinePlace (Machine.poke (c.source.copy c.target))
  if d.contains .inHeap then copyPost kind engine c

end Safepoint.Barrier
