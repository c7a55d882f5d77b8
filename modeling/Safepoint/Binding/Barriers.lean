import Safepoint.Barrier.Store
import Safepoint.Binding.Threads

/-!
Barriers as code of the managed runtime calls them.
-/
namespace Safepoint.Binding

variable {μ ε : Type} (b : Binding μ ε)

def writePre (me : ThreadId) (w : Write) : Act (State μ ε) Unit :=
  withMutator me (Barrier.writePre b.options.barrier b.engine w)

def writePost (me : ThreadId) (w : Write) : Act (State μ ε) Unit :=
  withMutator me (Barrier.writePost b.options.barrier b.engine w)

def writeSlow (me : ThreadId) (w : Write) : Act (State μ ε) Unit :=
  withMutator me (Barrier.writeSlow b.options.barrier b.engine w)

def copyPre (me : ThreadId) (c : BulkCopy) : Act (State μ ε) Unit :=
  withMutator me (Barrier.copyPre b.options.barrier b.engine c)

def copyPost (me : ThreadId) (c : BulkCopy) : Act (State μ ε) Unit :=
  withMutator me (Barrier.copyPost b.options.barrier b.engine c)

/-- The store as the interpreter does it, through the entry points that are not inlined. A
store that needs no barrier does not ask who calls. -/
def interpretedStore (me : ThreadId) (d : Decorators) (source : ObjectRef) (slot : Slot)
    (operand : Operand) : Act (State μ ε) Unit := do
  let object := operand.object
  if b.options.barrier.elide d operand then
    let _ ← onMachine (Barrier.plainStore b.codec slot object)
  else
    if !d.contains .noKeepalive then b.writePre me ⟨source, slot, object⟩
    let stored ← onMachine (Barrier.plainStore b.codec slot object)
    let object ← Act.check (stored.decompress b.codec)
    b.writePost me ⟨source, slot, object⟩

/-- A store of a reference with its barriers, as code of the given tier does it. -/
def storeReference (me : ThreadId) (tier : Tier) (d : Decorators) (source : ObjectRef)
    (slot : Slot) (operand : Operand) : Act (State μ ε) Unit :=
  if tier.inlinesFastPath then
    withMutator me (Barrier.store b.options.barrier b.engine b.codec d source slot operand)
  else b.interpretedStore me d source slot operand

/-- A bulk copy with its barriers. -/
def copyReferences (me : ThreadId) (d : Decorators) (c : BulkCopy) : Act (State μ ε) Unit :=
  withMutator me (Barrier.copy b.options.barrier b.engine d c)

end Safepoint.Binding
