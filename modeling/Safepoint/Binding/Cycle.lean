import Safepoint.Binding.Threads

/-!
A cycle as the collector drives it: every mutator is stopped, and later released. Mutators ask
for cycles and wait for them.
-/
namespace Safepoint.Binding

variable {μ ε : Type} (b : Binding μ ε)

/-- What happens once a stop is under way, before the mutators are parked. -/
def prologue (unload : Bool) : Act (State μ ε) Unit := do
  let _ ← Act.within State.codePlace CodeTable.beginCycle
  shown (b.host.hook .codeCachePrologue)
  if unload then shown (b.host.hook .clearClaimedMarks)
  shown (b.host.hook .derivedPointersClear)

/-- Stop every mutator, and list them in the order of registration. Only a collector may. -/
def stopAllMutators (me : ThreadId) (unload : Bool) : Act (State μ ε) (List Mutator) := do
  let _ ← insist ((← get).registry.requireCollector me)
  modify fun s => { s with unloading := unload }
  insist (← Handshake.stop State.worldPlace (b.threads me) (b.prologue unload))
  return (← get).registry.mutators

/-- What happens before the mutators are released. Where objects moved, the code that was
claimed in this cycle is fixed up first. -/
def epilogue : Act (State μ ε) Unit := do
  if b.options.relocateCode then
    (← get).codeTable.claimed.forM fun code => shown (b.host.hook (.fixCodeRelocations code))
  shown (b.host.hook .codeCacheEpilogue)
  shown (b.host.hook .derivedPointersUpdate)

/-- Release the mutators. The result is the count of completed cycles. -/
def resumeMutators (me : ThreadId) : Act (State μ ε) UInt64 := do
  let _ ← insist ((← get).registry.requireCollector me)
  let resumed ← Handshake.start State.worldPlace (b.threads me) b.epilogue
  modify fun s => { s with unloading := false }
  insist resumed

/-- Park the calling mutator until a cycle completes that is after this call. What is done in
`request` is done first. -/
def blockWith (me : ThreadId) (request : MutatorId → Act (State μ ε) Unit) :
    Act (State μ ε) Parked := do
  let mutator ← insist ((← get).registry.requireMutator me)
  return .collection (← Handshake.block State.worldPlace (b.threads me) (request mutator.id))

/-- Wait for a cycle the collector decided on by itself. -/
def blockForCycle (me : ThreadId) : Act (State μ ε) Parked := b.blockWith me fun _ => pure ()

/-- Ask for a cycle and wait for it. -/
def collect (me : ThreadId) : Act (State μ ε) Parked :=
  b.blockWith me fun id => onMachine (b.engine.requestCollection id)

/-- A blocked mutator goes on, with the count of completed cycles. -/
def finishBlock (me : ThreadId) (snapshot : UInt64) : Act (State μ ε) UInt64 :=
  Handshake.finishBlock State.worldPlace (b.threads me) snapshot

/-- What ran out. -/
inductive OutOfMemory where
  /-- The heap is full; the allocation already returned null. -/
  | heap
  /-- No more memory can be mapped, and nothing can go on. -/
  | addressSpace
  deriving DecidableEq

def outOfMemory : OutOfMemory → Act (State μ ε) Unit
  | .heap => pure ()
  | .addressSpace => Act.fault (.terminated .addressSpaceExhausted)

end Safepoint.Binding
