import Safepoint.Machine
import Safepoint.Roots.Category
import Safepoint.World.Coordinator

/-!
The services a managed runtime brings: control over its threads, walks over its roots, facts
about its objects, and its own bookkeeping around a cycle. A walk gives its slots in the order
in which it meets them.
-/
namespace Safepoint

/-- Bookkeeping the host does around a cycle. -/
inductive CycleHook where
  | codeCachePrologue
  | codeCacheEpilogue
  | clearClaimedMarks
  | derivedPointersClear
  | derivedPointersUpdate
  /-- Fix up the references embedded in a blob after objects moved. -/
  | fixCodeRelocations (code : CodeId)
  deriving DecidableEq

namespace CycleHook

def name : CycleHook → String
  | .codeCachePrologue => "code_cache_prologue"
  | .codeCacheEpilogue => "code_cache_epilogue"
  | .clearClaimedMarks => "clear_claimed_marks"
  | .derivedPointersClear => "derived_pointers_clear"
  | .derivedPointersUpdate => "derived_pointers_update"
  | .fixCodeRelocations _ => "fix_code_relocations"

end CycleHook

/-- A host that keeps its own state in `ε`. Where a service is shown a coordinator, that is the
state of the world at the time of the call. -/
structure Host (ε : Type) where
  /-- Ask every mutator to reach a safe point, and return when all have. -/
  suspendAll : Coordinator → Act (Machine ε) Unit
  resumeAll : Coordinator → Act (Machine ε) Unit
  /-- The calling mutator is about to block; it counts as parked. -/
  enterSafeRegion : ThreadId → Act (Machine ε) Unit
  leaveSafeRegion : ThreadId → Act (Machine ε) Unit
  /-- Start a thread of the given name. The result tells whether it was started. -/
  spawnThread : CollectorKind → String → Act (Machine ε) Bool
  threadStack : MutatorId → Act (Machine ε) (List Slot)
  /-- Compiled code with frames on a mutator's stack. -/
  threadCode : MutatorId → Act (Machine ε) (List CodeId)
  globals : GlobalRoots → Act (Machine ε) (List Slot)
  stringTable : LiveFilter → Act (Machine ε) (List Slot)
  classLoaderGraph : LoaderScan → Act (Machine ε) (List LoaderEdge)
  weakProcessor : LiveFilter → Act (Machine ε) (List Slot)
  /-- The reference fields of an object. -/
  scanObject : ObjectRef → Act (Machine ε) (List Slot)
  objectSize : Machine ε → ObjectRef → Nat
  dumpObject : Machine ε → ObjectRef → String
  className : Machine ε → ObjectRef → Option String
  hook : CycleHook → Coordinator → Act (Machine ε) Unit
  scheduleFinalizer : Act (Machine ε) Unit
  /-- Unload the classes whose loaders the given test finds dead. -/
  unloadClasses : (Machine ε → ObjectRef → Except Panic Bool) → Act (Machine ε) Unit
  /-- Install a new head of the pending list; the result is the old one. -/
  swapPending : Option ObjectRef → Act (Machine ε) (Option ObjectRef)

end Safepoint
