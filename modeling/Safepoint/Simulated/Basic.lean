import Safepoint.Engine
import Safepoint.Host
import Safepoint.Marking
import Safepoint.Simulated.Heap
import Safepoint.Simulated.Parking

/-!
A host and a collector that live in one process and share one heap: what each of them keeps.
-/
namespace Safepoint.Simulated

/-- What the host was called for. -/
inductive HookEvent where
  | cycle (hook : CycleHook)
  | unloadClasses
  deriving DecidableEq

/-- The host side. A cell is a root location off the heap; a poller is a thread that parks
whenever it is asked to. -/
structure HostSide where
  parking : Parking := {}
  pollers : List ThreadId := []
  cells : List Slot := []
  roots : List (RootCategory × Slot) := []
  stackRoots : List (MutatorId × Slot) := []
  threadCode : List (MutatorId × CodeId) := []
  loaderEdges : List LoaderEdge := []
  hooks : List HookEvent := []
  unloadedChecks : List (ObjectRef × Bool) := []
  pending : Option ObjectRef := none
  finalizerRuns : Nat := 0

/-- What the collector was told by a barrier. -/
inductive BarrierEvent where
  | pre (w : Write)
  | post (w : Write)
  | copyPre (c : BulkCopy)
  | copyPost (c : BulkCopy)
  deriving DecidableEq

/-- The collector side. -/
structure Collector where
  marks : Marks := {}
  logged : Std.ExtTreeSet ObjectRef := {}
  events : List BarrierEvent := []
  /-- What the slots on the heap held when they were about to be written. -/
  oldValues : List (Option ObjectRef) := []
  bound : List MutatorId := []
  destroyed : Nat := 0
  /-- Whether a mutator asked for a cycle that has not begun. -/
  requested : Bool := false
  shutDown : Bool := false
  cycles : Nat := 0

/-- Both sides. `other` is a second heap that belongs to neither. -/
structure Simulation where
  heap : Heap
  other : Heap
  host : HostSide := {}
  collector : Collector := {}

abbrev SimMachine := Machine Simulation

/-- The collector's state for a mutator: which one it is, and how many stores it reported. -/
structure SimMutator where
  id : MutatorId
  stores : Nat
  deriving DecidableEq

def onHost (f : HostSide → HostSide) : Act SimMachine Unit :=
  modify fun m => { m with env.host := f m.env.host }

def onCollector (f : Collector → Collector) : Act SimMachine Unit :=
  modify fun m => { m with env.collector := f m.env.collector }

/-- The heap that both sides share. -/
def groundPlace : Place SimMachine Ground where
  get m := ⟨m.env.heap, m.memory⟩
  put g m := { m with memory := g.memory, env.heap := g.heap }

/-- The second heap. -/
def otherPlace : Place SimMachine Ground where
  get m := ⟨m.env.other, m.memory⟩
  put g m := { m with memory := g.memory, env.other := g.heap }

end Safepoint.Simulated
