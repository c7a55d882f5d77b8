import Safepoint.Host
import Safepoint.Marking
import Safepoint.Tracing.Heap

/-!
A host whose roots are named cells, and a tracing collector: what each of them keeps.
-/
namespace Safepoint.Tracing

/-- What makes a cell a root. -/
inductive CellKind where
  /-- An entry of the host's tables. -/
  | table (category : RootCategory)
  /-- On the stack of a mutator. -/
  | stack (mutator : Option MutatorId)
  | loader (weak : Bool)
  /-- A weak handle. -/
  | handle
  /-- The only slot of a blob, which may have a frame on the stack of a mutator. -/
  | code (code : CodeId) (frame : Option MutatorId)
  /-- No root at all. -/
  | plain
  deriving DecidableEq

structure Cell where
  slot : Slot
  kind : CellKind
  deriving DecidableEq

/-- What the host was called for. -/
inductive Notice where
  | suspendAll
  | resumeAll
  | hook (hook : CycleHook)
  | scheduleFinalizer
  /-- For each weak loader cell whether its object is alive, if it has one. -/
  | unloadClasses (loaders : List (String × Option Bool))
  deriving DecidableEq

/-- The host. It remembers what it was called for, and which of its roots were walked. `made`
counts the cells there ever were: a name may pass to a new cell. -/
structure HostSide where
  cells : Std.ExtTreeMap String Cell := {}
  made : Nat := 0
  pending : Option ObjectRef := none
  notices : List Notice := []
  walks : Std.ExtTreeSet String := {}

/-- Where the heap starts and ends. -/
def heapRange : Address × Address := (0x20000000000, 0x220000000000)

/-- Where the cells lie, off the heap. -/
def cellBase : Address := 0x10000000

/-- The collector. `next` is where the next object goes, and `fresh` holds the objects that are
younger than the last collection. -/
structure CollectorSide where
  next : Address := heapRange.1
  objects : Nat := 0
  marks : Marks := {}
  fresh : Marks := {}
  /-- The reference objects whose referents are still watched. -/
  candidates : List ObjectRef := []
  /-- Whether a mutator asked for a collection that has not begun. -/
  requested : Bool := false

structure Scene where
  host : HostSide := {}
  collector : CollectorSide := {}

abbrev Stage := Machine Scene

def onHost (f : HostSide → HostSide) : Act Stage Unit :=
  modify fun m => { m with env.host := f m.env.host }

def onCollector (f : CollectorSide → CollectorSide) : Act Stage Unit :=
  modify fun m => { m with env.collector := f m.env.collector }

end Safepoint.Tracing
