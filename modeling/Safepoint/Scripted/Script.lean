import Safepoint.Binding.Cycle
import Std.Data.ExtTreeSet

/-!
Scripts: tables that say in advance what a host and a collector will answer, and a log of every
call they get. A binding between a scripted host and a scripted collector shows the order in
which it calls them, and the state of the world at each call.
-/
namespace Safepoint.Scripted

/-- Roots of one category. Entries marked `stuck` are known to be kept. -/
structure RootBatch where
  category : RootCategory
  slots : List Slot
  stuck : Bool

/-- An edge of the class-loader graph; a dead one is left out where only live loaders count. -/
structure ScriptedEdge where
  slot : Slot
  weak : Bool
  dead : Bool

structure ObjectFacts where
  object : ObjectRef
  size : Nat
  className : Option String
  fields : List Slot

/-- What the host answers. -/
structure HostTables where
  roots : List RootBatch := []
  stackRoots : List (MutatorId × List Slot) := []
  threadCode : List (MutatorId × List CodeId) := []
  loaderEdges : List ScriptedEdge := []
  objects : List ObjectFacts := []
  loaders : List ObjectRef := []
  pending : Option ObjectRef := none
  spawnFails : Bool := false
  /-- Whether the hooks for derived pointers do nothing, not even log. -/
  bareHooks : Bool := false

/-- What the collector answers. -/
structure EngineTables where
  live : Std.ExtTreeSet ObjectRef := {}
  logged : Std.ExtTreeSet ObjectRef := {}
  loggedSlots : Std.ExtTreeSet Slot := {}
  counts : Std.ExtTreeMap ObjectRef Nat := {}

/-- The collector's state for a mutator: which one it is, and how many calls it made. -/
structure Ops where
  id : MutatorId
  ops : Nat
  deriving DecidableEq

/-- What a cycle that runs within a request comes to: the mutators stopped, or the count. -/
inductive CycleReply where
  | stopped (visited : List (Mutator × Nat))
  | resumed (generation : UInt64)
  | busy (thread : ThreadId)

/-- A call that was logged. -/
inductive Event where
  | bind (id : MutatorId)
  | destroy (state : Ops)
  | write (after : Bool) (id : MutatorId) (w : Write) (bits : Option UInt64)
  | copy (after : Bool) (id : MutatorId) (c : BulkCopy) (bits : Option (List UInt64))
  | requestCollection (id : MutatorId)
  | suspendAll (seen : Coordinator)
  | resumeAll (seen : Coordinator)
  | enterSafeRegion
  | leaveSafeRegion
  | hook (hook : CycleHook) (seen : Coordinator)
  | scheduleFinalizer
  | swapPending (new old : Option ObjectRef)
  | unloadClasses (loaders : List (ObjectRef × Bool))
  | threadStack (id : MutatorId)
  | threadCode (id : MutatorId)
  | globals (table : GlobalRoots)
  | stringTable (filter : LiveFilter)
  | weakProcessor (filter : LiveFilter)
  | classLoaderGraph (policy : LoaderScan)
  | cycle (outcome : Except Fault CycleReply) (log : List Event)

/-- The tables, and the calls so far in order. -/
structure Script where
  host : HostTables := {}
  engine : EngineTables := {}
  log : List Event := []

abbrev ScriptedMachine := Machine Script

/-- Log a call. -/
def note (event : Event) : Act ScriptedMachine Unit :=
  modify fun m => { m with env := { m.env with log := m.env.log ++ [event] } }

/-- The blocks of memory that slots may lie in. -/
def regions : List Nat := [0x10000000, 0x200000000, 0x4000000000]

/-- The size of each block. -/
def regionSize : Nat := 0x10000

def isMapped (start : Address) (width : Nat) : Bool :=
  regions.any fun region => region ≤ start.toNat && start.toNat + width ≤ region + regionSize

/-- What a slot holds, if it is in memory. -/
def mappedBits (m : Memory) (slot : Slot) : Option UInt64 :=
  if isMapped slot.address slot.width then some (slot.loadBits m) else none

/-- What the slots of a range hold, if the whole range is in memory. -/
def mappedRange (m : Memory) (range : SlotRange) : Except Panic (Option (List UInt64)) := do
  if isMapped range.start (← range.bytes) then return some ((← range.slots).map (·.loadBits m))
  else return none

end Safepoint.Scripted
