import Safepoint.Layout
import Safepoint.Simulated.Basic

/-!
The host of a simulation. Its roots are cells, one reference each, and its tables are walked in
the order in which the cells were added; no walk leaves anything out.
-/
namespace Safepoint.Simulated

namespace HostSide

/-- Where the cells lie, off every heap. -/
def cellBase : Address := 0x10000000

/-- A new cell. -/
def freshCell (r : HostSide) : Slot := ⟨cellBase + 8 * r.cells.length.toUInt64⟩

def slotsOf (r : HostSide) (category : RootCategory) : List Slot :=
  (r.roots.filter (·.1 = category)).map Prod.snd

def stackOf (r : HostSide) (id : MutatorId) : List Slot :=
  (r.stackRoots.filter (·.1 = id)).map Prod.snd

def codeOf (r : HostSide) (id : MutatorId) : List CodeId :=
  (r.threadCode.filter (·.1 = id)).map Prod.snd

end HostSide

/-- Make a cell that holds `object`. -/
def newCell (object : Option ObjectRef) : Act SimMachine Slot := do
  let cell := (← get).env.host.freshCell
  onHost fun r => { r with cells := r.cells ++ [cell] }
  Machine.poke (cell.store .identity object)
  return cell

def record (event : HookEvent) : Act SimMachine Unit :=
  onHost fun r => { r with hooks := r.hooks ++ [event] }

/-- Go on with the parking places a thread finds, unless it has to wait for that. -/
def settle (f : Parking → Option Parking) : Act SimMachine Unit := do
  match f (← get).env.host.parking with
  | some parking => onHost fun r => { r with parking }
  | none => Act.fault .stuck

def attach (me : ThreadId) : Act SimMachine Unit := settle (·.attach? me)

def detach (me : ThreadId) : Act SimMachine Unit := settle fun p => some (p.detach me)

def enterSafeRegion (me : ThreadId) : Act SimMachine Unit := settle fun p => some (p.park me)

def leaveSafeRegion (me : ThreadId) : Act SimMachine Unit := settle (·.unpark? me)

/-- Park here if a stop was asked for. -/
def poll (me : ThreadId) : Act SimMachine Unit := do
  if (← get).env.host.parking.requested then
    enterSafeRegion me
    leaveSafeRegion me

/-- Ask for a stop, upon which the pollers park, and wait until every attached thread has. -/
def suspendAll : Act SimMachine Unit := do
  settle fun p => some p.request
  (← get).env.host.pollers.forM enterSafeRegion
  if !(← get).env.host.parking.allParked then Act.fault .stuck

/-- End the stop, upon which the pollers go on. -/
def resumeAll : Act SimMachine Unit := do
  settle fun p => some p.release
  (← get).env.host.pollers.forM leaveSafeRegion

/-- Ask about the loader behind a weak edge, if there is one, and keep the answer. -/
def checkLoader (alive : SimMachine → ObjectRef → Except Panic Bool) (edge : LoaderEdge) :
    Act SimMachine Unit := do
  match ← Machine.peek (edge.slot.load .identity) with
  | none => return ()
  | some loader =>
    let answer ← Act.read fun m => alive m loader
    onHost fun r => { r with unloadedChecks := r.unloadedChecks ++ [(loader, answer)] }

/-- How an object is shown, under the name it is given. -/
def dumpText (heap : Heap) (object : ObjectRef) (name : String) : String :=
  (match heap.kind? object with
    | some kind => "Some(" ++ kind.name ++ ")"
    | none => "None")
    ++ "@" ++ name ++ " size=" ++ (heap.sizeOf object).repr

def host : Host Simulation where
  suspendAll _ := suspendAll
  resumeAll _ := resumeAll
  enterSafeRegion := enterSafeRegion
  leaveSafeRegion := leaveSafeRegion
  spawnThread _ _ := pure true
  threadStack id := Act.query fun m => m.env.host.stackOf id
  threadCode id := Act.query fun m => m.env.host.codeOf id
  globals table := Act.query fun m => m.env.host.slotsOf (.global table)
  stringTable _ := Act.query fun m => m.env.host.slotsOf .stringTable
  classLoaderGraph _ := Act.query fun m => m.env.host.loaderEdges
  weakProcessor _ := Act.query fun m => m.env.host.slotsOf .weakProcessor
  scanObject object := Act.read fun m => m.env.heap.strongFields object
  objectSize m object := m.env.heap.sizeOf object
  dumpObject m object := dumpText m.env.heap object (hex object.address)
  className m object := (m.env.heap.kind? object).map ObjectKind.name
  hook hook _ := record (.cycle hook)
  scheduleFinalizer := onHost fun r => { r with finalizerRuns := r.finalizerRuns + 1 }
  unloadClasses alive := do
    record .unloadClasses
    ((← get).env.host.loaderEdges.filter LoaderEdge.weak).forM (checkLoader alive)
  swapPending new := modifyGet fun m =>
    (m.env.host.pending, { m with env.host.pending := new })

/-- Where fields lie in the objects of the simulation. -/
def layoutFacts : LayoutFacts where
  referent := referentOffset.toNat
  discovered := discoveredOffset.toNat
  classKlass := 8
  classLoaderData := 8
  staticFields := 24
  staticFieldCount := 16
  checksum := 0x5eed

end Safepoint.Simulated
