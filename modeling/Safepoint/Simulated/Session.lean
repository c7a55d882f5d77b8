import Safepoint.Binding.Barriers
import Safepoint.Simulated.Cycle

/-!
A simulation in use: threads come and go, mutators ask for cycles, and collector threads run
them, one thing at a time.
-/
namespace Safepoint.Simulated

/-- An object, and the bytes it took when it was allocated. -/
structure Known where
  object : ObjectRef
  size : Nat

/-- Whether an address lay in the object. -/
def Known.covers (known : Known) (a : Address) : Bool :=
  known.object.address ≤ a && a.toNat < known.object.address.toNat + known.size

/-- A binding in use. Objects are known by the order in which they were allocated. `guards`
counts, for each thread, the registrations that the thread has still to give up. -/
structure Session where
  world : World
  objects : List Known := []
  guards : Std.ExtTreeMap ThreadId Nat := {}
  controllers : List ThreadId := []

namespace Session

variable {α : Type} (b : SimBinding)

def worldPlace : Place Session World := ⟨world, fun world s => { s with world }⟩

/-- A call on the binding. -/
def onWorld (act : Act World α) : Act Session α := Act.within worldPlace act

/-- A call on host, collector and memory. -/
def onMachine (act : Act SimMachine α) : Act Session α := onWorld (Binding.onMachine act)

/-- Allocate on the shared heap or the other one, and remember the object. -/
def allocate (ground : Place SimMachine Ground) (act : Act Ground ObjectRef) :
    Act Session ObjectRef := do
  let object ← onMachine (Act.within ground act)
  let size := (ground.get (← get).world.machine).heap.sizeOf object
  modify fun s => { s with objects := s.objects ++ [⟨object, size⟩] }
  return object

def register (me : ThreadId) (name : Option String) : Act Session (Except Error MutatorId) := do
  let outcome ← onWorld (b.registerMutator me name)
  if outcome.toBool then
    modify fun s => { s with guards := s.guards.insert me (s.guards.getD me 0 + 1) }
  return outcome

/-- Give up the newest registration of the thread, if there is one left. -/
def dropGuard (me : ThreadId) : Act Session Unit := do
  match (← get).guards.getD me 0 with
  | 0 => return ()
  | rest + 1 =>
    modify fun s => { s with guards := s.guards.insert me rest }
    match ← onWorld (b.deregisterMutator me) with
    | none => return ()
    | some _ => onWorld (b.finishDeregister me)

/-- A call that another thread carries out. A fault ends that thread and none else, and nothing
comes back from it then; if it waits for ever, so does whoever waits for it. -/
def elsewhere (act : Act World α) : Act Session (Option α) := fun s =>
  match onWorld act s with
  | (.ok a, s) => (.ok (some a), s)
  | (.error .stuck, s) => (.error .stuck, s)
  | (.error _, s) => (.ok none, s)

/-- Start a collector thread for one cycle. If asked, the calling thread runs managed code
meanwhile, and polls. Nothing comes back if the collector thread breaks off. -/
def cycle (me : ThreadId) (tag : Int) (polling : Bool) : Act Session (Option UInt64) := do
  if polling then
    onMachine (attach me)
    onMachine (onHost fun r => { r with pollers := r.pollers ++ [me] })
  let (kind, name) ← onWorld (b.spawnCollector tag)
  let generation ← elsewhere do
    Binding.enterCollector ⟨name⟩ kind
    let generation ← runCycle b [] ⟨name⟩
    Binding.exitCollector ⟨name⟩
    return generation
  if polling then
    onMachine (poll me)
    onMachine (onHost fun r => { r with pollers := r.pollers.erase me })
    onMachine (detach me)
  return generation

/-- Start a collector thread that runs a cycle whenever one is asked for, until it is shut
down. -/
def startController : Act Session Unit := do
  let (kind, name) ← onWorld (b.spawnCollector 0)
  onWorld (Binding.enterCollector ⟨name⟩ kind)
  if (← get).world.machine.env.collector.shutDown then onWorld (Binding.exitCollector ⟨name⟩)
  else modify fun s => { s with controllers := s.controllers ++ [⟨name⟩] }

/-- A controller answers a request, if there is one of each. One that breaks off answers no more. -/
def serve : Act Session Unit := do
  match (← get).controllers with
  | [] => return ()
  | controller :: others =>
    if (← get).world.machine.env.collector.requested then
      onMachine (onCollector fun c => { c with requested := false })
      if (← elsewhere (runCycle b [] controller)).isNone then
        modify fun s => { s with controllers := others }

/-- Ask for a cycle as a thread that runs managed code, and wait for it. -/
def collect (me : ThreadId) : Act Session UInt64 := do
  onMachine (attach me)
  match ← onWorld (b.collect me) with
  | .departure => Act.fault .stuck
  | .collection snapshot =>
    serve b
    let generation ← onWorld (b.finishBlock me snapshot)
    onMachine (detach me)
    return generation

/-- Stop the controllers. The result is the number of cycles that were run. -/
def shutdown : Act Session Nat := do
  onMachine (onCollector fun c => { c with shutDown := true })
  (← get).controllers.forM fun controller => onWorld (Binding.exitCollector controller)
  modify fun s => { s with controllers := [] }
  return (← get).world.machine.env.collector.cycles

/-- Run a barrier without a binding's thread, on state made for the purpose. -/
def detached (act : Act (Attached SimMutator Simulation) Unit) : Act Session SimMutator :=
  onMachine fun m =>
    let (outcome, left) := act.run ⟨detachedMutator, m⟩
    (outcome.map fun () => left.mutator, left.machine)

end Session

end Safepoint.Simulated
