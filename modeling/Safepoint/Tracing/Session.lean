import Safepoint.Binding.Barriers
import Safepoint.Tracing.Cells
import Safepoint.Tracing.Collector

/-!
A process with a tracing collector in use: the binding is installed or not, threads come and go,
and the collector's worker runs a collection whenever one is asked for.
-/
namespace Safepoint.Tracing

/-- A process in use. `guards` counts, for each thread, the registrations that the thread has
still to give up. -/
structure Session where
  process : Process Unit Scene := { state := { machine := ⟨.zero, {}⟩ } }
  guards : Std.ExtTreeMap ThreadId Nat := {}

namespace Session

variable {α : Type}

def processPlace : Place Session (Process Unit Scene) := ⟨process, fun process s => { s with process }⟩

def onProcess (act : Act (Process Unit Scene) α) : Act Session α := Act.within processPlace act

/-- A call on the state of the binding. -/
def onWorld (act : Act World α) : Act Session α := onProcess (Act.within Process.statePlace act)

/-- A call on host, collector and memory. -/
def onStage (act : Act Stage α) : Act Session α := onWorld (Binding.onMachine act)

/-- A call on the binding, which has to be there. -/
def onBinding (act : TracingBinding → Act World α) : Act Session α := do
  onWorld (act (← onProcess Process.binding))

def stage (s : Session) : Stage := s.process.state.machine

/-- Start the process's binding. -/
def start (options : Options) : Act Session (Except Error Options) := do
  match layoutFacts.validate with
  | .error e => return .error e
  | .ok layout =>
    let outcome ← onProcess (Process.start supply options layout (host options.compressedPointers))
    return outcome.map Binding.options

def register (me : ThreadId) (name : Option String) : Act Session (Except Error MutatorId) := do
  let outcome ← onBinding fun b => b.registerMutator me name
  if outcome.toBool then
    modify fun s => { s with guards := s.guards.insert me (s.guards.getD me 0 + 1) }
  return outcome

/-- Give up the newest registration of the thread, if there is one left. -/
def dropGuard (me : ThreadId) : Act Session Unit := do
  match (← get).guards.getD me 0 with
  | 0 => return ()
  | rest + 1 =>
    modify fun s => { s with guards := s.guards.insert me rest }
    onBinding fun b => do
      match ← b.deregisterMutator me with
      | none => return ()
      | some _ => b.finishDeregister me

/-- The worker runs a collection, if one was asked for. -/
def serve : Act Session Unit := do
  let s ← get
  if s.stage.env.collector.requested then
    onStage (onCollector fun c => { c with requested := false })
    onBinding fun b => do
      match s.process.state.registry.spawned with
      | [] => Act.fault .stuck
      | worker :: _ =>
        let _ ← collection b (.ofOptions b.options) s.process.codec ⟨worker.name⟩

/-- Ask for a collection and wait for it. -/
def collect (me : ThreadId) : Act Session UInt64 := do
  match ← onBinding fun b => b.collect me with
  | .departure => Act.fault .stuck
  | .collection snapshot =>
    serve
    onBinding fun b => b.finishBlock me snapshot

/-- Allocate an object for the calling mutator. -/
def alloc (me : ThreadId) (header : Header) : Act Session ObjectRef :=
  onBinding fun _ => Binding.withMutator me (Act.within Attached.machinePlace (allocate header))

/-- Make a cell, in place of an older one of its name. Handles and code are made known to the
binding, which has to be there. -/
def addCell (name : String) (kind : CellKind) : Act Session Unit := do
  let _ ← onProcess Process.binding
  let slot : Slot := ⟨cellBase + 8 * (← get).stage.env.host.made.toUInt64⟩
  onStage (onHost fun h =>
    { h with made := h.made + 1, cells := h.cells.insert name ⟨slot, kind⟩ })
  match kind with
  | .handle => onBinding fun _ => Act.within Binding.State.weakPlace (modify (·.register slot))
  | .code code _ =>
    onBinding fun _ => Act.within Binding.State.codePlace (modify (·.register code [slot]))
  | _ => return ()

end Session

end Safepoint.Tracing
