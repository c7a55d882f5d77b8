import Safepoint.Engine
import Safepoint.Host
import Safepoint.Layout
import Safepoint.Roots.CodeTable
import Safepoint.Roots.WeakHandles
import Safepoint.Threads

/-!
A binding ties one host to one collector. What is fixed when it is made is the `Binding`; what
changes while it is in use is its `State`, together with the machine that host and collector
act on.
-/
namespace Safepoint

structure Binding (μ ε : Type) where
  options : Options
  layout : Layout
  codec : PointerCodec
  host : Host ε
  engine : Engine μ ε

structure Binding.State (μ ε : Type) where
  machine : Machine ε
  registry : Registry μ := {}
  world : Coordinator := {}
  codeTable : CodeTable := {}
  weakHandles : WeakHandles := {}
  /-- Whether the cycle under way was started with class unloading. -/
  unloading : Bool := false

namespace Binding

variable {μ ε α : Type}

/-- A binding whose narrow slots use `codec`. -/
def ofCodec (options : Options) (layout : Layout) (host : Host ε) (engine : Engine μ ε)
    (codec : PointerCodec) : Except Error (Binding μ ε) :=
  options.validate.map fun () => ⟨options, layout, codec, host, engine⟩

/-- A binding whose codec follows from where the collector's heap is. -/
def make (options : Options) (layout : Layout) (host : Host ε) (engine : Engine μ ε) :
    Except Error (Binding μ ε) :=
  if options.compressedPointers then
    match engine.heapRange with
    | some (start, limit) => ofCodec options layout host engine (.forHeapRange start limit)
    | none => .error (.invalidOptions .noHeapRange)
  else ofCodec options layout host engine .identity

namespace State

def machinePlace : Place (State μ ε) (Machine ε) := ⟨machine, fun machine s => { s with machine }⟩

def worldPlace : Place (State μ ε) Coordinator := ⟨world, fun world s => { s with world }⟩

def codePlace : Place (State μ ε) CodeTable := ⟨codeTable, fun codeTable s => { s with codeTable }⟩

def weakPlace : Place (State μ ε) WeakHandles :=
  ⟨weakHandles, fun weakHandles s => { s with weakHandles }⟩

end State

/-- A call of the host or the collector. -/
def onMachine (act : Act (Machine ε) α) : Act (State μ ε) α := Act.within State.machinePlace act

/-- A service of the host that is shown the state of the world. -/
def shown (service : Coordinator → Act (Machine ε) α) : Act (State μ ε) α := do
  onMachine (service (← get).world)

/-- Hand a breach of the handshake to the host, which stops the process. -/
def violation (breach : Violation) : Act (State μ ε) α :=
  Act.fault (.terminated (.violation breach))

/-- Go on with a result, or stop the process. -/
def insist : Except Violation α → Act (State μ ε) α
  | .ok a => pure a
  | .error breach => violation breach

/-- The host's control over threads, for a call by the thread `me`. -/
def threads (b : Binding μ ε) (me : ThreadId) : ThreadControl (State μ ε) where
  suspendAll := shown b.host.suspendAll
  resumeAll := shown b.host.resumeAll
  enterSafeRegion := onMachine (b.host.enterSafeRegion me)
  leaveSafeRegion := onMachine (b.host.leaveSafeRegion me)

end Binding

end Safepoint
