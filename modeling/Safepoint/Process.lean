import Safepoint.Binding.Threads

/-!
What a process has at most one of: a binding, and a codec for code that has no binding at hand.
Each is installed once and is not taken away again.
-/
namespace Safepoint

/-- A collector that a process can start: the options it takes, and what it is with them. -/
structure Supply (μ ε : Type) where
  accepts : String → String → Bool
  engine : Options → Engine μ ε

/-- A process. As long as it has no binding, of the binding's state only the machine changes. -/
structure Process (μ ε : Type) where
  binding? : Option (Binding μ ε) := none
  codec? : Option PointerCodec := none
  state : Binding.State μ ε

namespace Process

variable {μ ε : Type}

def statePlace : Place (Process μ ε) (Binding.State μ ε) := ⟨state, fun state p => { p with state }⟩

def isInstalled (p : Process μ ε) : Bool := p.binding?.isSome

/-- The codec of the process. References are not encoded unless one was installed. -/
def codec (p : Process μ ε) : PointerCodec := p.codec?.getD .identity

/-- The binding. There is no going on without it. -/
def binding : Act (Process μ ε) (Binding μ ε) := do
  match (← get).binding? with
  | some b => return b
  | none => Act.fault (.aborted .notInstalled)

def installCodec (codec : PointerCodec) : Act (Process μ ε) (Except Error Unit) := do
  if (← get).codec?.isSome then return .error .alreadyInstalled
  modify fun p => { p with codec? := some codec }
  return .ok ()

/-- The first of the collector's own options that it refuses, in the order of their keys. -/
def refused (supply : Supply μ ε) (options : Options) : Option (String × String) :=
  options.engine.toList.find? fun e => !supply.accepts e.1 e.2

/-- A binding of the host to the collector, if both can work with the options. -/
def prepare (supply : Supply μ ε) (options : Options) (layout : Layout) (host : Host ε) :
    Except Error (Binding μ ε) := do
  options.validate
  match refused supply options with
  | some (key, value) => throw (.rejectedEngineOption key value)
  | none => Binding.make options layout host (supply.engine options)

/-- Have the host start the collector's worker. -/
def startWorker (b : Binding μ ε) : Act (Binding.State μ ε) Unit := do
  let (kind, name) ← b.spawnCollector 1
  Binding.enterCollector ⟨name⟩ kind

/-- Make the binding, install it and its codec, and start the collector. The binding stays where
the codec is refused, but then there is no collector at work. -/
def start (supply : Supply μ ε) (options : Options) (layout : Layout) (host : Host ε) :
    Act (Process μ ε) (Except Error (Binding μ ε)) := do
  if (← get).isInstalled then return .error .alreadyInstalled
  match prepare supply options layout host with
  | .error e => return .error e
  | .ok b =>
    modify fun p => { p with binding? := some b }
    let installed ← if options.compressedPointers then installCodec b.codec else pure (.ok ())
    match installed with
    | .error e => return .error e
    | .ok () =>
      Act.within statePlace (startWorker b)
      return .ok b

end Process

end Safepoint
