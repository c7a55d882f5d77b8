import Safepoint.Fault
import Safepoint.Text.Quoted

/-!
The registry of threads. A thread is a mutator, a collector or neither, and never both. A
mutator is found by its thread or by its id; ids ascend in the order of registration and are
not used again. The collector's state for a mutator lives in a table of its own, from which it
is taken out once, when the mutator leaves.
-/
namespace Safepoint

/-- What is fixed about a registered mutator. -/
structure Mutator where
  id : MutatorId
  thread : ThreadId
  name : Option String
  deriving DecidableEq

/-- How a mutator is shown. -/
def Mutator.text (m : Mutator) : String :=
  "MutatorContext \x7b id: " ++ m.id.text ++ ", thread: " ++ m.thread.text ++ ", name: "
    ++ (match m.name with
      | none => "None"
      | some name => "Some(" ++ Text.quote name ++ ")")
    ++ ", .. \x7d"

/-- What a registered thread may act as. -/
inductive Role where
  | mutator (id : MutatorId)
  | collector (kind : CollectorKind)
  deriving DecidableEq

/-- A collector thread that was asked for. -/
structure Spawned where
  kind : CollectorKind
  name : String
  deriving DecidableEq

namespace CollectorKind

/-- The kind behind a tag of the collector. -/
def ofTag (tag : Int) : Except Error CollectorKind :=
  if tag = 0 then .ok .controller
  else if tag = 1 then .ok .worker
  else .error (.unknownCollectorKind tag)

def role : CollectorKind → String
  | .controller => "controller"
  | .worker => "worker"

end CollectorKind

structure Registry (μ : Type) where
  nextId : UInt64 := 1
  byThread : Std.ExtTreeMap ThreadId Mutator := {}
  byId : Std.ExtTreeMap MutatorId Mutator := {}
  states : Std.ExtTreeMap MutatorId μ := {}
  collectors : Std.ExtTreeMap ThreadId CollectorKind := {}
  spawned : List Spawned := []

namespace Registry

variable {μ : Type}

/-- The calling thread as a mutator. -/
def current (r : Registry μ) (me : ThreadId) : Option Mutator := r.byThread[me]?

def get (r : Registry μ) (id : MutatorId) : Option Mutator := r.byId[id]?

/-- Take the next id for a thread that has no role yet. -/
def reserve (r : Registry μ) (me : ThreadId) : Except Error (MutatorId × Registry μ) :=
  if me ∈ r.byThread ∨ me ∈ r.collectors then .error (.alreadyRegistered me)
  else .ok (⟨r.nextId⟩, { r with nextId := r.nextId + 1 })

/-- Make a mutator known by its id, with the collector's state for it. -/
def addId (r : Registry μ) (mutator : Mutator) (state : μ) : Registry μ :=
  { r with
    byId := r.byId.insert mutator.id mutator
    states := r.states.insert mutator.id state }

/-- Make a mutator known by its thread. -/
def addThread (r : Registry μ) (mutator : Mutator) : Registry μ :=
  { r with byThread := r.byThread.insert mutator.thread mutator }

/-- Register the calling thread as a mutator. -/
def register (r : Registry μ) (me : ThreadId) (name : Option String) (state : MutatorId → μ) :
    Except Error (Mutator × Registry μ) := do
  let (id, r) ← r.reserve me
  let mutator : Mutator := ⟨id, me, name⟩
  return (mutator, (r.addId mutator (state id)).addThread mutator)

/-- Remove the calling thread and hand out the collector's state for it. -/
def deregister (r : Registry μ) (me : ThreadId) :
    Except Violation (MutatorId × Option μ × Registry μ) :=
  match r.current me with
  | none => .error (.unregisteredThread me)
  | some mutator => .ok (mutator.id, r.states[mutator.id]?,
      { r with
        byThread := r.byThread.erase me
        byId := r.byId.erase mutator.id
        states := r.states.erase mutator.id })

def registerCollector (r : Registry μ) (me : ThreadId) (kind : CollectorKind) :
    Except Violation (Registry μ) :=
  if me ∈ r.byThread then .error (.mutatorAsCollector me)
  else .ok { r with collectors := r.collectors.insert me kind }

def deregisterCollector (r : Registry μ) (me : ThreadId) : Registry μ :=
  { r with collectors := r.collectors.erase me }

/-- Note that a collector thread was asked for, and name it. -/
def recordSpawn (r : Registry μ) (kind : CollectorKind) : String × Registry μ :=
  let name := "gcbridge-" ++ kind.role ++ "-" ++ r.spawned.length.repr
  (name, { r with spawned := r.spawned ++ [⟨kind, name⟩] })

/-- The calling thread has to be a mutator. -/
def requireMutator (r : Registry μ) (me : ThreadId) : Except Violation Mutator :=
  match r.current me with
  | some mutator => .ok mutator
  | none =>
    if me ∈ r.collectors then .error (.collectorAsMutator me)
    else .error (.unregisteredThread me)

/-- The calling thread has to be a collector. -/
def requireCollector (r : Registry μ) (me : ThreadId) : Except Violation CollectorKind :=
  match r.collectors[me]? with
  | some kind => .ok kind
  | none =>
    if me ∈ r.byThread then .error (.mutatorAsCollector me)
    else .error (.unregisteredThread me)

def roleOf (r : Registry μ) (thread : ThreadId) : Option Role :=
  match r.byThread[thread]? with
  | some mutator => some (.mutator mutator.id)
  | none => r.collectors[thread]?.map .collector

def isMutator (r : Registry μ) (thread : ThreadId) : Bool :=
  match r.roleOf thread with
  | some (.mutator _) => true
  | _ => false

/-- The registered mutators in order of registration. -/
def mutators (r : Registry μ) : List Mutator := r.byId.values

def mutatorIds (r : Registry μ) : List MutatorId := r.mutators.map Mutator.id

def mutatorCount (r : Registry μ) : Nat := r.byId.size

end Registry

end Safepoint
