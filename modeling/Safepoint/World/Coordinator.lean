import Safepoint.Act
import Safepoint.Object

/-!
The handshake between collectors and mutators. A stop takes the world from running to
suspended, a start takes it back and counts one more completed cycle; each does so in two
transitions, with the caller's own work and the host's between them. A mutator that blocks for
a collection waits for the count to pass the value it saw when it asked.
-/
namespace Safepoint

/-- What collectors and mutators share: where the world is, and how many cycles are complete. -/
structure Coordinator where
  state : WorldState := .running
  generation : UInt64 := 0
  deriving DecidableEq

namespace Coordinator

def isStopped (c : Coordinator) : Bool := c.state != .running

/-- One transition. Only the successor of the present state may be entered. -/
def advance (c : Coordinator) (target : WorldState) : Except Violation Coordinator :=
  if c.state.successor = target then .ok { c with state := target }
  else .error (.illegalTransition c.state target)

/-- Count one more completed cycle. Nobody is woken yet. -/
def bump (c : Coordinator) : Except Panic (UInt64 × Coordinator) := do
  let generation ← addChecked c.generation 1
  return (generation, { c with generation })

/-- Whether a cycle was completed since `snapshot` was taken. -/
def isPast (c : Coordinator) (snapshot : UInt64) : Bool := snapshot < c.generation

end Coordinator

/-- What the host does with threads around a stop. -/
structure ThreadControl (σ : Type) where
  suspendAll : Act σ Unit
  resumeAll : Act σ Unit
  enterSafeRegion : Act σ Unit
  leaveSafeRegion : Act σ Unit

namespace Handshake

variable {σ α : Type} (world : Place σ Coordinator) (threads : ThreadControl σ)

/-- Take the world to `target`, or refuse and leave it where it is. -/
def transition (target : WorldState) : Act σ (Except Violation Unit) := fun s =>
  match (world.get s).advance target with
  | .ok c => (.ok (.ok ()), world.put c s)
  | .error violation => (.ok (.error violation), s)

/-- Run `prologue`, then park every mutator. -/
def stop (prologue : Act σ Unit) : Act σ (Except Violation Unit) := do
  match ← transition world .suspendRequested with
  | .error violation => return .error violation
  | .ok () =>
    prologue
    threads.suspendAll
    transition world .suspended

/-- Run `epilogue`, count the cycle, and release the mutators. The result is the new count. -/
def start (epilogue : Act σ Unit) : Act σ (Except Violation UInt64) := do
  match ← transition world .resumeRequested with
  | .error violation => return .error violation
  | .ok () =>
    epilogue
    let generation ← Act.within world (Act.update Coordinator.bump)
    threads.resumeAll
    match ← transition world .running with
    | .error violation => return .error violation
    | .ok () => return .ok generation

/-- Run `depart` at once if the world is running. Otherwise the thread enters its safe region,
to wait there for the world to run again, and nothing is returned yet. -/
def leave (depart : Act σ α) : Act σ (Option α) := do
  if (← Act.query world.get).state = .running then return some (← depart)
  threads.enterSafeRegion
  return none

/-- A departure that had to wait is carried out, and the safe region is left. -/
def finishLeave (depart : Act σ α) : Act σ α := do
  if (← Act.query world.get).isStopped then Act.fault .stuck
  let result ← depart
  threads.leaveSafeRegion
  return result

/-- Note the count, run `request`, and enter the safe region. The result is the count noted. -/
def block (request : Act σ Unit) : Act σ UInt64 := do
  let snapshot := (← Act.query world.get).generation
  request
  threads.enterSafeRegion
  return snapshot

/-- The count, once it is past `snapshot`. -/
def waitPast (snapshot : UInt64) : Act σ UInt64 := do
  let c ← Act.query world.get
  if c.isPast snapshot then return c.generation else Act.fault .stuck

/-- A blocked mutator whose cycle is complete leaves its safe region. -/
def finishBlock (snapshot : UInt64) : Act σ UInt64 := do
  let generation ← waitPast world snapshot
  threads.leaveSafeRegion
  return generation

/-- Note the count, run `request`, and wait for the next completed cycle. -/
def awaitNext (request : Act σ Unit) : Act σ UInt64 := do
  let snapshot := (← Act.query world.get).generation
  request
  waitPast world snapshot

end Handshake

end Safepoint
