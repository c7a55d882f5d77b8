import Safepoint.Act
import Safepoint.Edges.Sink

/-!
The producing end of a root scan: a reporter batches the slots it is shown into buffers for a
sink. Whatever it holds when it is closed is flushed, so every slot it was shown reaches the
sink, in order and once. Showing it a slot twice breaks a check.
-/
namespace Safepoint

/-- A reporter over a sink in state `τ`. `visited` has the latest slot first. -/
structure Reporter (τ : Type) where
  sink : τ
  buffer : EdgeBuffer
  visited : List Slot

namespace Reporter

variable {τ : Type}

def start (sink : Sink τ) (state : τ) : Except Panic (Reporter τ) := do
  return { sink := state, buffer := ← EdgeBuffer.allocate (max (sink.capacity state) 1), visited := [] }

/-- How many slots were shown so far, buffered or flushed. -/
def reported (reporter : Reporter τ) : Nat := reporter.visited.length

/-- Exchange the full buffer. It is gone when the sink fails to give back an empty one, and a
smaller one is grown to the old size. -/
def renew (sink : Sink τ) : Act (Reporter τ) Unit := do
  let reporter ← get
  let (fresh, state) := sink.flush reporter.buffer reporter.sink
  if fresh.slots = [] then
    set { reporter with sink := state, buffer := fresh.reserve reporter.buffer.capacity }
  else
    set { reporter with sink := state, buffer := .ofCapacity 0 }
    Act.panic .keptBuffer

def visit (sink : Sink τ) (slot : Slot) : Act (Reporter τ) Unit := do
  let reporter ← get
  if slot ∈ reporter.visited then Act.panic (.repeatedSlot slot)
  let reporter : Reporter τ :=
    { reporter with visited := slot :: reporter.visited, buffer := reporter.buffer.push slot }
  set reporter
  if reporter.buffer.isFull then renew sink

def visitAll (sink : Sink τ) (slots : List Slot) : Act (Reporter τ) Unit :=
  slots.forM (visit sink)

/-- Flush what is left. The state of the sink is all that remains. -/
def close (sink : Sink τ) (reporter : Reporter τ) : τ :=
  if reporter.buffer.slots = [] then reporter.sink
  else (sink.flush reporter.buffer reporter.sink).2

end Reporter

/-- Run a scan with a reporter of its own, which is closed at the end, also after a fault.
The result is the number of slots reported. Nothing is scanned if there is no room for the
first buffer. -/
def reporting {σ τ : Type} (sink : Sink τ) (scan : Act (σ × Reporter τ) Unit) :
    Act (σ × τ) Nat := fun s =>
  match Reporter.start sink s.2 with
  | .error cause => (.error (.panic cause), s)
  | .ok reporter =>
    match scan (s.1, reporter) with
    | (.ok (), s', reporter) => (.ok reporter.reported, s', reporter.close sink)
    | (.error fault, s', reporter) => (.error fault, s', reporter.close sink)

end Safepoint
