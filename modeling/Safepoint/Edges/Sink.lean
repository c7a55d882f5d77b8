import Safepoint.Fault

/-!
Sinks for reference slots. A producer fills a buffer, hands it to a sink, and goes on with the
empty buffer the sink gives in exchange.
-/
namespace Safepoint

/-- Slots on their way to a sink, and how many fit. -/
structure EdgeBuffer where
  slots : List Slot
  capacity : Nat
  deriving DecidableEq

namespace EdgeBuffer

/-- An empty buffer with room for `capacity` slots. -/
def ofCapacity (capacity : Nat) : EdgeBuffer := ⟨[], capacity⟩

/-- The most slots a buffer can have room for: a block of memory takes less than half of all
addresses, and a slot takes eight bytes. -/
def maxCapacity : Nat := 0x0fffffffffffffff

/-- A new buffer, if one can be that large. -/
def allocate (capacity : Nat) : Except Panic EdgeBuffer :=
  if capacity ≤ maxCapacity then .ok (ofCapacity capacity) else .error .capacityOverflow

def isFull (buffer : EdgeBuffer) : Bool := buffer.capacity ≤ buffer.slots.length

def push (buffer : EdgeBuffer) (slot : Slot) : EdgeBuffer :=
  { buffer with slots := buffer.slots ++ [slot] }

/-- Make room for `more` slots beyond the ones held, and for no more than that. -/
def reserve (buffer : EdgeBuffer) (more : Nat) : EdgeBuffer :=
  { buffer with capacity := max buffer.capacity (buffer.slots.length + more) }

@[simp] theorem slots_ofCapacity (capacity : Nat) : (ofCapacity capacity).slots = [] := rfl
@[simp] theorem capacity_ofCapacity (capacity : Nat) :
    (ofCapacity capacity).capacity = capacity := rfl
@[simp] theorem slots_push (buffer : EdgeBuffer) (slot : Slot) :
    (buffer.push slot).slots = buffer.slots ++ [slot] := rfl
@[simp] theorem capacity_push (buffer : EdgeBuffer) (slot : Slot) :
    (buffer.push slot).capacity = buffer.capacity := rfl
@[simp] theorem slots_reserve (buffer : EdgeBuffer) (more : Nat) :
    (buffer.reserve more).slots = buffer.slots := rfl

end EdgeBuffer

/-- A consumer of buffers, with a state `τ` of its own. -/
structure Sink (τ : Type) where
  /-- Room in the first buffer a producer should fill. -/
  capacity : τ → Nat
  /-- Take a filled buffer and give the next one. -/
  flush : EdgeBuffer → τ → EdgeBuffer × τ

/-- The buffers a sink was handed, in order. -/
abbrev FlushLog := List EdgeBuffer

namespace FlushLog

/-- The slots of each buffer. -/
def batches (log : FlushLog) : List (List Slot) := log.map EdgeBuffer.slots

/-- All slots in the order they arrived. -/
def slots (log : FlushLog) : List Slot := log.batches.flatten

@[simp] theorem slots_nil : FlushLog.slots [] = [] := rfl
@[simp] theorem slots_append (a b : FlushLog) :
    FlushLog.slots (a ++ b) = a.slots ++ b.slots := by
  simp [FlushLog.slots, FlushLog.batches]

end FlushLog

namespace Sink

/-- A sink that remembers what it is handed and answers each buffer by a fixed rule. -/
def answering (capacity : Nat) (answer : EdgeBuffer → EdgeBuffer) : Sink FlushLog where
  capacity _ := capacity
  flush filled log := (answer filled, log ++ [filled])

/-- Keep every batch. The next buffer is never smaller than the one it replaces. -/
def collecting (capacity : Nat) : Sink FlushLog :=
  answering (max capacity 1) fun filled => .ofCapacity (max filled.capacity (max capacity 1))

/-- For slots nobody wants: the buffer comes back emptied. -/
def discarding : Sink FlushLog := answering 64 fun filled => .ofCapacity filled.capacity

/-- Give back buffers with room for one slot only. -/
def shrinking (capacity : Nat) : Sink FlushLog := answering capacity fun _ => .ofCapacity 1

/-- Give back a larger buffer each time. -/
def growing (capacity : Nat) : Sink FlushLog :=
  answering capacity fun filled => .ofCapacity (filled.capacity + max capacity 1)

/-- Give back the buffer as it was handed over, still filled. -/
def keeping (capacity : Nat) : Sink FlushLog := answering capacity id

end Sink

end Safepoint
