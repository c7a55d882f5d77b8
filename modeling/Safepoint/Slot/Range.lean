import Safepoint.Slot

/-!
Runs of adjacent slots, as one array copy touches them. Slots are produced one at a time: a
range may be longer than anyone asks for, and it fails only at the element that does.
-/
namespace Safepoint

/-- `count` slots from `start` on, all of one width, of an array `object` if it is known. -/
structure SlotRange where
  object : Option ObjectRef
  start : Address
  count : Nat
  narrow : Bool
  deriving DecidableEq

/-- A position in a range. -/
structure SlotCursor where
  here : Address
  remaining : Nat
  narrow : Bool
  deriving DecidableEq

namespace SlotCursor

def stride (cursor : SlotCursor) : UInt64 := if cursor.narrow then 4 else 8

/-- How many slots are to come, at least and at most. -/
def sizeHint (cursor : SlotCursor) : Nat × Option Nat := (cursor.remaining, some cursor.remaining)

/-- The next slot. The cursor moves on after the last slot too, so a range may not end at the
last address. -/
def next (cursor : SlotCursor) : Except Panic (Option (Slot × SlotCursor)) :=
  match cursor.remaining with
  | 0 => .ok none
  | rest + 1 => do
    let slot ← if cursor.narrow then .ok (Slot.narrow cursor.here) else Slot.wide cursor.here
    let here ← addChecked cursor.here cursor.stride
    return some (slot, ⟨here, rest, cursor.narrow⟩)

/-- The first `limit` slots, or fewer if the range is shorter. -/
def take : Nat → SlotCursor → Except Panic (List Slot)
  | 0, _ => .ok []
  | limit + 1, cursor => do
    match ← cursor.next with
    | none => return []
    | some (slot, cursor) => return slot :: (← take limit cursor)

end SlotCursor

namespace SlotRange

def isEmpty (range : SlotRange) : Bool := range.count == 0

/-- Bytes from one slot to the next. -/
def stride (range : SlotRange) : Nat := if range.narrow then 4 else 8

def cursor (range : SlotRange) : SlotCursor := ⟨range.start, range.count, range.narrow⟩

/-- All the slots in order. -/
def slots (range : SlotRange) : Except Panic (List Slot) := range.cursor.take range.count

/-- Bytes the range takes. -/
def bytes (range : SlotRange) : Except Panic Nat :=
  if range.count * range.stride < wordLimit then .ok (range.count * range.stride)
  else .error .multiplyOverflow

/-- Copy the contents of one range to another of the same size and width. -/
def copy (source target : SlotRange) (m : Memory) : Except Panic Memory := do
  let sourceBytes ← source.bytes
  let targetBytes ← target.bytes
  if sourceBytes ≠ targetBytes then throw (.unequalBytes sourceBytes targetBytes)
  if source.narrow ≠ target.narrow then throw (.unequalWidths source.narrow target.narrow)
  return m.copy source.start target.start sourceBytes

end SlotRange

end Safepoint
