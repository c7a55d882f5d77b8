import Safepoint.Basic
import Std.Data.ExtTreeSet

/-!
Weak handles: slots that are updated after each cycle for as long as they are registered. The
ones registered since the nursery was last taken also wait in the nursery, in the order in
which they came.
-/
namespace Safepoint

structure WeakHandles where
  registered : Std.ExtTreeSet Slot := {}
  nursery : List Slot := []

namespace WeakHandles

/-- The first half of a registration. The result tells whether the slot is new. -/
def insertRegistered (handles : WeakHandles) (slot : Slot) : Bool × WeakHandles :=
  (slot ∉ handles.registered, { handles with registered := handles.registered.insert slot })

/-- The second half, for a new slot. -/
def pushNursery (handles : WeakHandles) (slot : Slot) : WeakHandles :=
  { handles with nursery := handles.nursery ++ [slot] }

/-- Registering a slot again changes nothing. -/
def register (handles : WeakHandles) (slot : Slot) : WeakHandles :=
  let (new, handles) := handles.insertRegistered slot
  if new then handles.pushNursery slot else handles

/-- The first half of forgetting a slot. The result tells whether it was registered. -/
def eraseRegistered (handles : WeakHandles) (slot : Slot) : Bool × WeakHandles :=
  (slot ∈ handles.registered, { handles with registered := handles.registered.erase slot })

/-- The second half, for a slot that was registered. -/
def eraseNursery (handles : WeakHandles) (slot : Slot) : WeakHandles :=
  { handles with nursery := handles.nursery.filter (· ≠ slot) }

/-- Forget a slot. The result tells whether it was registered. -/
def unregister (handles : WeakHandles) (slot : Slot) : Bool × WeakHandles :=
  let (known, handles) := handles.eraseRegistered slot
  (known, if known then handles.eraseNursery slot else handles)

/-- Hand out the nursery and empty it. -/
def takeNursery (handles : WeakHandles) : List Slot × WeakHandles :=
  (handles.nursery, { handles with nursery := [] })

/-- All registered slots in address order. -/
def slots (handles : WeakHandles) : List Slot := handles.registered.toList

end WeakHandles

end Safepoint
