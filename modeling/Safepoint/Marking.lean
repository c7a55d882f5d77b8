import Safepoint.Machine
import Safepoint.Slot
import Std.Data.ExtTreeSet

/-!
Marking: from some slots on, through the fields of every object that is met, until nothing is
left that has no mark. An object gets its mark when it is first met, and it is looked into once.
-/
namespace Safepoint

abbrev Marks := Std.ExtTreeSet ObjectRef

/-- How a collector marks: where it keeps its marks, how slots are read, and which slots of an
object are followed. -/
structure Marker (ε : Type) where
  marks : Place ε Marks
  codec : PointerCodec
  fields : ObjectRef → Act (Machine ε) (List Slot)

namespace Marker

variable {ε : Type} (marker : Marker ε)

/-- Mark what a slot refers to. The result is the object, if it had no mark. -/
def markSlot (slot : Slot) : Act (Machine ε) (Option ObjectRef) := do
  match ← Machine.peek (slot.load marker.codec) with
  | none => return none
  | some object =>
    if object ∈ marker.marks.get (← get).env then return none
    modify fun m =>
      { m with env := marker.marks.put ((marker.marks.get m.env).insert object) m.env }
    return some object

/-- Mark what slots refer to. The objects that had no mark are put in front of `work`, the
latest first. -/
def markSlots (work : List ObjectRef) : List Slot → Act (Machine ε) (List ObjectRef)
  | [] => return work
  | slot :: rest => do
    match ← marker.markSlot slot with
    | some object => markSlots (object :: work) rest
    | none => markSlots work rest

/-- Mark everything reachable from the objects on the list. An object comes on the list once,
when it gets its mark, so there are no more rounds than objects. -/
def trace : Nat → List ObjectRef → Act (Machine ε) Unit
  | _, [] => return ()
  | 0, _ :: _ => Act.fault .stuck
  | rounds + 1, object :: work => do
    let slots ← marker.fields object
    trace rounds (← marker.markSlots work slots)

/-- Mark everything reachable from the slots. -/
def markFrom (rounds : Nat) (slots : List Slot) : Act (Machine ε) Unit := do
  marker.trace rounds (← marker.markSlots [] slots)

end Marker

end Safepoint
