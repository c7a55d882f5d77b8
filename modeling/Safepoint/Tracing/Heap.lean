import Safepoint.Object.Kind
import Safepoint.Layout

/-!
Objects in memory. Three words come first: one for the collector, the number the object goes by,
and one that tells the kind of the object and how many fields follow. Fields are eight bytes
apart, also where the slots in them are narrow.
-/
namespace Safepoint.Tracing

def headerBytes : Nat := 24

/-- Where a field begins. -/
def fieldOffset (i : Nat) : UInt64 := (headerBytes + 8 * i).toUInt64

/-- What an object says of itself. -/
structure Header where
  number : UInt64
  kind : ObjectKind
  fields : Nat
  deriving DecidableEq

namespace Header

def size (h : Header) : Nat := headerBytes + 8 * h.fields

def store (h : Header) (object : ObjectRef) (m : Memory) : Memory :=
  (m.store (object.address + 8) 8 h.number).store (object.address + 16) 8
    (2 * h.fields.toUInt64 + h.kind.tag)

def load (object : ObjectRef) (m : Memory) : Header :=
  let shape := m.load (object.address + 16) 8
  { number := m.load (object.address + 8) 8
    kind := if shape % 2 = 0 then .plain else .reference
    fields := (shape / 2).toNat }

/-- The fields that keep objects alive. The referent of a reference object is none of them. -/
def strong (h : Header) : List Nat :=
  match h.kind with
  | .plain => List.range h.fields
  | .reference => (List.range h.fields).drop 1

end Header

/-- The slot of a field. -/
def fieldSlot (compressed : Bool) (object : ObjectRef) (i : Nat) : Except Panic Slot :=
  Slot.ofField object (fieldOffset i) compressed

/-- The slots of fields that a collector follows. -/
def strongFields (compressed : Bool) (object : ObjectRef) (m : Memory) : Except Panic (List Slot) :=
  (Header.load object m).strong.mapM (fieldSlot compressed object)

/-- Adjacent slots from a field on. -/
def fieldRange (compressed : Bool) (object : ObjectRef) (first count : Nat) :
    Except Panic SlotRange := do
  return ⟨some object, ← object.field (fieldOffset first), count, compressed⟩

/-- Where fields lie, as a host states it. -/
def layoutFacts : LayoutFacts where
  referent := (fieldOffset 0).toNat
  discovered := (fieldOffset 1).toNat
  classKlass := 8
  classLoaderData := 8
  staticFields := 24
  staticFieldCount := 16
  checksum := 0x5eed

end Safepoint.Tracing
