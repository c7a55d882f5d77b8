import Safepoint.Codec
import Safepoint.Memory

/-!
Slots: locations that hold a reference, either as a word or as 32 encoded bits.
-/
namespace Safepoint

namespace Slot

/-- A full-word slot. The tag bit of its address has to be clear. -/
def wide (address : Address) : Except Panic Slot :=
  if address &&& narrowTag = 0 then .ok ⟨address⟩ else .error .taggedAddress

/-- A 32-bit slot. -/
def narrow (address : Address) : Slot := ⟨address ||| narrowTag⟩

/-- Bytes the slot takes. -/
def width (slot : Slot) : Nat := if slot.isNarrow then 4 else 8

/-- The slot of the field `offset` bytes into `object`. -/
def ofField (object : ObjectRef) (offset : UInt64) (compressed : Bool) : Except Panic Slot := do
  let address ← object.field offset
  if compressed then return narrow address else wide address

/-- The bits in the slot: the encoded value of a narrow one, the address in a wide one. -/
def loadBits (slot : Slot) (m : Memory) : UInt64 := m.load slot.address slot.width

def storeBits (slot : Slot) (bits : UInt64) (m : Memory) : Memory :=
  m.store slot.address slot.width bits

/-- The reference that `bits`, as this slot holds them, stand for. -/
def reference (slot : Slot) (codec : PointerCodec) (bits : UInt64) :
    Except Panic (Option ObjectRef) :=
  if slot.isNarrow then codec.decode bits.toUInt32 else ObjectRef.ofBits bits

/-- The bits this slot holds for a reference. -/
def bits (slot : Slot) (codec : PointerCodec) (object : Option ObjectRef) :
    Except Panic UInt64 :=
  if slot.isNarrow then (codec.encode object).map UInt32.toUInt64 else .ok (refBits object)

def load (slot : Slot) (codec : PointerCodec) (m : Memory) : Except Panic (Option ObjectRef) :=
  slot.reference codec (slot.loadBits m)

def store (slot : Slot) (codec : PointerCodec) (object : Option ObjectRef) (m : Memory) :
    Except Panic Memory :=
  (slot.bits codec object).map fun bits => slot.storeBits bits m

/-- Null has the bits zero in a slot of either width. -/
def clear (slot : Slot) (m : Memory) : Memory := slot.storeBits 0 m

end Slot

/-- What a store left in a register: the bits as they were written, and how wide. -/
structure StoredValue where
  bits : UInt64
  narrow : Bool
  deriving DecidableEq

namespace StoredValue

/-- Undo the encoding, so that the collector is shown a plain reference. -/
def decompress (value : StoredValue) (codec : PointerCodec) : Except Panic (Option ObjectRef) :=
  if value.narrow then codec.decode value.bits.toUInt32 else ObjectRef.ofBits value.bits

end StoredValue

/-- Store a reference and say what was written. -/
def rawStore (codec : PointerCodec) (slot : Slot) (object : Option ObjectRef) (m : Memory) :
    Except Panic (StoredValue × Memory) := do
  let bits ← slot.bits codec object
  return (⟨bits, slot.isNarrow⟩, slot.storeBits bits m)

end Safepoint
