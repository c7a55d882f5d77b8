import Safepoint.Object

/-!
Pointer compression. A codec turns a reference into 32 bits and back; zero is null. The
checks it makes are those of a build with assertions: an address below the base, a distance
over 32 bits, a shift as wide as the word, a sum past the last address.
-/
namespace Safepoint.PointerCodec

/-- The narrow value is the address itself. -/
def identity : PointerCodec := ⟨0, 0⟩

def gib : Nat := 0x40000000

/-- A codec for the addresses in `[start, limit)`. Where it needs a base, the base lies a page
below the heap, so that no object becomes zero, which is null. -/
def forHeapRange (start limit : Address) : PointerCodec :=
  if limit.toNat ≤ 4 * gib then ⟨0, 0⟩
  else if limit.toNat ≤ 32 * gib then ⟨0, 3⟩
  else ⟨(start.toNat - 4096).toUInt64, 3⟩

def encode (codec : PointerCodec) : Option ObjectRef → Except Panic UInt32
  | none => .ok 0
  | some object =>
    if object.address < codec.base then .error (.belowBase object.address codec.base)
    else if 64 ≤ codec.shift then .error .shiftRightOverflow
    else
      let distance := (object.address.toNat - codec.base.toNat) >>> codec.shift
      if distance < UInt32.size then .ok distance.toUInt32
      else .error (.beyondNarrow object.address codec)

/-- Bits that the shift moves past the word are lost without a check. -/
def decode (codec : PointerCodec) (narrow : UInt32) : Except Panic (Option ObjectRef) :=
  if narrow = 0 then .ok none
  else if 64 ≤ codec.shift then .error .shiftLeftOverflow
  else do
    let distance := (narrow.toNat <<< codec.shift).toUInt64
    let address ← addChecked codec.base distance
    return some (← ObjectRef.ofNonzero address)

@[simp] theorem encode_none (codec : PointerCodec) : codec.encode none = .ok 0 := rfl
@[simp] theorem decode_zero (codec : PointerCodec) : codec.decode 0 = .ok none := rfl

end Safepoint.PointerCodec
