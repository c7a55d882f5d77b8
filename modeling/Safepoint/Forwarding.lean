import Safepoint.Slot

/-!
Forwarding words: the first word of an object, as a collector leaves it when it moves the
object. The top byte tells whether the object moved, the rest where to.
-/
namespace Safepoint

structure ForwardingWord where
  raw : UInt64
  deriving DecidableEq

namespace ForwardingWord

/-- The bits that hold the new address. -/
def pointerMask : UInt64 := 0x00ffffffffffffff

/-- What the top byte holds once the object has moved. -/
def movedState : UInt64 := 0x0200000000000000

def load (object : ObjectRef) (m : Memory) : ForwardingWord := ⟨m.load object.address 8⟩

/-- The word of an object that moved to `target`. -/
def forwardedTo (target : ObjectRef) : ForwardingWord :=
  ⟨movedState ||| (target.address &&& pointerMask)⟩

def isForwarded (word : ForwardingWord) : Bool := word.raw >>> 56 != 0

/-- Where the object went, if it moved. -/
def target (word : ForwardingWord) : Except Panic (Option ObjectRef) :=
  if word.isForwarded then ObjectRef.ofBits (word.raw &&& pointerMask) else .ok none

end ForwardingWord

end Safepoint
