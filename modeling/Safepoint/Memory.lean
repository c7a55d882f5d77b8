import Safepoint.Basic

/-!
Memory as a total store of bytes. Words are little-endian and need no alignment. A store
touches the bytes of its own width and no others, and a load of the same width reads it back.
-/
namespace Safepoint

/-- The byte at every address. -/
@[ext] structure Memory where
  byte : Nat → UInt8

namespace Memory

/-- All zero. -/
def zero : Memory := ⟨fun _ => 0⟩

instance : Inhabited Memory := ⟨zero⟩

/-- The `i`-th byte of a word, the lowest first. -/
def byteOf (word : UInt64) (i : Nat) : UInt8 := (word.toNat >>> (8 * i)).toUInt8

/-- The `width` bytes at `at`, lowest first, as a number. -/
def loadNat (m : Memory) (start : Nat) : Nat → Nat
  | 0 => 0
  | width + 1 => (m.byte start).toNat + 256 * loadNat m (start + 1) width

def load (m : Memory) (start : Address) (width : Nat) : UInt64 :=
  (m.loadNat start.toNat width).toUInt64

/-- Replace the `width` bytes at `start`. -/
def writeBytes (m : Memory) (start width : Nat) (value : Nat → UInt8) : Memory :=
  ⟨fun a => if start ≤ a ∧ a < start + width then value (a - start) else m.byte a⟩

def store (m : Memory) (start : Address) (width : Nat) (word : UInt64) : Memory :=
  m.writeBytes start.toNat width (byteOf word)

/-- The bytes from `start` on, in order. -/
def bytes (m : Memory) (start : Nat) (count : Nat) : Array UInt8 :=
  Array.ofFn fun i : Fin count => m.byte (start + i.val)

/-- Copy a block of bytes. All of them are read before any is written, so the blocks may
overlap. -/
def copy (m : Memory) (source target : Address) (count : Nat) : Memory :=
  let block := m.bytes source.toNat count
  m.writeBytes target.toNat count fun i => block.getD i 0

@[simp] theorem byte_zero (a : Nat) : zero.byte a = 0 := rfl

theorem byte_writeBytes (m : Memory) (start width : Nat) (value : Nat → UInt8) (a : Nat) :
    (m.writeBytes start width value).byte a =
      if start ≤ a ∧ a < start + width then value (a - start) else m.byte a := rfl

theorem byte_store (m : Memory) (start : Address) (width : Nat) (word : UInt64) (a : Nat) :
    (m.store start width word).byte a =
      if start.toNat ≤ a ∧ a < start.toNat + width then byteOf word (a - start.toNat)
      else m.byte a := rfl

theorem byte_copy (m : Memory) (source target : Address) (count : Nat) (a : Nat) :
    (m.copy source target count).byte a =
      if target.toNat ≤ a ∧ a < target.toNat + count
      then m.byte (source.toNat + (a - target.toNat)) else m.byte a := by
  simp only [copy, byte_writeBytes, bytes]
  split
  · rename_i h
    have : a - target.toNat < count := by omega
    simp [Array.getD, this]
  · rfl

end Memory

end Safepoint
