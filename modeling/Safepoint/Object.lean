import Safepoint.Fault

/-!
References from addresses, and addresses inside objects.
-/
namespace Safepoint

/-- The largest word plus one. -/
def wordLimit : Nat := UInt64.size

/-- Addition that refuses to leave the address space. -/
def addChecked (a b : UInt64) : Except Panic UInt64 :=
  if a.toNat + b.toNat < wordLimit then .ok (a + b) else .error .addOverflow

/-- A reference for a non-zero address, which has to be aligned. -/
def ObjectRef.ofNonzero (a : Address) : Except Panic ObjectRef :=
  if h : a = 0 then .error .zeroReference
  else if h8 : a % 8 = 0 then .ok ⟨a, h, h8⟩
  else .error (.misaligned a)

/-- Zero is no reference; any other address has to be aligned. -/
def ObjectRef.ofBits (bits : UInt64) : Except Panic (Option ObjectRef) :=
  if h : bits = 0 then .ok none
  else if h8 : bits % 8 = 0 then .ok (some ⟨bits, h, h8⟩)
  else .error (.misaligned bits)

@[simp] theorem ObjectRef.ofBits_zero : ObjectRef.ofBits 0 = .ok none := rfl

/-- What is written for a reference reads back as that reference. -/
@[simp] theorem ObjectRef.ofBits_refBits (object : Option ObjectRef) :
    ObjectRef.ofBits (refBits object) = .ok object := by
  cases object with
  | none => rfl
  | some o => simp [ObjectRef.ofBits, o.ne_zero, o.aligned]

/-- The address `offset` bytes into an object. -/
def ObjectRef.field (object : ObjectRef) (offset : UInt64) : Except Panic Address :=
  addChecked object.address offset

end Safepoint
