import Std.Data.ExtTreeMap

/-!
The words every part of the library speaks: addresses, references, slots, and the
identities of threads, mutators and compiled code. All of them are ordered by what they
wrap, so tables keyed by them list their entries in ascending order.
-/
namespace Safepoint

/-- A 64-bit machine address. -/
abbrev Address := UInt64

/-- Lower-case hexadecimal digits after `0x`; zero is one digit. -/
def hex (word : UInt64) : String := "0x" ++ String.ofList (Nat.toDigits 16 word.toNat)

/-- An order read off an injective key decides equality. -/
theorem lawfulEqCmp_compareOn {α κ : Type} [Ord κ] [Std.LawfulEqOrd κ] (key : α → κ)
    (injective : ∀ a b, key a = key b → a = b) : Std.LawfulEqCmp (compareOn key) where
  compare_self {a} := Std.ReflOrd.compare_self (a := key a)
  eq_of_compare h := injective _ _ (Std.LawfulEqOrd.eq_of_compare h)

/-- The address of an object. Null has no reference, and objects are word aligned. -/
@[ext] structure ObjectRef where
  address : Address
  ne_zero : address ≠ 0
  aligned : address % 8 = 0
  deriving DecidableEq

instance : Ord ObjectRef := ⟨compareOn ObjectRef.address⟩
instance : Std.TransOrd ObjectRef := inferInstanceAs (Std.TransCmp (compareOn ObjectRef.address))
instance : Std.LawfulEqOrd ObjectRef :=
  lawfulEqCmp_compareOn ObjectRef.address fun _ _ => ObjectRef.ext

/-- The bits a nullable reference has in memory: null is zero. -/
def refBits : Option ObjectRef → UInt64
  | none => 0
  | some object => object.address

@[simp] theorem refBits_none : refBits none = 0 := rfl
@[simp] theorem refBits_some (object : ObjectRef) : refBits (some object) = object.address := rfl

/-- The location of a reference, tagged with its width: bit 63 marks a 32-bit one. -/
@[ext] structure Slot where
  raw : UInt64
  deriving DecidableEq

instance : Ord Slot := ⟨compareOn Slot.raw⟩
instance : Std.TransOrd Slot := inferInstanceAs (Std.TransCmp (compareOn Slot.raw))
instance : Std.LawfulEqOrd Slot := lawfulEqCmp_compareOn Slot.raw fun _ _ => Slot.ext

/-- How references become 32-bit values: their distance from `base`, shifted right. -/
structure PointerCodec where
  base : Address
  shift : Nat
  deriving DecidableEq

/-- Identity of a registered mutator. Ids ascend in the order of registration. -/
@[ext] structure MutatorId where
  value : UInt64
  deriving DecidableEq

instance : Ord MutatorId := ⟨compareOn MutatorId.value⟩
instance : Std.TransOrd MutatorId := inferInstanceAs (Std.TransCmp (compareOn MutatorId.value))
instance : Std.LawfulEqOrd MutatorId :=
  lawfulEqCmp_compareOn MutatorId.value fun _ _ => MutatorId.ext

/-- Identity of a blob of compiled code, chosen by the host. -/
@[ext] structure CodeId where
  value : UInt64
  deriving DecidableEq

instance : Ord CodeId := ⟨compareOn CodeId.value⟩
instance : Std.TransOrd CodeId := inferInstanceAs (Std.TransCmp (compareOn CodeId.value))
instance : Std.LawfulEqOrd CodeId := lawfulEqCmp_compareOn CodeId.value fun _ _ => CodeId.ext

/-- An operating-system thread, known by the label it goes under. -/
@[ext] structure ThreadId where
  label : String
  deriving DecidableEq

instance : Ord ThreadId := ⟨compareOn ThreadId.label⟩
instance : Std.TransOrd ThreadId := inferInstanceAs (Std.TransCmp (compareOn ThreadId.label))
instance : Std.LawfulEqOrd ThreadId := lawfulEqCmp_compareOn ThreadId.label fun _ _ => ThreadId.ext

/-- How errors show a thread. -/
def ThreadId.text (thread : ThreadId) : String := "ThreadId(" ++ thread.label ++ ")"

/-- What a collector thread was started for. -/
inductive CollectorKind where
  | controller | worker
  deriving DecidableEq

/-- Where the world is in a stop. -/
inductive WorldState where
  | running | suspendRequested | suspended | resumeRequested
  deriving DecidableEq

namespace WorldState

/-- The states form a cycle; no step may be skipped. -/
def successor : WorldState → WorldState
  | .running => .suspendRequested
  | .suspendRequested => .suspended
  | .suspended => .resumeRequested
  | .resumeRequested => .running

def name : WorldState → String
  | .running => "Running"
  | .suspendRequested => "SuspendRequested"
  | .suspended => "Suspended"
  | .resumeRequested => "ResumeRequested"

end WorldState

end Safepoint
