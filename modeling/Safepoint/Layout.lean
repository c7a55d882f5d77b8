import Safepoint.Slot.Range

/-!
Where fields lie inside host objects. The host states raw facts once; they are checked then,
and every later use may rely on them.
-/
namespace Safepoint

/-- What the host says, unchecked. -/
structure LayoutFacts where
  referent : Int
  discovered : Int
  classKlass : Int
  classLoaderData : Int
  staticFields : Int
  staticFieldCount : Int
  checksum : UInt64
  deriving DecidableEq

/-- Checked offsets, in bytes. -/
structure Layout where
  referent : UInt64
  discovered : UInt64
  classKlass : UInt64
  classLoaderData : UInt64
  staticFields : UInt64
  staticFieldCount : UInt64
  checksum : UInt64
  deriving DecidableEq

namespace LayoutFacts

def nonNegative (name : String) (value : Int) : Except Error UInt64 :=
  if 0 ≤ value then .ok value.toNat.toUInt64 else .error (.invalidOffset name value)

/-- The host marks an offset it has not computed yet by 0 or -1. -/
def computed (name : String) (value : Int) : Except Error UInt64 :=
  if value = 0 then .error (.invalidOffset name value) else nonNegative name value

/-- Check every offset, in the order of the fields. -/
def validate (facts : LayoutFacts) : Except Error Layout := do
  return {
    referent := ← nonNegative "referent_offset" facts.referent
    discovered := ← nonNegative "discovered_offset" facts.discovered
    classKlass := ← computed "class_klass_offset" facts.classKlass
    classLoaderData := ← computed "class_loader_data_offset" facts.classLoaderData
    staticFields := ← nonNegative "static_fields_offset" facts.staticFields
    staticFieldCount := ← nonNegative "static_oop_field_count_offset" facts.staticFieldCount
    checksum := facts.checksum }

end LayoutFacts

namespace Layout

/-- The host's class descriptor behind a class mirror. -/
def mirrorKlass (layout : Layout) (mirror : ObjectRef) (m : Memory) : Except Panic Address := do
  return m.load (← mirror.field layout.classKlass) 8

/-- The loader data of a class loader object. -/
def loaderData (layout : Layout) (loader : ObjectRef) (m : Memory) : Except Panic Address := do
  return m.load (← loader.field layout.classLoaderData) 8

/-- A 32-bit two's complement number; negative counts as none. -/
def countOf (bits : UInt64) : Nat := if bits.toNat < 0x80000000 then bits.toNat else 0

/-- The slots of a mirror's static fields. Their number is read from the mirror. -/
def staticSlots (layout : Layout) (mirror : ObjectRef) (narrow : Bool) (m : Memory) :
    Except Panic SlotRange := do
  let count := m.load (← mirror.field layout.staticFieldCount) 4
  let start ← mirror.field layout.staticFields
  return ⟨some mirror, start, countOf count, narrow⟩

/-- How a layout is shown. -/
def text (layout : Layout) : String :=
  "LayoutOffsets \x7b referent: " ++ number layout.referent
    ++ ", discovered: " ++ number layout.discovered
    ++ ", class_klass: " ++ number layout.classKlass
    ++ ", class_loader_data: " ++ number layout.classLoaderData
    ++ ", static_fields: " ++ number layout.staticFields
    ++ ", static_oop_field_count: " ++ number layout.staticFieldCount
    ++ ", checksum: " ++ number layout.checksum ++ " \x7d"
where
  number (n : UInt64) : String := n.toNat.repr

/-- How a table of host services with this layout is shown. -/
def tableText (layout : Layout) : String :=
  "Upcalls \x7b layout: " ++ layout.text ++ ", .. \x7d"

end Layout

/-- The services a host has to bring before anything is bound to it. -/
inductive HostPart where
  | threads | roots | objects | hooks | layout
  deriving DecidableEq

namespace HostPart

def all : List HostPart := [.threads, .roots, .objects, .hooks, .layout]

def name : HostPart → String
  | .threads => "threads"
  | .roots => "roots"
  | .objects => "objects"
  | .hooks => "hooks"
  | .layout => "layout"

/-- Put a table together from the parts that were given. The first part that is missing, in
the fixed order, is the one reported; the layout is judged last. -/
def assemble (given : List HostPart) (facts : LayoutFacts) : Except Error Layout :=
  match all.find? fun part => part ∉ given with
  | some part => .error (.missingPart part.name)
  | none => facts.validate

end HostPart

end Safepoint
