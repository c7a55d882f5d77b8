import Safepoint.Barrier.Site
import Safepoint.Datum
import Safepoint.Edges.Sink
import Safepoint.Engine
import Safepoint.Layout
import Safepoint.Roots.Category

/-!
Values read from plain data. A reference is hexadecimal text, or null; one that is not aligned
breaks a check.
-/
namespace Safepoint.Datum

def digit (c : Char) : Nat := if c.isDigit then c.toNat - 48 else c.toNat - 87

/-- Hexadecimal text with its two leading characters. -/
def asWord (d : Datum) : UInt64 :=
  (d.asText.toList.drop 2).foldl (fun n c => 16 * n + (digit c).toUInt64) 0

def word (d : Datum) (key : String) : UInt64 := (d.field key).asWord

def asRef? (d : Datum) : Except Panic (Option ObjectRef) := ObjectRef.ofBits d.asWord

/-- A reference that may not be null. -/
def asRef (d : Datum) : Except Panic ObjectRef := ObjectRef.ofNonzero d.asWord

def ref? (d : Datum) (key : String) : Except Panic (Option ObjectRef) := (d.field key).asRef?

def ref (d : Datum) (key : String) : Except Panic ObjectRef := (d.field key).asRef

def refs (d : Datum) (key : String) : Except Panic (List ObjectRef) := (d.listAt key).mapM asRef

def asSlot (d : Datum) : Slot := ⟨d.asWord⟩

def slot (d : Datum) (key : String) : Slot := (d.field key).asSlot

def slots (d : Datum) (key : String) : List Slot := (d.listAt key).map asSlot

def asCode (d : Datum) : CodeId := ⟨d.asNat.toUInt64⟩

def code (d : Datum) : CodeId := (d.field "code").asCode

def asMutator (d : Datum) : MutatorId := ⟨d.asNat.toUInt64⟩

def codec? (d : Datum) : Option PointerCodec :=
  match d.field "codec" with
  | .null => none
  | c => some ⟨c.word "base", c.natAt "shift"⟩

def codec (d : Datum) : PointerCodec := d.codec?.getD .identity

def asRange (d : Datum) : Except Panic SlotRange := do
  return ⟨← d.ref? "object", d.word "start", d.natAt "count", d.truthAt "narrow"⟩

def range (d : Datum) (key : String) : Except Panic SlotRange := (d.field key).asRange

def operand (d : Datum) (key : String) : Except Panic Operand :=
  if d.textAt key = "const_null" then .ok .constNull else (d.ref? key).map .value

def write (d : Datum) : Except Panic Write := do
  return ⟨← d.ref "src", d.slot "slot", ← d.ref? "target"⟩

def bulkCopy (d : Datum) : Except Panic BulkCopy := do
  return ⟨← d.range "src", ← d.range "dst"⟩

/-- Words to store: for each an address, a value, and a width that may be left out. -/
def pokes (d : Datum) (m : Memory) : Memory :=
  (d.listAt "mem").foldl (fun m entry => match entry.asList with
    | [start, value] => m.store start.asWord 8 value.asWord
    | [start, value, width] => m.store start.asWord width.asNat value.asWord
    | _ => m) m

def modeOf (name : String) : WeakProcessing :=
  if name = "reference_counting" then .referenceCounting else .tracing

def mode (d : Datum) : WeakProcessing := modeOf (d.textAt "mode")

def barrierOf (name : String) : BarrierKind :=
  if name = "object" then .object else if name = "field" then .field else .none

/-- Options, with the defaults for what is left out. -/
def options (d : Datum) : Options :=
  let o := d.field "options"
  { barrier := barrierOf (o.textAt "barrier")
    compressedPointers := o.truthAt "compressed_pointers"
    rootBufferCapacity := o.natOr "root_buffer_capacity" 4096
    classUnloading := o.truthOr "class_unloading" true
    parallelRootScan := o.truthAt "parallel_root_scan"
    relocateCode := o.truthAt "relocate_code"
    weakProcessing := modeOf (o.textAt "weak_processing")
    engine := Std.ExtTreeMap.ofList ((o.field "mmtk").asRecord.map fun e => (e.1, e.2.asText)) }

/-- The options that a session begins with. Each of them may be left out, but not the record of
them. -/
def options? (d : Datum) : Option Options := if (d.field "options").isNull then none else some d.options

/-- Layout facts, with usual ones for what is left out. -/
def layout (d : Datum) : LayoutFacts :=
  let l := d.field "layout"
  let pick (key : String) (usual : Int) : Int := (l.field key).asInt?.getD usual
  { referent := pick "referent" 16
    discovered := pick "discovered" 24
    classKlass := pick "class_klass" 8
    classLoaderData := pick "class_loader_data" 8
    staticFields := pick "static_fields" 24
    staticFieldCount := pick "static_oop_field_count" 16
    checksum := if (l.field "checksum").isNull then 0x5eed else l.word "checksum" }

def collectorKind (d : Datum) : CollectorKind :=
  if d.intAt "kind" = 1 then .worker else .controller

def asCategory (d : Datum) : RootCategory :=
  (RootCategory.all.find? (·.name = d.asText)).getD .codeCache

def category (d : Datum) : RootCategory := (d.field "category").asCategory

def filter (d : Datum) : LiveFilter :=
  if d.textAt "filter" = "NonStuckOnly" then .nonStuckOnly else .all

def tier (d : Datum) : Tier :=
  (Tier.all.find? (·.name = d.textAt "tier")).getD .interpreter

def decorators (d : Datum) (otherwise : Nat) : Decorators :=
  .truncate (d.natOr "dec" otherwise).toUInt32

def sink (d : Datum) (key : String) : Sink FlushLog :=
  let s := d.field key
  let capacity := s.natOr "capacity" 4
  match s.textAt "kind" with
  | "discard" => .discarding
  | "shrink" => .shrinking capacity
  | "grow" => .growing capacity
  | "dirty" => .keeping capacity
  | _ => .collecting capacity

/-- Pairs of a name and a text. -/
def pairs (d : Datum) (key : String) : List (String × String) :=
  (d.listAt key).map fun e => match e.asList with
    | [name, value] => (name.asText, value.asText)
    | _ => ("", "")

end Safepoint.Datum
