import Safepoint.Barrier.Site
import Safepoint.Datum
import Safepoint.Edges.Sink
import Safepoint.Layout
import Safepoint.Roots.Category
import Safepoint.Threads
import Safepoint.Weak.Update

/-!
How values are shown as plain data. Addresses, slots and bit patterns are hexadecimal text, a
reference is its address or null, counts and ids are numbers. A call shows its result, or the
word for the kind of error and its message.
-/
namespace Safepoint

/-- Values that can be shown. -/
class Shown (α : Type) where
  datum : α → Datum

export Shown (datum)

instance : Shown Datum := ⟨id⟩
instance : Shown Unit := ⟨fun _ => .null⟩
instance : Shown Bool := ⟨.truth⟩
instance : Shown Nat := ⟨fun n => .number n⟩
instance : Shown Int := ⟨.number⟩
instance : Shown UInt64 := ⟨fun n => .number n.toNat⟩
instance : Shown String := ⟨.text⟩
instance {α : Type} [Shown α] : Shown (List α) := ⟨fun l => .list (l.map datum)⟩
instance {α : Type} [Shown α] : Shown (Option α) := ⟨fun o => (o.map datum).getD .null⟩
instance {α β : Type} [Shown α] [Shown β] : Shown (α × β) := ⟨fun p => .list [datum p.1, datum p.2]⟩

/-- `some_name` as `SomeName`. -/
def camelCase (name : String) : String :=
  String.join ((name.splitOn "_").map String.capitalize)

/-- A word or an address in hexadecimal. -/
def hexDatum (word : UInt64) : Datum := .text (hex word)

instance : Shown Slot := ⟨fun s => hexDatum s.raw⟩
instance : Shown ObjectRef := ⟨fun o => hexDatum o.address⟩
instance : Shown MutatorId := ⟨fun i => datum i.value⟩
instance : Shown CodeId := ⟨fun c => datum c.value⟩
instance : Shown WorldState := ⟨fun s => datum s.name⟩
instance : Shown CollectorKind := ⟨fun k => datum k.name⟩
instance : Shown PointerCodec :=
  ⟨fun c => .record [("base", hexDatum c.base), ("shift", datum c.shift)]⟩
instance : Shown Operand := ⟨fun o => datum o.object⟩

instance : Shown Options where
  datum o := .record
    [("barrier", datum o.barrier.name), ("compressed_pointers", datum o.compressedPointers),
      ("root_buffer_capacity", datum o.rootBufferCapacity),
      ("class_unloading", datum o.classUnloading),
      ("parallel_root_scan", datum o.parallelRootScan), ("relocate_code", datum o.relocateCode),
      ("weak_processing", datum o.weakProcessing.name),
      ("mmtk", .record (o.engine.toList.map fun e => (e.1, datum e.2)))]

instance : Shown Layout where
  datum l := .record
    [("referent", datum l.referent), ("discovered", datum l.discovered),
      ("class_klass", datum l.classKlass), ("class_loader_data", datum l.classLoaderData),
      ("static_fields", datum l.staticFields), ("static_oop_field_count", datum l.staticFieldCount),
      ("checksum", hexDatum l.checksum)]

instance : Shown WeakStats where
  datum s := .record [("visited", datum s.visited), ("kept", datum s.kept),
    ("forwarded", datum s.forwarded), ("cleared", datum s.cleared)]

instance : Shown WeakOutcome where
  datum
    | .empty => datum ["Null"]
    | .kept => datum ["Kept"]
    | .cleared => datum ["Cleared"]
    | .forwarded target => .list [datum "Forwarded", datum target]

instance : Shown SlotRange where
  datum r := .list [datum r.object, hexDatum r.start, datum r.count, datum r.narrow]

/-- A slot with all that can be said of it. -/
def Slot.details (s : Slot) : Fields :=
  [("raw", datum s), ("narrow", datum s.isNarrow), ("address", hexDatum s.address),
    ("width", datum s.width), ("debug", datum s.text)]

/-- A range with its first few slots. -/
def SlotRange.details (r : SlotRange) (limit : Nat) : Except Panic Datum := do
  let slots ← r.cursor.take limit
  return .record [("len", datum r.count), ("empty", datum r.isEmpty), ("narrow", datum r.narrow),
    ("start", hexDatum r.start), ("object", datum r.object), ("hint", datum r.cursor.sizeHint),
    ("slots", datum slots)]

/-- How a table of barrier entry points is shown. -/
def BarrierKind.details (k : BarrierKind) : Fields :=
  [("kind", datum (camelCase k.name)), ("skip_const_null", datum k.skipConstNull)]

/-- What a failed call shows. -/
def refusal (kind message : String) : Fields :=
  [("error", datum kind), ("message", datum message)]

/-- What a session shows that is given no options. -/
def missingOptions : Fields :=
  refusal "Panic" "driver: options: Error(\"invalid type: null, expected struct BindingOptions\", line: 0, column: 0)"

def Error.kind : Error → String
  | .missingPart _ => "MissingUpcall"
  | .alreadyInstalled => "AlreadyInstalled"
  | .notInstalled => "NotInitialized"
  | .invalidOffset .. => "InvalidLayoutOffset"
  | .invalidOptions _ => "Config"
  | .rejectedEngineOption .. => "EngineOption"
  | .malformedDocument => "Toml"
  | .unreadable _ => "Io"
  | .unknownCollectorKind _ => "UnknownThreadKind"
  | .alreadyRegistered _ => "AlreadyRegistered"
  | .spawnFailed _ => "SpawnFailed"

def Violation.kind : Violation → String
  | .collectorAsMutator _ => "CollectorAsMutator"
  | .mutatorAsCollector _ => "MutatorAsCollector"
  | .unregisteredThread _ => "UnregisteredThread"
  | .unknownMutator _ => "UnknownMutator"
  | .unexpectedCollectorKind _ => "UnexpectedThreadKind"
  | .illegalTransition .. => "IllegalTransition"

def Error.fields (e : Error) : Fields := refusal e.kind e.message

def Violation.fields (v : Violation) : Fields := refusal v.kind v.message

def Fault.fields : Fault → Fields
  | .panic cause => refusal "Panic" cause.message
  | .terminated reason => refusal "Terminate" reason.message
  | .aborted cause => refusal "Aborted" ("[GC] fatal: " ++ cause.message)
  | .stuck => refusal "Stuck" "nothing is left that could end this wait"

/-- What a call that returned shows. -/
def result {α : Type} [Shown α] (a : α) : Fields := [("r", datum a)]

def orError {α : Type} [Shown α] : Except Error α → Fields
  | .ok a => result a
  | .error e => e.fields

def orBreach {α : Type} [Shown α] : Except Violation α → Fields
  | .ok a => result a
  | .error v => v.fields

def orFault : Except Fault Fields → Fields
  | .ok fields => fields
  | .error fault => fault.fields

def orPanic : Except Panic Fields → Fields
  | .ok fields => fields
  | .error cause => (Fault.panic cause).fields

/-- A result alone, or the error in its place. -/
def bare : Fields → Datum
  | [("r", value)] => value
  | fields => .record fields

/-- A field that is left out when there is nothing to show. -/
def unlessEmpty (key : String) (items : List Datum) : Fields :=
  if items.isEmpty then [] else [(key, .list items)]

/-- The batches a sink was handed, with the room each buffer had. -/
def FlushLog.details (log : FlushLog) : Datum :=
  datum (log.map fun b => Datum.record [("slots", datum b.slots), ("capacity", datum b.capacity)])

end Safepoint
