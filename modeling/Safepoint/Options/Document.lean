import Safepoint.Options
import Safepoint.Toml.Document

/-!
Options from a document. Every key has to be known, and every value of its kind.
-/
namespace Safepoint.Options

open Toml (Node)

/-- A choice is named by a string, or by the one key of a table that holds nothing more. -/
def choice? : Node → Option String
  | .text name => some name
  | .table _ [(name, .table _ [])] => some name
  | .table _ [(name, .list [])] => some name
  | _ => none

def barrier? (node : Node) : Option BarrierKind := do
  let name ← choice? node
  [BarrierKind.none, .object, .field].find? (·.name = name)

def weakProcessing? (node : Node) : Option WeakProcessing := do
  let name ← choice? node
  [WeakProcessing.tracing, .referenceCounting].find? (·.name = name)

def truth? : Node → Option Bool
  | .truth b => some b
  | _ => none

/-- A word, not below zero. -/
def word? : Node → Option Nat
  | .integer n => if 0 ≤ n ∧ n.toNat < UInt64.size then some n.toNat else none
  | _ => none

def texts? : List (String × Node) → Option (Std.ExtTreeMap String String)
  | [] => some {}
  | (key, .text value) :: rest => (texts? rest).map (·.insert key value)
  | _ :: _ => none

/-- The name under which a date or time is the one entry of a table. -/
def momentKey : String := "$__toml_private_datetime"

/-- The engine's own options. A date or time can be had as a table, too. -/
def engine? : Node → Option (Std.ExtTreeMap String String)
  | .table _ entries => texts? entries
  | .moment moment => texts? [(momentKey, .text moment.text)]
  | _ => none

/-- Take over one entry of the document. -/
def entry? (o : Options) : String × Node → Option Options
  | ("barrier", node) => (barrier? node).map fun barrier => { o with barrier }
  | ("compressed_pointers", node) =>
    (truth? node).map fun compressedPointers => { o with compressedPointers }
  | ("root_buffer_capacity", node) =>
    (word? node).map fun rootBufferCapacity => { o with rootBufferCapacity }
  | ("class_unloading", node) => (truth? node).map fun classUnloading => { o with classUnloading }
  | ("parallel_root_scan", node) =>
    (truth? node).map fun parallelRootScan => { o with parallelRootScan }
  | ("relocate_code", node) => (truth? node).map fun relocateCode => { o with relocateCode }
  | ("weak_processing", node) =>
    (weakProcessing? node).map fun weakProcessing => { o with weakProcessing }
  | ("mmtk", node) => (engine? node).map fun engine => { o with engine }
  | _ => none

/-- Options from the text of a document, with defaults for what it leaves out. -/
def ofDocument (text : String) : Except Error Options :=
  match (Toml.document? text).bind fun entries => entries.foldlM entry? Options.default with
  | none => .error .malformedDocument
  | some o => o.validate.map fun () => o

/-- What stands behind a path. -/
inductive File where
  | missing
  | directory
  | bytes (contents : ByteArray)

/-- Options from a file. -/
def ofFile : File → Except Error Options
  | .missing => .error (.unreadable .missing)
  | .directory => .error (.unreadable .directory)
  | .bytes contents =>
    match String.fromUTF8? contents with
    | none => .error (.unreadable .notText)
    | some text => ofDocument text

end Safepoint.Options
