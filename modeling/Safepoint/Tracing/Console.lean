import Safepoint.Datum.Read
import Safepoint.Datum.Show
import Safepoint.Tracing.Session

/-!
Commands for a process with a tracing collector. They name cells, and an object by a cell that
holds it; results name an object by its number.
-/
namespace Safepoint.Tracing

open Session

namespace Session

def cellNamed (s : Session) (name : Datum) : Except Panic Cell :=
  match s.stage.env.host.cells[name.asText]? with
  | some cell => .ok cell
  | none => .error .zeroReference

def slotNamed (s : Session) (d : Datum) (key : String) : Except Panic Slot :=
  (s.cellNamed (d.field key)).map Cell.slot

/-- What a cell holds. -/
def held (s : Session) (cell : Cell) : Except Panic (Option ObjectRef) :=
  cell.slot.load .identity s.stage.memory

/-- The object in a cell. No cell and an empty one hold none. -/
def object? (s : Session) (d : Datum) (key : String) : Except Panic (Option ObjectRef) :=
  if (d.field key).isNull then .ok none else do s.held (← s.cellNamed (d.field key))

def object (s : Session) (d : Datum) (key : String) : Except Panic ObjectRef := do
  match ← s.object? d key with
  | some object => return object
  | none => throw .zeroReference

def operand (s : Session) (d : Datum) : Except Panic Operand :=
  if d.textAt "value" = "const_null" then .ok .constNull else (s.object? d "value").map .value

def headerOf (s : Session) (object : ObjectRef) : Header := Header.load object s.stage.memory

def numberDatum (s : Session) (object : Option ObjectRef) : Datum :=
  datum (object.map fun o => (s.headerOf o).number)

/-- The cell at a slot. -/
def cellName (s : Session) (slot : Slot) : String :=
  ((s.stage.env.host.cells.toList.find? (·.2.slot = slot)).map Prod.fst).getD "unknown"

def packetsDatum (s : Session) (packets : FlushLog) : Datum :=
  datum (packets.batches.map fun packet => packet.map s.cellName)

/-- The references in all fields of an object, also the weak one. -/
def fieldsOf (s : Session) (b : TracingBinding) (object : ObjectRef) :
    Except Panic (List (Option ObjectRef)) :=
  (List.range (s.headerOf object).fields).mapM fun i => do
    (← fieldSlot b.options.compressedPointers object i).load b.codec s.stage.memory

/-- An object as it is shown: its header, and the references in its fields. -/
abbrev Portrait := Header × List (Option ObjectRef)

/-- Add to `found` what is reachable from the objects on the list, by their numbers. Of several
objects with one number, all but the first are passed over. Each object comes on the list at most
once for every field that refers to it. -/
def reachable (s : Session) (b : TracingBinding) :
    Nat → List ObjectRef → Std.ExtTreeMap UInt64 Portrait →
      Except Panic (Std.ExtTreeMap UInt64 Portrait)
  | _, [], found => .ok found
  | 0, _ :: _, found => .ok found
  | rounds + 1, object :: work, found => do
    let header := s.headerOf object
    if header.number ∈ found then reachable s b rounds work found
    else do
      let fields ← s.fieldsOf b object
      reachable s b rounds ((fields.filterMap id).reverse ++ work)
        (found.insert header.number (header, fields))

end Session

def Notice.datum : Notice → Datum
  | .suspendAll => .text "suspend_all"
  | .resumeAll => .text "resume_all"
  | .hook (.fixCodeRelocations code) =>
    .list [.text (CycleHook.fixCodeRelocations code).name, Shown.datum code]
  | .hook h => .text h.name
  | .scheduleFinalizer => .text "schedule_finalizer"
  | .unloadClasses loaders => .list [.text "unload_classes", Shown.datum loaders]

/-- What can be seen of the heap. -/
def readDatum (s : Session) : Except Panic Datum := do
  let host := s.stage.env.host
  let cells ← host.cells.toList.mapM fun e => do return (e.1, ← s.held e.2)
  let roots := (cells.filterMap Prod.snd ++ host.pending.toList).reverse
  let found ← match s.process.binding? with
    | none => pure {}
    | some b => s.reachable b (roots.length + fieldTotal s) roots {}
  return .record [("cells", .record (cells.map fun e => (e.1, s.numberDatum e.2))),
    ("objects", .list (found.values.map fun (header, fields) => .list [datum header.number,
      datum header.size, .text header.kind.name, datum (fields.map s.numberDatum)])),
    ("pending", s.numberDatum host.pending)]
where
  /-- No fewer than all fields together. -/
  fieldTotal (s : Session) : Nat :=
    (s.stage.env.collector.next.toNat - heapRange.1.toNat) / 8

def stateDatum (w : World) : Datum := .record
  [("generation", datum w.world.generation), ("stopped", datum w.world.isStopped),
    ("unloading", datum w.unloading), ("ids", datum w.registry.mutatorIds),
    ("spawned", datum (w.registry.spawned.map fun s => (s.kind, s.name))),
    ("nursery", datum w.codeTable.nursery.size), ("mature", datum w.codeTable.mature.size),
    ("handles", datum w.weakHandles.slots.length)]

section Commands

variable (me : ThreadId) (d : Datum)

/-- Something read off the command and the session. -/
def reading {α : Type} (f : Session → Except Panic α) : Act Session α := Act.read f

def nothing (act : Act Session Unit) : Act Session Fields := do
  act
  return result ()

def showing {α : Type} [Shown α] (act : Act Session α) : Act Session Fields := result <$> act

def looking {α : Type} [Shown α] (f : TracingBinding → World → α) : Act Session Fields :=
  showing (onBinding fun b => Act.query (f b))

/-- Commands about what is installed in the process. -/
def processCommand? : Option (Act Session Fields) :=
  match d.op with
  | "initialized" => some do
    let installed := (← get).process.isInstalled
    return result (installed, installed)
  | "initialize" => some (orError <$> start d.options)
  | "install_codec" => some do
    return orError ((← onProcess (Process.installCodec d.codec)).map fun () => d.codec)
  | "global_codec" => some do return result (← get).process.codec
  | "register" => some (orError <$> Session.register me (d.text? "name"))
  | "drop_guard" => some (nothing (dropGuard me))
  | "collect" => some (showing (collect me))
  | "state" => some (looking fun _ w => stateDatum w)
  | _ => none

/-- The kind of a new cell. Those of a mutator belong to the calling one. -/
def cellKind (w : World) : CellKind :=
  let mine := (w.registry.current me).map Mutator.id
  match d.textAt "kind" with
  | "stack" => .stack mine
  | "cld" => .loader false
  | "cld_weak" => .loader true
  | "handle" => .handle
  | "code" => .code d.code (if d.truthAt "frame" then mine else none)
  | "plain" => .plain
  | _ => .table (d.field "kind").asCategory

/-- Commands about cells, and about objects as a whole. -/
def cellCommand? : Option (Act Session Fields) :=
  match d.op with
  | "cell" => some <| nothing do
    addCell (d.textAt "name") (cellKind me d (← get).process.state)
  | "set" => some <| nothing do
    let source ← reading fun s => s.object? d "from"
    let slot ← reading fun s => s.slotNamed d "cell"
    onStage (Machine.poke (slot.store .identity source))
  | "alloc" => some do
    let kind := if d.truthAt "reference" then .reference else .plain
    let object ← alloc me ⟨(d.natAt "id").toUInt64, kind, d.natAt "fields"⟩
    let referent ← reading fun s => s.object? d "referent"
    if kind = .reference then
      onBinding fun b => Binding.onMachine (Machine.poke (b.referenceFields.setReferent object referent))
    let slot ← reading fun s => s.slotNamed d "cell"
    onStage (Machine.poke (slot.store .identity (some object)))
    return result true
  | "read" => some (showing (reading readDatum))
  | "is_live" => some do
    let object ← reading fun s => s.object? d "cell"
    looking fun b w => object.any (b.engine.isLive w.machine)
  | "unregister_handle" => some do
    let slot ← reading fun s => s.slotNamed d "cell"
    showing (onBinding fun _ => Act.within Binding.State.weakPlace (modifyGet (·.unregister slot)))
  | "unregister_code" => some <| showing <|
    onBinding fun _ => Act.within Binding.State.codePlace (modifyGet (·.unregister d.code))
  | "enqueue" => some <| showing do
    let b ← onProcess Process.binding
    onWorld (b.enqueueReferences (← reading fun s => (d.listAt "refs").mapM fun cell => do
      s.object (.record [("cell", cell)]) "cell"))
  | "take_pending" => some do
    let head ← onStage (swapPending none)
    return result ((← get).numberDatum head)
  | _ => none

/-- Two runs of fields, for a copy from one to the other. -/
def copyNamed (compressed : Bool) (s : Session) : Except Panic BulkCopy := do
  let count := d.natAt "count"
  return ⟨← fieldRange compressed (← s.object d "src") (d.natAt "from") count,
    ← fieldRange compressed (← s.object d "dst") (d.natAt "to") count⟩

/-- A report of a write, as compiled code makes it. A write into no object is no write. -/
def rawWrite : Act Session Unit := do
  match ← reading fun s => s.object? d "src" with
  | none => return ()
  | some source =>
    let b ← onProcess Process.binding
    let slot ← Act.check (fieldSlot b.options.compressedPointers source (d.natAt "field"))
    let w : Write := ⟨source, slot, ← reading fun s => s.object? d "value"⟩
    onWorld (match d.textAt "hook" with
      | "pre" => b.writePre me w
      | "post" => b.writePost me w
      | _ => b.writeSlow me w)

/-- Commands that store and copy. -/
def barrierCommand? : Option (Act Session Fields) :=
  match d.op with
  | "store" => some <| nothing do
    let b ← onProcess Process.binding
    let source ← reading fun s => s.object d "src"
    let slot ← Act.check (fieldSlot b.options.compressedPointers source (d.natAt "field"))
    let value ← reading fun s => s.operand d
    onWorld (b.storeReference me d.tier (d.decorators 1) source slot value)
  | "copy" => some <| nothing do
    let b ← onProcess Process.binding
    let c ← reading (copyNamed d b.options.compressedPointers)
    onWorld (b.copyReferences me (d.decorators 1) c)
  | "raw_copy" => some <| nothing do
    let b ← onProcess Process.binding
    let c ← reading (copyNamed d b.options.compressedPointers)
    onWorld do
      b.copyPre me c
      b.copyPost me c
  | "raw_write" => some (nothing (rawWrite me d))
  | _ => none

/-- What a collector wants to know of an object. It is copied as it is and where it is aligned
to a word, and it begins at its address. -/
def describe (b : TracingBinding) (m : Stage) (object : ObjectRef) : Datum :=
  let size := b.host.objectSize m object
  .record [("size", datum size), ("copied", datum size), ("align", datum (8 : Nat)),
    ("align_offset", datum (0 : Nat)), ("start", datum (0 : Nat)), ("header", datum (0 : Nat)),
    ("descriptor", datum (0 : Nat)), ("return_barrier", datum false),
    ("dump", datum (b.host.dumpObject m object))]

/-- Questions of the collector about one object. -/
def objectQuestion (b : TracingBinding) (object : ObjectRef) : Act Session Datum := do
  let fields := b.referenceFields
  match d.textAt "ask" with
  | "scan_object" =>
    let slots ← onStage (b.host.scanObject object)
    return datum (slots.map fun slot => ((slot.address - object.address).toNat - headerBytes) / 8)
  | "get_referent" =>
    let referent ← onStage (Machine.peek (fields.getReferent object))
    return (← get).numberDatum referent
  | "clear_referent" =>
    onStage (Machine.poke (fields.clearReferent object))
    return .null
  | "set_referent" =>
    let referent ← reading fun s => s.object? d "value"
    onStage (Machine.poke (fields.setReferent object referent))
    return .null
  | "copy_to" =>
    let target ← reading fun s => s.object d "to"
    return datum (← onWorld (b.copyObject object target), true)
  | _ => return describe b (← get).stage object

/-- Questions of the collector. -/
def question : Act Session Fields := do
  let b ← onProcess Process.binding
  let id := (d.field "id").asMutator
  match d.textAt "ask" with
  | "mutators" => looking fun _ w => (w.registry.mutatorCount, w.registry.mutatorIds)
  | "is_mutator" => looking fun _ w => w.registry.isMutator me
  | "mutator" => showing (onWorld do
      if ((← get).registry.states[id]?).isNone then Binding.violation (.unknownMutator id)
      return id)
  | "oom" => nothing (onWorld (Binding.outOfMemory
      (if d.textAt "kind" = "heap" then .heap else .addressSpace)))
  | "schedule_finalization" => nothing (onStage b.host.scheduleFinalizer)
  | "stop" => nothing (onWorld do
      let _ ← b.stopAllMutators me b.options.classUnloading)
  | "scan_mutator" => do
    let packets ← onWorld (b.mutatorPackets id)
    return result ((← get).packetsDatum packets)
  | "scan_vm" => do
    let packets ← onWorld b.sharedPackets
    return result ((← get).packetsDatum packets)
  | _ => showing do objectQuestion d b (← reading fun s => s.object d "cell")

/-- The call that a command asks for. -/
def command : Act Session Fields :=
  (processCommand? me d <|> cellCommand? me d <|> barrierCommand? me d).getD (question me d)

end Commands

/-- Forget what the host noted. -/
def Session.quiet (s : Session) : Session :=
  { s with process.state.machine.env.host.notices := [], process.state.machine.env.host.walks := {} }

/-- Carry out commands one after another. Where the process breaks off, none of the results is
left. -/
def turns : List Datum → Session → Except Error (List Datum)
  | [], _ => .ok []
  | d :: rest, s =>
    match (command ⟨(d.text? "on").getD "main"⟩ d).run s.quiet with
    | (.error (.aborted cause), _) => .error cause
    | (outcome, s) => do
      let host := s.stage.env.host
      return .record (orFault outcome ++ unlessEmpty "ev" (host.notices.map Notice.datum)
        ++ unlessEmpty "walks" (host.walks.toList.map datum)) :: (← turns rest s)

/-- Carry out commands in a new process. -/
def session (d : Datum) : Datum :=
  match turns (d.listAt "steps") {} with
  | .ok results => .list results
  | .error cause => .record (Fault.aborted cause).fields

end Safepoint.Tracing
