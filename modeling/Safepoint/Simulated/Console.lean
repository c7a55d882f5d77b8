import Safepoint.Datum.Read
import Safepoint.Datum.Show
import Safepoint.Simulated.Session

/-!
Commands for a simulation. They name objects `o0`, `o1` and so on in the order in which they were
allocated, and cells `c0`, `c1` and so on in the order in which they were made. A slot is named
by its cell, or by its object and the offset into it, with `/n` after it if it is narrow.
-/
namespace Safepoint.Simulated

open Session

namespace Session

/-- The number after the first letter of a name. -/
def ordinal (name : String) : Nat := ((name.toList.drop 1).foldl fun n c => 10 * n + (c.toNat - 48)) 0

/-- The object that goes by a name. -/
def objectNamed (s : Session) (name : Datum) : Except Panic ObjectRef :=
  match s.objects[ordinal name.asText]? with
  | some known => .ok known.object
  | none => .error .zeroReference

def nullableNamed (s : Session) (name : Datum) : Except Panic (Option ObjectRef) :=
  if name.isNull then .ok none else (s.objectNamed name).map some

def cellNamed (s : Session) (name : Datum) : Except Panic Slot :=
  match s.world.machine.env.host.cells[ordinal name.asText]? with
  | some cell => .ok cell
  | none => .error .zeroReference

def objectName (s : Session) (object : ObjectRef) : String :=
  match s.objects.findIdx? (·.object = object) with
  | some i => "o" ++ i.repr
  | none => "unknown"

def objectDatum (s : Session) (object : Option ObjectRef) : Datum := datum (object.map s.objectName)

/-- An address is named by the first object that it lies in. -/
def addressName (s : Session) (a : Address) : String :=
  match s.world.machine.env.host.cells.findIdx? (·.address = a) with
  | some i => "c" ++ i.repr
  | none =>
    match s.objects.zipIdx.find? (·.1.covers a) with
    | some (known, i) => "o" ++ i.repr ++ "+" ++ (a - known.object.address).toNat.repr
    | none => "unknown"

def slotName (s : Session) (slot : Slot) : String :=
  s.addressName slot.address ++ if slot.isNarrow then "/n" else ""

def slotsDatum (s : Session) (slots : List Slot) : Datum := datum (slots.map s.slotName)

def batchesDatum (s : Session) (log : FlushLog) : Datum := .list (log.batches.map s.slotsDatum)

def rangeDatum (s : Session) (r : SlotRange) : Datum :=
  .list [s.objectDatum r.object, .text (s.addressName r.start), datum r.count, datum r.narrow]

def writeData (s : Session) (w : Write) : List Datum :=
  [.text (s.objectName w.source), .text (s.slotName w.slot), s.objectDatum w.target]

def eventDatum (s : Session) : BarrierEvent → Datum
  | .pre w => .list (.text "Pre" :: s.writeData w)
  | .post w => .list (.text "Post" :: s.writeData w)
  | .copyPre c => .list [.text "ArrayCopyPre", s.rangeDatum c.source, s.rangeDatum c.target]
  | .copyPost c => .list [.text "ArrayCopyPost", s.rangeDatum c.source, s.rangeDatum c.target]

/-- The slot of a field. -/
def fieldNamed (s : Session) (d : Datum) (key : String) : Except Panic (ObjectRef × Slot) := do
  let object ← s.objectNamed (d.field key)
  return (object, ← Slot.ofField object (d.natAt "offset").toUInt64 (d.truthAt "narrow"))

/-- A range of fields. -/
def rangeNamed (s : Session) (d : Datum) : Except Panic SlotRange := do
  let object ← s.objectNamed (d.field "object")
  return ⟨some object, ← object.field (d.natAt "offset").toUInt64, d.natAt "count", d.truthAt "narrow"⟩

def writeNamed (s : Session) (d : Datum) : Except Panic Write := do
  let (source, slot) ← s.fieldNamed d "src"
  return ⟨source, slot, ← s.nullableNamed (d.field "value")⟩

def copyNamed (s : Session) (d : Datum) : Except Panic BulkCopy := do
  return ⟨← s.rangeNamed (d.field "from"), ← s.rangeNamed (d.field "to")⟩

def operandNamed (s : Session) (d : Datum) : Except Panic Operand :=
  if d.textAt "value" = "const_null" then .ok .constNull
  else (s.nullableNamed (d.field "value")).map .value

end Session

def HookEvent.name : HookEvent → String
  | .cycle (.fixCodeRelocations code) =>
    "FixRelocations(CodeId(" ++ code.value.toNat.repr ++ "))"
  | .cycle hook => camelCase hook.name
  | .unloadClasses => "UnloadClasses"

/-- What a simulation shows of its state. -/
def stateDatum (s : Session) : Except Panic Datum := do
  let w := s.world
  let env := w.machine.env
  let r := env.host
  let c := env.collector
  let cells ← r.cells.mapM fun cell => cell.load .identity w.machine.memory
  return .record
    [("cells", .list (cells.map s.objectDatum)),
      ("freed", datum (((s.objects.map Known.object).filter fun o =>
        (env.heap.get? o).isSome && env.heap.isFreed o).map s.objectName)),
      ("live_objects", datum env.heap.unfreed.length),
      ("references", datum (env.heap.references.map s.objectName)),
      ("hooks", datum (r.hooks.map HookEvent.name)),
      ("unloaded", datum (r.unloadedChecks.map fun check => (s.objectName check.1, check.2))),
      ("pending", s.objectDatum r.pending), ("finalizer_runs", datum r.finalizerRuns),
      ("world_stopped", datum r.parking.requested), ("stopped", datum w.world.isStopped),
      ("generation", datum w.world.generation), ("events", .list (c.events.map s.eventDatum)),
      ("old_values", .list (c.oldValues.map s.objectDatum)), ("bound", datum c.bound),
      ("destroyed", datum c.destroyed), ("mutators", datum w.registry.mutatorCount),
      ("spawned", datum (w.registry.spawned.map Spawned.name)),
      ("weak", datum w.weakHandles.slots.length)]

/-- What a simulation shows of an object. -/
def describe (b : SimBinding) (s : Session) (object : ObjectRef) : Except Panic Datum := do
  let m := s.world.machine
  let heap := m.env.heap
  return .record
    [("kind", datum ((heap.kind? object).map ObjectKind.name)), ("size", datum (heap.sizeOf object)),
      ("class", datum (b.host.className m object)),
      ("dump", .text (dumpText heap object (s.objectName object))),
      ("fields", s.slotsDatum (← heap.strongFields object)), ("freed", datum (heap.isFreed object)),
      ("in_heap", datum (heap.contains object.address)),
      ("live", datum (b.engine.isLive m object)),
      ("forwarded", s.objectDatum (← b.engine.forwarded m object))]

section Commands

variable (b : SimBinding) (me : ThreadId) (d : Datum)

/-- Something read off the command and the session. -/
def reading {α : Type} (f : Session → Except Panic α) : Act Session α := Act.read f

def nothing (act : Act Session Unit) : Act Session Fields := do
  act
  return result ()

def showing {α : Type} [Shown α] (act : Act Session α) : Act Session Fields := result <$> act

def looking (f : Session → Datum) : Act Session Fields := do return result (f (← get))

/-- Commands that add to the heaps and the host's tables. -/
def buildCommand? : Option (Act Session Fields) :=
  let allocating (act : Act Session ObjectRef) : Act Session Fields := do
    let object ← act
    return result ((← get).objectName object)
  let celling (act : Option ObjectRef → Act SimMachine Slot) : Act Session Fields := do
    let object ← reading fun s => s.nullableNamed (d.field "object")
    let cell ← onMachine (act object)
    return result ((← get).slotName cell)
  let fields := (d.natAt "fields").toUInt64
  match d.op with
  | "alloc" => some (allocating (allocate groundPlace (Ground.allocate fields .plain)))
  | "alloc_other" => some (allocating (allocate otherPlace (Ground.allocate fields .plain)))
  | "alloc_reference" => some <| allocating do
    let referent ← reading fun s => s.nullableNamed (d.field "referent")
    allocate groundPlace (Ground.allocateReference referent)
  | "cell" => some (celling newCell)
  | "root" => some <| celling fun object => do
    let cell ← newCell object
    onHost fun r => { r with roots := r.roots ++ [(d.category, cell)] }
    return cell
  | "stack_root" => some <| celling fun object => do
    let cell ← newCell object
    onHost fun r => { r with stackRoots := r.stackRoots ++ [((d.field "mutator").asMutator, cell)] }
    return cell
  | "cld_edge" => some <| celling fun object => do
    let cell ← newCell object
    onHost fun r => { r with loaderEdges := r.loaderEdges ++ [⟨d.truthAt "weak", cell⟩] }
    return cell
  | "thread_code" => some <| nothing <| onMachine <| onHost fun r =>
      { r with threadCode := r.threadCode ++ [((d.field "mutator").asMutator, d.code)] }
  | "set" => some <| nothing do
    let cell ← reading fun s => s.cellNamed (d.field "cell")
    let object ← reading fun s => s.nullableNamed (d.field "object")
    onMachine (Machine.poke (cell.store .identity object))
  | "register_weak" => some <| nothing do
    let cell ← reading fun s => s.cellNamed (d.field "cell")
    onWorld (Act.within Binding.State.weakPlace (modify fun t => t.register cell))
  | "unregister_weak" => some <| showing do
    let cell ← reading fun s => s.cellNamed (d.field "cell")
    onWorld (Act.within Binding.State.weakPlace (modifyGet fun t => t.unregister cell))
  | "register_code" => some <| nothing do
    let cells ← reading fun s => (d.listAt "cells").mapM s.cellNamed
    onWorld (Act.within Binding.State.codePlace (modify fun t => t.register d.code cells))
  | "unregister_code" => some <| showing <|
    onWorld (Act.within Binding.State.codePlace (modifyGet fun t => t.unregister d.code))
  | "mark" => some <| nothing do
    let objects ← reading fun s => (d.listAt "objects").mapM s.objectNamed
    onMachine (onCollector fun c => { c with marks := c.marks.insertMany objects })
  | "set_logged" => some <| nothing do
    let object ← reading fun s => s.objectNamed (d.field "object")
    onMachine (onCollector fun c => { c with logged := c.logged.insert object })
  | "forward" => some <| nothing do
    let source ← reading fun s => s.objectNamed (d.field "from")
    let target ← reading fun s => s.objectNamed (d.field "to")
    onMachine (Machine.poke fun m => .ok (Ground.forward source target m))
  | _ => none

/-- Commands about threads and cycles. -/
def cycleCommand? : Option (Act Session Fields) :=
  match d.op with
  | "register" => some (orError <$> Session.register b me (d.text? "name"))
  | "drop_guard" => some (nothing (dropGuard b me))
  | "attach" => some (nothing (onMachine (attach me)))
  | "detach" => some (nothing (onMachine (detach me)))
  | "poll" => some (nothing (onMachine (poll me)))
  | "oom" => some <| nothing <| onWorld <| Binding.outOfMemory
      (if d.textAt "kind" = "heap" then .heap else .addressSpace)
  | "cycle" => some do
    match ← cycle b me (d.intAt "kind") (d.truthAt "polling") with
    | some generation => return result generation
    | none => return refusal "CollectorDied" ""
  | "start_controller" => some (nothing (startController b))
  | "collect" => some (showing (collect b me))
  | "shutdown" => some (showing shutdown)
  | "sweep" => some <| showing do
    let live ← reading fun s => (d.listAt "live").mapM s.objectNamed
    onMachine (modifyGet fun m =>
      let (freed, heap) := m.env.heap.sweep (· ∈ live)
      (freed, { m with env.heap := heap }))
  | _ => none

/-- A barrier of the given kind, run on a mutator of no binding. -/
def directCommand : Act Session Fields := do
  let kind := Datum.barrierOf (d.textAt "barrier")
  let decorators := d.decorators 1
  let act ← match d.textAt "hook" with
    | "write_pre" => reading fun s => (s.writeNamed d).map (Barrier.writePre kind b.engine)
    | "write_post" => reading fun s => (s.writeNamed d).map (Barrier.writePost kind b.engine)
    | "write_slow" => reading fun s => (s.writeNamed d).map (Barrier.writeSlow kind b.engine)
    | "store" => reading fun s => do
      let (source, slot) ← s.fieldNamed d "src"
      return Barrier.store kind b.engine b.codec decorators source slot (← s.operandNamed d)
    | "copy_pre" => reading fun s => (s.copyNamed d).map (Barrier.copyPre kind b.engine)
    | "copy_post" => reading fun s => (s.copyNamed d).map (Barrier.copyPost kind b.engine)
    | _ => reading fun s => (s.copyNamed d).map (Barrier.copy kind b.engine decorators)
  let mutator ← detached act
  return result (mutator.id, mutator.stores)

/-- Commands that store and copy. -/
def barrierCommand? : Option (Act Session Fields) :=
  let writing (act : Write → Act World Unit) : Act Session Fields := nothing do
    onWorld (act (← reading fun s => s.writeNamed d))
  match d.op with
  | "write_pre" => some (writing (b.writePre me))
  | "write_post" => some (writing (b.writePost me))
  | "write_slow" => some (writing (b.writeSlow me))
  | "store" => some do
    let (source, slot) ← reading fun s => s.fieldNamed d "src"
    let value ← reading fun s => s.operandNamed d
    onWorld (b.storeReference me d.tier (d.decorators 1) source slot value)
    let held ← onMachine (Machine.peek (slot.load b.codec))
    return result ((← get).objectDatum held)
  | "copy" => some <| nothing do
    let c ← reading fun s => s.copyNamed d
    onWorld (b.copyReferences me (d.decorators 1) c)
  | "direct" => some (directCommand b d)
  | "mutator" => some <| showing <| onWorld <| Binding.withMutator me do
    let mutator := (← get).mutator
    return (mutator.id, mutator.stores)
  | _ => none

/-- Commands about roots and weak references. -/
def weakCommand? : Option (Act Session Fields) :=
  match d.op with
  | "scan" => some fun s =>
    let (outcome, world, log) :=
      (b.scan (.collecting (d.natOr "capacity" 4)) d.category).run (s.world, [])
    (outcome.map fun n => orBreach (n.map fun n =>
      Datum.record [("n", datum n), ("batches", s.batchesDatum log)]), { s with world })
  | "scan_all" => some do
    let scans ← onWorld (b.scanCategories (.collecting b.options.rootBufferCapacity) [] []
      (RootCategory.strong b.options.weakProcessing))
    let s ← get
    return orBreach (scans.map fun l =>
      l.map fun scan => (scan.1.name, s.batchesDatum scan.2))
  | "update_weak" => some (showing (onWorld (b.updateWeak d.mode)))
  | "unload" => some (showing (onWorld b.unloadClasses))
  | "update_slot" => some do
    let cell ← reading fun s => s.cellNamed (d.field "cell")
    let outcome ← onMachine ((b.weakTest d.mode).updateSlot cell)
    let s ← get
    return result (match outcome with
      | .forwarded target => Datum.list [.text "Forwarded", .text (s.objectName target)]
      | other => datum other)
  | "is_alive" => some <| showing <| reading fun s => do
    (b.weakTest d.mode).isAlive s.world.machine (← s.objectNamed (d.field "object"))
  | "enqueue" => some <| showing do
    onWorld (b.enqueueReferences (← reading fun s => (d.listAt "refs").mapM s.objectNamed))
  | "set_referent" => some <| nothing do
    let reference ← reading fun s => s.objectNamed (d.field "src")
    let referent ← reading fun s => s.nullableNamed (d.field "value")
    onMachine (Machine.poke (b.referenceFields.setReferent reference referent))
  | "reference" => some <| showing <| reading fun s => do
    let reference ← s.objectNamed (d.field "object")
    let memory := s.world.machine.memory
    return Datum.record
      [("referent", s.objectDatum (← b.referenceFields.getReferent reference memory)),
        ("discovered", s.objectDatum (← b.referenceFields.getDiscovered reference memory))]
  | _ => none

/-- Commands that look at objects and memory. -/
def lookCommand? : Option (Act Session Fields) :=
  match d.op with
  | "object" => some <| showing <| reading fun s => do
    describe b s (← s.objectNamed (d.field "object"))
  | "load" => some <| showing <| reading fun s => do
    return s.objectDatum (← (← s.fieldNamed d "src").2.load b.codec s.world.machine.memory)
  | "bits" => some <| showing <| reading fun s => do
    return (← s.fieldNamed d "src").2.loadBits s.world.machine.memory
  | "statics" => some <| showing <| reading fun s => do
    let range ← b.layout.staticSlots (← s.objectNamed (d.field "object"))
      b.options.compressedPointers s.world.machine.memory
    return s.slotsDatum (← range.slots)
  | "poke_i32" => some <| nothing do
    let a ← reading fun s => do
      (← s.objectNamed (d.field "object")).field (d.natAt "offset").toUInt64
    onMachine (Machine.poke fun m => .ok (m.store a 4 (d.intAt "value" % 0x100000000).toNat.toUInt64))
  | "layout" => some (looking fun _ => datum b.layout)
  | "state" => some (showing (reading stateDatum))
  | _ => none

/-- The call that a command asks for. -/
def command : Act Session Fields :=
  (buildCommand? d <|> cycleCommand? b me d <|> barrierCommand? b me d <|> weakCommand? b d
    <|> lookCommand? b d).getD (Act.fault .stuck)

end Commands

/-- The host of a simulation does not survive being asked to stop the process: the calling
thread breaks off with the reason. -/
def faultFields : Fault → Fields
  | .terminated reason => refusal "Panic" reason.message
  | other => other.fields

/-- Carry out commands one after another. -/
def turns (b : SimBinding) : List Datum → Session → List Datum
  | [], _ => []
  | d :: rest, s =>
    let (outcome, s) := (command b ⟨(d.text? "on").getD "main"⟩ d).run s
    .record (match outcome with
      | .ok fields => fields
      | .error cause => faultFields cause) :: turns b rest s

/-- Where the two heaps of a session begin. -/
def heapStart : Address := 0x7f0000000000

def otherStart : Address := 0x7e0000000000

/-- The binding between both sides, as a record describes it. -/
def bindingOf (d : Datum) (options : Options) (heap : Heap) : Except Error SimBinding := do
  let layout ← layoutFacts.validate
  let range := (heap.start, heap.limit)
  let collector := engine (if d.textAt "engine" = "bare" then none else some range)
  if d.truthAt "heap_codec" then
    Binding.ofCodec options layout host collector (.forHeapRange range.1 range.2)
  else Binding.make options layout host collector

/-- Bind both sides together and carry out commands. -/
def session (d : Datum) : Datum :=
  let heap : Heap := { start := heapStart }
  match d.options? with
  | none => .record missingOptions
  | some options =>
    match bindingOf d options heap with
    | .error e => .record e.fields
    | .ok b =>
      let simulation : Simulation := { heap, other := { start := otherStart } }
      .list (turns b (d.listAt "steps") { world := { machine := ⟨.zero, simulation⟩ } })

end Safepoint.Simulated
