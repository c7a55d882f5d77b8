import Safepoint.Datum.Read
import Safepoint.Datum.Show
import Safepoint.Scripted.Session

/-!
Commands for a scripted session, and how its turns are shown. A command is a record that names
the thread whose turn it is, what the thread does, and the arguments.
-/
namespace Safepoint.Scripted

open Binding (Parked)

/-- An entry of the log that was shown the state of the world. -/
def seenDatum (name : String) (seen : Coordinator) (more : List Datum) : Datum :=
  .list ([datum name] ++ more ++ [datum seen.state, datum seen.generation])

def visitedDatum (m : Mutator × Nat) : Datum := .list [datum m.1.id, datum m.1.name, datum m.2]

def phaseName (after : Bool) : String := if after then "post" else "pre"

mutual

def Event.datum : Event → Datum
  | .bind id => .list [.text "bind", Shown.datum id]
  | .destroy s => .list [.text "destroy", Shown.datum s.id, Shown.datum s.ops]
  | .write after id w bits =>
    .list [.text ("write_" ++ phaseName after), Shown.datum id, Shown.datum w.source,
      Shown.datum w.slot, Shown.datum w.target, Shown.datum (bits.map hex)]
  | .copy after id c bits =>
    .list [.text ("copy_" ++ phaseName after), Shown.datum id, Shown.datum c.source,
      Shown.datum c.target, Shown.datum (bits.map (·.map hex))]
  | .requestCollection id => .list [.text "request_collection", Shown.datum id]
  | .suspendAll seen => seenDatum "suspend_all" seen []
  | .resumeAll seen => seenDatum "resume_all" seen []
  | .enterSafeRegion => .list [.text "enter_safe_region"]
  | .leaveSafeRegion => .list [.text "leave_safe_region"]
  | .hook (.fixCodeRelocations code) seen =>
    seenDatum (CycleHook.fixCodeRelocations code).name seen [Shown.datum code]
  | .hook hook seen => seenDatum hook.name seen []
  | .scheduleFinalizer => .list [.text "schedule_finalizer"]
  | .swapPending new old => .list [.text "swap_pending", Shown.datum new, Shown.datum old]
  | .unloadClasses loaders => .list [.text "unload_classes", Shown.datum loaders]
  | .threadStack id => .list [.text "thread_stack", Shown.datum id]
  | .threadCode id => .list [.text "thread_code", Shown.datum id]
  | .globals table => .list [.text table.name]
  | .stringTable filter => .list [.text "string_table", .text filter.name]
  | .weakProcessor filter => .list [.text "weak_processor", .text filter.name]
  | .classLoaderGraph policy => .list [.text "class_loader_graph", .text policy.name]
  | .cycle outcome log =>
    .list [.text "cycle", .record (orFault (outcome.map cycleFields)
      ++ unlessEmpty "ev" (logData log))]
where
  cycleFields : CycleReply → Fields
    | .stopped visited => result (visited.map visitedDatum)
    | .resumed generation => result generation
    | .busy thread => refusal "ThreadParked" thread.label

def logData : List Event → List Datum
  | [] => []
  | event :: rest => event.datum :: logData rest

end

/-- A call that returns what is to be shown. It may have to wait. -/
abbrev Call := Act Session (Fields ⊕ Parked)

namespace Call

abbrev World := Binding.State Ops Script

def returning (act : Act Session Fields) : Call := Sum.inl <$> act

def maybeWaiting (act : Act Session (Option Parked)) : Call := do
  match ← act with
  | none => return .inl (result ())
  | some wait => return .inr wait

def onWorld {α : Type} [Shown α] (act : Act World α) : Call :=
  returning (result <$> Session.onWorld act)

def look {α : Type} [Shown α] (f : World → α) : Call := onWorld (Act.query f)

/-- A call on something read from the command, which may break a check. -/
def reading {α β : Type} [Shown β] (x : Except Panic α) (act : α → Act World β) : Call :=
  onWorld (Act.check x >>= act)

/-- A call on the registry alone. -/
def registry (f : Registry Ops → Except Violation (Fields × Registry Ops)) : Call := returning do
  match f (← get).world.registry with
  | .error breach => return breach.fields
  | .ok (fields, registry) =>
    modify fun s => { s with world.registry := registry }
    return fields

/-- A scan, shown with the batches the sink was handed, also after a fault. -/
def scanning (act : Act (World × FlushLog) (Except Violation Datum)) : Call := fun s =>
  let (outcome, log, s) := Session.scan act s
  (.ok (.inl (orFault (outcome.map orBreach) ++ [("batches", datum log.batches)])), s)

def counting (act : Act (World × FlushLog) Nat) : Call :=
  scanning ((fun n => .ok (datum n)) <$> act)

end Call

/-- Add to what the host answers. -/
def HostTables.extend (t : HostTables) (d : Datum) : Except Panic HostTables := do
  let objects ← (d.listAt "objects").mapM fun o => do
    return (⟨← o.ref "at", o.natAt "size", o.text? "class", o.slots "fields"⟩ : ObjectFacts)
  let loaders ← d.refs "loaders"
  let pending ← match d.field? "pending" with
    | none => pure t.pending
    | some given => given.asRef?
  let cleared := (d.listAt "clear_roots").map Datum.asCategory
  let roots := t.roots ++ (d.listAt "roots").map fun r =>
    ⟨r.category, r.slots "slots", r.truthAt "stuck"⟩
  return { t with
    roots := roots.filter (·.category ∉ cleared)
    stackRoots := t.stackRoots ++ (d.listAt "stacks").map fun e =>
      ((e.field "mutator").asMutator, e.slots "slots")
    threadCode := t.threadCode ++ (d.listAt "thread_code").map fun e =>
      ((e.field "mutator").asMutator, (e.listAt "code").map Datum.asCode)
    loaderEdges := t.loaderEdges ++ (d.listAt "cld").map fun e =>
      ⟨e.slot "slot", e.truthAt "weak", e.truthAt "dead"⟩
    objects := t.objects ++ objects
    loaders := t.loaders ++ loaders
    pending }

/-- Add to what the collector answers, then take away from it. -/
def EngineTables.extend (t : EngineTables) (d : Datum) : Except Panic EngineTables := do
  let counts ← (d.listAt "counts").mapM fun e => match e.asList with
    | [object, n] => do return (← object.asRef, n.asNat)
    | _ => .error .zeroReference
  return {
    live := (t.live.insertMany (← d.refs "live")).eraseMany (← d.refs "dead")
    logged := (t.logged.insertMany (← d.refs "logged")).eraseMany (← d.refs "unlogged")
    loggedSlots :=
      (t.loggedSlots.insertMany (d.slots "logged_slots")).eraseMany (d.slots "unlogged_slots")
    counts := t.counts.insertMany counts }

/-- What a session shows of its state. -/
def stateDatum (w : Call.World) : Datum := .record
  [("state", datum w.world.state), ("stopped", datum w.world.isStopped),
    ("generation", datum w.world.generation), ("unloading", datum w.unloading),
    ("mutators", datum w.registry.mutatorCount), ("ids", datum w.registry.mutatorIds),
    ("names", datum (w.registry.mutators.map Mutator.name)),
    ("nursery", datum w.codeTable.nursery.size), ("mature", datum w.codeTable.mature.size),
    ("claimed", datum w.codeTable.claimed), ("weak", datum w.weakHandles.slots),
    ("weak_nursery", datum w.weakHandles.nursery.length),
    ("pending", datum w.machine.env.host.pending)]

/-- What the session knows of a thread. -/
def roleDatum (s : Session) (thread : ThreadId) : Datum :=
  if thread ∉ s.met then .text "no such thread"
  else .record
    [("role", match s.world.registry.roleOf thread with
      | none => .null
      | some (.mutator id) => .list [.text "mutator", datum id]
      | some (.collector kind) => .list [.text "collector", datum kind]),
    ("is_mutator", datum (s.world.registry.isMutator thread))]

section Commands

variable (b : ScriptedBinding) (me : ThreadId) (d : Datum)

/-- Commands that say what host and collector will answer, or touch memory. -/
def scriptCommand? : Option Call :=
  match d.op with
  | "host" => some <| .returning do
    let tables ← Act.check ((← get).world.machine.env.host.extend d)
    Session.onScript fun s => { s with host := tables }
    return result ()
  | "engine" => some <| .returning do
    let tables ← Act.check ((← get).world.machine.env.engine.extend d)
    Session.onScript fun s => { s with engine := tables }
    return result ()
  | "poke" => some <| .onWorld (Binding.onMachine (Machine.poke fun m => .ok (d.pokes m)))
  | "peek" => some <| .look fun w => (d.listAt "at").map fun a =>
      hex (w.machine.memory.load a.asWord (d.natOr "width" 8))
  | _ => none

/-- Commands about threads. -/
def threadCommand? : Option Call :=
  match d.op with
  | "register" => some <| .returning (orError <$> Session.register b me (d.text? "name"))
  | "drop_guard" => some <| .maybeWaiting (Session.dropGuard b me)
  | "deregister" => some <| .maybeWaiting (Session.deregister b me)
  | "registry_deregister" => some <| .registry fun r =>
      (r.deregister me).map fun (id, state, r) => (result (id, state.map Ops.ops), r)
  | "with_mutator" => some <| .onWorld (Binding.withMutator me do
      modify fun a => { a with mutator.ops := a.mutator.ops + d.natAt "add" }
      let state := (← get).mutator
      return (state.id, state.ops))
  | "current" => some <| .look fun w =>
      let mutator := w.registry.current me
      (mutator.map fun m => Datum.list [datum m.id, datum m.name, .truth true, datum m.text],
        mutator.map Mutator.id)
  | "get" => some <| .look fun w => (w.registry.get (d.field "id").asMutator).map fun m =>
      Datum.list [datum m.id, datum m.name, datum ((w.registry.states[m.id]?).map Ops.ops)]
  | "role" => some <| .returning do return result (roleDatum (← get) ⟨d.textAt "of"⟩)
  | "require_mutator" => some <| .returning do
      return orBreach (((← get).world.registry.requireMutator me).map Mutator.id)
  | "require_collector" => some <| .returning do
      return orBreach ((← get).world.registry.requireCollector me)
  | "register_collector" => some <| .registry fun r =>
      (r.registerCollector me d.collectorKind).map fun r => (result (), r)
  | "deregister_collector" => some <| .registry fun r => .ok (result (), r.deregisterCollector me)
  | "record_spawn" => some <| .registry fun r =>
      let (name, r) := r.recordSpawn d.collectorKind
      .ok (result name, r)
  | "spawned" => some <| .look fun w => w.registry.spawned.map fun s => (s.kind, s.name)
  | "spawn_gc" => some <| .returning (result <$> Session.spawn b (d.intAt "kind") ⟨d.textAt "as"⟩)
  | "exit_gc" => some <| .onWorld (Binding.exitCollector me)
  | _ => none

/-- Commands that stop the world, release it, or wait for that. -/
def cycleCommand? : Option Call :=
  match d.op with
  | "stop" => some <| .onWorld (List.map visitedDatum <$> Session.stop b me (d.truthAt "unload"))
  | "resume" => some <| .onWorld (b.resumeMutators me)
  | "block_for_gc" => some (Sum.inr <$> Session.onWorld (b.blockForCycle me))
  | "collect" => some (Sum.inr <$> Session.collect b me ((d.text? "cycle_by").map ThreadId.mk))
  | "oom" => some <| .onWorld (Binding.outOfMemory
      (if d.textAt "kind" = "heap" then .heap else .addressSpace))
  | _ => none

/-- Commands that store and copy. -/
def barrierCommand? : Option Call :=
  match d.op with
  | "write_pre" => some <| .reading d.write (b.writePre me)
  | "write_post" => some <| .reading d.write (b.writePost me)
  | "write_slow" => some <| .reading d.write (b.writeSlow me)
  | "copy_pre" => some <| .reading d.bulkCopy (b.copyPre me)
  | "copy_post" => some <| .reading d.bulkCopy (b.copyPost me)
  | "store" => some <| .onWorld do
      let source ← Act.check (d.ref "src")
      let value ← Act.check (d.operand "value")
      b.storeReference me d.tier (d.decorators 0) source (d.slot "slot") value
      return hex ((d.slot "slot").loadBits (← get).machine.memory)
  | "copy" => some <| .reading d.bulkCopy fun c => do
      b.copyReferences me (d.decorators 0) c
      Act.read fun w => do return (← c.target.slots).map fun s => hex (s.loadBits w.machine.memory)
  | "entry_points" => some <| .look fun _ =>
      let kind := b.options.barrier
      Datum.record (("debug", .text ("BarrierEntryPoints \x7b kind: " ++ camelCase kind.name
        ++ ", .. \x7d")) :: kind.details)
  | _ => none

/-- Commands that scan roots, or change what the binding itself knows of them. -/
def rootCommand? : Option Call :=
  let sink := d.sink "sink"
  match d.op with
  | "scan" => some <| .scanning ((·.map datum) <$> b.scan sink d.category)
  | "scan_threads" =>
    let ids := (d.listAt "ids").map Datum.asMutator
    some <| .scanning ((·.map datum) <$> b.scanThreads sink (match d.textAt "select" with
      | "one" => .one (ids.headD ⟨0⟩)
      | "subset" => .subset ids
      | _ => .all))
  | "scan_strings" => some <| .counting (b.scanStrings sink d.filter)
  | "scan_weak" => some <| .counting (b.scanWeak sink d.filter)
  | "scan_code_cache" => some <| .counting (Binding.scanCode sink)
  | "scan_cld" =>
    let policy := if d.textAt "policy" = "LiveFiltered" then .liveFiltered else .allStrong
    some <| .scanning fun (w, log) =>
      let (outcome, (w, weak), log) :=
        (b.scanLoaders sink (d.sink "weak_sink") policy).run ((w, []), log)
      (outcome.map fun n => .ok (.record [("strong", datum n),
        ("weak", datum (FlushLog.batches weak))]), w, log)
  | "scan_categories" =>
    let categories := match d.field "categories" with
      | .null => RootCategory.strong b.options.weakProcessing
      | given => given.asList.map Datum.asCategory
    some <| .returning do
      return orBreach ((← Session.scanCategories b categories).map fun scans =>
        scans.map fun (category, log) => (category.name, log.batches))
  | "default_filter" => some <| .look fun _ => b.defaultFilter.name
  | "register_code" => some <| .onWorld (Act.within Binding.State.codePlace
      (modify fun table => table.register d.code (d.slots "slots")))
  | "unregister_code" => some <| .onWorld (Act.within Binding.State.codePlace
      (modifyGet fun table => table.unregister d.code))
  | "begin_cycle" => some <| .onWorld (Act.within Binding.State.codePlace CodeTable.beginCycle)
  | "register_weak" => some <| .onWorld (Act.within Binding.State.weakPlace
      (modify fun handles => handles.register (d.slot "slot")))
  | "unregister_weak" => some <| .onWorld (Act.within Binding.State.weakPlace
      (modifyGet fun handles => handles.unregister (d.slot "slot")))
  | _ => none

/-- Commands about weak references, and those that show what the binding is made of. -/
def weakCommand? : Option Call :=
  match d.op with
  | "update_weak" => some <| .onWorld (b.updateWeak d.mode)
  | "unload" => some <| .onWorld b.unloadClasses
  | "update_slot" => some <|
      .onWorld (Binding.onMachine ((b.weakTest d.mode).updateSlot (d.slot "slot")))
  | "enqueue" => some <| .reading (d.refs "refs") b.enqueueReferences
  | "layout" => some <| .look fun _ =>
      Datum.record [("layout", datum b.layout), ("debug", datum b.layout.tableText)]
  | "state" => some <| .look stateDatum
  | _ => none

/-- Commands about one object. -/
def objectCommand (object : ObjectRef) : Act Call.World Datum :=
  let fields := b.referenceFields
  let read {α : Type} [Shown α] (f : Memory → Except Panic α) : Act Call.World Datum :=
    Act.read fun w => (f w.machine.memory).map datum
  match d.op with
  | "object" => do
    let slots ← Binding.onMachine (b.host.scanObject object)
    let m := (← get).machine
    return .record [("slots", datum slots), ("size", datum (b.host.objectSize m object)),
      ("dump", datum (b.host.dumpObject m object)), ("class", datum (b.host.className m object))]
  | "statics" => read fun m => do
    (← b.layout.staticSlots object b.options.compressedPointers m).details 8
  | "mirror_klass" => read fun m => hexDatum <$> b.layout.mirrorKlass object m
  | "loader_data" => read fun m => hexDatum <$> b.layout.loaderData object m
  | "is_alive" => Act.read fun w => datum <$> (b.weakTest d.mode).isAlive w.machine object
  | "get_referent" => read (fields.getReferent object)
  | "set_referent" => do
    let referent ← Act.check (d.ref? "value")
    Binding.onMachine (Machine.poke (fields.setReferent object referent))
    return .null
  | "clear_referent" => do
    Binding.onMachine (Machine.poke (fields.clearReferent object))
    return .null
  | _ => read (fields.getDiscovered object)

/-- The call that a command asks for. -/
def command : Call :=
  (scriptCommand? d <|> threadCommand? b me d <|> cycleCommand? b me d <|> barrierCommand? b me d
    <|> rootCommand? b d <|> weakCommand? b d).getD (.reading (d.ref "object") (objectCommand b d))

end Commands

def Turn.datum (t : Turn Fields) (me : ThreadId) : Datum :=
  let woken := t.woken.map fun w => Datum.list [.text w.thread.label,
    .record (orFault (w.result.map result) ++ unlessEmpty "ev" (logData w.log))]
  .record ((match t.outcome with
    | .returned fields => fields
    | .faulted cause => cause.fields
    | .waits => [("parked", .truth true)]
    | .busy => refusal "ThreadParked" me.label)
    ++ unlessEmpty "ev" (logData t.log) ++ unlessEmpty "woken" woken)

/-- Carry out commands, each as one turn of the thread it names. -/
def turns (b : ScriptedBinding) : List Datum → Session → List Datum
  | [], _ => []
  | d :: rest, s =>
    let me : ThreadId := ⟨(d.text? "on").getD "main"⟩
    let (turn, s) := Session.turn b me result (command b me d) s
    turn.datum me :: turns b rest s

/-- A binding as a record describes it. -/
def bindingOf (d : Datum) (options : Options) : Except Error ScriptedBinding := do
  let layout ← d.layout.validate
  let heapRange := match d.listAt "heap_range" with
    | [start, limit] => some (start.asWord, limit.asWord)
    | _ => none
  let engine := if d.textAt "engine" = "plain" then plainEngine else fullEngine heapRange
  match d.codec? with
  | some codec => Binding.ofCodec options layout host engine codec
  | none => Binding.make options layout host engine

/-- Make a binding and carry out commands on it. -/
def session (d : Datum) : Datum :=
  match d.options? with
  | none => .record missingOptions
  | some options =>
    match bindingOf d options with
    | .error e => .record [("new", .record e.fields)]
    | .ok b =>
      let tables : HostTables :=
        { spawnFails := d.truthAt "spawn_fails", bareHooks := d.truthAt "bare_hooks" }
      let start : Session := ⟨{ machine := ⟨d.pokes .zero, { host := tables }⟩ }, [], {}, []⟩
      .record [("new", .record [("base", hexDatum b.codec.base), ("shift", datum b.codec.shift),
        ("options", datum b.options)]), ("steps", .list (turns b (d.listAt "steps") start))]

end Safepoint.Scripted
