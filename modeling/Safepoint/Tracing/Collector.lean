import Safepoint.Binding.Collecting
import Safepoint.Binding.Cycle
import Safepoint.Process
import Safepoint.Tracing.Basic
import Safepoint.Tracing.Settings

/-!
The tracing collector. It needs no barrier and moves nothing. A collection marks what the roots
reach; then it clears the referents that died, and hands the reference objects they were cleared
in back to the host.
-/
namespace Safepoint.Tracing

abbrev TracingBinding := Binding Unit Scene

abbrev World := Binding.State Unit Scene

def engine (settings : Settings) : Engine Unit Scene where
  bind _ := pure ()
  writePre _ := pure ()
  writePost _ := pure ()
  copyPre _ := pure ()
  copyPost _ := pure ()
  requestCollection _ := onCollector fun c => { c with requested := true }
  isLive m object := object ∈ m.env.collector.marks
    || (!settings.plan.marksInObjects && object ∈ m.env.collector.fresh)
  forwarded _ _ := .ok none
  heapRange := some heapRange

def supply : Supply Unit Scene := ⟨Settings.accepts, fun o => engine (.ofOptions o)⟩

/-- Give an object to the heap. A reference object is watched from now on. -/
def allocate (header : Header) : Act Stage ObjectRef := do
  let object ← Act.check (ObjectRef.ofNonzero (← get).env.collector.next)
  onCollector fun c => { c with
    next := c.next + header.size.toUInt64
    objects := c.objects + 1
    fresh := c.fresh.insert object
    candidates := if header.kind = .reference then c.candidates ++ [object] else c.candidates }
  Machine.poke fun m => .ok (header.store object m)
  return object

/-- How the collector marks, with the codec that slots are read with. -/
def marker (b : TracingBinding) (codec : PointerCodec) : Marker Scene where
  marks :=
    ⟨fun s => s.collector.marks, fun marks s => { s with collector.marks := marks }⟩
  codec := codec
  fields := b.host.scanObject

/-- What becomes of a reference object that is watched. -/
inductive Fate where
  /-- It is live, and so is its referent. -/
  | watched
  /-- It died, or lost its referent before. -/
  | dropped
  /-- It is live, and its referent died. -/
  | cleared
  deriving DecidableEq

def fate (b : TracingBinding) (m : Stage) (reference : ObjectRef) : Except Panic Fate := do
  if !b.engine.isLive m reference then return .dropped
  match ← b.referenceFields.getReferent reference m.memory with
  | none => return .dropped
  | some referent => return if b.engine.isLive m referent then .watched else .cleared

/-- Clear the referents that died. The result is the references they were cleared in. -/
def clearReferents (b : TracingBinding) : Act Stage (List ObjectRef) := do
  let fates ← Act.read fun m => m.env.collector.candidates.mapM fun reference => do
    return (reference, ← fate b m reference)
  let having (f : Fate) : List ObjectRef := (fates.filter (·.2 = f)).map Prod.fst
  onCollector fun c => { c with candidates := having .watched }
  (having .cleared).forM fun reference => Machine.poke (b.referenceFields.clearReferent reference)
  return having .cleared

/-- The packets of all roots: of each mutator in turn, and then of all that is shared. -/
def rootPackets (b : TracingBinding) (mutators : List Mutator) : Act World FlushLog := do
  let ofMutators ← mutators.mapM fun mutator => b.mutatorPackets mutator.id
  return ofMutators.flatten ++ (← b.sharedPackets)

/-- Forget what earlier collections found out, as far as that can be. An object with a mark left
over is not looked into again. -/
def renewMarks (plan : Plan) : Act Stage Unit :=
  onCollector fun c => { c with marks := if plan.marksInObjects then c.marks else {}, fresh := {} }

/-- One whole collection, on a collector thread. The result is the count of completed cycles. -/
def collection (b : TracingBinding) (settings : Settings) (codec : PointerCodec) (me : ThreadId) :
    Act World UInt64 := do
  let mutators ← b.stopAllMutators me b.options.classUnloading
  Binding.onMachine (renewMarks settings.plan)
  let packets ← rootPackets b mutators
  let objects := (← get).machine.env.collector.objects
  Binding.onMachine ((marker b codec).markFrom objects (FlushLog.slots packets))
  let cleared ← if settings.references then Binding.onMachine (clearReferents b) else pure []
  if settings.finalizers then Binding.onMachine b.host.scheduleFinalizer
  b.processWeak
  let _ ← b.enqueueReferences cleared
  b.resumeMutators me

end Safepoint.Tracing
