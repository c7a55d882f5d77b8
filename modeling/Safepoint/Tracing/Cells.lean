import Safepoint.Tracing.Basic

/-!
The host of named cells. It walks the cells of a kind in the order of their names; of the
class-loader graph it walks all strong edges and then all weak ones, whatever it is asked for.
-/
namespace Safepoint.Tracing

namespace HostSide

/-- The slots of the cells of a kind. -/
def slotsOf (h : HostSide) (kind : CellKind) : List Slot :=
  (h.cells.values.filter (·.kind = kind)).map Cell.slot

/-- The blobs with frames on a stack. -/
def framesOf (h : HostSide) (id : MutatorId) : List CodeId :=
  h.cells.values.filterMap fun cell => match cell.kind with
    | .code code (some owner) => if owner = id then some code else none
    | _ => none

def loaderEdges (h : HostSide) : List LoaderEdge :=
  (h.slotsOf (.loader false)).map (⟨false, ·⟩) ++ (h.slotsOf (.loader true)).map (⟨true, ·⟩)

/-- The weak loader cells by their names. -/
def weakLoaders (h : HostSide) : List (String × Slot) :=
  (h.cells.toList.filter (·.2.kind = .loader true)).map fun e => (e.1, e.2.slot)

end HostSide

def notice (n : Notice) : Act Stage Unit :=
  onHost fun h => { h with notices := h.notices ++ [n] }

/-- Note a walk, and answer it. -/
def walk {α : Type} (name : String) (answer : HostSide → α) : Act Stage α := do
  onHost fun h => { h with walks := h.walks.insert name }
  return answer (← get).env.host

/-- Ask about the object in a cell, if there is one. -/
def askLoader (alive : Stage → ObjectRef → Except Panic Bool) (m : Stage) (cell : String × Slot) :
    Except Panic (String × Option Bool) := do
  match ← cell.2.load .identity m.memory with
  | none => return (cell.1, none)
  | some loader => return (cell.1, some (← alive m loader))

def dumpText (h : Header) : String := "object " ++ h.number.toNat.repr ++ " size=" ++ h.size.repr

/-- Replace the head of the pending list. The result is the old one. -/
def swapPending (new : Option ObjectRef) : Act Stage (Option ObjectRef) := modifyGet fun m =>
  (m.env.host.pending, { m with env.host.pending := new })

def host (compressed : Bool) : Host Scene where
  suspendAll _ := notice .suspendAll
  resumeAll _ := notice .resumeAll
  enterSafeRegion _ := pure ()
  leaveSafeRegion _ := pure ()
  spawnThread _ _ := pure true
  threadStack id := walk ("thread_stack " ++ id.value.toNat.repr) (·.slotsOf (.stack (some id)))
  threadCode id := Act.query fun m => m.env.host.framesOf id
  globals table := walk table.name (·.slotsOf (.table (.global table)))
  stringTable filter := walk ("string_table " ++ filter.name) (·.slotsOf (.table .stringTable))
  classLoaderGraph policy := walk ("class_loader_graph " ++ policy.name) (·.loaderEdges)
  weakProcessor filter := walk ("weak_processor " ++ filter.name) (·.slotsOf (.table .weakProcessor))
  scanObject object := Act.read fun m => strongFields compressed object m.memory
  objectSize m object := (Header.load object m.memory).size
  dumpObject m object := dumpText (Header.load object m.memory)
  className m object := some (Header.load object m.memory).kind.name
  hook hook _ := notice (.hook hook)
  scheduleFinalizer := notice .scheduleFinalizer
  unloadClasses alive := do
    notice (.unloadClasses (← Act.read fun m => m.env.host.weakLoaders.mapM (askLoader alive m)))
  swapPending := swapPending

end Safepoint.Tracing
