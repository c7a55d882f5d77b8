import Safepoint.Scripted.Script

/-!
The host of a script.
-/
namespace Safepoint.Scripted

namespace HostTables

/-- The slots of a category in the order given, without the stuck ones if asked. -/
def slotsOf (tables : HostTables) (category : RootCategory) (skipStuck : Bool) : List Slot :=
  (tables.roots.filter fun batch => batch.category = category ∧ ¬ (skipStuck ∧ batch.stuck)).flatMap
    RootBatch.slots

def stackOf (tables : HostTables) (id : MutatorId) : List Slot :=
  (tables.stackRoots.filter (·.1 = id)).flatMap Prod.snd

def codeOf (tables : HostTables) (id : MutatorId) : List CodeId :=
  (tables.threadCode.filter (·.1 = id)).flatMap Prod.snd

/-- The edges a walk reports. Dead strong edges are left out where only live loaders count. -/
def edgesOf (tables : HostTables) : LoaderScan → List LoaderEdge
  | .allStrong => tables.loaderEdges.map fun edge => ⟨edge.weak, edge.slot⟩
  | .liveFiltered =>
    (tables.loaderEdges.filter fun edge => edge.weak || !edge.dead).map fun edge =>
      ⟨edge.weak, edge.slot⟩

/-- What is known of an object. What was said last holds. -/
def factsOf (tables : HostTables) (object : ObjectRef) : Option ObjectFacts :=
  tables.objects.reverse.find? (·.object = object)

def sizeOf (tables : HostTables) (object : ObjectRef) : Nat :=
  ((tables.factsOf object).map ObjectFacts.size).getD 0

end HostTables

/-- Log a walk, and answer it from the tables. -/
def walk {α : Type} (event : Event) (answer : HostTables → α) : Act ScriptedMachine α := do
  note event
  return answer (← get).env.host

/-- Ask about each loader in turn. -/
def askAll (alive : ScriptedMachine → ObjectRef → Except Panic Bool) (m : ScriptedMachine) :
    List ObjectRef → Except Panic (List (ObjectRef × Bool))
  | [] => .ok []
  | loader :: rest => do
    let answer ← alive m loader
    return (loader, answer) :: (← askAll alive m rest)

def host : Host Script where
  suspendAll seen := note (.suspendAll seen)
  resumeAll seen := note (.resumeAll seen)
  enterSafeRegion _ := note .enterSafeRegion
  leaveSafeRegion _ := note .leaveSafeRegion
  spawnThread _ _ := Act.query fun m => !m.env.host.spawnFails
  threadStack id := walk (.threadStack id) (·.stackOf id)
  threadCode id := walk (.threadCode id) (·.codeOf id)
  globals table := walk (.globals table) (·.slotsOf (.global table) false)
  stringTable filter :=
    walk (.stringTable filter) (·.slotsOf .stringTable (filter = .nonStuckOnly))
  classLoaderGraph policy := walk (.classLoaderGraph policy) (·.edgesOf policy)
  weakProcessor filter :=
    walk (.weakProcessor filter) (·.slotsOf .weakProcessor (filter = .nonStuckOnly))
  scanObject object := Act.query fun m =>
    ((m.env.host.factsOf object).map ObjectFacts.fields).getD []
  objectSize m object := m.env.host.sizeOf object
  dumpObject m object :=
    "object " ++ hex object.address ++ " size=" ++ (m.env.host.sizeOf object).repr
  className m object := (m.env.host.factsOf object).bind ObjectFacts.className
  hook hook seen := do
    let silent := (← get).env.host.bareHooks
      && (hook == .derivedPointersClear || hook == .derivedPointersUpdate)
    if !silent then note (.hook hook seen)
  scheduleFinalizer := note .scheduleFinalizer
  unloadClasses alive := do
    let answers ← Act.read fun m => askAll alive m m.env.host.loaders
    note (.unloadClasses answers)
  swapPending new := do
    let old := (← get).env.host.pending
    modify fun m => { m with env.host.pending := new }
    note (.swapPending new old)
    return old

end Safepoint.Scripted
