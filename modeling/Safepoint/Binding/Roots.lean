import Safepoint.Binding.Basic
import Safepoint.Edges.Reporter

/-!
Root scans. Each scan walks one source and reports its slots to a sink. Threads come in the
order of their ids, and a blob of code is reported by whoever claims it first.
-/
namespace Safepoint.Binding

variable {μ ε τ ρ α : Type} (b : Binding μ ε) (sink : Sink τ)

/-- A scan under way: the state of the binding, and a reporter. -/
abbrev Scan (μ ε τ : Type) := Act (State μ ε × Reporter τ)

namespace Scan

def statePlace : Place (State μ ε × Reporter τ) (State μ ε) := ⟨Prod.fst, fun s p => (s, p.2)⟩

def reporterPlace : Place (State μ ε × Reporter τ) (Reporter τ) := ⟨Prod.snd, fun r p => (p.1, r)⟩

/-- The binding's table of code, beside the reporter. -/
def codePlace : Place (State μ ε × Reporter τ) (CodeTable × Reporter τ) :=
  ⟨fun p => (p.1.codeTable, p.2), fun q p => ({ p.1 with codeTable := q.1 }, q.2)⟩

/-- A walk of the host. -/
def walk (act : Act (Machine ε) α) : Scan μ ε τ α := Act.within statePlace (onMachine act)

def report (slots : List Slot) : Scan μ ε τ Unit :=
  Act.within reporterPlace (Reporter.visitAll sink slots)

end Scan

/-- Which mutators a scan of stacks covers. -/
inductive ThreadSelector where
  | all
  | one (id : MutatorId)
  | subset (ids : List MutatorId)

/-- The ids selected. A subset is put in ascending order, each id once. -/
def ThreadSelector.ids (registry : Registry μ) : ThreadSelector → List MutatorId
  | .all => registry.mutatorIds
  | .one id => [id]
  | .subset ids => (Std.ExtTreeSet.ofList ids).toList

/-- Claim a blob that has a frame on a stack, and report it. -/
def visitBlob (code : CodeId) : Scan μ ε τ Unit := do
  match ← Act.within Scan.statePlace (Act.within State.codePlace (modifyGet (·.claim code))) with
  | none => return ()
  | some slots => Scan.report sink slots

/-- The code with frames on a mutator's stack. -/
def visitThreadCode (id : MutatorId) : Scan μ ε τ Unit := do
  (← Scan.walk (b.host.threadCode id)).forM (visitBlob sink)

def visitStack (id : MutatorId) : Scan μ ε τ Unit := do
  Scan.report sink (← Scan.walk (b.host.threadStack id))

/-- The stack of a mutator and the code on it. Where code is relocated, the stack goes first,
so that every blob the thread claims is known before it is fixed up. -/
def visitThread (id : MutatorId) : Scan μ ε τ Unit :=
  if b.options.relocateCode then do
    visitStack b sink id
    visitThreadCode b sink id
  else do
    visitThreadCode b sink id
    visitStack b sink id

/-- Scan the stacks of the selected mutators. All of them have to be registered, or else
nothing is scanned. -/
def scanThreads (selector : ThreadSelector) : Act (State μ ε × τ) (Except Violation Nat) := do
  let registry := (← get).1.registry
  let ids := selector.ids registry
  match ids.find? fun id => (registry.get id).isNone with
  | some missing => return .error (.unknownMutator missing)
  | none => return .ok (← reporting sink (ids.forM (visitThread b sink)))

def scanGlobals (table : GlobalRoots) : Act (State μ ε × τ) Nat :=
  reporting sink do Scan.report sink (← Scan.walk (b.host.globals table))

def scanStrings (filter : LiveFilter) : Act (State μ ε × τ) Nat :=
  reporting sink do Scan.report sink (← Scan.walk (b.host.stringTable filter))

/-- Scan the table of registered code. -/
def scanCode : Act (State μ ε × τ) Nat :=
  reporting sink do
    let _ ← Act.within Scan.codePlace (CodeTable.scan (Reporter.visitAll sink))

/-- Scan the host's weak storage, and the nursery of weak handles if only entries not yet
known to be kept are wanted. -/
def scanWeak (filter : LiveFilter) : Act (State μ ε × τ) Nat :=
  reporting sink do
    Scan.report sink (← Scan.walk (b.host.weakProcessor filter))
    if filter = .nonStuckOnly then
      Scan.report sink
        (← Act.within Scan.statePlace (Act.within State.weakPlace (modifyGet (·.takeNursery))))

/-- Scan the class-loader graph: strong edges to one sink, weak edges to another. The result
is the number of strong ones. -/
def scanLoaders (weakSink : Sink ρ) (policy : LoaderScan) : Act ((State μ ε × ρ) × τ) Nat :=
  reporting sink (Act.within inner do let _ ← reporting weakSink walkEdges)
where
  inner : Place ((State μ ε × ρ) × Reporter τ) ((State μ ε × Reporter τ) × ρ) :=
    ⟨fun p => ((p.1.1, p.2), p.1.2), fun q _ => ((q.1.1, q.2), q.1.2)⟩
  strong : Place ((State μ ε × Reporter τ) × Reporter ρ) (Reporter τ) :=
    ⟨fun p => p.1.2, fun r p => ((p.1.1, r), p.2)⟩
  weak : Place ((State μ ε × Reporter τ) × Reporter ρ) (Reporter ρ) :=
    ⟨fun p => p.2, fun r p => (p.1, r)⟩
  state : Place ((State μ ε × Reporter τ) × Reporter ρ) (State μ ε) :=
    ⟨fun p => p.1.1, fun s p => ((s, p.1.2), p.2)⟩
  walkEdges : Act ((State μ ε × Reporter τ) × Reporter ρ) Unit := do
    (← Act.within state (onMachine (b.host.classLoaderGraph policy))).forM fun edge =>
      if edge.weak then Act.within weak (Reporter.visit weakSink edge.slot)
      else Act.within strong (Reporter.visit sink edge.slot)

/-- Scan the class-loader graph with every edge taken as strong. -/
def scanLoadersStrong : Act (State μ ε × τ) Nat :=
  reporting sink do
    Scan.report sink ((← Scan.walk (b.host.classLoaderGraph .allStrong)).map LoaderEdge.slot)

/-- Scan the class-loader graph as options say. Where classes may be unloaded, weak edges are
dropped, and unloading decides what becomes of them. -/
def scanLoaderRoots : Act (State μ ε × τ) Nat :=
  if b.options.classUnloading then
    Act.within ⟨fun p => ((p.1, ([] : FlushLog)), p.2), fun q _ => (q.1.1, q.2)⟩
      (b.scanLoaders sink Sink.discarding .liveFiltered)
  else b.scanLoadersStrong sink

/-- What the configured collector wants of weak tables. -/
def defaultFilter : LiveFilter := .ofMode b.options.weakProcessing

/-- Scan one category as options say. -/
def scan (category : RootCategory) : Act (State μ ε × τ) (Except Violation Nat) :=
  match category with
  | .threadStacks => b.scanThreads sink .all
  | .global table => do return .ok (← b.scanGlobals sink table)
  | .codeCache => do return .ok (← scanCode sink)
  | .stringTable => do return .ok (← b.scanStrings sink b.defaultFilter)
  | .classLoaderGraph => do return .ok (← b.scanLoaderRoots sink)
  | .weakProcessor => do return .ok (← b.scanWeak sink b.defaultFilter)

/-- Scan one category into a sink of its own. -/
def scanInto (start : τ) (category : RootCategory) :
    Act (State μ ε) (Except Violation (RootCategory × τ)) := fun s =>
  match (b.scan sink category).run (s, start) with
  | (.ok (.ok _), s, t) => (.ok (.ok (category, t)), s)
  | (.ok (.error breach), s, _) => (.ok (.error breach), s)
  | (.error fault, s, _) => (.error fault, s)

end Safepoint.Binding
