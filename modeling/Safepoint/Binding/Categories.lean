import Safepoint.Binding.Roots

/-!
Scans of several categories of roots, each into a sink of its own: one after another or, where
options ask for it, side by side. Scans side by side compete for code alone, and a blob is
reported by whoever claims it first.
-/
namespace Safepoint.Binding

variable {σ μ ε τ α : Type}

/-- Calls one after another, up to the first that is refused. -/
def inOrder : List (Act σ (Except Violation α)) → Act σ (Except Violation (List α))
  | [] => return .ok []
  | call :: calls => do
    match ← call with
    | .error breach => return .error breach
    | .ok first =>
      match ← inOrder calls with
      | .error breach => return .error breach
      | .ok others => return .ok (first :: others)

/-- A part of a scan of stacks that no other scan comes into. A scan of the table of code holds
the lock of the table throughout, and of such a scan and a claim that meet, one marks the blob
first. So a claim counts as before all of the scan or as after all of it. -/
inductive Leg where
  | stack (id : MutatorId)
  | code (id : MutatorId)
  | blob (code : CodeId)
  deriving DecidableEq

variable (b : Binding μ ε) (sink : Sink τ) (start : τ)

namespace Leg

/-- Walk a leg up to where another scan may come in. What is left of it comes back as legs. -/
def turn : Leg → Scan μ ε τ (List Leg)
  | .stack id => do
    visitStack b sink id
    return []
  | .code id => do return (← Scan.walk (b.host.threadCode id)).map .blob
  | .blob found => do
    visitBlob sink found
    return []

/-- Walk all of a leg. -/
def whole : Leg → Scan μ ε τ Unit
  | .stack id => visitStack b sink id
  | .code id => visitThreadCode b sink id
  | .blob found => visitBlob sink found

end Leg

/-- The legs of the scan of one mutator's stack, in their order. -/
def legs (id : MutatorId) : List Leg :=
  if b.options.relocateCode then [.stack id, .code id] else [.code id, .stack id]

/-- The scan of one category, as far as it has come. -/
inductive ScanJob (τ : Type) where
  | ahead (category : RootCategory)
  | walking (legs : List Leg) (reporter : Reporter τ)
  | ended (outcome : Except Fault (Except Violation (RootCategory × τ)))

/-- Begin to scan the stacks of all mutators. -/
def openStacks : Act (State μ ε) (ScanJob τ) := do
  let registry := (← get).registry
  match registry.mutatorIds.find? fun id => (registry.get id).isNone with
  | some missing => return .ended (.ok (.error (.unknownMutator missing)))
  | none =>
    match Reporter.start sink start with
    | .error cause => return .ended (.error (.panic cause))
    | .ok reporter => return .walking (registry.mutatorIds.flatMap b.legs) reporter

/-- One turn of a job. A fault ends the job; the others go on. -/
def advance : ScanJob τ → Act (State μ ε) (ScanJob τ)
  | .ahead .threadStacks => b.openStacks sink start
  | .ahead category => fun s =>
    let (outcome, s) := (b.scanInto sink start category).run s
    (.ok (.ended outcome), s)
  | .walking [] reporter => return .ended (.ok (.ok (.threadStacks, reporter.close sink)))
  | .walking (leg :: legs) reporter => fun s =>
    match (Leg.turn b sink leg).run (s, reporter) with
    | (.ok more, s, reporter) => (.ok (.walking (more ++ legs) reporter), s)
    | (.error fault, s, _) => (.ok (.ended (.error fault)), s)
  | .ended outcome => return .ended outcome

/-- Whatever a job has still to do. -/
def finishJob : ScanJob τ → Act (State μ ε) (Except Violation (RootCategory × τ))
  | .ahead category => b.scanInto sink start category
  | .walking legs reporter => fun s =>
    match (legs.forM (Leg.whole b sink)).run (s, reporter) with
    | (.ok (), s, reporter) => (.ok (.ok (.threadStacks, reporter.close sink)), s)
    | (.error fault, s, _) => (.error fault, s)
  | .ended outcome => fun s => (outcome, s)

/-- A turn of the job at a place. -/
def takeTurn : Nat → List (ScanJob τ) → Act (State μ ε) (List (ScanJob τ))
  | _, [] => return []
  | 0, job :: jobs => return (← b.advance sink start job) :: jobs
  | place + 1, job :: jobs => return job :: (← takeTurn place jobs)

def takeTurns (turns : List Nat) (jobs : List (ScanJob τ)) : Act (State μ ε) (List (ScanJob τ)) :=
  turns.foldlM (fun jobs place => b.takeTurn sink start place jobs) jobs

/-- Scan categories one after another, each into a sink of its own that begins in `start`. -/
def scanInOrder (categories : List RootCategory) :
    Act (State μ ε) (Except Violation (List (RootCategory × τ))) :=
  inOrder (categories.map (b.scanInto sink start))

/-- Scan categories as options say, each into a sink of its own that begins in `start`. Scans side
by side take whatever turns chance gives them, each named by the place of its category, and do what
is left then one after another. -/
def scanCategories (turns : List Nat) (categories : List RootCategory) :
    Act (State μ ε) (Except Violation (List (RootCategory × τ))) :=
  if b.options.parallelRootScan then do
    inOrder ((← b.takeTurns sink start turns (categories.map .ahead)).map (b.finishJob sink start))
  else b.scanInOrder sink start categories

end Safepoint.Binding
