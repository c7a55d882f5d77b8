import Safepoint.Act

/-!
References embedded in compiled code. A blob is registered with its slots. In each cycle it is
claimed at most once, by whoever reaches it first, and only the one who claims it reports its
slots. Blobs registered since the last scan of the table wait in a nursery.
-/
namespace Safepoint

/-- A registered blob, and the last cycle in which it was claimed. -/
structure CodeEntry where
  slots : List Slot
  claimed : UInt64
  deriving DecidableEq

namespace CodeEntry

/-- A blob can be claimed once in each cycle. -/
def isFree (entry : CodeEntry) (epoch : UInt64) : Bool := entry.claimed < epoch

def claim (entry : CodeEntry) (epoch : UInt64) : CodeEntry :=
  if entry.isFree epoch then { entry with claimed := epoch } else entry

end CodeEntry

abbrev CodeMap := Std.ExtTreeMap CodeId CodeEntry

structure CodeTable where
  nursery : CodeMap := {}
  mature : CodeMap := {}
  epoch : UInt64 := 0

namespace CodeTable

/-- The first half of a registration: no entry of an earlier scan remains. -/
def dropMature (table : CodeTable) (code : CodeId) : CodeTable :=
  { table with mature := table.mature.erase code }

/-- The second half: the new entry is in the nursery. -/
def addNursery (table : CodeTable) (code : CodeId) (slots : List Slot) : CodeTable :=
  { table with nursery := table.nursery.insert code ⟨slots, 0⟩ }

/-- Record the slots in a blob, in place of any earlier record. -/
def register (table : CodeTable) (code : CodeId) (slots : List Slot) : CodeTable :=
  (table.dropMature code).addNursery code slots

def dropNursery (table : CodeTable) (code : CodeId) : CodeTable :=
  { table with nursery := table.nursery.erase code }

/-- Forget a blob. The result tells whether it was known. -/
def unregister (table : CodeTable) (code : CodeId) : Bool × CodeTable :=
  (code ∈ table.nursery || code ∈ table.mature, (table.dropNursery code).dropMature code)

/-- Start a cycle, in which every blob may be claimed again. -/
def beginCycle : Act CodeTable UInt64 := do
  let table ← get
  set { table with epoch := table.epoch + 1 }
  if table.epoch + 1 = 0 then Act.panic .addOverflow
  return table.epoch + 1

def lookup (table : CodeTable) (code : CodeId) : Option CodeEntry :=
  table.mature[code]? <|> table.nursery[code]?

/-- Note a claim wherever the blob is. -/
def put (table : CodeTable) (code : CodeId) (entry : CodeEntry) : CodeTable :=
  if code ∈ table.mature then { table with mature := table.mature.insert code entry }
  else { table with nursery := table.nursery.insert code entry }

/-- Claim a blob. The slots are the claimer's to report; there are none if the blob is not
known or was claimed before in this cycle. -/
def claim (table : CodeTable) (code : CodeId) : Option (List Slot) × CodeTable :=
  match table.lookup code with
  | none => (none, table)
  | some entry =>
    if entry.isFree table.epoch then (some entry.slots, table.put code (entry.claim table.epoch))
    else (none, table)

/-- Take everything out of the nursery. -/
def takeNursery (table : CodeTable) : CodeMap × CodeTable :=
  (table.nursery, { table with nursery := {} })

/-- Add what was in the nursery to the rest. -/
def promote (table : CodeTable) (entries : List (CodeId × CodeEntry)) : CodeTable :=
  { table with mature := entries.foldl (fun mature e => mature.insert e.1 e.2) table.mature }

section Scan

variable {ρ : Type} (visit : List Slot → Act ρ Unit)

def tablePlace : Place (CodeTable × ρ) CodeTable := ⟨Prod.fst, fun table s => (table, s.2)⟩

def visitPlace : Place (CodeTable × ρ) ρ := ⟨Prod.snd, fun r s => (s.1, r)⟩

/-- Claim an entry that belongs to the rest, and report it. -/
def scanMature (epoch : UInt64) (e : CodeId × CodeEntry) : Act (CodeTable × ρ) Nat := do
  if e.2.isFree epoch then
    modify fun s => ({ s.1 with mature := s.1.mature.insert e.1 (e.2.claim epoch) }, s.2)
    Act.within visitPlace (visit e.2.slots)
    return e.2.slots.length
  else return 0

/-- Report an entry out of the nursery, if it is free. -/
def scanNursery (epoch : UInt64) (e : CodeId × CodeEntry) : Act (CodeTable × ρ) Nat := do
  if e.2.isFree epoch then
    Act.within visitPlace (visit e.2.slots)
    return e.2.slots.length
  else return 0

/-- Report every blob that is still free, first those of earlier scans and then the nursery,
each in ascending order of their ids. What was in the nursery then joins the rest. The result
is the number of slots reported. -/
def scan : Act (CodeTable × ρ) Nat := do
  let epoch := (← get).1.epoch
  let nursery ← Act.within tablePlace (modifyGet takeNursery)
  let mature := (← get).1.mature
  let counts ← mature.toList.mapM (scanMature visit epoch)
  let more ← nursery.toList.mapM (scanNursery visit epoch)
  Act.within tablePlace (modify fun table =>
    table.promote (nursery.toList.map fun e => (e.1, e.2.claim epoch)))
  return (counts ++ more).foldl (· + ·) 0

end Scan

/-- The blobs whose last claim is of this cycle, ascending. -/
def claimed (table : CodeTable) : List CodeId :=
  let inMap (map : CodeMap) : List CodeId :=
    (map.toList.filter fun e => e.2.claimed == table.epoch).map Prod.fst
  (inMap table.mature ++ inMap table.nursery).mergeSort fun a b => a.value ≤ b.value

end CodeTable

end Safepoint
