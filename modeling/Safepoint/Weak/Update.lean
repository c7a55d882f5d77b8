import Safepoint.Engine
import Safepoint.Options

/-!
Weak slots after a cycle: one whose object moved is made to follow it, one whose object died is
cleared, and the rest is left alone.
-/
namespace Safepoint

/-- What became of a weak slot. -/
inductive WeakOutcome where
  | empty
  | kept
  | forwarded (target : ObjectRef)
  | cleared
  deriving DecidableEq

/-- How many slots were visited, and how many met each fate. -/
structure WeakStats where
  visited : Nat := 0
  kept : Nat := 0
  forwarded : Nat := 0
  cleared : Nat := 0
  deriving DecidableEq

def WeakStats.record (stats : WeakStats) (outcome : WeakOutcome) : WeakStats :=
  let stats := { stats with visited := stats.visited + 1 }
  match outcome with
  | .empty => stats
  | .kept => { stats with kept := stats.kept + 1 }
  | .forwarded _ => { stats with forwarded := stats.forwarded + 1 }
  | .cleared => { stats with cleared := stats.cleared + 1 }

/-- The test for weak slots, once the collector knows what is live. -/
structure WeakTest (μ ε : Type) where
  engine : Engine μ ε
  codec : PointerCodec
  mode : WeakProcessing

namespace WeakTest

variable {μ ε : Type} (test : WeakTest μ ε)

/-- A collector that does not say where its heap is has everything in it. -/
def inHeap (object : ObjectRef) : Bool :=
  match test.engine.heapRange with
  | some (start, limit) => start ≤ object.address && object.address < limit
  | none => true

def isAlive (m : Machine ε) (object : ObjectRef) : Except Panic Bool := do
  match test.mode with
  | .tracing =>
    if (← test.engine.forwarded m object).isSome then return true
    return test.engine.isLive m object
  | .referenceCounting =>
    if !test.inHeap object then return false
    if (← test.engine.forwarded m object).isSome then return true
    return 0 < test.engine.referenceCount m object

/-- Redirect or clear a slot as its object's fate demands. -/
def updateSlot (slot : Slot) : Act (Machine ε) WeakOutcome := do
  match ← Machine.peek (slot.load test.codec) with
  | none => return .empty
  | some object =>
    if test.mode = .referenceCounting ∧ !test.inHeap object then
      Machine.poke fun m => .ok (slot.clear m)
      return .cleared
    match ← Act.read fun m => test.engine.forwarded m object with
    | some target =>
      Machine.poke (slot.store test.codec (some target))
      return .forwarded target
    | none =>
      if ← Act.read fun m => test.isAlive m object then return .kept
      Machine.poke fun m => .ok (slot.clear m)
      return .cleared

/-- Update slots in order, counting their fates from `stats` on. -/
def updateAll (stats : WeakStats) (slots : List Slot) : Act (Machine ε) WeakStats :=
  slots.foldlM (fun stats slot => do return stats.record (← test.updateSlot slot)) stats

end WeakTest

end Safepoint
