import Safepoint.Binding.Barriers
import Safepoint.Binding.Categories
import Safepoint.Binding.Weak
import Safepoint.Scripted.Engine
import Safepoint.Scripted.Host

/-!
Sessions: several threads take turns on a binding between a scripted host and a scripted
collector. Only one of them moves at a time. A thread that enters a safe region waits there, and
after the turn in which a cycle completes every waiting thread goes on, in the order in which
they came to wait.
-/
namespace Safepoint.Scripted

open Binding (Parked)

/-- A thread in its safe region. -/
structure Waiter where
  thread : ThreadId
  wait : Parked

/-- A binding in use. `guards` counts, for each thread, the registrations that the thread has
still to give up. -/
structure Session where
  world : Binding.State Ops Script
  met : List ThreadId := []
  guards : Std.ExtTreeMap ThreadId Nat := {}
  waiting : List Waiter := []

/-- What a turn comes to. -/
inductive Outcome (α : Type) where
  | returned (a : α)
  | faulted (cause : Fault)
  /-- The thread entered its safe region and waits. -/
  | waits
  /-- The thread is still waiting from an earlier turn, and did nothing. -/
  | busy

/-- A thread that went on, what its call returned, and what it logged since it began to wait. -/
structure Woken where
  thread : ThreadId
  result : Except Fault (Option UInt64)
  log : List Event

structure Turn (α : Type) where
  outcome : Outcome α
  log : List Event
  woken : List Woken

abbrev ScriptedBinding := Binding Ops Script

namespace Session

variable {α : Type} (b : ScriptedBinding)

def worldPlace : Place Session (Binding.State Ops Script) :=
  ⟨world, fun world s => { s with world }⟩

/-- A call on the binding. -/
def onWorld (act : Act (Binding.State Ops Script) α) : Act Session α := Act.within worldPlace act

/-- A call on what the script says. -/
def onScript (f : Script → Script) : Act Session Unit :=
  modify fun s => { s with world.machine.env := f s.world.machine.env }

/-- Take the log away. -/
def takeLog (w : Binding.State Ops Script) : List Event × Binding.State Ops Script :=
  (w.machine.env.log, { w with machine.env.log := [] })

/-- Run a call on an empty log, and hand out what it logged. -/
def logged (act : Act (Binding.State Ops Script) α) (w : Binding.State Ops Script) :
    Except Fault α × List Event × Binding.State Ops Script :=
  let before := w.machine.env.log
  let (result, w) := act.run { w with machine.env.log := [] }
  let (log, w) := takeLog w
  (result, log, { w with machine.env.log := before })

/-- The mutators that were stopped, with the calls each of them has made. -/
def stop (me : ThreadId) (unload : Bool) :
    Act (Binding.State Ops Script) (List (Mutator × Nat)) := do
  let visited ← b.stopAllMutators me unload
  let states := (← get).registry.states
  return visited.map fun mutator => (mutator, ((states[mutator.id]?).map Ops.ops).getD 0)

/-- Log what a call within a cycle comes to. -/
def logCycle (act : Act (Binding.State Ops Script) CycleReply) :
    Act (Binding.State Ops Script) Unit := fun w =>
  let (outcome, log, w) := logged act w
  Binding.onMachine (note (.cycle outcome log)) w

/-- A whole cycle by the thread `g`. -/
def cycle (g : ThreadId) : Act (Binding.State Ops Script) Unit := do
  logCycle do return .stopped (← stop b g false)
  logCycle do return .resumed (← b.resumeMutators g)

/-- Ask for a cycle and wait for it. If `runner` is given, that thread runs the cycle before the
request returns. -/
def collect (me : ThreadId) (runner : Option ThreadId) : Act Session Parked := do
  match runner with
  | none => onWorld (b.collect me)
  | some g =>
    let busy := (← get).waiting.any (·.thread = g)
    modify fun s => { s with met := if g ∈ s.met then s.met else s.met ++ [g] }
    onWorld (b.blockWith me fun id => do
      Binding.onMachine (b.engine.requestCollection id)
      if busy then
        logCycle (pure (.busy g))
        logCycle (pure (.busy g))
      else cycle b g)

def register (me : ThreadId) (name : Option String) : Act Session (Except Error MutatorId) := do
  let outcome ← onWorld (b.registerMutator me name)
  if outcome.toBool then
    modify fun s => { s with guards := s.guards.insert me (s.guards.getD me 0 + 1) }
  return outcome

/-- Give up the newest registration of the thread, if there is one left. -/
def dropGuard (me : ThreadId) : Act Session (Option Parked) := do
  match (← get).guards.getD me 0 with
  | 0 => return none
  | rest + 1 =>
    modify fun s => { s with guards := s.guards.insert me rest }
    onWorld (b.deregisterMutator me)

/-- Remove the thread, whatever registrations it has still to give up. -/
def deregister (me : ThreadId) : Act Session (Option Parked) := do
  modify fun s => { s with guards := s.guards.erase me }
  onWorld (b.deregisterMutator me)

/-- Start a collector thread. The result is its name. -/
def spawn (tag : Int) (thread : ThreadId) : Act Session String := do
  let (kind, name) ← onWorld (b.spawnCollector tag)
  onWorld (Binding.enterCollector thread kind)
  modify fun s => { s with met := s.met ++ [thread] }
  return name

/-- A waiting thread goes on. -/
def finish (w : Waiter) : Act (Binding.State Ops Script) (Option UInt64) :=
  match w.wait with
  | .collection snapshot => some <$> b.finishBlock w.thread snapshot
  | .departure => do
    b.finishDeregister w.thread
    return none

/-- Every waiting thread goes on in turn. -/
def wakeAll : List Waiter → Binding.State Ops Script → List Woken × Binding.State Ops Script
  | [], w => ([], w)
  | waiter :: rest, w =>
    let (result, log, w) := logged (finish b waiter) w
    let (others, w) := wakeAll rest w
    (⟨waiter.thread, result, log⟩ :: others, w)

/-- End a call that may have to wait. The result is none if it does. -/
def settle (me : ThreadId) (resumed : Option UInt64 → α) : α ⊕ Parked → Act Session (Option α)
  | .inl a => return some a
  | .inr wait => do
    if wait.isOver (← get).world.world then return some (resumed (← onWorld (finish b ⟨me, wait⟩)))
    modify fun s => { s with waiting := s.waiting ++ [⟨me, wait⟩] }
    return none

/-- One turn of the thread `me`. A call that has to wait returns what `resumed` makes of the
result once it goes on. -/
def turn (me : ThreadId) (resumed : Option UInt64 → α) (call : Act Session (α ⊕ Parked))
    (s : Session) : Turn α × Session :=
  let s := if me ∈ s.met then s else { s with met := s.met ++ [me] }
  if s.waiting.any (·.thread = me) then (⟨.busy, [], []⟩, s)
  else
    let before := s.world.world.generation
    let (outcome, s) := (call >>= settle b me resumed).run s
    let (log, world) := takeLog s.world
    let s := { s with world }
    let outcome := match outcome with
      | .ok (some a) => .returned a
      | .ok none => .waits
      | .error cause => .faulted cause
    if s.world.world.generation = before then (⟨outcome, log, []⟩, s)
    else
      let (woken, world) := wakeAll b s.waiting s.world
      (⟨outcome, log, woken⟩, { s with world, waiting := [] })

/-- A scan into a sink. What the sink was handed comes back also after a fault. -/
def scan (act : Act (Binding.State Ops Script × FlushLog) α) (s : Session) :
    Except Fault α × FlushLog × Session :=
  let (outcome, world, log) := act.run (s.world, [])
  (outcome, log, { s with world })

/-- Scan categories, each into a sink with the room that options give it. What the walkers log is
kept only if the scan faults, and then only if the calling thread did the walking, which it does
not where several categories are scanned side by side. -/
def scanCategories (categories : List RootCategory) :
    Act Session (Except Violation (List (RootCategory × FlushLog))) := fun s =>
  let before := s.world.machine.env.log
  let (outcome, world) :=
    (b.scanCategories (.collecting b.options.rootBufferCapacity) [] [] categories).run s.world
  let elsewhere := b.options.parallelRootScan && 1 < categories.length
  let world := if outcome.toBool || elsewhere then { world with machine.env.log := before } else world
  (outcome, { s with world })

end Session

end Safepoint.Scripted
