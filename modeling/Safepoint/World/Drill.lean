import Safepoint.World.Coordinator

/-!
Drills: one thread exercises a coordinator, with a host that only keeps a log. The callback of
a call runs further steps, to any depth, so a drill can call the coordinator from inside its
own callbacks.
-/
namespace Safepoint

namespace Drill

inductive Step where
  | stop (inner : List Step)
  | start (inner : List Step)
  | leave
  | block (inner : List Step)
  | awaitNext (inner : List Step)
  | snapshot
  | waitPast (index : Nat)
  | waitPastFor (index : Nat)
  | look

/-- What a step returns. -/
inductive Reply where
  | nothing
  | count (generation : UInt64)
  | departed

/-- Moments the log shows. -/
inductive Moment where
  | callback | suspendAll | resumeAll | enterSafeRegion | leaveSafeRegion

inductive Entry where
  | moment (moment : Moment) (seen : Coordinator)
  | reply (outcome : Except Fault (Except Violation Reply))

end Drill

/-- A coordinator, the log so far with the latest entry first, and the counts that were kept. -/
structure Drill where
  world : Coordinator := {}
  log : List Drill.Entry := []
  snapshots : List UInt64 := []

namespace Drill

def place : Place Drill Coordinator := ⟨world, fun world d => { d with world }⟩

def note (moment : Moment) : Act Drill Unit :=
  modify fun d => { d with log := .moment moment d.world :: d.log }

def threads : ThreadControl Drill where
  suspendAll := note .suspendAll
  resumeAll := note .resumeAll
  enterSafeRegion := note .enterSafeRegion
  leaveSafeRegion := note .leaveSafeRegion

/-- The count kept at `index`. -/
def kept (index : Nat) : Act Drill UInt64 := do
  match (← get).snapshots[index]? with
  | some snapshot => return snapshot
  | none => Act.fault .stuck

mutual

/-- Carry out one step. -/
def perform : Step → Act Drill (Except Violation Reply)
  | .stop inner => do
    return (← Handshake.stop place threads (callback inner)).map fun () => .nothing
  | .start inner => do
    return (← Handshake.start place threads (callback inner)).map .count
  | .leave => do
    match ← Handshake.leave place threads (pure ()) with
    | some () => return .ok .departed
    | none =>
      Handshake.finishLeave place threads (pure ())
      return .ok .departed
  | .block inner => do
    let snapshot ← Handshake.block place threads (callback inner)
    return .ok (.count (← Handshake.finishBlock place threads snapshot))
  | .awaitNext inner => do
    return .ok (.count (← Handshake.awaitNext place (callback inner)))
  | .snapshot => do
    let d ← get
    set { d with snapshots := d.snapshots ++ [d.world.generation] }
    return .ok (.count d.world.generation)
  | .waitPast index => do
    return .ok (.count (← Handshake.waitPast place (← kept index)))
  | .waitPastFor index => do
    let snapshot ← kept index
    let world := (← get).world
    return .ok (if world.isPast snapshot then .count world.generation else .nothing)
  | .look => return .ok .nothing

/-- A callback notes that it runs, then carries out its steps and notes each outcome. A count
that was kept in a callback is there until the callback returns. -/
def callback (inner : List Step) : Act Drill Unit := do
  note .callback
  let before := (← get).snapshots
  performAll inner
  modify fun d => { d with snapshots := before }

def performAll : List Step → Act Drill Unit
  | [] => return ()
  | step :: rest => do
    fun d =>
      let (outcome, d) := (perform step).run d
      (.ok (), { d with log := .reply outcome :: d.log })
    performAll rest

end

/-- What a step of the drill showed. -/
structure Answer where
  outcome : Except Fault (Except Violation Reply)
  log : List Entry
  world : Coordinator

/-- Carry out a step on an empty log. -/
def answer (step : Step) (d : Drill) : Answer × Drill :=
  let (outcome, d) := (perform step).run { d with log := [] }
  (⟨outcome, d.log.reverse, d.world⟩, d)

/-- Carry out steps one after another, whatever their outcomes. -/
def answers : List Step → Drill → List Answer
  | [], _ => []
  | step :: rest, d => let (a, d) := answer step d; a :: answers rest d

end Drill

end Safepoint
