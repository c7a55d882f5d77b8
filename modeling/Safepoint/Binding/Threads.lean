import Safepoint.Binding.Basic

/-!
Threads of a binding: mutators that come and go, and collector threads that are started for
the collector.
-/
namespace Safepoint.Binding

variable {μ ε α : Type} (b : Binding μ ε)

/-- Register the calling thread, and have the collector set up its state for it. -/
def registerMutator (me : ThreadId) (name : Option String) :
    Act (State μ ε) (Except Error MutatorId) := do
  match (← get).registry.reserve me with
  | .error e => return .error e
  | .ok (id, registry) =>
    modify fun s => { s with registry }
    let state ← onMachine (b.engine.bind id)
    let mutator : Mutator := ⟨id, me, name⟩
    modify fun s => { s with registry := (s.registry.addId mutator state).addThread mutator }
    return .ok id

/-- Take the calling thread out of the registry; the collector's state for it comes back. -/
def deregisterCurrent (me : ThreadId) :
    Act (State μ ε) (Except Violation (MutatorId × Option μ)) := do
  match (← get).registry.deregister me with
  | .error breach => return .error breach
  | .ok (id, state, registry) =>
    modify fun s => { s with registry }
    return .ok (id, state)

/-- What a mutator does to leave, which only happens while the world is running. -/
def depart (me : ThreadId) : Act (State μ ε) (Except Violation Unit) := do
  match ← deregisterCurrent me with
  | .error breach => return .error breach
  | .ok (_, none) => return .ok ()
  | .ok (_, some state) =>
    onMachine (b.engine.destroy state)
    return .ok ()

/-- What a thread waits for in its safe region. -/
inductive Parked where
  /-- A cycle that completes after this count. -/
  | collection (snapshot : UInt64)
  /-- The world to run again, in order to leave it. -/
  | departure
  deriving DecidableEq

/-- Whether the wait is over. -/
def Parked.isOver (c : Coordinator) : Parked → Bool
  | .collection snapshot => c.isPast snapshot
  | .departure => !c.isStopped

/-- Remove the calling mutator. While the world is stopped the thread parks first, so that no
collector sees its state disappear. -/
def deregisterMutator (me : ThreadId) : Act (State μ ε) (Option Parked) := do
  if ((← get).registry.current me).isNone then violation (.unregisteredThread me)
  match ← Handshake.leave State.worldPlace (b.threads me) (b.depart me) with
  | none => return some .departure
  | some removed =>
    insist removed
    return none

/-- Carry out a departure that had to wait. -/
def finishDeregister (me : ThreadId) : Act (State μ ε) Unit := do
  insist (← Handshake.finishLeave State.worldPlace (b.threads me) (b.depart me))

/-- Run a call on the collector's state for the calling mutator. What the call leaves is kept,
also after a fault. -/
def withMutator (me : ThreadId) (act : Act (Attached μ ε) α) : Act (State μ ε) α := fun s =>
  match s.registry.current me with
  | none =>
    match s.registry.requireMutator me with
    | .error breach => violation breach s
    | .ok mutator => violation (.unknownMutator mutator.id) s
  | some mutator =>
    match s.registry.states[mutator.id]? with
    | none => violation (.unknownMutator mutator.id) s
    | some state =>
      let (result, left) := act ⟨state, s.machine⟩
      let states := s.registry.states.insert mutator.id left.mutator
      (result, { s with machine := left.machine, registry := { s.registry with states } })

/-- Have the host start a collector thread. The result is its name. -/
def spawnCollector (tag : Int) : Act (State μ ε) (CollectorKind × String) := do
  match CollectorKind.ofTag tag with
  | .error _ => violation (.unexpectedCollectorKind tag)
  | .ok kind =>
    let (name, registry) := (← get).registry.recordSpawn kind
    modify fun s => { s with registry }
    if ← onMachine (b.host.spawnThread kind name) then return (kind, name)
    Act.fault (.terminated (.spawnFailed kind))

/-- The first thing a started collector thread does. -/
def enterCollector (me : ThreadId) (kind : CollectorKind) : Act (State μ ε) Unit := do
  let registry ← insist ((← get).registry.registerCollector me kind)
  modify fun s => { s with registry }

/-- The last thing it does. -/
def exitCollector (me : ThreadId) : Act (State μ ε) Unit :=
  modify fun s => { s with registry := s.registry.deregisterCollector me }

end Safepoint.Binding
