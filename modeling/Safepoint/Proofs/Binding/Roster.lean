import Safepoint.Proofs.Binding.Stages
import Safepoint.Proofs.World.Innermost

/-!
# Mutators that come and go beside collectors that stop the world

A mutator leaves under the lock of the world, and only while the world runs; until it has left, no transition can be
made. So its state is destroyed while no collector looks, and a collector that has stopped the world finds every mutator
it was given where it was, until the world runs again.
-/
namespace Safepoint.Binding

open Handshake (Call Crowd Frame Stretch)

/-- Calls of many threads on the coordinator and the registry of a binding. -/
structure Roster (μ : Type) where
  crowd : Crowd := ⟨{}, []⟩
  registry : Registry μ := {}
  stages : ThreadId → Option (Stage μ) := fun _ => none
  /-- Who has the lock of the world. -/
  holder : Option ThreadId := none
  /-- How often the world was taken back to running. -/
  cycles : Nat := 0
  /-- The ids that were given away, the latest first. -/
  ids : List MutatorId := []
  bound : List (MutatorId × μ) := []
  destroyed : List (MutatorId × μ) := []
  /-- The mutators that were visited, and in which cycle. -/
  visited : List (Nat × Mutator) := []

namespace Roster

variable {μ : Type}

inductive Move (μ : Type) where
  /-- A thread begins a call, from outside or from code of the host. -/
  | call (thread : ThreadId) (call : Call)
  /-- A thread that sleeps in a call wakes for no reason. -/
  | rouse (thread : ThreadId)
  /-- A thread goes on with its call. -/
  | go (thread : ThreadId)
  /-- A thread begins to register, likewise. -/
  | register (thread : ThreadId) (name : Option String)
  /-- The collector sets up its state for a thread that registers. -/
  | bind (thread : ThreadId) (state : μ)
  /-- A thread goes on with what goes through the registry. -/
  | next (thread : ThreadId)

def assign (s : Roster μ) (thread : ThreadId) (stage : Option (Stage μ)) : Roster μ :=
  { s with stages := Function.update s.stages thread stage }

/-- A transition was made. A thread whose stop is granted will visit the mutators. -/
def cross (s : Roster μ) (thread : ThreadId) (crowd : Crowd) : WorldState → Roster μ
  | .running => { s with crowd, cycles := s.cycles + 1 }
  | .suspended => { s.assign thread (some (.stopped s.cycles)) with crowd }
  | _ => { s with crowd }

/-- Go on with a call, under the lock of the world if need be. Whoever is to leave keeps the lock if the world runs. -/
def go (s : Roster μ) (thread : ThreadId) : Option (Roster μ) :=
  match s.crowd.ahead thread with
  | some (.transition target) =>
    if s.holder.isSome then none
    else (s.crowd.move (.go thread)).map fun crowd =>
      if s.crowd.world.state.successor = target then s.cross thread crowd target else { s with crowd }
  | some .departNow | some .departLater =>
    if s.holder.isSome then none
    else if s.crowd.world.state = .running then some { s.assign thread (some .leaving) with holder := some thread }
    else (s.crowd.move (.go thread)).map ({ s with crowd := · })
  | _ => (s.crowd.move (.go thread)).map ({ s with crowd := · })

/-- Go on with what goes through the registry. -/
def step (s : Roster μ) (thread : ThreadId) : Stage μ → Option (Roster μ)
  | .reserved _ _ => none
  | .bound mutator state =>
    some { s.assign thread (some (.listed mutator)) with registry := s.registry.addId mutator state }
  | .listed mutator => some { s.assign thread none with registry := s.registry.addThread mutator }
  | .leaving => (s.registry.current thread).map fun mutator =>
    { s.assign thread (some (.unlinked mutator)) with registry := s.registry.dropThread thread }
  | .unlinked mutator =>
    some { s.assign thread (some (.delisted mutator)) with registry := s.registry.dropId mutator.id }
  | .delisted mutator =>
    match s.registry.states[mutator.id]? with
    | none => some (s.assign thread (some .left))
    | some state => some { s.assign thread (some (.destroying mutator state)) with
        registry := s.registry.dropState mutator.id
        destroyed := (mutator.id, state) :: s.destroyed }
  | .destroying _ _ => some (s.assign thread (some .left))
  | .left => (s.crowd.move (.go thread)).map fun crowd => { s.assign thread none with crowd, holder := none }
  | .stopped cycle => some (s.assign thread (some (.visiting cycle s.registry.mutators)))
  | .visiting _ [] => some (s.assign thread none)
  | .visiting cycle (mutator :: rest) =>
    some { s.assign thread (some (.visiting cycle rest)) with visited := (cycle, mutator) :: s.visited }

def move (s : Roster μ) : Move μ → Option (Roster μ)
  | .call thread call =>
    if (s.stages thread).isNone ∧ (call = .leave → (s.registry.current thread).isSome) then
      (s.crowd.move (.call thread call)).map ({ s with crowd := · })
    else none
  | .rouse thread =>
    if (s.stages thread).isNone then (s.crowd.move (.rouse thread)).map ({ s with crowd := · }) else none
  | .go thread => if (s.stages thread).isNone then s.go thread else none
  | .register thread name =>
    if (s.stages thread).isNone ∧ (s.crowd.current thread).all Frame.atHost then
      match s.registry.reserve thread with
      | .error _ => some s
      | .ok (id, registry) =>
        some { s.assign thread (some (.reserved id name)) with registry, ids := id :: s.ids }
    else none
  | .bind thread state =>
    match s.stages thread with
    | some (.reserved id name) =>
      some { s.assign thread (some (.bound ⟨id, thread, name⟩ state)) with bound := (id, state) :: s.bound }
    | _ => none
  | .next thread => (s.stages thread).bind (s.step thread)

/-- What threads come to, in any order, if nobody was there at first. -/
def Reachable (s : Roster μ) : Prop := ∃ moves : List (Move μ), moves.foldlM move {} = some s

variable {s s' : Roster μ} {me : ThreadId} {stage : Option (Stage μ)} {cycle : Nat} {mutators : List Mutator}

/-- With nobody else around, a thread registers as it does in one piece. -/
theorem register_alone {name : Option String} {state : MutatorId → μ} {mutator : Mutator} {registry : Registry μ}
    (hidle : s.stages me = none) (hfree : (s.crowd.current me).all Frame.atHost)
    (hregister : s.registry.register me name state = .ok (mutator, registry)) :
    [.register me name, .bind me (state mutator.id), .next me, .next me].foldlM move s =
      some { s with registry, ids := mutator.id :: s.ids, bound := (mutator.id, state mutator.id) :: s.bound } := by
  rw [Registry.register_eq] at hregister
  cases hreserve : s.registry.reserve me with
  | error e =>
    rw [hreserve] at hregister
    cases hregister
  | ok taken =>
    rw [hreserve] at hregister
    cases hregister
    have hback : Function.update s.stages me none = s.stages := Function.update_eq_self_iff.2 hidle.symm
    simp [move, step, assign, hidle, hfree, hreserve, hback]

/-- With nobody else around, a thread that has the lock leaves as it does in one piece. -/
theorem leave_alone {id : MutatorId} {state : μ} {registry : Registry μ} (hleaving : s.stages me = some .leaving)
    (hderegister : s.registry.deregister me = .ok (id, some state, registry)) :
    [.next me, .next me, .next me, .next me].foldlM move s =
      some { s.assign me (some .left) with registry, destroyed := (id, state) :: s.destroyed } := by
  rw [Registry.deregister_eq] at hderegister
  cases hcurrent : s.registry.current me with
  | none =>
    rw [hcurrent] at hderegister
    cases hderegister
  | some mutator =>
    rw [hcurrent] at hderegister
    obtain ⟨rfl, hstate, rfl⟩ : mutator.id = id ∧
        (((s.registry.dropThread me).dropId mutator.id).states[mutator.id]? = some state) ∧
        ((s.registry.dropThread me).dropId mutator.id).dropState mutator.id = registry := by
      simpa using hderegister
    simp [move, step, assign, hleaving, hcurrent, hstate]

/-- What one move can do. -/
inductive Turn (s : Roster μ) : Roster μ → Prop
  /-- A thread that is registered already does not register. -/
  | refused : Turn s s
  /-- A call goes on and leaves the world where it is. -/
  | inside {m : Handshake.Move} {crowd : Crowd} (moved : s.crowd.move m = some crowd) (idle : s.stages m.thread = none)
      (state : crowd.world.state = s.crowd.world.state) : Turn s { s with crowd }
  | cross {me : ThreadId} {crowd : Crowd} (idle : s.stages me = none) (free : s.holder = none)
      (moved : s.crowd.move (.go me) = some crowd) : Turn s (s.cross me crowd crowd.world.state)
  | lock {me : ThreadId} (idle : s.stages me = none) (free : s.holder = none) (state : s.crowd.world.state = .running)
      (ahead : s.crowd.ahead me = some .departNow ∨ s.crowd.ahead me = some .departLater) :
      Turn s { s.assign me (some .leaving) with holder := some me }
  | reserve {me : ThreadId} (name : Option String) (idle : s.stages me = none) :
      Turn s { s.assign me (some (.reserved ⟨s.registry.nextId⟩ name)) with
        registry := { s.registry with nextId := s.registry.nextId + 1 }
        ids := ⟨s.registry.nextId⟩ :: s.ids }
  | bind {me : ThreadId} {id : MutatorId} {name : Option String} (state : μ)
      (reserved : s.stages me = some (.reserved id name)) :
      Turn s { s.assign me (some (.bound ⟨id, me, name⟩ state)) with bound := (id, state) :: s.bound }
  | next {s' : Roster μ} {me : ThreadId} {stage : Stage μ} (come : s.stages me = some stage)
      (made : s.step me stage = some s') : Turn s s'

theorem turn_of_go (hidle : s.stages me = none) (hm : s.go me = some s') : s.Turn s' := by
  unfold go at hm
  split at hm
  · rename_i target hahead
    split at hm
    · cases hm
    rename_i hheld
    obtain ⟨crowd, hcrowd, rfl⟩ := Option.map_eq_some_iff.1 hm
    have hstate := Crowd.state_of_go hcrowd
    rw [hahead] at hstate
    dsimp only at hstate
    split
    · rename_i hmade
      rw [if_pos hmade] at hstate
      rw [← hstate]
      exact .cross hidle (by simpa using hheld) hcrowd
    · rename_i hrefused
      rw [if_neg hrefused] at hstate
      exact .inside hcrowd hidle hstate
  all_goals
    have hinside (hm : (s.crowd.move (.go me)).map ({ s with crowd := · }) = some s')
        (hahead : ∀ target, s.crowd.ahead me ≠ some (.transition target)) : s.Turn s' := by
      obtain ⟨crowd, hcrowd, rfl⟩ := Option.map_eq_some_iff.1 hm
      refine .inside hcrowd hidle ?_
      have hstate := Crowd.state_of_go hcrowd
      split at hstate
      · rename_i target heq
        exact absurd heq (hahead target)
      · exact hstate
  · rename_i hahead
    split at hm
    · cases hm
    rename_i hheld
    split at hm
    · rename_i hrun
      cases hm
      exact .lock hidle (by simpa using hheld) hrun (.inl hahead)
    · exact hinside hm (by simp [hahead])
  · rename_i hahead
    split at hm
    · cases hm
    rename_i hheld
    split at hm
    · rename_i hrun
      cases hm
      exact .lock hidle (by simpa using hheld) hrun (.inr hahead)
    · exact hinside hm (by simp [hahead])
  · rename_i hahead _ _
    exact hinside hm hahead

theorem turn_of_move {m : Move μ} (hm : s.move m = some s') : s.Turn s' := by
  cases m with
  | call thread call =>
    simp only [move] at hm
    split at hm
    · rename_i hfree
      obtain ⟨crowd, hcrowd, rfl⟩ := Option.map_eq_some_iff.1 hm
      exact .inside hcrowd (Option.isNone_iff_eq_none.1 hfree.1) (Crowd.state_of_move hcrowd (by simp))
    · cases hm
  | rouse thread =>
    simp only [move] at hm
    split at hm
    · rename_i hfree
      obtain ⟨crowd, hcrowd, rfl⟩ := Option.map_eq_some_iff.1 hm
      exact .inside hcrowd (Option.isNone_iff_eq_none.1 hfree) (Crowd.state_of_move hcrowd (by simp))
    · cases hm
  | go thread =>
    simp only [move] at hm
    split at hm
    · rename_i hfree
      exact turn_of_go (Option.isNone_iff_eq_none.1 hfree) hm
    · cases hm
  | register thread name =>
    simp only [move] at hm
    split at hm
    · rename_i hfree
      split at hm
      · cases hm
        exact .refused
      · rename_i id registry hreserve
        rw [Registry.reserve] at hreserve
        split at hreserve
        · cases hreserve
        · cases hreserve
          cases hm
          exact .reserve name (Option.isNone_iff_eq_none.1 hfree.1)
    · cases hm
  | bind thread state =>
    simp only [move] at hm
    split at hm
    · rename_i id name hstage
      cases hm
      exact .bind state hstage
    · cases hm
  | next thread =>
    obtain ⟨stage, hstage, hm⟩ := Option.bind_eq_some_iff.1 hm
    exact .next hstage hm

/-- A cycle in which a thread was given mutators is over, or they are all where they were. -/
def Handed (s : Roster μ) (cycle : Nat) (mutators : List Mutator) : Prop :=
  cycle ≤ s.cycles ∧ (cycle = s.cycles → s.crowd.world.state ≠ .running ∧
    ∀ mutator ∈ mutators, s.registry.byId[mutator.id]? = some mutator)

/-- Whoever leaves has the lock, the world runs meanwhile, and whatever was handed to a collector is still there. -/
structure Sound (s : Roster μ) : Prop where
  account : Account s.ids (Stage.hands s.stages) s.registry.states s.bound s.destroyed
  filed : Filed s.registry s.stages
  lock : ∀ thread, (s.stages thread).any Stage.departs ↔ s.holder = some thread
  running : s.holder.isSome → s.crowd.world.state = .running
  ahead : ∀ thread, s.holder = some thread →
    s.crowd.ahead thread = some .departNow ∨ s.crowd.ahead thread = some .departLater
  visiting : ∀ thread cycle mutators, (s.stages thread).bind Stage.visits = some (cycle, mutators) →
    s.Handed cycle mutators
  visited : ∀ cycle mutator, (cycle, mutator) ∈ s.visited → s.Handed cycle [mutator]

/-- A move either begins another cycle, or leaves a world that does not run as it is, with every mutator in it. -/
theorem Handed.keep (h : s.Handed cycle mutators) (hcycles : s.cycles ≤ s'.cycles)
    (hkeep : s'.cycles = s.cycles → s.crowd.world.state ≠ .running → s'.crowd.world.state ≠ .running ∧
      ∀ (id : MutatorId) mutator, s.registry.byId[id]? = some mutator → s'.registry.byId[id]? = some mutator) :
    s'.Handed cycle mutators := by
  refine ⟨Nat.le_trans h.1 hcycles, fun heq => ?_⟩
  have hsame : s'.cycles = s.cycles := Nat.le_antisymm (heq ▸ h.1) hcycles
  obtain ⟨hstate, hthere⟩ := h.2 (heq.trans hsame)
  obtain ⟨hstate', hkept⟩ := hkeep hsame hstate
  exact ⟨hstate', fun mutator hmem => hkept _ mutator (hthere mutator hmem)⟩

theorem Handed.subset {others : List Mutator} (h : s.Handed cycle mutators) (hsub : others ⊆ mutators) :
    s.Handed cycle others :=
  ⟨h.1, fun heq => ⟨(h.2 heq).1, fun mutator hmem => (h.2 heq).2 mutator (hsub hmem)⟩⟩

namespace Sound

theorem fresh : Sound ({} : Roster μ) where
  account := .fresh
  filed := .fresh
  lock := by simp
  running := by simp
  ahead := by simp
  visiting := by simp
  visited := by simp

/-- A thread comes to its next stage in the registry. -/
theorem turn (h : s.Sound) {ids : List MutatorId} {registry : Registry μ} {bound destroyed : List (MutatorId × μ)}
    {visited : List (Nat × Mutator)}
    (haccount : Account ids (Function.update (Stage.hands s.stages) me (stage.bind Stage.hand)) registry.states bound
      destroyed)
    (hfiled : Filed registry (Function.update s.stages me stage))
    (hdeparts : stage.any Stage.departs = (s.stages me).any Stage.departs)
    (hkeep : s.crowd.world.state ≠ .running →
      ∀ (id : MutatorId) mutator, s.registry.byId[id]? = some mutator → registry.byId[id]? = some mutator)
    (hvisits : ∀ cycle mutators, stage.bind Stage.visits = some (cycle, mutators) → s.Handed cycle mutators)
    (hvisited : ∀ cycle mutator, (cycle, mutator) ∈ visited → s.Handed cycle [mutator]) :
    Sound { s.assign me stage with ids, registry, bound, destroyed, visited } := by
  have hdeparts' (thread : ThreadId) :
      (Function.update s.stages me stage thread).any Stage.departs = (s.stages thread).any Stage.departs := by
    by_cases hthread : thread = me
    · rw [hthread, Function.update_self, hdeparts]
    · rw [Function.update_of_ne hthread]
  have hkept {cycle : Nat} {mutators : List Mutator} (hhanded : s.Handed cycle mutators) :
      Handed { s.assign me stage with ids, registry, bound, destroyed, visited } cycle mutators :=
    hhanded.keep (Nat.le_refl _) fun _ hstate => ⟨hstate, hkeep hstate⟩
  exact {
    account := Stage.hands_update s.stages me stage ▸ haccount
    filed := hfiled
    lock := fun thread => by
      have hlock := h.lock thread
      rw [← hdeparts' thread] at hlock
      exact hlock
    running := h.running
    ahead := h.ahead
    visiting := fun thread cycle mutators hthread => by
      obtain ⟨new, hnew, hvisit⟩ := Option.bind_eq_some_iff.1 hthread
      obtain ⟨-, heq⟩ | ⟨-, hold⟩ := update_eq_some.1 hnew
      · exact hkept (hvisits cycle mutators (Option.bind_eq_some_iff.2 ⟨new, heq, hvisit⟩))
      · exact hkept (h.visiting thread cycle mutators (Option.bind_eq_some_iff.2 ⟨new, hold, hvisit⟩))
    visited := fun cycle mutator hmem => hkept (hvisited cycle mutator hmem) }

/-- A thread with nothing to do in the registry goes on with a call. The world goes on running for whoever leaves, and
does not run again. -/
theorem crowd (h : s.Sound) {m : Handshake.Move} {crowd : Crowd} (hm : s.crowd.move m = some crowd)
    (hstage : s.stages m.thread = none) (hrunning : s.holder.isSome → crowd.world.state = .running)
    (hstopped : s.crowd.world.state ≠ .running → crowd.world.state ≠ .running) : Sound { s with crowd } := by
  have hkept {cycle : Nat} {mutators : List Mutator} (hhanded : s.Handed cycle mutators) :
      Handed { s with crowd } cycle mutators :=
    hhanded.keep (Nat.le_refl _) fun _ hstate => ⟨hstopped hstate, fun _ _ hmem => hmem⟩
  exact {
    account := h.account
    filed := h.filed
    lock := h.lock
    running := hrunning
    ahead := fun thread hholder => by
      have hne : m.thread ≠ thread := by
        rintro rfl
        have hdeparts := (h.lock m.thread).2 hholder
        rw [hstage] at hdeparts
        cases hdeparts
      change crowd.ahead thread = _ ∨ crowd.ahead thread = _
      rw [Crowd.ahead_of_move hm hne]
      exact h.ahead thread hholder
    visiting := fun thread cycle mutators hthread => hkept (h.visiting thread cycle mutators hthread)
    visited := fun cycle mutator hmem => hkept (h.visited cycle mutator hmem) }

/-- A thread goes on with a call, and leaves the world where it is. -/
theorem inside (h : s.Sound) {m : Handshake.Move} {crowd : Crowd} (hm : s.crowd.move m = some crowd)
    (hstage : s.stages m.thread = none) (hstate : crowd.world.state = s.crowd.world.state) :
    Sound { s with crowd } := by
  refine h.crowd hm hstage (fun hholder => hstate.trans (h.running hholder)) fun hstopped => ?_
  rw [hstate]
  exact hstopped

/-- A thread has nothing more in hand than before. -/
theorem account_same (h : s.Sound) (hhand : stage.bind Stage.hand = (s.stages me).bind Stage.hand) :
    Account s.ids (Function.update (Stage.hands s.stages) me (stage.bind Stage.hand)) s.registry.states s.bound
      s.destroyed := by
  rw [Function.update_eq_self_iff.2 hhand]
  exact h.account

/-- A thread makes a transition. Nobody leaves meanwhile. -/
theorem cross {crowd : Crowd} (h : s.Sound) (hidle : s.stages me = none) (hfree : s.holder = none)
    (hm : s.crowd.move (.go me) = some crowd) : (s.cross me crowd crowd.world.state).Sound := by
  have hnobody {P : Prop} (hholder : s.holder.isSome) : P := by
    rw [hfree] at hholder
    cases hholder
  have hmoved (hstopped : crowd.world.state ≠ .running) : Sound { s with crowd } :=
    h.crowd hm hidle hnobody fun _ => hstopped
  cases hstate : crowd.world.state with
  | running =>
    -- the cycle is over, and what was handed out in it is nobody's any more
    have hover {cycle : Nat} {mutators : List Mutator} (hhanded : s.Handed cycle mutators) :
        Handed { s with crowd, cycles := s.cycles + 1 } cycle mutators :=
      hhanded.keep (Nat.le_succ _) fun hsame => absurd hsame (Nat.succ_ne_self _)
    exact {
      account := h.account
      filed := h.filed
      lock := h.lock
      running := hnobody
      ahead := fun thread hholder => hnobody (by rw [show s.holder = some thread from hholder]; rfl)
      visiting := fun thread cycle mutators hthread => hover (h.visiting thread cycle mutators hthread)
      visited := fun cycle mutator hmem => hover (h.visited cycle mutator hmem) }
  | suspended =>
    have hstopped : crowd.world.state ≠ .running := by simp [hstate]
    have hsuspended := hmoved hstopped
    have hplain : (s.stages me).bind Stage.hand = none := by
      rw [hidle]
      rfl
    refine hsuspended.turn (hsuspended.account_same hplain.symm) (h.filed.restage ?_ ?_) ?_ (fun _ _ _ hmem => hmem) ?_
      hsuspended.visited
    · intro mutator
      rw [hidle]
      simp
    · intro new hnew
      cases hnew
      trivial
    · change _ = (s.stages me).any Stage.departs
      rw [hidle]
      rfl
    · intro cycle mutators hvisit
      cases hvisit
      exact ⟨Nat.le_refl _, fun _ => ⟨hstopped, by simp⟩⟩
  | suspendRequested => exact hmoved (by simp [hstate])
  | resumeRequested => exact hmoved (by simp [hstate])

/-- A thread takes the lock to leave. -/
theorem locked (h : s.Sound) (hidle : s.stages me = none) (hfree : s.holder = none)
    (hrun : s.crowd.world.state = .running)
    (hahead : s.crowd.ahead me = some .departNow ∨ s.crowd.ahead me = some .departLater) :
    Sound { s.assign me (some .leaving) with holder := some me } := by
  have hplain : (some (.leaving : Stage μ)).bind Stage.hand = (s.stages me).bind Stage.hand := by
    rw [hidle]
    rfl
  exact {
    account := Stage.hands_update s.stages me _ ▸ h.account_same hplain
    filed := by
      refine h.filed.restage (fun mutator => ?_) (fun new hnew => ?_)
      · rw [hidle]
        simp
      · cases hnew
        trivial
    lock := fun thread => by
      change (Function.update s.stages me (some .leaving) thread).any Stage.departs ↔ some me = some thread
      by_cases hthread : thread = me
      · rw [hthread, Function.update_self]
        simp [Stage.departs]
      · rw [Function.update_of_ne hthread, h.lock thread, hfree]
        simp [Ne.symm hthread]
    running := fun _ => hrun
    ahead := fun thread hholder => by
      cases hholder
      exact hahead
    visiting := fun thread cycle mutators hthread => by
      obtain ⟨new, hnew, hvisit⟩ := Option.bind_eq_some_iff.1 hthread
      obtain ⟨-, heq⟩ | ⟨-, hold⟩ := update_eq_some.1 hnew
      · cases heq
        cases hvisit
      · exact h.visiting thread cycle mutators (Option.bind_eq_some_iff.2 ⟨new, hold, hvisit⟩)
    visited := h.visited }

/-- Whoever leaves is the only one, and does so while the world runs. -/
theorem departing {stage : Stage μ} (h : s.Sound) (hstage : s.stages me = some stage) (hdeparts : stage.departs) :
    s.holder = some me ∧ s.crowd.world.state = .running := by
  have hholder : s.holder = some me := by
    apply (h.lock me).1
    rw [hstage]
    exact hdeparts
  refine ⟨hholder, h.running ?_⟩
  rw [hholder]
  rfl

/-- A thread that is not about to take out a state comes to a stage the registry has nothing to do with. -/
theorem plain {stage : Stage μ} {next : Option (Stage μ)} (h : s.Sound) (hstage : s.stages me = some stage)
    (hold : ∀ mutator, stage ≠ .delisted mutator) (hnew : ∀ new, next = some new → new.Fits s.registry me)
    (hhand : next.bind Stage.hand = stage.hand) (hdeparts : next.any Stage.departs = stage.departs)
    {visited : List (Nat × Mutator)}
    (hvisits : ∀ cycle mutators, next.bind Stage.visits = some (cycle, mutators) → s.Handed cycle mutators)
    (hvisited : ∀ cycle mutator, (cycle, mutator) ∈ visited → s.Handed cycle [mutator]) :
    Sound { s.assign me next with visited } := by
  refine h.turn (h.account_same ?_) (h.filed.restage ?_ hnew) ?_ (fun _ _ _ hmem => hmem) hvisits hvisited
  · rw [hstage, hhand]
    rfl
  · intro mutator heq
    rw [hstage] at heq
    exact hold mutator (Option.some.inj heq)
  · rw [hstage, hdeparts]
    rfl

/-- The call a thread goes on with when it has left does not move the world. -/
theorem state_of_unlock {crowd : Crowd} (h : s.Sound) (hstage : s.stages me = some .left)
    (hm : s.crowd.move (.go me) = some crowd) : crowd.world.state = s.crowd.world.state := by
  have hgo := Crowd.state_of_go hm
  obtain hahead | hahead := h.ahead me (h.departing hstage rfl).1 <;>
  · rw [hahead] at hgo
    exact hgo

/-- The thread that has left gives the lock back and goes on with its call. -/
theorem unlock (h : s.Sound) (hstage : s.stages me = some .left) (crowd : Crowd) :
    Sound { s.assign me none with crowd, holder := none } := by
  obtain ⟨hholder, hrun⟩ := h.departing hstage rfl
  have hplain : (none : Option (Stage μ)).bind Stage.hand = (s.stages me).bind Stage.hand := by
    rw [hstage]
    rfl
  have hkept {cycle : Nat} {mutators : List Mutator} (hhanded : s.Handed cycle mutators) :
      Handed { s.assign me none with crowd, holder := none } cycle mutators :=
    hhanded.keep (Nat.le_refl _) fun _ hstopped => absurd hrun hstopped
  exact {
    account := Stage.hands_update s.stages me _ ▸ h.account_same hplain
    filed := by
      refine h.filed.restage (fun mutator => ?_) (by simp)
      rw [hstage]
      simp
    lock := fun thread => by
      change (Function.update s.stages me none thread).any Stage.departs ↔ none = some thread
      by_cases hthread : thread = me
      · rw [hthread, Function.update_self]
        simp
      · rw [Function.update_of_ne hthread, h.lock thread, hholder]
        simp [Ne.symm hthread]
    running := fun hnobody => absurd hnobody Bool.false_ne_true
    ahead := fun _ hnobody => by cases hnobody
    visiting := fun thread cycle mutators hthread => by
      obtain ⟨new, hnew, hvisit⟩ := Option.bind_eq_some_iff.1 hthread
      obtain ⟨-, heq⟩ | ⟨-, hold⟩ := update_eq_some.1 hnew
      · cases heq
      · exact hkept (h.visiting thread cycle mutators (Option.bind_eq_some_iff.2 ⟨new, hold, hvisit⟩))
    visited := fun cycle mutator hmem => hkept (h.visited cycle mutator hmem) }

theorem step {stage : Stage μ} (h : s.Sound) (hstage : s.stages me = some stage) (hm : s.step me stage = some s') :
    s'.Sound := by
  have hvisits {cycle : Nat} {mutators : List Mutator} (hvisit : stage.visits = some (cycle, mutators)) :
      s.Handed cycle mutators := by
    apply h.visiting me cycle mutators
    rw [hstage]
    exact hvisit
  cases stage with
  | reserved id name => cases hm
  | bound mutator state =>
    cases hm
    have hhand : Stage.hands s.stages me = some (mutator.id, some state) := by rw [Stage.hands, hstage]; rfl
    have hstates := (h.account.handed me _ _ hhand).2.1
    refine h.turn (h.account.file hhand) (h.filed.addId hstage hstates) ?_ ?_ (by simp [Stage.visits]) h.visited
    · rw [hstage]
      rfl
    · exact fun _ _ _ hmem => h.filed.known_addId hstates hmem
  | listed mutator =>
    cases hm
    refine h.turn (h.account_same ?_) (h.filed.addThread hstage) ?_ (fun _ _ _ hmem => hmem) (by simp) h.visited
    · rw [hstage]
      rfl
    · rw [hstage]
      rfl
  | leaving =>
    obtain ⟨mutator, hcurrent, rfl⟩ := Option.map_eq_some_iff.1 hm
    refine h.turn (h.account_same ?_) (h.filed.dropThread hstage hcurrent) ?_ (fun _ _ _ hmem => hmem)
      (by simp [Stage.visits]) h.visited
    · rw [hstage]
      rfl
    · rw [hstage]
      rfl
  | unlinked mutator =>
    cases hm
    obtain ⟨-, hrun⟩ := h.departing hstage rfl
    refine h.turn (h.account_same ?_) (h.filed.dropId hstage) ?_ (fun hstopped => absurd hrun hstopped)
      (by simp [Stage.visits]) h.visited
    · rw [hstage]
      rfl
    · rw [hstage]
      rfl
  | delisted mutator =>
    obtain ⟨-, hkept⟩ : s.registry.byId[mutator.id]? = none ∧ mutator.id ∈ s.registry.states := h.filed.fits me _ hstage
    simp only [Roster.step] at hm
    split at hm
    · rename_i hnone
      rw [Std.ExtTreeMap.mem_iff_isSome_getElem?, hnone] at hkept
      cases hkept
    · rename_i state hstate
      cases hm
      have hsame : Function.update (Stage.hands s.stages) me none = Stage.hands s.stages := by
        apply Function.update_eq_self_iff.2
        rw [Stage.hands, hstage]
        rfl
      have hsole (thread : ThreadId) (other : Mutator) (hthread : s.stages thread = some (.delisted other)) :
          thread = me := by
        have hholder := (h.departing hthread rfl).1
        rw [(h.departing hstage rfl).1] at hholder
        exact (Option.some.inj hholder).symm
      refine h.turn ?_ (h.filed.dropState hstage hsole) ?_ (fun _ _ _ hmem => hmem) (by simp [Stage.visits])
        h.visited
      · change Account _ (Function.update (Stage.hands s.stages) me none) _ _ _
        rw [hsame]
        exact h.account.destroy hstate
      · rw [hstage]
        rfl
  | destroying mutator state =>
    cases hm
    exact h.plain hstage (by simp) (by simp [Stage.Fits]) rfl rfl (by simp [Stage.visits]) h.visited
  | left =>
    obtain ⟨crowd, -, rfl⟩ := Option.map_eq_some_iff.1 hm
    exact h.unlock hstage crowd
  | stopped cycle =>
    cases hm
    refine h.plain hstage (by simp) (by simp [Stage.Fits]) rfl rfl ?_ h.visited
    intro cycle' mutators hvisit
    cases hvisit
    obtain ⟨hcycle, hstopped⟩ := hvisits rfl
    exact ⟨hcycle, fun heq => ⟨(hstopped heq).1, fun mutator hmem => h.filed.mem_mutators hmem⟩⟩
  | visiting cycle rest =>
    cases rest with
    | nil =>
      cases hm
      exact h.plain hstage (by simp) (by simp) rfl rfl (by simp) h.visited
    | cons mutator rest =>
      cases hm
      have hhanded := hvisits rfl
      refine h.plain hstage (by simp) (by simp [Stage.Fits]) rfl rfl ?_ ?_
      · intro cycle' mutators hvisit
        cases hvisit
        exact hhanded.subset fun _ hmem => List.mem_cons_of_mem _ hmem
      · intro cycle' other hmem
        obtain heq | hmem := List.mem_cons.1 hmem
        · cases heq
          exact hhanded.subset (by simp)
        · exact h.visited cycle' other hmem

/-- Whatever a move does keeps the roster sound, as long as no id is given away twice. -/
theorem after (h : s.Sound) (hturn : s.Turn s') (hids : s'.ids.Nodup) : s'.Sound := by
  cases hturn with
  | refused => exact h
  | inside moved idle state => exact h.inside moved idle state
  | cross idle free moved => exact h.cross idle free moved
  | lock idle free state ahead => exact h.locked idle free state ahead
  | @reserve me name idle =>
    have hhand : Stage.hands s.stages me = none := by
      rw [Stage.hands, idle]
      rfl
    refine h.turn (h.account.reserve hhand hids) ((h.filed.reserve _).restage ?_ ?_) ?_ (fun _ _ _ hmem => hmem)
      (by simp [Stage.visits]) h.visited
    · intro mutator
      rw [idle]
      simp
    · intro new hnew
      cases hnew
      trivial
    · rw [idle]
      rfl
  | @bind me id name state reserved =>
    have hhand : Stage.hands s.stages me = some (id, none) := by
      rw [Stage.hands, reserved]
      rfl
    refine h.turn (h.account.bind hhand state) (h.filed.restage ?_ ?_) ?_ (fun _ _ _ hmem => hmem)
      (by simp [Stage.visits]) h.visited
    · intro mutator
      rw [reserved]
      simp
    · intro new hnew
      cases hnew
      rfl
    · rw [reserved]
      rfl
  | next come made => exact h.step come made

end Sound

theorem ids_of_step {stage : Stage μ} (hm : s.step me stage = some s') :
    s'.ids = s.ids ∧ s'.registry.nextId = s.registry.nextId := by
  cases stage with
  | reserved id name => cases hm
  | leaving | left =>
    obtain ⟨_, -, rfl⟩ := Option.map_eq_some_iff.1 hm
    exact ⟨rfl, rfl⟩
  | delisted mutator =>
    simp only [step] at hm
    split at hm <;> cases hm <;> exact ⟨rfl, rfl⟩
  | visiting cycle rest =>
    cases rest <;> cases hm <;> exact ⟨rfl, rfl⟩
  | _ =>
    cases hm
    exact ⟨rfl, rfl⟩

/-- At most one id is given away at a time, which is the next one. -/
theorem Turn.ids (h : s.Turn s') : (s'.ids = s.ids ∧ s'.registry.nextId = s.registry.nextId) ∨
    (s'.ids = ⟨s.registry.nextId⟩ :: s.ids ∧ s'.registry.nextId = s.registry.nextId + 1) := by
  cases h with
  | reserve name idle => exact .inr ⟨rfl, rfl⟩
  | @cross me crowd idle free moved =>
    left
    cases crowd.world.state <;> exact ⟨rfl, rfl⟩
  | next come made => exact .inl (ids_of_step made)
  | _ => exact .inl ⟨rfl, rfl⟩

/-- Ids are given away in their order. -/
def Numbered (s : Roster μ) : Prop :=
  s.ids = numbers s.ids.length ∧ s.registry.nextId = UInt64.ofNat (s.ids.length + 1)

theorem Numbered.after (h : s.Numbered) (hturn : s.Turn s') : s'.Numbered ∧ s.ids.length ≤ s'.ids.length := by
  unfold Numbered
  obtain ⟨hids, hnext⟩ | ⟨hids, hnext⟩ := hturn.ids
  · rw [hids, hnext]
    exact ⟨h, Nat.le_refl _⟩
  · rw [hids, hnext, List.length_cons, numbers_succ, ← h.1, h.2]
    exact ⟨⟨rfl, by simp [UInt64.ofNat_add]⟩, Nat.le_succ _⟩

/-- As long as ids do not run out, whatever threads come to is sound. -/
theorem Reachable.sound (h : Reachable s) (hids : s.ids.length ≤ wordLimit) : s.Sound := by
  obtain ⟨moves, hmoves⟩ := h
  suffices hall : s.Numbered ∧ (s.ids.length ≤ wordLimit → s.Sound) from hall.2 hids
  refine foldlM_keeps (P := fun s => s.Numbered ∧ (s.ids.length ≤ wordLimit → s.Sound)) (fun s s' m hs hm => ?_)
    ⟨⟨rfl, rfl⟩, fun _ => .fresh⟩ hmoves
  obtain ⟨hnumbered, hmore⟩ := hs.1.after (turn_of_move hm)
  refine ⟨hnumbered, fun hids => (hs.2 (Nat.le_trans hmore hids)).after (turn_of_move hm) ?_⟩
  rw [hnumbered.1]
  exact nodup_numbers hids

namespace Sound

theorem state_of_step {stage : Stage μ} (h : s.Sound) (hstage : s.stages me = some stage)
    (hm : s.step me stage = some s') : s'.crowd.world.state = s.crowd.world.state := by
  cases stage with
  | reserved id name => cases hm
  | leaving =>
    obtain ⟨_, -, rfl⟩ := Option.map_eq_some_iff.1 hm
    rfl
  | left =>
    obtain ⟨crowd, hcrowd, rfl⟩ := Option.map_eq_some_iff.1 hm
    exact h.state_of_unlock hstage hcrowd
  | delisted mutator =>
    simp only [Roster.step] at hm
    split at hm <;> cases hm <;> rfl
  | visiting cycle rest => cases rest <;> cases hm <;> rfl
  | _ =>
    cases hm
    rfl

/-- While somebody has the lock, the world stays where it is. -/
theorem state_of_turn (h : s.Sound) (hholder : s.holder.isSome) (hturn : s.Turn s') :
    s'.crowd.world.state = s.crowd.world.state := by
  cases hturn with
  | inside moved idle state => exact state
  | cross idle free moved =>
    rw [free] at hholder
    cases hholder
  | next come made => exact h.state_of_step come made
  | _ => rfl

/-- If nobody is about to take out a state, the table has the states of the mutators that are registered. -/
theorem mem_states (h : s.Sound) (hidle : ∀ thread mutator, s.stages thread ≠ some (.delisted mutator))
    (id : MutatorId) : id ∈ s.registry.states ↔ id ∈ s.registry.byId := by
  constructor
  · intro hid
    obtain hmem | ⟨thread, mutator, hthread, -⟩ := h.filed.state id hid
    · exact hmem
    · exact absurd hthread (hidle thread mutator)
  · intro hid
    obtain ⟨mutator, hmutator⟩ := Option.isSome_iff_exists.1 (Std.ExtTreeMap.mem_iff_isSome_getElem?.1 hid)
    exact (h.filed.id id mutator hmutator).2

theorem size_states (h : s.Sound) (hidle : ∀ thread mutator, s.stages thread ≠ some (.delisted mutator)) :
    s.registry.states.size = s.registry.mutatorCount := by
  have hperm : s.registry.states.keys.Perm s.registry.byId.keys := by
    refine (List.perm_ext_iff_of_nodup Std.ExtTreeMap.nodup_keys Std.ExtTreeMap.nodup_keys).2 fun id => ?_
    rw [Std.ExtTreeMap.mem_keys, Std.ExtTreeMap.mem_keys]
    exact h.mem_states hidle id
  rw [← Std.ExtTreeMap.length_keys, hperm.length_eq, Std.ExtTreeMap.length_keys, Registry.mutatorCount]

end Sound

/-- A state is destroyed while the world runs, which it cannot stop doing meanwhile. A mutator that was handed to a
collector is registered, and has its state, until the world runs again. No state is destroyed twice. And if no thread is
just registering or leaving, the states that were bound are those of the registered mutators and the destroyed ones. -/
theorem states_outlive_stops (h : s.Reachable) (hids : s.ids.length ≤ wordLimit) :
    (∀ thread mutator state, s.stages thread = some (.destroying mutator state) →
      s.crowd.world.state = .running ∧ ∀ m s', s.move m = some s' → s'.crowd.world.state = .running) ∧
    (∀ mutator, (s.cycles, mutator) ∈ s.visited → s.crowd.world.state ≠ .running ∧
      s.registry.get mutator.id = some mutator ∧ mutator.id ∈ s.registry.states) ∧
    (s.destroyed.map Prod.fst).Nodup ∧
    ((∀ thread stage, s.stages thread = some stage → stage.visits.isSome) →
      s.bound.Perm (s.registry.states.toList ++ s.destroyed) ∧
      (∀ id, id ∈ s.registry.states ↔ (s.registry.get id).isSome) ∧
      s.registry.mutatorCount + s.destroyed.length = s.bound.length) := by
  have hs := h.sound hids
  refine ⟨?_, ?_, hs.account.once, ?_⟩
  · intro thread mutator state hstage
    obtain ⟨hholder, hrun⟩ := hs.departing hstage rfl
    refine ⟨hrun, fun m s' hm => ?_⟩
    rw [hs.state_of_turn (by rw [hholder]; rfl) (turn_of_move hm)]
    exact hrun
  · intro mutator hvisited
    obtain ⟨hstopped, hthere⟩ := (hs.visited s.cycles mutator hvisited).2 rfl
    have hknown := hthere mutator List.mem_cons_self
    exact ⟨hstopped, hknown, (hs.filed.id _ _ hknown).2⟩
  · intro hidle
    have hdelisted (thread : ThreadId) (mutator : Mutator) : s.stages thread ≠ some (.delisted mutator) := by
      intro hstage
      have hvisits := hidle thread _ hstage
      cases hvisits
    have hhands (thread : ThreadId) : Stage.hands s.stages thread = none := by
      rw [Stage.hands]
      cases hstage : s.stages thread with
      | none => rfl
      | some stage =>
        have hvisits := hidle thread stage hstage
        cases stage <;> first | rfl | cases hvisits
    have hperm := hs.account.balanced hhands
    refine ⟨hperm, fun id => ?_, ?_⟩
    · rw [hs.mem_states hdelisted id]
      exact Std.ExtTreeMap.mem_iff_isSome_getElem?
    · rw [hperm.length_eq, List.length_append, Std.ExtTreeMap.length_toList, hs.size_states hdelisted]

/-- A mutator registers, a collector stops the world and visits it, and then the mutator wants to leave. -/
def leavesTooSoon : List (Move Unit) :=
  let mutator : ThreadId := ⟨"mutator"⟩
  let collector : ThreadId := ⟨"collector"⟩
  [.register mutator none, .bind mutator (), .next mutator, .next mutator, .call collector .stop, .go collector,
    .go collector, .go collector, .go collector, .next collector, .next collector, .call mutator .leave, .go mutator,
    .go mutator]

theorem leaver_still_registered : ∃ s : Roster Unit, s.Reachable ∧ s.ids.length ≤ wordLimit ∧
    s.crowd.ahead ⟨"mutator"⟩ = some .departLater ∧ ∃ mutator, s.visited = [(s.cycles, mutator)] ∧
      s.registry.get mutator.id = some mutator := by
  have hrun : ((leavesTooSoon.foldlM move {}).any fun s => s.ids.length = 1 &&
      s.crowd.ahead ⟨"mutator"⟩ = some .departLater && s.visited = [(s.cycles, ⟨⟨1⟩, ⟨"mutator"⟩, none⟩)]) = true := by
    decide
  cases hs : leavesTooSoon.foldlM move {} with
  | none =>
    rw [hs] at hrun
    cases hrun
  | some s =>
    rw [hs] at hrun
    obtain ⟨⟨hids, hahead⟩, hvisited⟩ : (s.ids.length = 1 ∧ s.crowd.ahead ⟨"mutator"⟩ = some .departLater) ∧
        s.visited = [(s.cycles, ⟨⟨1⟩, ⟨"mutator"⟩, none⟩)] := by simpa using hrun
    have hlimit : s.ids.length ≤ wordLimit := by
      rw [hids]
      decide
    obtain ⟨-, hhanded, -, -⟩ := states_outlive_stops ⟨leavesTooSoon, hs⟩ hlimit
    refine ⟨s, ⟨leavesTooSoon, hs⟩, hlimit, hahead, _, hvisited, ?_⟩
    refine (hhanded _ ?_).2.1
    rw [hvisited]
    exact List.mem_singleton_self _

end Roster

end Safepoint.Binding
