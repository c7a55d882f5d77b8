import Safepoint.Proofs.Simulated.Host
import Safepoint.Proofs.World.Crowd

/-!
# Sections of a simulated host

A service of the host is a list of sections under the lock of the parking places, and so is what a thread does there of
its own accord. Other threads may go on between two sections. A thread that has to wait in a section may wake there at
any time, and then looks again.
-/
namespace Safepoint.Simulated

open Handshake (HostCode)

/-- A section under the lock of the parking places. -/
inductive Spot where
  | request | gather | release | park | unpark | notify | attach | detach
  /-- See whether a stop was asked for. -/
  | look
  deriving DecidableEq

/-- How a thread leaves the parking places, unless it has to wait. -/
def Spot.visit (me : ThreadId) (p : Parking) : Spot → Option Parking
  | .request => some p.request
  | .gather => if p.allParked then some p else none
  | .release => some p.release
  | .park => some (p.park me)
  | .unpark => p.unpark? me
  | .attach => p.attach? me
  | .detach => some (p.detach me)
  | .notify | .look => some p

/-- Whether there is nothing to be done after this section, whatever else was to come. -/
def Spot.isLast (p : Parking) : Spot → Bool
  | .look => !p.requested
  | _ => false

/-- What a thread does at the parking places outside the calls on the coordinator. -/
inductive Errand where
  | attach | detach | poll
  deriving DecidableEq

inductive Task where
  | service (code : HostCode)
  | errand (errand : Errand)
  deriving DecidableEq

def Task.spots : Task → List Spot
  | .service .callback => []
  | .service .suspendAll => [.request, .gather]
  | .service .resumeAll => [.release]
  | .service .enterSafeRegion => [.park]
  | .service .leaveSafeRegion => [.unpark, .notify]
  | .errand .attach => [.attach]
  | .errand .detach => [.detach]
  | .errand .poll => [.look, .park, .unpark, .notify]

section Alone

variable (me : ThreadId)

/-- Go through sections one after another with nobody else around. -/
def carry : List Spot → Act SimMachine Unit
  | [] => return ()
  | spot :: rest => do
    settle (spot.visit me)
    if spot.isLast (← get).env.host.parking then return () else carry rest

/-- What the host has for a task. -/
def Task.alone : Task → Act SimMachine Unit
  | .service .callback => return ()
  | .service .suspendAll => suspendAll
  | .service .resumeAll => resumeAll
  | .service .enterSafeRegion => enterSafeRegion me
  | .service .leaveSafeRegion => leaveSafeRegion me
  | .errand .attach => attach me
  | .errand .detach => detach me
  | .errand .poll => poll me

theorem run_settle_eq (f : Parking → Option Parking) (m : SimMachine) :
    (settle f).run m = match f m.env.host.parking with
      | some parking => (.ok (), placed m parking)
      | none => (.error .stuck, m) := by
  rw [settle, Act.run_bind_ok (Act.run_get m)]
  cases f m.env.host.parking <;> rfl

/-- A section that has others after it in any case. -/
theorem carry_cons {spot : Spot} (rest : List Spot) (h : spot ≠ .look) :
    carry me (spot :: rest) = (settle (spot.visit me) >>= fun () => carry me rest) := by
  have hlast (p : Parking) : spot.isLast p = false := by cases spot <;> first | rfl | exact absurd rfl h
  rw [carry]
  refine bind_congr fun _ => ?_
  funext m
  change (if spot.isLast _ then _ else _ : Act SimMachine Unit) m = _
  rw [if_neg (by rw [hlast]; decide)]

/-- The last section of all. -/
theorem carry_single {spot : Spot} (h : spot ≠ .look) : carry me [spot] = settle (spot.visit me) := by
  rw [carry_cons me [] h]
  exact bind_pure_unit

/-- A last look at the places, to leave them as they are, is as good as none. -/
theorem run_bind_notify (act : Act SimMachine Unit) (m : SimMachine) :
    (act >>= fun () => settle (Spot.notify.visit me)).run m = act.run m := by
  rw [Act.run_bind]
  split
  · rename_i hrun
    rw [hrun]
    exact run_settle rfl
  · rename_i hrun
    rw [hrun]

/-- Every service of the host is its sections, one after another. Here a thread that polls makes its own way through
them, so the host has nobody to take along. -/
theorem run_carry (task : Task) {m : SimMachine} (h : m.env.host.pollers = []) :
    (carry me task.spots).run m = (task.alone me).run m := by
  match task with
  | .service .callback => rfl
  | .service .suspendAll =>
    rw [Task.spots, carry_cons me [.gather] (by decide), carry_single me (by decide)]
    let asked := placed m m.env.host.parking.request
    have hrequest : (settle fun p => some p.request).run m = (.ok (), asked) := run_settle rfl
    have hnobody : asked.env.host.pollers = [] := h
    have hgather : (settle (Spot.gather.visit me)).run asked = _ := run_settle_eq _ asked
    have hsuspend : (Task.alone me (.service .suspendAll)).run m =
        if asked.env.host.parking.allParked then (.ok (), asked) else (.error .stuck, asked) := by
      rw [Task.alone, suspendAll, Act.run_bind_ok hrequest, Act.run_bind_ok (Act.run_get asked), hnobody]
      change (if (!asked.env.host.parking.allParked) = true then _ else _ : Act SimMachine Unit).run asked = _
      cases asked.env.host.parking.allParked <;> rfl
    rw [hsuspend]
    change ((settle fun p => some p.request) >>= fun () => settle (Spot.gather.visit me)).run m = _
    rw [Act.run_bind_ok hrequest, hgather, Spot.visit]
    cases asked.env.host.parking.allParked <;> rfl
  | .service .resumeAll =>
    have hrelease : (settle fun p => some p.release).run m = _ := run_settle rfl
    have hnobody : (placed m m.env.host.parking.release).env.host.pollers = [] := h
    rw [Task.spots, carry_single me (by decide), Task.alone, resumeAll, Act.run_bind_ok hrelease,
      Act.run_bind_ok (Act.run_get _), hnobody]
    exact hrelease
  | .service .enterSafeRegion =>
    rw [Task.spots, carry_single me (by decide)]
    rfl
  | .service .leaveSafeRegion =>
    rw [Task.spots, carry_cons me [.notify] (by decide), carry_single me (by decide), run_bind_notify]
    rfl
  | .errand .attach =>
    rw [Task.spots, carry_single me (by decide)]
    rfl
  | .errand .detach =>
    rw [Task.spots, carry_single me (by decide)]
    rfl
  | .errand .poll =>
    have hlook : (settle (Spot.look.visit me)).run m = (.ok (), m) := run_settle rfl
    rw [Task.spots, carry, Act.run_bind_ok hlook, Act.run_bind_ok (Act.run_get m), Task.alone, poll,
      Act.run_bind_ok (Act.run_get m), Spot.isLast]
    cases m.env.host.parking.requested with
    | false => rfl
    | true =>
      rw [carry_cons me [.unpark, .notify] (by decide), carry_cons me [.notify] (by decide),
        carry_single me (by decide), ← bind_assoc]
      exact run_bind_notify me _ m

end Alone

namespace Spot

variable {me other : ThreadId} {p p' : Parking} {spot : Spot}

/-- Only the end of a stop takes back that one was asked for. -/
theorem visit_requested (h : spot.visit me p = some p') (hspot : spot ≠ .release) (hp : p.requested) :
    p'.requested := by
  cases spot with
  | release => exact absurd rfl hspot
  | gather =>
    simp only [visit] at h
    split at h <;> cases h
    exact hp
  | unpark => simp [visit, Parking.unpark?, hp] at h
  | attach => simp [visit, Parking.attach?, hp] at h
  | _ =>
    cases h
    first | exact hp | rfl

/-- A thread is parked by itself. -/
theorem visit_parked (h : spot.visit me p = some p') (hother : other ≠ me) (hp : other ∈ p'.parked) :
    other ∈ p.parked := by
  cases spot with
  | gather =>
    simp only [visit] at h
    split at h <;> cases h
    exact hp
  | park =>
    cases h
    obtain heq | hmem := Std.ExtTreeSet.mem_insert.1 hp
    · exact absurd (Std.LawfulEqCmp.eq_of_compare heq).symm hother
    · exact hmem
  | unpark =>
    simp only [visit, Parking.unpark?] at h
    split at h <;> cases h
    exact Std.ExtTreeSet.mem_of_mem_erase hp
  | attach =>
    simp only [visit, Parking.attach?] at h
    split at h <;> cases h
    exact hp
  | _ =>
    cases h
    exact hp

/-- As long as a stop is asked for, attached threads stay parked. -/
theorem visit_kept (h : spot.visit me p = some p') (hspot : spot ≠ .release) (hp : p.requested)
    (hall : ∀ thread ∈ p.attached, thread ∈ p.parked) : ∀ thread ∈ p'.attached, thread ∈ p'.parked := by
  cases spot with
  | release => exact absurd rfl hspot
  | gather =>
    simp only [visit] at h
    split at h <;> cases h
    exact hall
  | park =>
    cases h
    intro thread hthread
    exact Std.ExtTreeSet.mem_insert.2 (.inr (hall thread hthread))
  | unpark => simp [visit, Parking.unpark?, hp] at h
  | attach => simp [visit, Parking.attach?, hp] at h
  | detach =>
    cases h
    intro thread hthread
    exact hall thread (Std.ExtTreeSet.mem_of_mem_erase hthread)
  | _ =>
    cases h
    exact hall

theorem visit_gather (h : Spot.gather.visit me p = some p') : p' = p ∧ ∀ thread ∈ p.attached, thread ∈ p.parked := by
  simp only [visit] at h
  split at h <;> cases h
  rename_i hall
  refine ⟨rfl, fun thread hthread => ?_⟩
  simpa using List.all_eq_true.1 hall thread (Std.ExtTreeSet.mem_toList.2 hthread)

theorem visit_unpark (h : Spot.unpark.visit me p = some p') : me ∉ p'.parked := by
  simp only [visit, Parking.unpark?] at h
  split at h <;> cases h
  simp

/-- Nobody gets through to run managed code while a stop is asked for. -/
theorem visit_waits (hp : p.requested) (hspot : spot = .attach ∨ spot = .unpark) : spot.visit me p = none := by
  obtain rfl | rfl := hspot
  · simp [visit, Parking.attach?, hp]
  · simp [visit, Parking.unpark?, hp]

end Spot

section Sections

variable {task : Task} {spot : Spot} {rest : List Spot}

/-- Which sections a task has in which place. -/
theorem Task.spots_cases (h : spot :: rest <:+ task.spots) :
    (rest = [.gather] ∧ spot = .request) ∨ (rest = [.notify] ∧ spot = .unpark) ∨
    (rest = [] ∧ (spot = .gather ↔ task = .service .suspendAll) ∧ (spot = .release ↔ task = .service .resumeAll)) ∨
    (rest = [.unpark, .notify] ∧ spot = .park) ∨
    (rest = [.park, .unpark, .notify] ∧ spot = .look ∧ task = .errand .poll) := by
  obtain code | errand := task
  · cases code <;> simp [Task.spots, List.suffix_cons_iff] at h <;> grind
  · cases errand <;> simp [Task.spots, List.suffix_cons_iff] at h <;> grind

/-- No task begins where it waits for the others or has left its safe region. -/
theorem Task.spots_ne (task : Task) : task.spots ≠ [.gather] ∧ task.spots ≠ [.notify] := by
  obtain code | errand := task
  · cases code <;> simp [Task.spots]
  · cases errand <;> simp [Task.spots]

end Sections

end Safepoint.Simulated
