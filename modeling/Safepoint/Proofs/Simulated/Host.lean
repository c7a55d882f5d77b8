import Safepoint.Proofs.Binding.Roots
import Safepoint.Simulated.Host

/-!
# The host of a simulation at work

The services of the host return, and besides what they keep a record of they change nothing but where the threads are.
A stop is granted if every attached thread is parked or polls.
-/
namespace Safepoint.Simulated

open Act (Meets)

/-- The machine without the records of the host and the places of its threads. -/
def quiet (m : SimMachine) : SimMachine :=
  { m with env.host := { m.env.host with parking := {}, hooks := [], unloadedChecks := [], finalizerRuns := 0 } }

/-- Every attached thread is parked, or will be as soon as it is asked to. -/
def Waits (r : HostSide) : Prop := ∀ thread ∈ r.parking.attached, thread ∈ r.parking.parked ∨ thread ∈ r.pollers

/-- What the walks of the host give. -/
def HostSide.walks (r : HostSide) : Binding.HostRoots where
  stack := r.stackOf
  code := r.codeOf
  globals table := r.slotsOf (.global table)
  strings _ := r.slotsOf .stringTable
  loaders _ := r.loaderEdges
  weak _ := r.slotsOf .weakProcessor

variable {q m : SimMachine}

theorem of_host {steady : SimMachine → Prop} {walks : Binding.HostRoots}
    (h : ∀ m, steady m → m.env.host.walks = walks) : walks.Of host steady := by
  constructor <;> intro _ m hm <;> rw [← h m hm] <;> exact ⟨m, rfl, hm⟩

section Places

/-- The machine with its threads in other places. -/
def placed (m : SimMachine) (parking : Parking) : SimMachine :=
  { m with env.host := { m.env.host with parking } }

theorem run_settle {f : Parking → Option Parking} {parking : Parking} (h : f m.env.host.parking = some parking) :
    (settle f).run m = (.ok (), placed m parking) := by
  rw [settle, Act.run_bind_ok (Act.run_get m), h]
  rfl

theorem run_parkAll (threads : List ThreadId) (m : SimMachine) : (threads.forM enterSafeRegion).run m =
    (.ok (), placed m (threads.foldl Parking.park m.env.host.parking)) := by
  induction threads generalizing m with
  | nil => rfl
  | cons thread threads ih =>
    have hpark : (enterSafeRegion thread).run m = _ := run_settle rfl
    rw [List.forM_eq_forM, List.forM_cons, Act.run_bind_ok hpark]
    exact ih _

theorem attached_parkAll (threads : List ThreadId) (p : Parking) :
    (threads.foldl Parking.park p).attached = p.attached := by
  induction threads generalizing p with
  | nil => rfl
  | cons thread threads ih => exact ih (p.park thread)

theorem mem_parkAll (threads : List ThreadId) (p : Parking) {thread : ThreadId}
    (h : thread ∈ threads ∨ thread ∈ p.parked) : thread ∈ (threads.foldl Parking.park p).parked := by
  induction threads generalizing p with
  | nil => simpa using h
  | cons first threads ih =>
    apply ih
    obtain hmem | hparked := h
    · obtain rfl | hmem := List.mem_cons.1 hmem
      · right
        exact Std.ExtTreeSet.mem_insert_self
      · left
        exact hmem
    · right
      exact Std.ExtTreeSet.mem_insert.2 (.inr hparked)

/-- A stop that finds every attached thread in its place is granted. -/
theorem suspendAll_meets (q : SimMachine) :
    Meets (fun m => quiet m = q ∧ Waits m.env.host) suspendAll fun _ m => quiet m = q := by
  rintro m ⟨hq, hwaits⟩
  have hrequest : (settle fun p => some p.request).run m = _ := run_settle rfl
  let asked := placed m m.env.host.parking.request
  have hpark : (asked.env.host.pollers.forM enterSafeRegion).run asked = _ := run_parkAll _ asked
  have hall : (asked.env.host.pollers.foldl Parking.park asked.env.host.parking).allParked = true := by
    refine List.all_eq_true.2 fun thread hthread => decide_eq_true ?_
    apply mem_parkAll
    rw [attached_parkAll] at hthread
    exact (hwaits thread (Std.ExtTreeSet.mem_toList.1 hthread)).symm
  refine ⟨(), placed asked (asked.env.host.pollers.foldl Parking.park asked.env.host.parking), ?_, hq⟩
  rw [suspendAll, Act.run_bind_ok hrequest, Act.run_bind_ok (Act.run_get _), Act.run_bind_ok hpark,
    Act.run_bind_ok (Act.run_get _)]
  change (if (!(asked.env.host.pollers.foldl Parking.park asked.env.host.parking).allParked) = true then _ else _ :
    Act SimMachine Unit).run _ = _
  rw [hall]
  rfl

/-- The end of a stop is never refused. -/
theorem resumeAll_meets (q : SimMachine) : Meets (fun m => quiet m = q) resumeAll fun _ m => quiet m = q := by
  intro m hq
  have hrelease : (settle fun p => some p.release).run m = _ := run_settle rfl
  let released := placed m m.env.host.parking.release
  have hleave : Meets (fun m => quiet m = q ∧ m.env.host.parking.requested = false)
      (released.env.host.pollers.forM leaveSafeRegion)
      fun _ m => quiet m = q ∧ m.env.host.parking.requested = false := by
    apply Meets.forM
    rintro thread - m ⟨hq, hfree⟩
    have hunpark : m.env.host.parking.unpark? thread =
        some { m.env.host.parking with parked := m.env.host.parking.parked.erase thread } := by
      simp [Parking.unpark?, hfree]
    exact ⟨(), _, run_settle hunpark, hq, hfree⟩
  obtain ⟨_, m', hrun, hq', -⟩ := hleave released ⟨hq, rfl⟩
  refine ⟨(), m', ?_, hq'⟩
  rw [resumeAll, Act.run_bind_ok hrelease, Act.run_bind_ok (Act.run_get _)]
  exact hrun

end Places

theorem record_meets (q : SimMachine) (event : HookEvent) :
    Meets (fun m => quiet m = q) (record event) fun _ m => quiet m = q :=
  fun _ hq => ⟨(), _, rfl, hq⟩

/-- Classes are unloaded as long as every weak edge can be read and its loader asked about. -/
theorem unloadClasses_meets {alive : SimMachine → ObjectRef → Except Panic Bool}
    (h : ∀ edge ∈ q.env.host.loaderEdges, edge.weak → ∃ found, edge.slot.load .identity q.memory = .ok found ∧
      ∀ loader ∈ found, ∀ m, quiet m = q → ∃ answer, alive m loader = .ok answer) :
    Meets (fun m => quiet m = q) (host.unloadClasses alive) fun _ m => quiet m = q := by
  apply Meets.bind (record_meets q .unloadClasses)
  intro _ m hq
  have hmeets : Meets (fun m => quiet m = q) ((m.env.host.loaderEdges.filter LoaderEdge.weak).forM (checkLoader alive))
      fun _ m => quiet m = q := by
    apply Meets.forM
    intro edge hedge m' hq'
    obtain ⟨hmem, hweak⟩ := List.mem_filter.1 hedge
    have hmem : edge ∈ q.env.host.loaderEdges := by
      rw [← hq]
      exact hmem
    obtain ⟨found, hload, halive⟩ := h edge hmem hweak
    have hpeek : (Machine.peek (edge.slot.load .identity)).run m' = (.ok found, m') := by
      have hmemory : m'.memory = q.memory := by
        rw [← hq']
        rfl
      simp [Machine.peek, hmemory, hload]
    cases found with
    | none =>
      refine ⟨(), m', ?_, hq'⟩
      rw [checkLoader, Act.run_bind_ok hpeek]
      rfl
    | some loader =>
      obtain ⟨answer, hanswer⟩ := halive loader rfl m' hq'
      have hask : (Act.read fun m => alive m loader).run m' = (.ok answer, m') := by simp [hanswer]
      let noted : SimMachine := { m' with env.host := { m'.env.host with
        unloadedChecks := m'.env.host.unloadedChecks ++ [(loader, answer)] } }
      refine ⟨(), noted, ?_, hq'⟩
      rw [checkLoader, Act.run_bind_ok hpeek]
      dsimp only
      rw [Act.run_bind_ok hask]
      rfl
  obtain ⟨_, m', hrun, hq'⟩ := hmeets m hq
  exact ⟨(), m', (Act.run_bind_ok (Act.run_get m)).trans hrun, hq'⟩

end Safepoint.Simulated
