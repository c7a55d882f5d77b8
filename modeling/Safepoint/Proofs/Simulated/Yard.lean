import Mathlib.Logic.Function.Basic
import Safepoint.Proofs.Simulated.Sections
import Safepoint.Proofs.World.Holding

/-!
# Threads in the yard of a simulated host

Other threads may go on between two sections at the parking places as they may between two stretches of a call on the
coordinator, which the services of the host are a part of. While a collector holds the threads, which is from the end of
a suspension until the release that follows it, every attached thread is parked.
-/
namespace Safepoint.Simulated

open Handshake (Call Crowd Frame HostCode Stretch)

/-- A task a thread is at, with the sections it has before it. -/
structure Job where
  task : Task
  rest : List Spot

/-- What came back to the thread that asked for it, an errand by the section it came to last. -/
inductive Return where
  | call (call : Call)
  | errand (errand : Errand) (last : Spot)
  deriving DecidableEq

/-- Calls of many threads on one coordinator, and what the threads do at the parking places inside and outside of
them. -/
structure Yard where
  crowd : Crowd := ⟨{}, []⟩
  parking : Parking := {}
  jobs : ThreadId → Option Job := fun _ => none
  /-- A suspension has returned, and the release after it is still to come. -/
  held : Bool := false
  /-- What came back so far, the latest first. -/
  returned : List (ThreadId × Return) := []

namespace Yard

inductive Move where
  /-- A thread begins a call, from outside or from a callback. -/
  | call (thread : ThreadId) (call : Call)
  /-- A thread sets out on an errand, likewise. -/
  | errand (thread : ThreadId) (errand : Errand)
  /-- A thread that sleeps in a call wakes for no reason. -/
  | rouse (thread : ThreadId)
  /-- A thread goes on with its call. -/
  | go (thread : ThreadId)
  /-- A thread comes to its next section at the parking places. It may have to wait. -/
  | visit (thread : ThreadId)

def assign (s : Yard) (thread : ThreadId) (job : Option Job) : Yard :=
  { s with jobs := Function.update s.jobs thread job }

theorem assign_eq_some {s : Yard} {me thread : ThreadId} {job : Option Job} {new : Job} :
    (s.assign me job).jobs thread = some new ↔ thread = me ∧ job = some new ∨ thread ≠ me ∧ s.jobs thread = some new :=
  update_eq_some

/-- The code of the host that the innermost call of a thread has come to. -/
def serves (s : Yard) (thread : ThreadId) : Option HostCode :=
  (s.crowd.current thread).bind fun f =>
    match f.rest with
    | .host code :: _ => some code
    | _ => none

/-- Whether a thread may do as it likes: it makes no call, or it has come to a callback. -/
def isFree (s : Yard) (thread : ThreadId) : Bool :=
  (s.jobs thread).isNone && ((s.crowd.current thread).isNone || s.serves thread = some .callback)

/-- The call that ends with its next stretch. -/
def ending (s : Yard) (thread : ThreadId) : Option Call := do
  let f ← s.crowd.current thread
  let (after, _) ← f.next s.crowd.world
  if after.isOpen then none else some f.call

/-- Carry out the next stretch of a call. -/
def goOn (s : Yard) (thread : ThreadId) : Option Yard :=
  (s.crowd.move (.go thread)).map fun crowd =>
    { s with crowd, returned := (s.ending thread).toList.map (fun call => (thread, .call call)) ++ s.returned }

/-- The task is done. -/
def finish (s : Yard) (thread : ThreadId) (last : Spot) : Task → Option Yard
  | .service code => { s.assign thread none with held := code.holds s.held }.goOn thread
  | .errand errand => some { s.assign thread none with returned := (thread, .errand errand last) :: s.returned }

def move (s : Yard) : Move → Option Yard
  | .call thread call =>
    if s.isFree thread then (s.crowd.move (.call thread call)).map ({ s with crowd := · }) else none
  | .errand thread errand =>
    if s.isFree thread then some (s.assign thread (some ⟨.errand errand, (Task.errand errand).spots⟩)) else none
  | .rouse thread =>
    if (s.jobs thread).isNone then (s.crowd.move (.rouse thread)).map ({ s with crowd := · }) else none
  | .go thread =>
    if (s.jobs thread).isNone then
      match s.serves thread with
      | some code =>
        if (Task.service code).spots = [] then s.goOn thread
        else some (s.assign thread (some ⟨.service code, (Task.service code).spots⟩))
      | none => s.goOn thread
    else none
  | .visit thread =>
    match s.jobs thread with
    | some ⟨task, spot :: rest⟩ =>
      match spot.visit thread s.parking with
      | none => some s
      | some parking =>
        if rest = [] ∨ spot.isLast parking then { s with parking }.finish thread spot task
        else some ({ s with parking }.assign thread (some ⟨task, rest⟩))
    | _ => none

/-- What threads come to, in any order, if nobody was there at first. -/
def Reachable (s : Yard) : Prop := ∃ moves : List Move, moves.foldlM move {} = some s

/-- What one move can do. -/
inductive Turn (s : Yard) : Yard → Prop
  /-- A thread has to wait in its section. -/
  | waits : Turn s s
  /-- A thread begins a call, or wakes for no reason. -/
  | aside {m : Handshake.Move} {crowd : Crowd} (moved : s.crowd.move m = some crowd) (idle : s.jobs m.thread = none)
      (stays : ∀ thread, m ≠ .go thread) : Turn s { s with crowd }
  | takeUp {me : ThreadId} {task : Task} (called : ∀ code, task = .service code → s.serves me = some code) :
      Turn s (s.assign me (some ⟨task, task.spots⟩))
  /-- A thread goes on with a call and needs no section for that. -/
  | goOn {s' : Yard} {me : ThreadId} (idle : s.jobs me = none)
      (plain : ∀ code, s.serves me = some code → (Task.service code).spots = []) (moved : s.goOn me = some s') :
      Turn s s'
  | next {me : ThreadId} {task : Task} {spot : Spot} {rest : List Spot} {p : Parking}
      (job : s.jobs me = some ⟨task, spot :: rest⟩) (visit : spot.visit me s.parking = some p) (more : rest ≠ []) :
      Turn s ({ s with parking := p }.assign me (some ⟨task, rest⟩))
  | finish {s' : Yard} {me : ThreadId} {task : Task} {spot : Spot} {rest : List Spot} {p : Parking}
      (job : s.jobs me = some ⟨task, spot :: rest⟩) (visit : spot.visit me s.parking = some p)
      (last : rest = [] ∨ spot.isLast p) (finished : { s with parking := p }.finish me spot task = some s') : Turn s s'

theorem turn_of_move {s s' : Yard} {m : Move} (hm : s.move m = some s') : s.Turn s' := by
  cases m with
  | call thread call =>
    simp only [move] at hm
    split at hm
    · rename_i hfree
      obtain ⟨crowd, hcrowd, rfl⟩ := Option.map_eq_some_iff.1 hm
      simp only [isFree, Bool.and_eq_true, Option.isNone_iff_eq_none] at hfree
      exact .aside hcrowd hfree.1 (by simp)
    · cases hm
  | errand thread errand =>
    simp only [move] at hm
    split at hm
    · cases hm
      exact .takeUp (by simp)
    · cases hm
  | rouse thread =>
    simp only [move] at hm
    split at hm
    · rename_i hjob
      obtain ⟨crowd, hcrowd, rfl⟩ := Option.map_eq_some_iff.1 hm
      exact .aside hcrowd (Option.isNone_iff_eq_none.1 hjob) (by simp)
    · cases hm
  | go thread =>
    simp only [move] at hm
    split at hm
    · rename_i hjob
      have hjob := Option.isNone_iff_eq_none.1 hjob
      split at hm
      · rename_i code hserves
        split at hm
        · rename_i hspots
          refine .goOn hjob (fun code' hcode => ?_) hm
          rw [hserves] at hcode
          cases hcode
          exact hspots
        · cases hm
          refine .takeUp fun code' hcode => ?_
          cases hcode
          exact hserves
      · rename_i hserves
        exact .goOn hjob (by simp [hserves]) hm
    · cases hm
  | visit thread =>
    simp only [move] at hm
    split at hm
    · rename_i task spot rest hjob
      split at hm
      · cases hm
        exact .waits
      · rename_i p hvisit
        split at hm
        · rename_i hlast
          exact .finish hjob hvisit hlast hm
        · rename_i hlast
          cases hm
          exact .next hjob hvisit fun hrest => hlast (.inl hrest)
    · cases hm

theorem serves_eq_some {s : Yard} {thread : ThreadId} {code : HostCode} :
    s.serves thread = some code ↔ ∃ f more, s.crowd.current thread = some f ∧ f.rest = .host code :: more := by
  constructor
  · intro h
    obtain ⟨f, hf, hcode⟩ := Option.bind_eq_some_iff.1 h
    split at hcode <;> cases hcode
    rename_i more hr
    exact ⟨f, more, hf, hr⟩
  · rintro ⟨f, more, hf, hr⟩
    simp [serves, hf, hr]

/-- The calls are in order, the threads are where their calls have them, and whoever holds the threads has them all. -/
structure Sound (s : Yard) : Prop where
  orderly : s.crowd.Orderly
  holds : s.crowd.Holds s.held
  course : ∀ thread job, s.jobs thread = some job → job.rest <:+ job.task.spots
  serving : ∀ thread code rest, s.jobs thread = some ⟨.service code, rest⟩ → s.serves thread = some code
  asked : ∀ thread task, s.jobs thread = some ⟨task, [.gather]⟩ → s.parking.requested
  left : ∀ thread task, s.jobs thread = some ⟨task, [.notify]⟩ → thread ∉ s.parking.parked
  requested : s.held → s.parking.requested
  parked : s.held → ∀ thread ∈ s.parking.attached, thread ∈ s.parking.parked

namespace Sound

variable {s : Yard} {me : ThreadId} {task : Task} {spot : Spot} {rest : List Spot} {p : Parking}

theorem fresh : Sound {} where
  orderly := by constructor <;> simp
  holds := by constructor <;> simp
  course := by simp
  serving := by simp
  asked := by simp
  left := by simp
  requested := by simp
  parked := by simp

/-- A thread that is about to have the threads suspended or released is the only one. -/
theorem alone (h : s.Sound) {other : ThreadId} {rest' : List Spot} (hme : s.jobs me = some ⟨.service .resumeAll, rest⟩)
    (hother : s.jobs other = some ⟨.service .suspendAll, rest'⟩) : False := by
  obtain ⟨f, more, hf, hr⟩ := serves_eq_some.1 (h.serving me _ _ hme)
  obtain ⟨g, more', hg, hr'⟩ := serves_eq_some.1 (h.serving other _ _ hother)
  have hfmem := Crowd.mem_of_current hf
  have hgmem := Crowd.mem_of_current hg
  have hfbetween : f.isBetween := (h.orderly.course f hfmem).between_of_host hr (.inr rfl)
  have hgbetween : g.isBetween := (h.orderly.course g hgmem).between_of_host hr' (.inl rfl)
  obtain ⟨newer, older, hs⟩ := List.append_of_mem hfmem
  have hne : g ≠ f := by
    rintro rfl
    cases hr.symm.trans hr'
  have hg : g ∈ newer ++ older := by
    rw [hs] at hgmem
    simpa [hne] using hgmem
  rw [h.orderly.alone hs hfbetween g hg] at hgbetween
  cases hgbetween

/-- The other threads serve the calls they served before. -/
theorem serving_move (h : s.Sound) {m : Handshake.Move} {crowd : Crowd} (hm : s.crowd.move m = some crowd)
    {thread : ThreadId} (hthread : thread ≠ m.thread) {code : HostCode}
    (hjob : s.jobs thread = some ⟨.service code, rest⟩) : serves { s with crowd } thread = some code := by
  obtain ⟨f, more, hf, hr⟩ := serves_eq_some.1 (h.serving thread code rest hjob)
  apply serves_eq_some.2
  obtain hsame | hroused := Crowd.current_of_move hm (Ne.symm hthread)
  · exact ⟨f, more, hsame.trans hf, hr⟩
  · refine ⟨f.roused, more, ?_, hr⟩
    rw [hroused, hf]
    rfl

/-- A thread goes on with a call, and needs no section for it. -/
theorem crowd (h : s.Sound) {m : Handshake.Move} {crowd : Crowd} (hm : s.crowd.move m = some crowd)
    (hjob : s.jobs m.thread = none) (hholds : crowd.Holds s.held) (returned : List (ThreadId × Return)) :
    Sound { s with crowd, returned } where
  orderly := h.orderly.move hm
  holds := hholds
  course := h.course
  serving thread code rest hthread := by
    refine h.serving_move hm (fun heq => ?_) hthread
    rw [heq, hjob] at hthread
    cases hthread
  asked := h.asked
  left := h.left
  requested := h.requested
  parked := h.parked

/-- A thread asks for a stop before it waits for the others. -/
theorem asked_visit (h : s.Sound) (hjob : s.jobs me = some ⟨task, spot :: rest⟩)
    (hvisit : spot.visit me s.parking = some p)
    {job : Option Job} (hnext : ∀ next ∈ job, next = ⟨task, rest⟩) {thread : ThreadId} {task' : Task}
    (hthread : ({ s with parking := p }.assign me job).jobs thread = some ⟨task', [.gather]⟩) : p.requested := by
  have hspots := Task.spots_cases (h.course me _ hjob)
  obtain ⟨rfl, heq⟩ | ⟨-, hjob'⟩ := assign_eq_some.1 hthread
  · have hrest : rest = [.gather] := by
      cases hnext _ heq
      rfl
    have hspot : spot = .request := by
      obtain ⟨-, rfl⟩ | ⟨hrest', -⟩ | ⟨hrest', -⟩ | ⟨hrest', -⟩ | ⟨hrest', -⟩ := hspots
      · rfl
      all_goals
        rw [hrest'] at hrest
        cases hrest
    rw [hspot] at hvisit
    cases hvisit
    rfl
  · refine Spot.visit_requested hvisit ?_ (h.asked thread task' hjob')
    rintro rfl
    have hrelease : task = .service .resumeAll := by grind
    have hgather : task' = .service .suspendAll := by
      have := Task.spots_cases (h.course thread _ hjob')
      grind
    rw [hrelease] at hjob
    rw [hgather] at hjob'
    exact h.alone hjob hjob'

/-- A thread that has left its safe region is parked no more. -/
theorem left_visit (h : s.Sound) (hjob : s.jobs me = some ⟨task, spot :: rest⟩)
    (hvisit : spot.visit me s.parking = some p)
    {job : Option Job} (hnext : ∀ next ∈ job, next = ⟨task, rest⟩) {thread : ThreadId} {task' : Task}
    (hthread : ({ s with parking := p }.assign me job).jobs thread = some ⟨task', [.notify]⟩) : thread ∉ p.parked := by
  obtain ⟨rfl, heq⟩ | ⟨hme, hjob'⟩ := assign_eq_some.1 hthread
  · have hrest : rest = [.notify] := by
      cases hnext _ heq
      rfl
    have hspot : spot = .unpark := by
      have := Task.spots_cases (h.course thread _ hjob)
      grind
    rw [hspot] at hvisit
    exact Spot.visit_unpark hvisit
  · exact fun hparked => h.left thread task' hjob' (Spot.visit_parked hvisit hme hparked)

/-- Whoever holds the threads held them before and does not let them go, or has just gathered them. -/
theorem kept_visit (h : s.Sound) (hjob : s.jobs me = some ⟨task, spot :: rest⟩)
    (hvisit : spot.visit me s.parking = some p)
    (hheld : s.held ∧ spot ≠ .release ∨ spot = .gather) :
    p.requested ∧ ∀ thread ∈ p.attached, thread ∈ p.parked := by
  obtain ⟨hheld, hspot⟩ | rfl := hheld
  · exact ⟨Spot.visit_requested hvisit hspot (h.requested hheld),
      Spot.visit_kept hvisit hspot (h.requested hheld) (h.parked hheld)⟩
  · have hrest : rest = [] := by
      have := Task.spots_cases (h.course me _ hjob)
      grind
    obtain ⟨rfl, hall⟩ := Spot.visit_gather hvisit
    rw [hrest] at hjob
    exact ⟨h.asked me task hjob, hall⟩

/-- A thread takes up a task. -/
theorem takeUp (h : s.Sound) (htask : ∀ code, task = .service code → s.serves me = some code) :
    (s.assign me (some ⟨task, task.spots⟩)).Sound where
  orderly := h.orderly
  holds := h.holds
  course thread job hthread := by
    obtain ⟨rfl, heq⟩ | ⟨-, hjob⟩ := assign_eq_some.1 hthread
    · cases heq
      exact List.suffix_refl _
    · exact h.course thread job hjob
  serving thread code rest hthread := by
    obtain ⟨rfl, heq⟩ | ⟨-, hjob⟩ := assign_eq_some.1 hthread
    · cases heq
      exact htask code rfl
    · exact h.serving thread code rest hjob
  asked thread task' hthread := by
    obtain ⟨rfl, heq⟩ | ⟨-, hjob⟩ := assign_eq_some.1 hthread
    · exact absurd (congrArg Job.rest (Option.some.inj heq)) task.spots_ne.1
    · exact h.asked thread task' hjob
  left thread task' hthread := by
    obtain ⟨rfl, heq⟩ | ⟨-, hjob⟩ := assign_eq_some.1 hthread
    · exact absurd (congrArg Job.rest (Option.some.inj heq)) task.spots_ne.2
    · exact h.left thread task' hjob
  requested := h.requested
  parked := h.parked

/-- A thread comes to a section, and has others to come to after it. -/
theorem next (h : s.Sound) (hjob : s.jobs me = some ⟨task, spot :: rest⟩) (hvisit : spot.visit me s.parking = some p)
    (hrest : rest ≠ []) : ({ s with parking := p }.assign me (some ⟨task, rest⟩)).Sound where
  orderly := h.orderly
  holds := h.holds
  course thread job hthread := by
    obtain ⟨rfl, heq⟩ | ⟨-, hjob'⟩ := assign_eq_some.1 hthread
    · cases heq
      exact (List.suffix_cons spot rest).trans (h.course thread _ hjob)
    · exact h.course thread job hjob'
  serving thread code rest' hthread := by
    obtain ⟨rfl, heq⟩ | ⟨-, hjob'⟩ := assign_eq_some.1 hthread
    · cases heq
      exact h.serving thread code _ hjob
    · exact h.serving thread code rest' hjob'
  asked _ _ := h.asked_visit hjob hvisit (by simp)
  left _ _ := h.left_visit hjob hvisit (by simp)
  requested hheld := by
    have hspots := Task.spots_cases (h.course me _ hjob)
    exact (h.kept_visit hjob hvisit (.inl ⟨hheld, by grind⟩)).1
  parked hheld := by
    have hspots := Task.spots_cases (h.course me _ hjob)
    exact (h.kept_visit hjob hvisit (.inl ⟨hheld, by grind⟩)).2

/-- A thread is done with its task, and the calls are where they were or went on. -/
theorem finished (h : s.Sound) (hjob : s.jobs me = some ⟨task, spot :: rest⟩)
    (hvisit : spot.visit me s.parking = some p) {crowd : Crowd} (horderly : crowd.Orderly) {held : Bool}
    (hholds : crowd.Holds held) (hheld : held → s.held ∧ spot ≠ .release ∨ spot = .gather)
    (hserves : ∀ thread code rest, thread ≠ me → s.jobs thread = some ⟨.service code, rest⟩ →
      serves { s with crowd } thread = some code) (returned : List (ThreadId × Return)) :
    Sound { { s with parking := p }.assign me none with crowd, held, returned } := by
  have hother {thread : ThreadId} {job : Job}
      (hthread : ({ s with parking := p }.assign me none).jobs thread = some job) :
      thread ≠ me ∧ s.jobs thread = some job := by
    simpa using assign_eq_some.1 hthread
  exact {
    orderly := horderly
    holds := hholds
    course := fun thread job hthread => h.course thread job (hother hthread).2
    serving := fun thread code rest hthread => hserves thread code rest (hother hthread).1 (hother hthread).2
    asked := fun _ _ => h.asked_visit hjob hvisit (by simp)
    left := fun _ _ => h.left_visit hjob hvisit (by simp)
    requested := fun hnow => (h.kept_visit hjob hvisit (hheld hnow)).1
    parked := fun hnow => (h.kept_visit hjob hvisit (hheld hnow)).2 }

/-- A thread comes to the last section of a service and goes on with its call. -/
theorem served {code : HostCode} (h : s.Sound) (hjob : s.jobs me = some ⟨.service code, spot :: rest⟩)
    (hvisit : spot.visit me s.parking = some p) (hrest : rest = []) {crowd : Crowd}
    (hm : s.crowd.move (.go me) = some crowd) (returned : List (ThreadId × Return)) :
    Sound { { s with parking := p }.assign me none with crowd, held := code.holds s.held, returned } := by
  have hspots := Task.spots_cases (h.course me _ hjob)
  have hheld : code.holds s.held → s.held ∧ spot ≠ .release ∨ spot = .gather := by
    intro hcode
    cases code with
    | suspendAll => grind
    | resumeAll => cases hcode
    | _ => exact .inl ⟨hcode, by grind⟩
  obtain ⟨f, more, hf, hr⟩ := serves_eq_some.1 (h.serving me code _ hjob)
  have hholds : crowd.Holds (code.holds s.held) := h.holds.go h.orderly hm hf hr
  exact h.finished hjob hvisit (h.orderly.move hm) hholds hheld
    (fun _ _ _ hme hthread => h.serving_move hm hme hthread) returned

/-- A thread comes to the last section of an errand. -/
theorem ran {errand : Errand} (h : s.Sound) (hjob : s.jobs me = some ⟨.errand errand, spot :: rest⟩)
    (hvisit : spot.visit me s.parking = some p) (returned : List (ThreadId × Return)) :
    Sound { { s with parking := p }.assign me none with returned } := by
  have hheld : s.held → s.held ∧ spot ≠ .release ∨ spot = .gather := by
    have hspots := Task.spots_cases (h.course me _ hjob)
    exact fun hheld => .inl ⟨hheld, by grind⟩
  exact h.finished hjob hvisit h.orderly h.holds hheld
    (fun thread code rest _ hthread => h.serving thread code rest hthread) returned

/-- A thread carries out a stretch of its call that has no sections. -/
theorem goOn {s' : Yard} (h : s.Sound) (hjob : s.jobs me = none) (hm : s.goOn me = some s')
    (hplain : ∀ code, s.serves me = some code → (Task.service code).spots = []) : s'.Sound := by
  obtain ⟨crowd, hcrowd, rfl⟩ := Option.map_eq_some_iff.1 hm
  obtain ⟨newer, f, older, f', c', hp, -, hn, -⟩ := Crowd.go_cases hcrowd
  have hf := Crowd.current_of_pick hp
  obtain ⟨stretch, more, hr⟩ : ∃ stretch more, f.rest = stretch :: more := by
    obtain ⟨more, hr, -⟩ | ⟨stretch, more, -, hr, -⟩ | ⟨stretch, more, -, hr, -⟩ := Frame.next_cases hn
    all_goals exact ⟨_, more, hr⟩
  have hsame : stretch.holds s.held = s.held := by
    cases stretch with
    | host code =>
      have hcode := hplain code (serves_eq_some.2 ⟨f, more, hf, hr⟩)
      cases code <;> first | rfl | cases hcode
    | _ => rfl
  have hholds : crowd.Holds (stretch.holds s.held) := h.holds.go h.orderly hcrowd hf hr
  rw [hsame] at hholds
  exact h.crowd hcrowd hjob hholds _

/-- Nothing is left of a service after its last section. -/
theorem rest_eq_nil {code : HostCode} (h : s.Sound) (hjob : s.jobs me = some ⟨.service code, spot :: rest⟩)
    (hlast : rest = [] ∨ spot.isLast p) : rest = [] := by
  obtain hrest | hspot := hlast
  · exact hrest
  · have hspots := Task.spots_cases (h.course me _ hjob)
    cases spot <;> first | cases hspot | grind

theorem after {s' : Yard} (h : s.Sound) (hturn : s.Turn s') : s'.Sound := by
  cases hturn with
  | waits => exact h
  | aside moved idle stays => exact h.crowd moved idle (h.holds.other moved stays) s.returned
  | takeUp called => exact h.takeUp called
  | goOn idle plain moved => exact h.goOn idle moved plain
  | next job visit more => exact h.next job visit more
  | @finish s' me task spot rest p job visit last finished =>
    cases task with
    | service code =>
      obtain ⟨crowd, hcrowd, rfl⟩ := Option.map_eq_some_iff.1 finished
      exact h.served job visit (h.rest_eq_nil job last) hcrowd _
    | errand errand =>
      cases finished
      exact h.ran job visit _

end Sound

theorem Reachable.sound {s : Yard} (h : Reachable s) : s.Sound := by
  obtain ⟨moves, hmoves⟩ := h
  exact foldlM_keeps (fun _ _ _ hs hm => hs.after (turn_of_move hm)) .fresh hmoves

end Yard

/-- Whether a thread that gets this back had to wait until no stop was asked for. -/
def Return.waited : Return → Bool
  | .call asked => asked = .block
  | .errand .attach _ => true
  | .errand .detach _ => false
  | .errand .poll last => last ≠ .look

/-- A mutator that blocks for a collection leaves its safe region last of all. -/
theorem leaves_of_ending_block {s : Yard} {thread : ThreadId} (h : s.crowd.Orderly)
    (hending : s.ending thread = some .block) : s.serves thread = some .leaveSafeRegion := by
  obtain ⟨f, hf, hending⟩ := Option.bind_eq_some_iff.1 hending
  obtain ⟨⟨after, world⟩, hn, hending⟩ := Option.bind_eq_some_iff.1 hending
  have hmem := Crowd.mem_of_current hf
  obtain ⟨-, hopen⟩ := Crowd.thread_of_current hf
  have hclosed : after.isOpen = false ∧ f.call = .block := by
    dsimp only at hending
    split at hending
    · cases hending
    · rename_i hclosed
      exact ⟨by simpa using hclosed, Option.some.inj hending⟩
  obtain ⟨rest, hr, -, rfl, -⟩ | ⟨stretch, rest, count, hr, hact, rfl⟩ | ⟨stretch, rest, outcome, hr, hact, rfl⟩ :=
    Frame.next_cases hn
  · exact absurd (hopen.symm.trans hclosed.1) (by decide)
  · have hnil : rest = [] := by
      by_contra hrest
      simp [Frame.isOpen, Frame.onward, hrest] at hclosed
    obtain ⟨course, -⟩ := (h.course f hmem).ofRest hr
    rw [hclosed.2, hnil] at course
    have hlast : stretch = .host .leaveSafeRegion := by
      have := congrArg List.getLast? course
      simpa [Call.body] using this
    exact Yard.serves_eq_some.2 ⟨f, rest, hf, by rw [hr, hlast]⟩
  · -- nothing ends such a call before its time
    obtain ⟨hdeeds, -, -⟩ := h.first_of_off hmem hr hact
    obtain ⟨course, -⟩ := (h.course f hmem).ofRest hr
    rw [hdeeds, hclosed.2] at course
    cases course
    cases hact

namespace Yard

variable {s s' : Yard} {me : ThreadId} {p : Parking}

/-- Nothing comes back from `s` to `s'` that was waited for, unless to a thread that is not among the parked ones of
`p`; and no thread attaches. -/
def Withholds (p : Parking) (s s' : Yard) : Prop :=
  ∃ new, s'.returned = new ++ s.returned ∧
    ∀ thread result, (thread, result) ∈ new → result.waited →
      thread ∉ p.parked ∧ ∀ last, result ≠ .errand .attach last

theorem Withholds.same (h : s'.returned = s.returned) : Withholds p s s' := ⟨[], h, by simp⟩

/-- A call that goes on is no block that returns, unless it is past its safe region. -/
theorem Withholds.goOn (h : s.crowd.Orderly) (hm : s.goOn me = some s')
    (hleft : s.serves me = some .leaveSafeRegion → me ∉ p.parked) : Withholds p s s' := by
  obtain ⟨crowd, -, rfl⟩ := Option.map_eq_some_iff.1 hm
  refine ⟨_, rfl, fun thread result hmem hwaited => ?_⟩
  obtain ⟨call, hcall, heq⟩ := List.mem_map.1 hmem
  cases heq
  have hblock : call = .block := by simpa [Return.waited] using hwaited
  have hending : s.ending me = some .block := by
    rw [← hblock]
    simpa using hcall
  exact ⟨hleft (leaves_of_ending_block h hending), by simp⟩

namespace Sound

theorem withholds_service {code : HostCode} {spot : Spot} {rest : List Spot} (h : s.Sound)
    (hjob : s.jobs me = some ⟨.service code, spot :: rest⟩) (hlast : rest = [] ∨ spot.isLast p)
    (hfinish : { s with parking := p }.finish me spot (.service code) = some s') : Withholds s.parking s s' := by
  have hrest : rest = [] := h.rest_eq_nil hjob hlast
  let served : Yard := { { s with parking := p }.assign me none with held := code.holds s.held }
  have hdone : served.serves me = some .leaveSafeRegion → me ∉ s.parking.parked := by
    intro hleave
    have hcode : code = .leaveSafeRegion := Option.some.inj ((h.serving me code _ hjob).symm.trans hleave)
    have hcourse := h.course me _ hjob
    rw [hcode, hrest] at hcourse
    simp [Task.spots, List.suffix_cons_iff] at hcourse
    rw [hrest, hcourse] at hjob
    exact h.left me _ hjob
  have horderly : served.crowd.Orderly := h.orderly
  have hgo : served.goOn me = some s' := hfinish
  have hback := Withholds.goOn horderly hgo hdone
  exact hback

theorem withholds_errand {errand : Errand} {spot : Spot} {rest : List Spot} (h : s.Sound) (hheld : s.held)
    (hjob : s.jobs me = some ⟨.errand errand, spot :: rest⟩) (hvisit : spot.visit me s.parking = some p)
    (hlast : rest = [] ∨ spot.isLast p)
    (hfinish : { s with parking := p }.finish me spot (.errand errand) = some s') : Withholds s.parking s s' := by
  cases hfinish
  refine ⟨[(me, .errand errand spot)], rfl, fun thread result hmem hwaited => ?_⟩
  cases List.mem_singleton.1 hmem
  have hcourse := h.course me _ hjob
  cases errand with
  | attach =>
    have hspot : spot = .attach := by
      simp [Task.spots, List.suffix_cons_iff] at hcourse
      exact hcourse.1
    rw [Spot.visit_waits (h.requested hheld) (.inl hspot)] at hvisit
    cases hvisit
  | detach => cases hwaited
  | poll =>
    obtain ⟨rfl, rfl⟩ : rest = [] ∧ spot = .notify := by
      have hlook : spot ≠ .look := by simpa [Return.waited] using hwaited
      simp [Task.spots, List.suffix_cons_iff] at hcourse
      cases spot <;> simp [Spot.isLast] at hlast <;> grind
    exact ⟨h.left me _ hjob, by simp⟩

/-- What comes back while the threads are held, and was waited for, comes back to a thread that is parked no more. -/
theorem withholds (h : s.Sound) (hheld : s.held) (hturn : s.Turn s') : Withholds s.parking s s' := by
  cases hturn with
  | goOn idle plain moved =>
    refine Withholds.goOn h.orderly moved fun hleave => ?_
    cases plain _ hleave
  | @finish s' me task spot rest p job visit last finished =>
    cases task with
    | service code => exact h.withholds_service job last finished
    | errand errand => exact h.withholds_errand hheld job visit last finished
  | _ => exact Withholds.same rfl

end Sound

end Yard

/-- While a collector holds the threads, a stop is asked for, the world does not run, and every attached thread is
parked. Nobody who waits for the end of a stop gets through. So no thread attaches, and neither does a poll that
parked, or a call that blocks for a collection, come back to an attached thread. A thread that is not attached may have
left its safe region before the stop was asked for, and only has the others to notify. -/
theorem held_threads_are_parked {s : Yard} (h : s.Reachable) (hheld : s.held) :
    s.parking.requested ∧ s.crowd.world.state ≠ .running ∧
      (∀ thread ∈ s.parking.attached, thread ∈ s.parking.parked) ∧
      (∀ thread task spot rest, s.jobs thread = some ⟨task, spot :: rest⟩ → spot = .attach ∨ spot = .unpark →
        s.move (.visit thread) = some s) ∧
      ∀ m s', s.move m = some s' → ∃ new, s'.returned = new ++ s.returned ∧
        ∀ thread result, (thread, result) ∈ new → result.waited →
          thread ∉ s.parking.parked ∧ thread ∉ s.parking.attached ∧ ∀ last, result ≠ .errand .attach last := by
  have hs := h.sound
  refine ⟨hs.requested hheld, fun hrun => ?_, hs.parked hheld, fun thread task spot rest hjob hspot => ?_,
    fun m s' hm => ?_⟩
  · rw [hs.holds.running hrun] at hheld
    cases hheld
  · simp only [Yard.move, hjob, Spot.visit_waits (hs.requested hheld) hspot]
  · obtain ⟨new, hnew, hback⟩ := hs.withholds hheld (Yard.turn_of_move hm)
    refine ⟨new, hnew, fun thread result hmem hwaited => ?_⟩
    obtain ⟨hleft, hstays⟩ := hback thread result hmem hwaited
    exact ⟨hleft, fun hattached => hleft (hs.parked hheld thread hattached), hstays⟩

/-- A mutator attaches, a collector asks for a stop, and the mutator polls: then the stop is granted. -/
def mutatorPolls : List Yard.Move :=
  let mutator : ThreadId := ⟨"mutator"⟩
  let collector : ThreadId := ⟨"collector"⟩
  [.errand mutator .attach, .visit mutator, .call collector .stop, .go collector, .go collector, .go collector,
    .visit collector, .errand mutator .poll, .visit mutator, .visit mutator, .visit collector]

theorem polling_mutator_parked : ∃ s : Yard, s.Reachable ∧ s.held ∧ ⟨"mutator"⟩ ∈ s.parking.attached ∧
    ⟨"mutator"⟩ ∈ s.parking.parked := by
  have hrun : ((mutatorPolls.foldlM Yard.move {}).any fun s =>
      s.held && s.parking.attached.contains ⟨"mutator"⟩) = true := by
    decide
  cases hs : mutatorPolls.foldlM Yard.move {} with
  | none =>
    rw [hs] at hrun
    cases hrun
  | some s =>
    rw [hs] at hrun
    obtain ⟨hheld, hattached⟩ : s.held ∧ ⟨"mutator"⟩ ∈ s.parking.attached := by simpa using hrun
    obtain ⟨-, -, hparked, -, -⟩ := held_threads_are_parked ⟨mutatorPolls, hs⟩ hheld
    exact ⟨s, ⟨mutatorPolls, hs⟩, hheld, hattached, hparked _ hattached⟩

/-- A collector stops the world, up to the end of the suspension. -/
def suspends (collector : ThreadId) : List Yard.Move :=
  .call collector .stop :: List.replicate 3 (.go collector) ++ List.replicate 2 (.visit collector)

/-- A mutator that is not attached blocks until a cycle is over. It leaves its safe region, and before it comes to
notify the others a second stop is granted. -/
def mutatorBlocks : List Yard.Move :=
  let mutator : ThreadId := ⟨"mutator"⟩
  let collector : ThreadId := ⟨"collector"⟩
  .call mutator .block :: List.replicate 3 (.go mutator) ++ [.visit mutator] ++ suspends collector ++
    [.go collector, .call collector .start] ++ List.replicate 4 (.go collector) ++ [.visit collector] ++
    List.replicate 3 (.go collector) ++ [.go mutator, .go mutator, .visit mutator] ++ suspends collector

/-- A thread that is not attached and had left its safe region before the stop comes back from its call while the
threads are held. -/
theorem block_returns_while_held :
    ¬∀ (s s' : Yard) (m : Yard.Move) (new : List (ThreadId × Return)), s.Reachable → s.held → s.move m = some s' →
      s'.returned = new ++ s.returned → ∀ thread result, (thread, result) ∈ new → result.waited = false := by
  intro hclaim
  have hrun : ((mutatorBlocks.foldlM Yard.move {}).any fun s => s.held && (s.move (.visit ⟨"mutator"⟩)).any fun s' =>
      s'.returned = [(⟨"mutator"⟩, .call .block)] ++ s.returned) = true := by
    decide
  obtain ⟨s, hs, hlast⟩ := (Option.any_eq_true _ _).1 hrun
  obtain ⟨hheld, hlast⟩ := Bool.and_eq_true_iff.1 hlast
  obtain ⟨s', hs', hreturned⟩ := (Option.any_eq_true _ _).1 hlast
  have hblock := hclaim s s' _ _ ⟨mutatorBlocks, hs⟩ hheld hs' (of_decide_eq_true hreturned) _ _ (.head _)
  cases hblock

end Safepoint.Simulated
