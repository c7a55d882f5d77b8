import Safepoint.Proofs.Basic

/-!
# Calls of many threads, section by section

A call on what threads share is carried out in sections, each of which the others see as one step. Between two sections
of a call every other thread may go on. A section that needs a lock somebody else holds has to wait.
-/
namespace Safepoint

/-- How calls `κ` are carried out on a shared `σ`: the stage at which a call begins, and what a thread does that stands
at a stage. It comes to another stage or to the end of its call, unless it has to wait. -/
structure Sections (κ τ σ : Type) where
  enter : σ → κ → τ
  next : σ → τ → Option (σ × Option τ)

/-- What a thread that stands at a stage leaves when its call is over, if nobody comes between its sections. -/
inductive Sections.Leaves {κ τ σ : Type} (sections : Sections κ τ σ) : σ → τ → σ → Prop
  | last {value value' : σ} {stage : τ} (next : sections.next value stage = some (value', none)) :
      Leaves sections value stage value'
  | more {value value' value'' : σ} {stage stage' : τ} (next : sections.next value stage = some (value', some stage'))
      (rest : Leaves sections value' stage' value'') : Leaves sections value stage value''

/-- What threads share, and the stage at which each stands in its call, if it is in one. -/
structure Shared (σ τ : Type) where
  value : σ
  stages : ThreadId → Option τ := fun _ => none

namespace Shared

inductive Move (κ : Type) where
  | call (thread : ThreadId) (call : κ)
  | go (thread : ThreadId)
  deriving DecidableEq

variable {κ τ σ : Type}

def Move.thread : Move κ → ThreadId
  | call thread _ | go thread => thread

/-- No call is in progress. -/
def Idle (s : Shared σ τ) : Prop := ∀ thread, s.stages thread = none

def assign (s : Shared σ τ) (thread : ThreadId) (value : σ) (stage : Option τ) : Shared σ τ :=
  ⟨value, Function.update s.stages thread stage⟩

section Runs

variable (sections : Sections κ τ σ)

/-- A thread that is in no call may begin one, and one that is in a call may go on unless it has to wait. -/
def move (s : Shared σ τ) : Move κ → Option (Shared σ τ)
  | .call thread call =>
    match s.stages thread with
    | none => some (s.assign thread s.value (some (sections.enter s.value call)))
    | some _ => none
  | .go thread =>
    match s.stages thread with
    | none => none
    | some stage => (sections.next s.value stage).map fun r => s.assign thread r.1 r.2

def run (moves : List (Move κ)) (s : Shared σ τ) : Option (Shared σ τ) := moves.foldlM (move sections) s

/-- Moves that are checked one by one where they are made. -/
def runIf (check : Shared σ τ → Move κ → Bool) (moves : List (Move κ)) (s : Shared σ τ) : Option (Shared σ τ) :=
  moves.foldlM (fun s m => if check s m then move sections s m else none) s

/-- What moves lead to from `start` with no call in progress, if each is allowed where it is made. -/
inductive Reached (allowed : Shared σ τ → Move κ → Prop) (start : σ) : Shared σ τ → Prop
  | start : Reached allowed start ⟨start, fun _ => none⟩
  | move {s s' : Shared σ τ} {m : Move κ} (before : Reached allowed start s) (may : allowed s m)
      (does : s.move sections m = some s') : Reached allowed start s'

end Runs

variable {sections : Sections κ τ σ} {s s' : Shared σ τ} {start value : σ} {thread other : ThreadId} {stage : τ}
  {rest : Option τ} {m : Move κ}

@[simp] theorem value_assign : (s.assign thread value rest).value = value := rfl

theorem stages_assign : (s.assign thread value rest).stages other = if other = thread then rest else s.stages other :=
  Function.update_apply ..

theorem assign_eq_some : (s.assign thread value rest).stages other = some stage ↔
    other = thread ∧ rest = some stage ∨ other ≠ thread ∧ s.stages other = some stage := update_eq_some

/-- What a move can do: begin a call, which changes nothing that is shared, or carry out one section. -/
theorem move_cases (h : s.move sections m = some s') :
    (∃ thread call, m = .call thread call ∧ s.stages thread = none ∧
      s' = s.assign thread s.value (some (sections.enter s.value call))) ∨
    ∃ thread stage value rest, m = .go thread ∧ s.stages thread = some stage ∧
      sections.next s.value stage = some (value, rest) ∧ s' = s.assign thread value rest := by
  cases m with
  | call thread call =>
    cases hstage : s.stages thread with
    | none => exact .inl ⟨thread, call, rfl, hstage, by simpa [move, hstage] using h.symm⟩
    | some stage => simp [move, hstage] at h
  | go thread =>
    cases hstage : s.stages thread with
    | none => simp [move, hstage] at h
    | some stage =>
      simp only [move, hstage, Option.map_eq_some_iff] at h
      obtain ⟨⟨value, rest⟩, hnext, rfl⟩ := h
      exact .inr ⟨thread, stage, value, rest, rfl, hstage, hnext, rfl⟩

theorem stages_of_move (h : s.move sections m = some s') (hne : thread ≠ m.thread) :
    s'.stages thread = s.stages thread := by
  obtain ⟨_, _, rfl, -, rfl⟩ | ⟨_, _, _, _, rfl, -, -, rfl⟩ := move_cases h <;> exact Function.update_of_ne hne ..

/-- A thread that makes no move stands where it stood. -/
theorem stages_of_run {moves : List (Move κ)} (h : run sections moves s = some s')
    (hne : ∀ m ∈ moves, thread ≠ m.thread) : s'.stages thread = s.stages thread := by
  induction moves generalizing s with
  | nil =>
    cases h
    rfl
  | cons m moves ih =>
    obtain ⟨middle, hm, hrest⟩ := Option.bind_eq_some_iff.1 h
    rw [ih hrest fun other hother => hne other (List.mem_cons_of_mem m hother),
      stages_of_move hm (hne m List.mem_cons_self)]

/-- Who is in a call has made a move. -/
theorem moved_of_run {moves : List (Move κ)} (h : run sections moves ⟨start, fun _ => none⟩ = some s)
    (hstage : s.stages thread = some stage) : thread ∈ moves.map Move.thread := by
  by_contra hnone
  rw [stages_of_run h fun m hm hthread => hnone (List.mem_map.2 ⟨m, hm, hthread.symm⟩)] at hstage
  cases hstage

theorem idle_of_run {moves : List (Move κ)} (h : run sections moves ⟨start, fun _ => none⟩ = some s)
    (hmoved : (moves.all fun m => (s.stages m.thread).isNone) = true) : s.Idle := by
  intro thread
  by_contra hstage
  obtain ⟨stage, hstage⟩ := Option.ne_none_iff_exists'.1 hstage
  obtain ⟨m, hm, rfl⟩ := List.mem_map.1 (moved_of_run h hstage)
  have hnone := List.all_eq_true.1 hmoved m hm
  simp [hstage] at hnone

theorem move_call {call : κ} (h : s.stages thread = none) :
    s.move sections (.call thread call) = some (s.assign thread s.value (some (sections.enter s.value call))) := by
  simp [move, h]

theorem move_go (h : s.stages thread = some stage) (hnext : sections.next s.value stage = some (value, rest)) :
    s.move sections (.go thread) = some (s.assign thread value rest) := by
  simp [move, h, hnext]

@[simp] theorem run_nil : run sections [] s = some s := rfl

theorem run_append (first second : List (Move κ)) (s : Shared σ τ) :
    run sections (first ++ second) s = (run sections first s).bind (run sections second) := List.foldlM_append

theorem run_cons_of_move {moves : List (Move κ)} (h : s.move sections m = some s') :
    run sections (m :: moves) s = run sections moves s' := by
  simp [run, h]

theorem assign_assign (value' : σ) (rest' : Option τ) :
    (s.assign thread value rest).assign thread value' rest' = s.assign thread value' rest' := by
  rw [assign, assign, assign, Function.update_idem]

theorem assign_self (h : s.stages thread = rest) (value : σ) : s.assign thread value rest = { s with value } := by
  rw [assign, ← h, Function.update_eq_self]

theorem run_leaves {value value' : σ} (h : sections.Leaves value stage value') (s : Shared σ τ) (thread : ThreadId) :
    ∃ n, run sections (List.replicate n (.go thread)) (s.assign thread value (some stage)) =
      some (s.assign thread value' none) := by
  induction h generalizing s with
  | @last value value' stage next =>
    have hgo := move_go (s := s.assign thread value (some stage)) (by rw [stages_assign, if_pos rfl]) next
    exact ⟨1, by rw [List.replicate_one, run_cons_of_move hgo, run_nil, assign_assign]⟩
  | @more value value' value'' stage stage' next _ ih =>
    have hgo := move_go (s := s.assign thread value (some stage)) (by rw [stages_assign, if_pos rfl]) next
    obtain ⟨n, hn⟩ := ih s
    exact ⟨n + 1, by rw [List.replicate_succ, run_cons_of_move hgo, assign_assign, hn]⟩

/-- A call whose sections nobody comes between. -/
theorem run_alone {call : κ} {value : σ} (h : sections.Leaves s.value (sections.enter s.value call) value)
    (hthread : s.stages thread = none) :
    ∃ n, run sections (.call thread call :: List.replicate n (.go thread)) s = some { s with value } := by
  obtain ⟨n, hn⟩ := run_leaves h s thread
  exact ⟨n, by rw [run_cons_of_move (move_call hthread), hn, assign_self hthread]⟩

/-- What holds at first and is preserved by every move that is allowed holds wherever such moves lead. -/
theorem Reached.keeps {allowed : Shared σ τ → Move κ → Prop} {P : Shared σ τ → Prop}
    (h : Reached sections allowed start s) (hstart : P ⟨start, fun _ => none⟩)
    (hmove : ∀ s s' m, P s → allowed s m → s.move sections m = some s' → P s') : P s := by
  induction h with
  | start => exact hstart
  | move _ may does ih => exact hmove _ _ _ ih may does

section Checked

variable {check : Shared σ τ → Move κ → Bool} {moves : List (Move κ)}

theorem run_of_runIf (h : runIf sections check moves s = some s') : run sections moves s = some s' := by
  induction moves generalizing s with
  | nil => exact h
  | cons m moves ih =>
    obtain ⟨middle, hm, hrest⟩ := Option.bind_eq_some_iff.1 h
    rw [run_cons_of_move (Option.ite_none_right_eq_some.1 hm).2]
    exact ih hrest

theorem Reached.of_runIf {allowed : Shared σ τ → Move κ → Prop} (hcheck : ∀ s m, check s m = true → allowed s m)
    (h : runIf sections check moves ⟨start, fun _ => none⟩ = some s) : Reached sections allowed start s := by
  refine foldlM_keeps (fun s s' m hbefore does => ?_) .start h
  rw [Option.ite_none_right_eq_some] at does
  exact hbefore.move (hcheck s m does.1) does.2

end Checked

end Shared

end Safepoint
