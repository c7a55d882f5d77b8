import Safepoint.Proofs.Edges.Handover
import Safepoint.Proofs.Edges.Reporter

/-!
# Buffers of different sizes

Two reporters are shown the same slots, over sinks that keep every batch but want buffers of different sizes. At any
time both were shown the same and have it in their batches and the buffer in use. So both refuse the same slot, and in
the end both sinks have the same slots, in batches no longer than the buffers.
-/
namespace Safepoint

open Act (Alike)

namespace Reporter

/-- In the middle of a scan over a sink that keeps every batch. -/
structure Batched (capacity : Nat) (reporter : Reporter FlushLog) (shown : List Slot) : Prop
    extends reporter.Holds shown where
  distinct : shown.Nodup
  room : reporter.buffer.capacity = max capacity 1
  space : reporter.buffer.slots.length < max capacity 1
  short : ∀ filled ∈ reporter.sink, filled.slots.length ≤ max capacity 1

variable {capacity capacity' : Nat} {reporter reporter' : Reporter FlushLog} {shown slots : List Slot} {slot : Slot}

theorem Batched.visit_again (h : reporter.Batched capacity shown) (hagain : slot ∈ shown) :
    (visit (.collecting capacity) slot).run reporter = (.error (.panic (.repeatedSlot slot)), reporter) :=
  run_visit_repeated (by simpa [h.visited] using hagain)

theorem Batched.visit_new (h : reporter.Batched capacity shown) (hnew : slot ∉ shown) :
    ∃ reporter', (visit (.collecting capacity) slot).run reporter = (.ok (), reporter') ∧
      reporter'.Batched capacity (shown ++ [slot]) := by
  have hvisited : slot :: reporter.visited = (shown ++ [slot]).reverse := by simp [h.visited]
  have hbatched : reporter.sink.slots ++ (reporter.buffer.push slot).slots = shown ++ [slot] := by simp [← h.batched]
  have hdistinct := nodup_snoc h.distinct hnew
  have hlength : (reporter.buffer.push slot).slots.length = reporter.buffer.slots.length + 1 := by simp
  have hspace := h.space
  have hroom := h.room
  rw [run_visit_new (by simpa [h.visited] using hnew)]
  by_cases hfull : (reporter.buffer.push slot).isFull
  · have hflush (filled : EdgeBuffer) (log : FlushLog) : (Sink.collecting capacity).flush filled log =
        (.ofCapacity (max filled.capacity (max capacity 1)), log ++ [filled]) := rfl
    rw [if_pos hfull, run_renew_emptied (hflush _ _) rfl]
    refine ⟨_, rfl, ⟨hvisited, ?_⟩, hdistinct, ?_, ?_, ?_⟩
    · rw [← hbatched]
      exact (List.append_nil _).trans (flushLog_slots_snoc _ _)
    · simp [EdgeBuffer.reserve, EdgeBuffer.push, hroom]
    · exact Nat.lt_of_lt_of_le Nat.one_pos (Nat.le_max_right ..)
    · intro filled hfilled
      obtain hfilled | hfilled := List.mem_append.1 hfilled
      · exact h.short filled hfilled
      · rw [List.mem_singleton.1 hfilled, hlength]
        exact hspace
  · rw [if_neg hfull]
    refine ⟨_, rfl, ⟨hvisited, hbatched⟩, hdistinct, hroom, ?_, h.short⟩
    rw [EdgeBuffer.isFull, decide_eq_true_iff, EdgeBuffer.capacity_push, hroom] at hfull
    exact Nat.lt_of_not_le hfull

theorem Batched.begun (capacity : Nat) : Batched capacity ⟨[], .ofCapacity (max capacity 1), []⟩ [] where
  visited := rfl
  batched := rfl
  distinct := .nil
  room := rfl
  space := Nat.lt_of_lt_of_le Nat.one_pos (Nat.le_max_right ..)
  short := by simp

theorem Batched.short_close (h : reporter.Batched capacity shown) :
    ∀ filled ∈ reporter.close (.collecting capacity), filled.slots.length ≤ max capacity 1 := by
  unfold close
  split
  · exact h.short
  · intro filled hfilled
    obtain hfilled | hfilled := List.mem_append.1 hfilled
    · exact h.short filled hfilled
    · rw [List.mem_singleton.1 hfilled]
      exact Nat.le_of_lt h.space

/-- Two reporters that were shown the same. -/
def Twins (capacity capacity' : Nat) (reporter reporter' : Reporter FlushLog) : Prop :=
  ∃ shown, reporter.Batched capacity shown ∧ reporter'.Batched capacity' shown

theorem alike_visit (slot : Slot) :
    Alike (Twins capacity capacity') (visit (.collecting capacity) slot) (visit (.collecting capacity') slot) := by
  rintro reporter reporter' ⟨shown, h, h'⟩
  by_cases hagain : slot ∈ shown
  · rw [h.visit_again hagain, h'.visit_again hagain]
    exact ⟨rfl, shown, h, h'⟩
  · obtain ⟨after, hrun, hafter⟩ := h.visit_new hagain
    obtain ⟨after', hrun', hafter'⟩ := h'.visit_new hagain
    rw [hrun, hrun']
    exact ⟨rfl, _, hafter, hafter'⟩

theorem alike_visitAll (slots : List Slot) :
    Alike (Twins capacity capacity') (visitAll (.collecting capacity) slots)
      (visitAll (.collecting capacity') slots) :=
  .forM slots fun slot _ => alike_visit slot

end Reporter

/-- Two scans with buffers of different sizes came to the same and reported the same slots, all in batches that fit the
buffers. `told` is the number of slots that a result tells, if it tells one. -/
structure SameReport {α σ σ' : Type} (told : α → Option Nat) (related : σ → σ' → Prop) (capacity capacity' : Nat)
    (one : Except Fault α × σ × FlushLog) (other : Except Fault α × σ' × FlushLog) : Prop where
  outcome : one.1 = other.1
  state : related one.2.1 other.2.1
  slots : one.2.2.slots = other.2.2.slots
  count : ∀ a n, one.1 = .ok a → told a = some n → one.2.2.slots.length = n
  short : ∀ filled ∈ one.2.2, filled.slots.length ≤ max capacity 1
  short' : ∀ filled ∈ other.2.2, filled.slots.length ≤ max capacity' 1

variable {α β σ σ' : Type} {related : σ → σ' → Prop} {capacity capacity' : Nat} {s : σ} {s' : σ'}

theorem SameReport.map {told : α → Option Nat} {told' : β → Option Nat} {f : α → β} (hf : ∀ a, told' (f a) = told a)
    {act : Act (σ × FlushLog) α} {other : Act (σ' × FlushLog) α} {p : σ × FlushLog} {q : σ' × FlushLog}
    (h : SameReport told related capacity capacity' (act.run p) (other.run q)) :
    SameReport told' related capacity capacity' ((do return f (← act) : Act _ β).run p)
      ((do return f (← other) : Act _ β).run q) := by
  rw [← map_eq_pure_bind, ← map_eq_pure_bind, Act.run_map, Act.run_map]
  refine ⟨congrArg (Except.map f) h.outcome, h.state, h.slots, fun b n hb hn => ?_, h.short, h.short'⟩
  rcases hact : (act.run p).1 with cause | a
  · simp [hact, Except.map] at hb
  · obtain rfl : f a = b := by simpa [hact, Except.map] using hb
    exact h.count a n hact ((hf a).symm.trans hn)

theorem start_collecting (room : capacity ≤ EdgeBuffer.maxCapacity) :
    Reporter.start (.collecting capacity) [] = .ok ⟨[], .ofCapacity (max capacity 1), []⟩ := by
  have hroom : max ((Sink.collecting capacity).capacity []) 1 = max capacity 1 := by
    simp [Sink.collecting, Sink.answering]
  have hfits : max capacity 1 ≤ EdgeBuffer.maxCapacity := Nat.max_le.2 ⟨room, by decide⟩
  rw [Reporter.start_of_le (hroom ▸ hfits), hroom]

/-- Scans that do the same with their reporters report the same. -/
theorem sameReport_reporting (room : capacity ≤ EdgeBuffer.maxCapacity) (room' : capacity' ≤ EdgeBuffer.maxCapacity)
    {scan : Act (σ × Reporter FlushLog) Unit} {scan' : Act (σ' × Reporter FlushLog) Unit}
    (h : Alike (fun p q => related p.1 q.1 ∧ Reporter.Twins capacity capacity' p.2 q.2) scan scan')
    (hs : related s s') : SameReport some related capacity capacity'
      ((reporting (.collecting capacity) scan).run (s, []))
      ((reporting (.collecting capacity') scan').run (s', [])) := by
  obtain ⟨hout, hleft, shown, hone, hother⟩ := h (s, ⟨[], .ofCapacity (max capacity 1), []⟩)
    (s', ⟨[], .ofCapacity (max capacity' 1), []⟩) ⟨hs, [], .begun capacity, .begun capacity'⟩
  simp only [Act.run] at hout hleft hone hother
  simp only [reporting, Act.run, start_collecting room, start_collecting room']
  generalize scan _ = first at hout hleft hone
  generalize scan' _ = second at hout hleft hother
  obtain ⟨outcome, t, reporter⟩ := first
  obtain ⟨_, t', reporter'⟩ := second
  obtain rfl := hout
  have hslots : (reporter.close (.collecting capacity)).slots = shown :=
    Reporter.slots_close (Sink.collecting_empties capacity) hone.toHolds
  have hslots' : (reporter'.close (.collecting capacity')).slots = shown :=
    Reporter.slots_close (Sink.collecting_empties capacity') hother.toHolds
  have hreported : reporter.reported = shown.length := by rw [Reporter.reported, hone.visited, List.length_reverse]
  have hreported' : reporter'.reported = shown.length := by rw [Reporter.reported, hother.visited, List.length_reverse]
  cases outcome with
  | error cause =>
    refine ⟨rfl, hleft, hslots.trans hslots'.symm, fun a n ha _ => ?_, hone.short_close, hother.short_close⟩
    cases ha
  | ok _ =>
    refine ⟨congrArg Except.ok (hreported.trans hreported'.symm), hleft, hslots.trans hslots'.symm,
      fun a n ha hn => ?_, hone.short_close, hother.short_close⟩
    cases ha
    cases hn
    exact (congrArg List.length hslots).trans hreported.symm

/-- A scan over one sink, whatever else is related. -/
theorem alike_reporting {τ : Type} {sink : Sink τ} {scan : Act (σ × Reporter τ) Unit}
    {scan' : Act (σ' × Reporter τ) Unit}
    (h : Alike (fun p q => related p.1 q.1 ∧ p.2 = q.2) scan scan') :
    Alike (fun p q => related p.1 q.1 ∧ p.2 = q.2) (reporting sink scan) (reporting sink scan') := by
  rintro ⟨s, t⟩ ⟨s', _⟩ ⟨hs, rfl⟩
  simp only [reporting, Act.run]
  cases Reporter.start sink t with
  | error cause => exact ⟨rfl, hs, rfl⟩
  | ok reporter =>
    obtain ⟨hout, hleft, hsame⟩ := h (s, reporter) (s', reporter) ⟨hs, rfl⟩
    simp only [Act.run] at hout hleft hsame
    dsimp only
    generalize scan _ = first at hout hleft hsame
    generalize scan' _ = second at hout hleft hsame
    obtain ⟨outcome, t, reporter⟩ := first
    obtain ⟨_, t', _⟩ := second
    obtain rfl := hout
    obtain rfl := hsame
    cases outcome with
    | error cause => exact ⟨rfl, hleft, rfl⟩
    | ok _ => exact ⟨rfl, hleft, rfl⟩

end Safepoint
