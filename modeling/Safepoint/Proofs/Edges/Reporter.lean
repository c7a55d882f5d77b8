import Safepoint.Proofs.Basic
import Safepoint.Edges.Reporter

/-!
# What a reporter hands to a sink

Whatever the sizes of its buffers, a reporter that is shown no slot twice hands every slot to the
sink once, in the order in which it was shown.
-/
namespace Safepoint

/-- A log whose sink gives every buffer back empty. -/
def Sink.Empties (sink : Sink FlushLog) : Prop :=
  ∀ filled log, (sink.flush filled log).1.slots = [] ∧ (sink.flush filled log).2 = log ++ [filled]

theorem Sink.collecting_empties (capacity : Nat) : (Sink.collecting capacity).Empties := fun _ _ => ⟨rfl, rfl⟩

theorem Sink.discarding_empties : Sink.discarding.Empties := fun _ _ => ⟨rfl, rfl⟩

namespace Reporter

/-- The slots a reporter was shown: what reached the sink, and then what is in the buffer. -/
structure Holds (reporter : Reporter FlushLog) (slots : List Slot) : Prop where
  visited : reporter.visited = slots.reverse
  batched : reporter.sink.slots ++ reporter.buffer.slots = slots

variable {sink : Sink FlushLog} {reporter : Reporter FlushLog} {shown slots : List Slot}

theorem flushLog_slots_snoc (log : FlushLog) (filled : EdgeBuffer) :
    FlushLog.slots (log ++ [filled]) = log.slots ++ filled.slots := by
  rw [FlushLog.slots_append]
  simp [FlushLog.slots, FlushLog.batches]

theorem run_renew (hsink : sink.Empties) (reporter : Reporter FlushLog) :
    (renew sink).run reporter = (.ok (), { reporter with
      sink := reporter.sink ++ [reporter.buffer]
      buffer := (sink.flush reporter.buffer reporter.sink).1.reserve reporter.buffer.capacity }) := by
  obtain ⟨hempty, hlog⟩ := hsink reporter.buffer reporter.sink
  rw [renew, Act.run_bind_ok (Act.run_get _), ← hlog]
  change (if (sink.flush reporter.buffer reporter.sink).1.slots = [] then _ else _ : Act _ _).run _ = _
  rw [if_pos hempty]
  rfl

theorem run_visit (hsink : sink.Empties) (h : reporter.Holds shown) {slot : Slot} (hnew : slot ∉ shown) :
    ∃ reporter', (visit sink slot).run reporter = (.ok (), reporter') ∧ reporter'.Holds (shown ++ [slot]) := by
  have hnew : slot ∉ reporter.visited := by simpa [h.visited] using hnew
  let pushed : Reporter FlushLog :=
    { reporter with visited := slot :: reporter.visited, buffer := reporter.buffer.push slot }
  have hpushed : pushed.Holds (shown ++ [slot]) := by
    constructor
    · simp [pushed, h.visited]
    · simp [pushed, ← h.batched]
  have hvisit : (visit sink slot).run reporter =
      (if pushed.buffer.isFull then renew sink else pure ()).run pushed := by
    simp [visit, Act.run_bind, hnew, pushed]
  rw [hvisit]
  by_cases hfull : pushed.buffer.isFull
  · rw [if_pos hfull, run_renew hsink]
    refine ⟨_, rfl, hpushed.visited, ?_⟩
    rw [flushLog_slots_snoc, EdgeBuffer.slots_reserve, (hsink _ _).1, List.append_nil]
    exact hpushed.batched
  · rw [if_neg hfull]
    exact ⟨pushed, rfl, hpushed⟩

theorem not_mem_of_nodup {slot : Slot} (h : (shown ++ slot :: slots).Nodup) : slot ∉ shown :=
  fun hmem => (List.nodup_append.1 h).2.2 slot hmem slot (.head _) rfl

theorem run_visitAll (hsink : sink.Empties) (h : reporter.Holds shown) (hnew : (shown ++ slots).Nodup) :
    ∃ reporter', (visitAll sink slots).run reporter = (.ok (), reporter') ∧ reporter'.Holds (shown ++ slots) := by
  induction slots generalizing shown reporter with
  | nil => exact ⟨reporter, rfl, by simpa using h⟩
  | cons slot slots ih =>
    have hslot := not_mem_of_nodup hnew
    obtain ⟨reporter₁, hvisit, h₁⟩ := run_visit hsink h hslot
    obtain ⟨reporter', hvisits, h'⟩ := ih h₁ (by simpa using hnew)
    refine ⟨reporter', ?_, by simpa using h'⟩
    rw [visitAll, List.forM_eq_forM, List.forM_cons, Act.run_bind_ok hvisit]
    exact hvisits

/-- A slot that was reported was not reported before. -/
theorem holds_of_visit (hsink : sink.Empties) (h : reporter.Holds shown) {slot : Slot} {reporter' : Reporter FlushLog}
    (hrun : (visit sink slot).run reporter = (.ok (), reporter')) : reporter'.Holds (shown ++ [slot]) := by
  by_cases hmem : slot ∈ shown
  · have hvisited : slot ∈ reporter.visited := by simpa [h.visited] using hmem
    simp [visit, Act.run_bind, hvisited] at hrun
  · obtain ⟨reporter₁, hvisit, h₁⟩ := run_visit hsink h hmem
    rw [hrun] at hvisit
    cases hvisit
    exact h₁

theorem holds_of_visitAll (hsink : sink.Empties) (h : reporter.Holds shown) {reporter' : Reporter FlushLog}
    (hrun : (visitAll sink slots).run reporter = (.ok (), reporter')) : reporter'.Holds (shown ++ slots) := by
  induction slots generalizing shown reporter with
  | nil =>
    obtain rfl : reporter = reporter' := by simpa [visitAll] using hrun
    simpa using h
  | cons slot slots ih =>
    rw [visitAll, List.forM_eq_forM, List.forM_cons] at hrun
    obtain ⟨_, reporter₁, hfirst, hrest⟩ := Act.run_bind_eq_ok.1 hrun
    have h₁ := holds_of_visit hsink h hfirst
    simpa using ih h₁ hrest

/-- Reports that return were of slots none of which was shown twice. -/
theorem nodup_of_visitAll (hsink : sink.Empties) (h : reporter.Holds shown) (hnew : shown.Nodup)
    {reporter' : Reporter FlushLog} (hrun : (visitAll sink slots).run reporter = (.ok (), reporter')) :
    (shown ++ slots).Nodup := by
  induction slots generalizing shown reporter with
  | nil => simpa using hnew
  | cons slot slots ih =>
    rw [visitAll, List.forM_eq_forM, List.forM_cons] at hrun
    obtain ⟨_, reporter₁, hfirst, hrest⟩ := Act.run_bind_eq_ok.1 hrun
    have hslot : slot ∉ shown := by
      intro hmem
      have hvisited : slot ∈ reporter.visited := by simpa [h.visited] using hmem
      simp [visit, Act.run_bind, hvisited] at hfirst
    simpa using ih (holds_of_visit hsink h hfirst) (nodup_snoc hnew hslot) hrest

theorem slots_close (hsink : sink.Empties) (h : reporter.Holds shown) : (close sink reporter).slots = shown := by
  unfold close
  split
  · rename_i hempty
    simpa [hempty] using h.batched
  · rw [(hsink _ _).2, flushLog_slots_snoc]
    exact h.batched

theorem start_of_le {τ : Type} {sink : Sink τ} {state : τ}
    (hroom : max (sink.capacity state) 1 ≤ EdgeBuffer.maxCapacity) :
    start sink state = .ok ⟨state, .ofCapacity (max (sink.capacity state) 1), []⟩ := by
  rw [start, EdgeBuffer.allocate, if_pos hroom]
  rfl

end Reporter

/-- A scan that shows its reporter some slots hands just these to the sink. -/
theorem run_reporting {σ : Type} {sink : Sink FlushLog} (hsink : sink.Empties)
    (room : max (sink.capacity []) 1 ≤ EdgeBuffer.maxCapacity) {scan : Act (σ × Reporter FlushLog) Unit} {s : σ}
    {slots : List Slot} {P : σ → Prop} (h : ∀ reporter : Reporter FlushLog, reporter.Holds [] →
      ∃ (s' : σ) (reporter' : Reporter FlushLog), scan.run (s, reporter) = (.ok (), s', reporter') ∧
        reporter'.Holds slots ∧ P s') :
    ∃ s' log, (reporting sink scan).run (s, []) = (.ok slots.length, s', log) ∧ log.slots = slots ∧ P s' := by
  have hstart := Reporter.start_of_le room
  obtain ⟨s', reporter', hscan, hholds, hp⟩ := h ⟨[], .ofCapacity (max (sink.capacity []) 1), []⟩ ⟨rfl, rfl⟩
  refine ⟨s', reporter'.close sink, ?_, Reporter.slots_close hsink hholds, hp⟩
  have hcount : reporter'.reported = slots.length := by simp [Reporter.reported, hholds.visited]
  simp only [Act.run] at hscan
  simp only [reporting, Act.run, hstart, hscan, hcount]

/-- What is true of the slots shown to a reporter is true of the slots that reached the sink. -/
theorem slots_of_reporting {σ : Type} {sink : Sink FlushLog} (hsink : sink.Empties)
    {scan : Act (σ × Reporter FlushLog) Unit} {s s' : σ} {Q : List Slot → σ → Prop}
    (h : ∀ (reporter reporter' : Reporter FlushLog) (s' : σ), reporter.Holds [] →
      scan.run (s, reporter) = (.ok (), s', reporter') → ∃ slots, reporter'.Holds slots ∧ Q slots s')
    {count : Nat} {log : FlushLog} (hrun : (reporting sink scan).run (s, []) = (.ok count, s', log)) :
    Q log.slots s' := by
  simp only [reporting, Act.run] at hrun
  split at hrun
  · cases hrun
  · rename_i reporter hstart
    have hempty : reporter.Holds [] := by
      simp only [Reporter.start, EdgeBuffer.allocate] at hstart
      split at hstart
      · cases hstart
        exact ⟨rfl, rfl⟩
      · cases hstart
    split at hrun
    · rename_i s₁ reporter₁ hscan
      cases hrun
      obtain ⟨slots, hholds, hq⟩ := h reporter reporter₁ s' hempty hscan
      rw [Reporter.slots_close hsink hholds]
      exact hq
    · cases hrun

end Safepoint
