import Safepoint.Edges.Exchange
import Safepoint.Proofs.Edges.Handover

/-!
# Buffers that a host holds itself

A host that writes into its buffers itself, and passes back each one when it is full, hands over what a reporter hands
over that is shown the same slots. However much a host writes into its buffers, what it passes back reaches the sink
once and in order, and what it releases does not.
-/
namespace Safepoint

open Handover (batches)

namespace Sink

variable {τ : Type} (sink : Sink τ)

/-- The host writes its slots one by one into the buffer it holds, and passes the buffer back whenever it is full. -/
def fill : List Slot → EdgeBuffer × τ → EdgeBuffer × τ
  | [], held => held
  | slot :: slots, (buffer, state) =>
    if (buffer.push slot).isFull then
      let (room, state) := sink.exchange (buffer.push slot) state
      fill slots (.ofCapacity room, state)
    else fill slots (buffer.push slot, state)

/-- The host asks for a first buffer and fills it and those that follow. It passes back the last one, however much is
in it, and releases what it got for that. -/
def report (slots : List Slot) (state : τ) : Except Panic τ := do
  let room ← sink.firstRoom state
  let (buffer, state) := sink.fill slots (.ofCapacity room, state)
  let (room, state) := sink.exchange buffer state
  return sink.release (.ofCapacity room) state

/-- The host passes back one buffer after the other, each with what it wrote into it. The result is the room in the one
it holds then. -/
def exchangeAll : List (List Slot) → Nat × τ → Nat × τ
  | [], held => held
  | written :: more, (room, state) => exchangeAll more (sink.exchange ⟨written, room⟩ state)

variable {sink} {room : Nat} {written : List Slot}

@[simp] theorem exchange_nil (room : Nat) (state : τ) : sink.exchange ⟨[], room⟩ state = (room, state) := rfl

theorem exchange_of_ne_nil {filled : EdgeBuffer} (h : filled.slots ≠ []) (state : τ) :
    (sink.exchange filled state).2 = (sink.flush filled state).2 := by
  rw [exchange, if_neg h]

theorem le_exchange (sink : Sink τ) (filled : EdgeBuffer) (state : τ) :
    filled.capacity ≤ (sink.exchange filled state).1 := by
  unfold exchange
  split
  · exact Nat.le_refl _
  · dsimp only
    split
    · rename_i hsmall
      simp only [EdgeBuffer.reserve]
      omega
    · rename_i hlarge
      exact Nat.le_of_not_lt hlarge

/-- Where the sink gives back an empty buffer, it is grown as a reporter grows it. -/
theorem exchange_of_emptied {filled fresh : EdgeBuffer} {state state' : τ} (h : filled.slots ≠ [])
    (hflush : sink.flush filled state = (fresh, state')) (hempty : fresh.slots = []) :
    sink.exchange filled state = ((fresh.reserve filled.capacity).capacity, state') := by
  rw [exchange, if_neg h, hflush]
  dsimp only
  split
  · rfl
  · rename_i hlarge
    simp only [EdgeBuffer.reserve, hempty, List.length_nil, Nat.zero_add]
    rw [Nat.max_eq_left (Nat.le_of_not_lt hlarge)]

theorem exchange_logged (sink : Sink τ) (filled : EdgeBuffer) (s : τ × List Handover) :
    sink.exchange filled s.1 = ((sink.logged.exchange filled s).1, (sink.logged.exchange filled s).2.1) := by
  unfold exchange
  split <;> rfl

theorem batches_exchange (sink : Sink τ) (filled : EdgeBuffer) (s : τ × List Handover) :
    (batches (sink.logged.exchange filled s).2.2).flatten = (batches s.2).flatten ++ filled.slots := by
  by_cases h : filled.slots = []
  · rw [exchange, if_pos h, h, List.append_nil]
  · rw [exchange_of_ne_nil h]
    exact Handover.flatten_snoc _ _

theorem exchangeAll_logged (sink : Sink τ) (fills : List (List Slot)) (room : Nat) (s : τ × List Handover) :
    sink.exchangeAll fills (room, s.1) =
      ((sink.logged.exchangeAll fills (room, s)).1, (sink.logged.exchangeAll fills (room, s)).2.1) := by
  induction fills generalizing room s with
  | nil => rfl
  | cons written fills ih =>
    simp only [exchangeAll]
    rw [exchange_logged]
    exact ih ..

theorem batches_exchangeAll (sink : Sink τ) (fills : List (List Slot)) (room : Nat) (s : τ × List Handover) :
    (batches (sink.logged.exchangeAll fills (room, s)).2.2).flatten = (batches s.2).flatten ++ fills.flatten := by
  induction fills generalizing room s with
  | nil => exact (List.append_nil _).symm
  | cons written fills ih =>
    have hrest := ih (sink.logged.exchange ⟨written, room⟩ s).1 (sink.logged.exchange ⟨written, room⟩ s).2
    rw [batches_exchange, List.append_assoc] at hrest
    exact hrest

theorem fill_logged (sink : Sink τ) (slots : List Slot) (buffer : EdgeBuffer) (s : τ × List Handover) :
    sink.fill slots (buffer, s.1) =
      ((sink.logged.fill slots (buffer, s)).1, (sink.logged.fill slots (buffer, s)).2.1) := by
  induction slots generalizing buffer s with
  | nil => rfl
  | cons slot slots ih =>
    simp only [fill]
    split
    · rw [exchange_logged]
      exact ih ..
    · exact ih ..

theorem report_logged (sink : Sink τ) (slots : List Slot) (s : τ × List Handover) :
    sink.report slots s.1 = (sink.logged.report slots s).map Prod.fst := by
  have hroom : sink.logged.firstRoom s = sink.firstRoom s.1 := rfl
  unfold report
  rw [hroom]
  cases sink.firstRoom s.1 with
  | error cause => rfl
  | ok room =>
    simp only [bind, Except.bind, pure, Except.pure, Except.map, release]
    rw [fill_logged, exchange_logged]

end Sink

namespace Reporter

variable {τ : Type} {sink : Sink τ} {slots : List Slot}

/-- A reporter that is shown new slots comes to hold the buffer that the host comes to hold. -/
theorem run_visitAll_eq_fill (hempties : ∀ filled state, (sink.flush filled state).1.slots = []) (reporter : Reporter τ)
    (hnew : (slots.reverse ++ reporter.visited).Nodup) :
    (visitAll sink slots).run reporter =
      (.ok (), ⟨(sink.fill slots (reporter.buffer, reporter.sink)).2, (sink.fill slots (reporter.buffer, reporter.sink)).1,
        slots.reverse ++ reporter.visited⟩) := by
  induction slots generalizing reporter with
  | nil => rfl
  | cons slot slots ih =>
    rw [List.reverse_cons, List.append_assoc, List.singleton_append] at hnew ⊢
    have hslot : slot ∉ reporter.visited := (List.nodup_cons.1 (List.nodup_append.1 hnew).2.1).1
    rw [visitAll, List.forM_eq_forM, List.forM_cons]
    have hvisit : (visit sink slot).run reporter = _ := run_visit_new hslot
    by_cases hfull : (reporter.buffer.push slot).isFull
    · obtain ⟨fresh, state, hflush⟩ : ∃ fresh state,
          sink.flush (reporter.buffer.push slot) reporter.sink = (fresh, state) := ⟨_, _, rfl⟩
      have hempty : fresh.slots = [] := by
        have hback := hempties (reporter.buffer.push slot) reporter.sink
        rw [hflush] at hback
        exact hback
      have hnext : EdgeBuffer.ofCapacity (fresh.reserve (reporter.buffer.push slot).capacity).capacity =
          fresh.reserve (reporter.buffer.push slot).capacity := by
        rw [EdgeBuffer.ofCapacity, ← hempty]
        rfl
      rw [if_pos hfull, run_renew_emptied hflush hempty] at hvisit
      rw [Act.run_bind_ok hvisit, Sink.fill, if_pos hfull,
        Sink.exchange_of_emptied (by simp) hflush hempty]
      dsimp only
      rw [hnext]
      exact ih _ hnew
    · rw [if_neg hfull] at hvisit
      rw [Act.run_bind_ok hvisit, Sink.fill, if_neg hfull]
      exact ih _ hnew

/-- To close a reporter is to pass back its buffer. -/
theorem close_eq_exchange (sink : Sink τ) (reporter : Reporter τ) :
    reporter.close sink = (sink.exchange reporter.buffer reporter.sink).2 := by
  unfold close Sink.exchange
  split <;> rfl

theorem run_reporting_eq_report (hempties : ∀ filled state, (sink.flush filled state).1.slots = [])
    (hnodup : slots.Nodup) (state : τ) :
    (∀ left, sink.report slots state = .ok left →
      (reporting sink (showing sink slots)).run ((), state) = (.ok slots.length, (), left)) ∧
    ∀ cause, sink.report slots state = .error cause →
      (reporting sink (showing sink slots)).run ((), state) = (.error (.panic cause), (), state) := by
  unfold Sink.report Sink.firstRoom
  by_cases hroom : max (sink.capacity state) 1 ≤ EdgeBuffer.maxCapacity
  · have hnew : (slots.reverse ++ []).Nodup := by simpa using (List.reverse_perm slots).nodup_iff.2 hnodup
    have hvisits := run_visitAll_eq_fill hempties ⟨state, .ofCapacity (max (sink.capacity state) 1), []⟩ hnew
    rw [run_reporting_showing (start_of_le hroom), hvisits, close_eq_exchange, EdgeBuffer.allocate, if_pos hroom]
    simp [reported, Except.map, bind, Except.bind, pure, Except.pure, Sink.release]
  · rw [run_reporting_of_lt (Nat.lt_of_not_le hroom), EdgeBuffer.allocate, if_neg hroom]
    simp [Except.map, bind, Except.bind]

/-- A host that holds the buffers itself, fills each one and passes back the last as it is makes the sink see what it
sees of a reporter that is shown the same slots: the same slots in the same buffers, or nothing if there is none. With
any sink and however much is in the buffers, what was passed back was handed over, no buffer is smaller than the one
before it, an empty one comes back as it was, and what is released is not handed over. -/
theorem passed_back_as_reported (sink : Sink τ) (state : τ) :
    ((∀ filled state, (sink.flush filled state).1.slots = []) → ∀ slots : List Slot, slots.Nodup →
      sink.report slots state = (sink.logged.report slots (state, [])).map Prod.fst ∧
      (∀ left, sink.logged.report slots (state, []) = .ok left →
        (reporting sink.logged (showing sink.logged slots)).run ((), state, []) = (.ok slots.length, (), left)) ∧
      ∀ cause, sink.logged.report slots (state, []) = .error cause →
        (reporting sink.logged (showing sink.logged slots)).run ((), state, []) =
          (.error (.panic cause), (), state, [])) ∧
    ∀ (first : Nat) (fills : List (List Slot)) (written : List Slot),
      let held := sink.logged.exchangeAll fills (first, state, [])
      let next := sink.logged.exchange ⟨written, held.1⟩ held.2
      sink.exchangeAll fills (first, state) = (held.1, held.2.1) ∧ (batches held.2.2).flatten = fills.flatten ∧
        held.1 ≤ next.1 ∧ (written = [] → next = held) ∧ sink.logged.release ⟨written, held.1⟩ held.2 = held.2 := by
  constructor
  · intro hempties slots hnodup
    have hlogged : ∀ filled s, (sink.logged.flush filled s).1.slots = [] := fun filled s => hempties filled s.1
    exact ⟨Sink.report_logged sink slots (state, []), run_reporting_eq_report hlogged hnodup (state, [])⟩
  · intro first fills written held next
    refine ⟨Sink.exchangeAll_logged sink fills first (state, []), ?_, ?_, fun hnone => ?_, rfl⟩
    · exact Sink.batches_exchangeAll sink fills first (state, [])
    · exact Sink.le_exchange sink.logged ⟨written, held.1⟩ held.2
    · simp only [next, hnone, Sink.exchange_nil]

/-- Buffers that grow, and slots that just fill two of them: the third is passed back empty. -/
theorem last_buffer_empty :
    let sink := Sink.growing 2
    let slots : List Slot := [⟨8⟩, ⟨16⟩, ⟨24⟩, ⟨32⟩, ⟨40⟩, ⟨48⟩]
    (∀ filled state, (sink.flush filled state).1.slots = []) ∧ slots.Nodup ∧
      ∃ left, sink.logged.report slots ([], []) = .ok left ∧
        (reporting sink.logged (showing sink.logged slots)).run ((), [], []) = (.ok 6, (), left) ∧
        left.2.map (·.filled) = [⟨[⟨8⟩, ⟨16⟩], 2⟩, ⟨[⟨24⟩, ⟨32⟩, ⟨40⟩, ⟨48⟩], 4⟩] := by
  intro sink slots
  have hempties : ∀ filled state, (sink.flush filled state).1.slots = [] := fun _ _ => rfl
  have hnodup : slots.Nodup := by decide
  obtain ⟨left, hleft, hlog⟩ : ∃ left, sink.logged.report slots ([], []) = .ok left ∧
      left.2.map (·.filled) = [⟨[⟨8⟩, ⟨16⟩], 2⟩, ⟨[⟨24⟩, ⟨32⟩, ⟨40⟩, ⟨48⟩], 4⟩] := ⟨_, rfl, by decide⟩
  obtain ⟨-, hreturns, -⟩ := (passed_back_as_reported sink []).1 hempties slots hnodup
  exact ⟨hempties, hnodup, left, hleft, hreturns left hleft, hlog⟩

end Reporter

end Safepoint
