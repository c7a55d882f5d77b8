import Safepoint.Proofs.Edges.Reporter

/-!
# What passes between a reporter and its sink

A reporter hands every slot it is shown to the sink once, in full buffers but for the last. Buffers never get smaller,
whatever the sink gives back. A sink that gives back a buffer that is not empty ends the scan, and then nothing is
handed over again.
-/
namespace Safepoint

/-- A buffer that a sink was handed, and the one it gave back. -/
structure Handover where
  filled : EdgeBuffer
  fresh : EdgeBuffer
  deriving DecidableEq

/-- The sink, with a log of what passes. -/
def Sink.logged {τ : Type} (sink : Sink τ) : Sink (τ × List Handover) where
  capacity s := sink.capacity s.1
  flush filled s :=
    ((sink.flush filled s.1).1, (sink.flush filled s.1).2, s.2 ++ [⟨filled, (sink.flush filled s.1).1⟩])

namespace Handover

variable {first : Nat} {log : List Handover} {h : Handover}

/-- The slots of each buffer handed over. -/
def batches (log : List Handover) : List (List Slot) := log.map fun h => h.filled.slots

/-- The room in the buffer that follows `i` handovers: as much as before, or more if the sink gave more. -/
def room (first : Nat) (log : List Handover) : Nat → Nat
  | 0 => first
  | i + 1 => max (room first log i) (log[i]?.elim 0 fun h => h.fresh.capacity)

/-- Each buffer was full, but for the last, which held something. -/
structure Regular (first : Nat) (log : List Handover) : Prop where
  nonempty : ∀ h ∈ log, h.filled.slots ≠ []
  fits : ∀ i (hi : i < log.length), log[i].filled.slots.length ≤ room first log i
  full : ∀ i, (hi : i + 1 < log.length) → log[i].filled.slots.length = room first log i

/-- Each full buffer was given back empty. -/
def Emptied (first : Nat) (log : List Handover) : Prop :=
  ∀ i (hi : i < log.length), log[i].filled.slots.length = room first log i → log[i].fresh.slots = []

/-- The last buffer was full, and came back with something in it. -/
def Spoilt (first : Nat) (log : List Handover) : Prop :=
  ∃ before last, log = before ++ [last] ∧ Emptied first before ∧
    last.filled.slots.length = room first log before.length ∧ last.fresh.slots ≠ []

/-- Each buffer was full and came back empty. -/
def Brimful (first : Nat) (log : List Handover) : Prop :=
  ∀ i (hi : i < log.length), log[i].filled.slots.length = room first log i ∧ log[i].fresh.slots = []

theorem flatten_snoc (log : List Handover) (h : Handover) :
    (batches (log ++ [h])).flatten = (batches log).flatten ++ h.filled.slots := by
  simp [batches]

theorem room_pos (hfirst : 0 < first) (i : Nat) : 0 < room first log i := by
  induction i with
  | zero => exact hfirst
  | succ i ih => exact Nat.lt_of_lt_of_le ih (Nat.le_max_left ..)

/-- Later handovers do not change the room there was before. -/
theorem room_append (more : List Handover) {i : Nat} (hi : i ≤ log.length) :
    room first (log ++ more) i = room first log i := by
  induction i with
  | zero => rfl
  | succ i ih => rw [room, room, ih (Nat.le_of_lt hi), List.getElem?_append_left hi]

theorem room_snoc : room first (log ++ [h]) (log ++ [h]).length = max (room first log log.length) h.fresh.capacity := by
  rw [List.length_append, List.length_singleton, room, room_append [h] (Nat.le_refl _), List.getElem?_concat_length]
  rfl

/-- What holds of each handover with the room there was, and of one more, holds of all of them. -/
theorem forall_snoc (P : Nat → Handover → Prop) (hlog : ∀ i (hi : i < log.length), P (room first log i) log[i])
    (hlast : P (room first log log.length) h) (i : Nat) (hi : i < (log ++ [h]).length) :
    P (room first (log ++ [h]) i) (log ++ [h])[i] := by
  rw [List.length_append, List.length_singleton] at hi
  by_cases hbefore : i < log.length
  · rw [List.getElem_append_left hbefore, room_append [h] (Nat.le_of_lt hbefore)]
    exact hlog i hbefore
  · have hi : i = log.length := by omega
    subst hi
    rw [List.getElem_concat_length rfl, room_append [h] (Nat.le_refl _)]
    exact hlast

theorem Brimful.snoc (hlog : Brimful first log) (hfull : h.filled.slots.length = room first log log.length)
    (hempty : h.fresh.slots = []) : Brimful first (log ++ [h]) :=
  forall_snoc (fun room h => h.filled.slots.length = room ∧ h.fresh.slots = []) hlog ⟨hfull, hempty⟩

theorem Brimful.emptied (hlog : Brimful first log) : Emptied first log := fun i hi _ => (hlog i hi).2

theorem Brimful.regular (hlog : Brimful first log) (hfirst : 0 < first) : Regular first log := by
  refine ⟨fun h hh hnil => ?_, fun i hi => Nat.le_of_eq (hlog i hi).1, fun i hi => (hlog i (Nat.lt_of_succ_lt hi)).1⟩
  obtain ⟨i, hi, rfl⟩ := List.mem_iff_getElem.1 hh
  have hlength := (hlog i hi).1
  rw [hnil, List.length_nil] at hlength
  exact Nat.ne_of_lt (room_pos hfirst i) hlength

/-- One more buffer may follow that is not full. -/
theorem Brimful.regular_snoc (hlog : Brimful first log) (hfirst : 0 < first) (hnonempty : h.filled.slots ≠ [])
    (hfits : h.filled.slots.length ≤ room first log log.length) : Regular first (log ++ [h]) := by
  have hregular := hlog.regular hfirst
  have hall := forall_snoc (fun room h => h.filled.slots.length ≤ room) hregular.fits hfits
  refine ⟨fun other hother => ?_, hall, fun i hi => ?_⟩
  · obtain hother | hother := List.mem_append.1 hother
    · exact hregular.nonempty other hother
    · rw [List.mem_singleton.1 hother]
      exact hnonempty
  · have hbefore : i < log.length := by
      rw [List.length_append, List.length_singleton] at hi
      omega
    rw [List.getElem_append_left hbefore, room_append [h] (Nat.le_of_lt hbefore)]
    exact (hlog i hbefore).1

theorem Brimful.emptied_snoc (hlog : Brimful first log) (hshort : h.filled.slots.length < room first log log.length) :
    Emptied first (log ++ [h]) :=
  forall_snoc (fun room h => h.filled.slots.length = room → h.fresh.slots = []) hlog.emptied fun hfull =>
    absurd hfull (Nat.ne_of_lt hshort)

end Handover

namespace Reporter

open Handover

variable {τ : Type} {sink : Sink τ} {first : Nat} {reporter : Reporter (τ × List Handover)} {shown : List Slot}
  {slot : Slot}

/-- In the middle of a scan: what was shown was handed over in full buffers or is in the one in use. -/
structure Filling (first : Nat) (reporter : Reporter (τ × List Handover)) (shown : List Slot) : Prop where
  visited : reporter.visited = shown.reverse
  batched : (batches reporter.sink.2).flatten ++ reporter.buffer.slots = shown
  brimful : Brimful first reporter.sink.2
  capacity : reporter.buffer.capacity = room first reporter.sink.2 reporter.sink.2.length
  space : reporter.buffer.slots.length < reporter.buffer.capacity

/-- After a sink gave back a buffer with something in it: all that was shown was handed over. -/
structure Stopped (sink : Sink τ) (first : Nat) (reporter : Reporter (τ × List Handover)) (shown : List Slot) :
    Prop where
  visited : reporter.visited = shown.reverse
  batched : (batches reporter.sink.2).flatten = shown
  regular : Regular first reporter.sink.2
  spoilt : Spoilt first reporter.sink.2
  kept : ∃ filled state, (sink.flush filled state).1.slots ≠ []
  empty : reporter.buffer.slots = []

theorem run_renew_emptied {filled : Reporter τ} {fresh : EdgeBuffer} {state : τ}
    (hflush : sink.flush filled.buffer filled.sink = (fresh, state)) (hempty : fresh.slots = []) :
    (renew sink).run filled =
      (.ok (), { filled with sink := state, buffer := fresh.reserve filled.buffer.capacity }) := by
  simp [renew, Act.run_bind, hflush, hempty]

theorem run_renew_kept {filled : Reporter τ} {fresh : EdgeBuffer} {state : τ}
    (hflush : sink.flush filled.buffer filled.sink = (fresh, state)) (hkept : fresh.slots ≠ []) :
    (renew sink).run filled =
      (.error (.panic .keptBuffer), { filled with sink := state, buffer := .ofCapacity 0 }) := by
  simp [renew, Act.run_bind, hflush, hkept]

theorem run_visit_repeated {reporter : Reporter τ} (h : slot ∈ reporter.visited) :
    (visit sink slot).run reporter = (.error (.panic (.repeatedSlot slot)), reporter) := by
  simp [visit, Act.run_bind, h]

theorem run_visit_new {reporter : Reporter τ} (h : slot ∉ reporter.visited) :
    (visit sink slot).run reporter =
      (if (reporter.buffer.push slot).isFull then renew sink else pure ()).run
        { reporter with visited := slot :: reporter.visited, buffer := reporter.buffer.push slot } := by
  simp [visit, Act.run_bind, h]

/-- What one more slot comes to. -/
inductive Visited (sink : Sink τ) (first : Nat) (reporter' : Reporter (τ × List Handover)) (shown : List Slot)
    (slot : Slot) : Except Fault Unit → Prop
  | repeated (again : slot ∈ shown) (filling : Filling first reporter' shown) :
      Visited sink first reporter' shown slot (.error (.panic (.repeatedSlot slot)))
  | taken (new : slot ∉ shown) (filling : Filling first reporter' (shown ++ [slot])) :
      Visited sink first reporter' shown slot (.ok ())
  | stopped (new : slot ∉ shown) (stopped : Stopped sink first reporter' (shown ++ [slot])) :
      Visited sink first reporter' shown slot (.error (.panic .keptBuffer))

theorem visit_cases (sink : Sink τ) (hfirst : 0 < first) (h : Filling first reporter shown) (slot : Slot) :
    Visited sink first ((visit sink.logged slot).run reporter).2 shown slot
      ((visit sink.logged slot).run reporter).1 := by
  by_cases hagain : slot ∈ shown
  · rw [run_visit_repeated (by simpa [h.visited] using hagain)]
    exact .repeated hagain h
  · rw [run_visit_new (by simpa [h.visited] using hagain)]
    have hlength : (reporter.buffer.push slot).slots.length = reporter.buffer.slots.length + 1 := by simp
    have hvisited : slot :: reporter.visited = (shown ++ [slot]).reverse := by simp [h.visited]
    have hbatched : (batches reporter.sink.2).flatten ++ (reporter.buffer.push slot).slots = shown ++ [slot] := by
      simp [← h.batched]
    have hspace := h.space
    by_cases hfull : (reporter.buffer.push slot).isFull
    · rw [if_pos hfull]
      have hbrim : (reporter.buffer.push slot).slots.length = room first reporter.sink.2 reporter.sink.2.length := by
        rw [EdgeBuffer.isFull, decide_eq_true_iff, EdgeBuffer.capacity_push] at hfull
        rw [← h.capacity]
        omega
      obtain ⟨fresh, state, hflush⟩ : ∃ fresh state,
          sink.flush (reporter.buffer.push slot) reporter.sink.1 = (fresh, state) := ⟨_, _, rfl⟩
      have hlogged : sink.logged.flush (reporter.buffer.push slot) reporter.sink =
          (fresh, state, reporter.sink.2 ++ [⟨reporter.buffer.push slot, fresh⟩]) := by
        simp [Sink.logged, hflush]
      by_cases hempty : fresh.slots = []
      · rw [run_renew_emptied hlogged hempty]
        have hroom : (fresh.reserve (reporter.buffer.push slot).capacity).capacity =
            max fresh.capacity reporter.buffer.capacity := by
          simp [EdgeBuffer.reserve, hempty]
        refine .taken hagain ⟨hvisited, ?_, h.brimful.snoc hbrim hempty, ?_, ?_⟩
        · rw [flatten_snoc, EdgeBuffer.slots_reserve, hempty, List.append_nil]
          exact hbatched
        · rw [room_snoc, ← h.capacity, Nat.max_comm]
          exact hroom
        · rw [EdgeBuffer.slots_reserve, hempty, hroom]
          exact Nat.lt_of_lt_of_le (Nat.zero_lt_of_lt hspace) (Nat.le_max_right ..)
      · rw [run_renew_kept hlogged hempty]
        refine .stopped hagain ⟨hvisited, ?_, h.brimful.regular_snoc hfirst ?_ (Nat.le_of_eq hbrim), ?_,
          ⟨_, reporter.sink.1, by rwa [hflush]⟩, rfl⟩
        · rw [flatten_snoc]
          exact hbatched
        · simp
        · refine ⟨_, _, rfl, h.brimful.emptied, ?_, hempty⟩
          rw [room_append _ (Nat.le_refl _)]
          exact hbrim
    · rw [if_neg hfull]
      refine .taken hagain ⟨hvisited, hbatched, h.brimful, h.capacity, ?_⟩
      rw [EdgeBuffer.isFull, decide_eq_true_iff] at hfull
      exact Nat.lt_of_not_le hfull

/-- How a scan of `slots` ended that showed `shown` of them and had `rest` to go. -/
inductive Ended (sink : Sink τ) (first : Nat) (reporter' : Reporter (τ × List Handover)) (shown : List Slot) :
    List Slot → Except Fault Unit → Prop
  | returned (filling : Filling first reporter' shown) : Ended sink first reporter' shown [] (.ok ())
  | repeated (filling : Filling first reporter' shown) {twice : Slot} (again : twice ∈ shown) (rest : List Slot) :
      Ended sink first reporter' shown (twice :: rest) (.error (.panic (.repeatedSlot twice)))
  | stopped (stopped : Stopped sink first reporter' shown) (rest : List Slot) :
      Ended sink first reporter' shown rest (.error (.panic .keptBuffer))

theorem visitAll_ends (sink : Sink τ) (hfirst : 0 < first) (h : Filling first reporter shown) (hnodup : shown.Nodup)
    (slots : List Slot) :
    ∃ added rest, slots = added ++ rest ∧ (shown ++ added).Nodup ∧
      Ended sink first ((visitAll sink.logged slots).run reporter).2 (shown ++ added) rest
        ((visitAll sink.logged slots).run reporter).1 := by
  induction slots generalizing shown reporter with
  | nil =>
    refine ⟨[], [], rfl, by simpa using hnodup, ?_⟩
    rw [List.append_nil]
    exact .returned h
  | cons slot slots ih =>
    have hcases := visit_cases sink hfirst h slot
    have hstep : (visitAll sink.logged (slot :: slots)).run reporter =
        (visit sink.logged slot >>= fun _ => visitAll sink.logged slots).run reporter := by
      rw [visitAll, List.forM_eq_forM, List.forM_cons]
      rfl
    rw [hstep, Act.run_bind]
    rcases hrun : (visit sink.logged slot).run reporter with ⟨outcome, reporter₁⟩
    rw [hrun] at hcases
    cases hcases with
    | repeated again filling =>
      refine ⟨[], slot :: slots, rfl, by simpa using hnodup, ?_⟩
      simpa using .repeated filling again slots
    | taken new filling =>
      obtain ⟨added, rest, hslots, hadded, hended⟩ := ih filling (nodup_snoc hnodup new)
      exact ⟨slot :: added, rest, by rw [hslots]; rfl, by simpa using hadded, by simpa using hended⟩
    | stopped new stopped => exact ⟨[slot], slots, rfl, nodup_snoc hnodup new, .stopped stopped slots⟩

/-- The reporter over the sink itself. -/
def unlogged (reporter : Reporter (τ × List Handover)) : Reporter τ :=
  ⟨reporter.sink.1, reporter.buffer, reporter.visited⟩

theorem mirrors_renew (sink : Sink τ) : Act.Mirrors unlogged (renew sink) (renew sink.logged) := by
  intro reporter
  obtain ⟨fresh, state, hflush⟩ : ∃ fresh state,
      sink.flush reporter.buffer reporter.sink.1 = (fresh, state) := ⟨_, _, rfl⟩
  have hlogged : sink.logged.flush reporter.buffer reporter.sink =
      (fresh, state, reporter.sink.2 ++ [⟨reporter.buffer, fresh⟩]) := by
    simp [Sink.logged, hflush]
  have hunlogged : sink.flush reporter.unlogged.buffer reporter.unlogged.sink = (fresh, state) := hflush
  by_cases hempty : fresh.slots = []
  · rw [run_renew_emptied hlogged hempty, run_renew_emptied hunlogged hempty]
    rfl
  · rw [run_renew_kept hlogged hempty, run_renew_kept hunlogged hempty]
    rfl

theorem mirrors_visit (sink : Sink τ) (slot : Slot) :
    Act.Mirrors unlogged (visit sink slot) (visit sink.logged slot) := by
  intro reporter
  by_cases hagain : slot ∈ reporter.visited
  · rw [run_visit_repeated hagain, run_visit_repeated (show slot ∈ reporter.unlogged.visited from hagain)]
  · rw [run_visit_new hagain, run_visit_new (show slot ∉ reporter.unlogged.visited from hagain)]
    by_cases hfull : (reporter.buffer.push slot).isFull
    · rw [if_pos hfull, if_pos (show (reporter.unlogged.buffer.push slot).isFull from hfull)]
      exact mirrors_renew sink
        { reporter with visited := slot :: reporter.visited, buffer := reporter.buffer.push slot }
    · rw [if_neg hfull, if_neg (show ¬(reporter.unlogged.buffer.push slot).isFull from hfull)]
      rfl

/-- A reporter does the same whether its sink is logged or not. -/
theorem mirrors_visitAll (sink : Sink τ) (slots : List Slot) :
    Act.Mirrors unlogged (visitAll sink slots) (visitAll sink.logged slots) := by
  induction slots with
  | nil =>
    intro reporter
    rfl
  | cons slot slots ih =>
    simp only [visitAll, List.forM_eq_forM, List.forM_cons] at ih ⊢
    exact (mirrors_visit sink slot).bind fun _ => ih

theorem close_unlogged (sink : Sink τ) (reporter : Reporter (τ × List Handover)) :
    reporter.unlogged.close sink = (reporter.close sink.logged).1 := by
  unfold close
  split
  · rename_i hempty
    rw [if_pos (show reporter.buffer.slots = [] from hempty)]
    rfl
  · rename_i hsome
    rw [if_neg (show reporter.buffer.slots ≠ [] from hsome)]
    rfl

theorem close_filling (sink : Sink τ) (hfirst : 0 < first) (h : Filling first reporter shown) :
    (batches (reporter.close sink.logged).2).flatten = shown ∧ Regular first (reporter.close sink.logged).2 ∧
      Emptied first (reporter.close sink.logged).2 := by
  unfold close
  split
  · rename_i hempty
    refine ⟨?_, h.brimful.regular hfirst, h.brimful.emptied⟩
    simpa [hempty] using h.batched
  · rename_i hsome
    have hspace := h.space
    rw [h.capacity] at hspace
    refine ⟨?_, h.brimful.regular_snoc hfirst hsome (Nat.le_of_lt hspace), h.brimful.emptied_snoc hspace⟩
    exact (flatten_snoc _ _).trans h.batched

theorem close_stopped (sink : Sink τ) (h : Stopped sink first reporter shown) :
    (reporter.close sink.logged).2 = reporter.sink.2 := by
  rw [close, if_pos h.empty]

/-- Show a reporter some slots, as a scan of nothing else. -/
def showing {σ : Type} (sink : Sink τ) (slots : List Slot) : Act (σ × Reporter τ) Unit :=
  Act.within ⟨Prod.snd, fun reporter p => (p.1, reporter)⟩ (visitAll sink slots)

theorem run_reporting_showing {state : τ} {reporter : Reporter τ} (hstart : start sink state = .ok reporter)
    (slots : List Slot) : (reporting sink (showing sink slots)).run ((), state) =
      (((visitAll sink slots).run reporter).1.map fun _ => ((visitAll sink slots).run reporter).2.reported, (),
        ((visitAll sink slots).run reporter).2.close sink) := by
  have hscan : showing sink slots ((), reporter) =
      (((visitAll sink slots).run reporter).1, (), ((visitAll sink slots).run reporter).2) := rfl
  simp only [reporting, Act.run] at hscan ⊢
  rw [hstart]
  simp only [hscan]
  rcases visitAll sink slots reporter with ⟨_ | _, _⟩ <;> rfl

theorem run_reporting_of_lt {σ : Type} {s : σ} {state : τ}
    (hroom : EdgeBuffer.maxCapacity < max (sink.capacity state) 1) (scan : Act (σ × Reporter τ) Unit) :
    (reporting sink scan).run (s, state) = (.error (.panic .capacityOverflow), s, state) := by
  have hstart : start sink state = .error .capacityOverflow := by
    rw [start, EdgeBuffer.allocate, if_neg (Nat.not_le.2 hroom)]
    rfl
  simp only [reporting, Act.run, hstart]

/-- A reporter over a logged sink that was shown nothing yet. -/
def begun (first : Nat) (state : τ) : Reporter (τ × List Handover) := ⟨(state, []), .ofCapacity first, []⟩

theorem filling_begun (hfirst : 0 < first) (state : τ) : Filling first (begun first state) [] :=
  ⟨rfl, rfl, fun _ hi => absurd hi (Nat.not_lt_zero _), rfl, hfirst⟩

/-- How a scan ends whose reporter was shown `shown`, with `rest` to go: all slots were shown, or the next was shown
before, or the sink gave the last full buffer back with something in it. -/
inductive Ending (first : Nat) (log : List Handover) (shown : List Slot) : List Slot → Except Fault Nat → Prop
  | returned (emptied : Emptied first log) : Ending first log shown [] (.ok shown.length)
  | repeated (emptied : Emptied first log) {twice : Slot} (again : twice ∈ shown) (rest : List Slot) :
      Ending first log shown (twice :: rest) (.error (.panic (.repeatedSlot twice)))
  | kept (spoilt : Spoilt first log) (rest : List Slot) :
      Ending first log shown rest (.error (.panic .keptBuffer))

/-- What is left when a scan ends is flushed, unless the sink kept a buffer. -/
theorem Ended.close (hfirst : 0 < first) {rest : List Slot} {outcome : Except Fault Unit}
    (h : Ended sink first reporter shown rest outcome) :
    let log := (reporter.close sink.logged).2
    let result := outcome.map fun _ => reporter.reported
    (batches log).flatten = shown ∧ Regular first log ∧ Ending first log shown rest result ∧
      ((∀ filled state, (sink.flush filled state).1.slots = []) → result ≠ .error (.panic .keptBuffer)) := by
  cases h with
  | returned filling =>
    obtain ⟨hflat, hregular, hemptied⟩ := close_filling sink hfirst filling
    have hcount : reporter.reported = shown.length := by rw [reported, filling.visited, List.length_reverse]
    refine ⟨hflat, hregular, ?_, fun _ => by simp [Except.map]⟩
    rw [Except.map, hcount]
    exact .returned hemptied
  | repeated filling again rest =>
    obtain ⟨hflat, hregular, hemptied⟩ := close_filling sink hfirst filling
    exact ⟨hflat, hregular, .repeated hemptied again rest, fun _ => by simp [Except.map]⟩
  | stopped stopped =>
    dsimp only
    rw [close_stopped sink stopped]
    obtain ⟨filled, state, hkept⟩ := stopped.kept
    exact ⟨stopped.batched, stopped.regular, .kept stopped.spoilt rest,
      fun hempties => absurd (hempties filled state) hkept⟩

/-- After `k` slots, a reporter has reported `k`, and the call returned unless it was the one that ended the scan. -/
theorem reported_take {slots rest : List Slot} (hfirst : 0 < first) (hstart : Filling first reporter [])
    (hslots : slots = shown ++ rest) (hnodup : shown.Nodup)
    (hended : Ended sink first ((visitAll sink.logged slots).run reporter).2 shown rest
      ((visitAll sink.logged slots).run reporter).1) {k : Nat} (hk : k ≤ shown.length) :
    ((visitAll sink.logged (slots.take k)).run reporter).2.reported = k ∧
      (((visitAll sink.logged (slots.take k)).run reporter).1 = .ok () ∨
        k = shown.length ∧ ((visitAll sink.logged slots).run reporter).1 = .error (.panic .keptBuffer)) := by
  have htake : slots.take k = shown.take k := by rw [hslots, List.take_append_of_le_length hk]
  have hcount : (slots.take k).length = k := by rw [htake, List.length_take, Nat.min_eq_left hk]
  obtain ⟨added, left, hadded, hnew, hpart⟩ := visitAll_ends sink hfirst hstart .nil (slots.take k)
  rw [List.nil_append] at hnew hpart
  generalize hrun : (visitAll sink.logged (slots.take k)).run reporter = part at hpart ⊢
  obtain ⟨outcome, reporter'⟩ := part
  cases hpart with
  | returned filling =>
    rw [List.append_nil] at hadded
    refine ⟨?_, .inl rfl⟩
    rw [reported, filling.visited, List.length_reverse, ← hadded, hcount]
  | repeated filling again rest' =>
    -- The first `k` slots are among those shown, and no slot was shown twice.
    have hdistinct : (slots.take k).Nodup := htake ▸ hnodup.sublist (List.take_sublist k shown)
    rw [hadded] at hdistinct
    exact absurd rfl ((List.nodup_append.1 hdistinct).2.2 _ again _ (.head _))
  | stopped stopped rest' =>
    -- What ended here ended the whole scan.
    have hwhole : (visitAll sink.logged slots).run reporter = (.error (.panic .keptBuffer), reporter') := by
      rw [← List.take_append_drop k slots, visitAll, List.forM_eq_forM, List.forM_append]
      exact Act.run_bind_error hrun
    rw [hwhole] at hended ⊢
    cases hended with
    | stopped whole _ =>
      have hsame : added.length = shown.length := by
        rw [← List.length_reverse, ← stopped.visited, whole.visited, List.length_reverse]
      have hlength : k = added.length + left.length := by rw [← hcount, hadded, List.length_append]
      refine ⟨?_, .inr ⟨by omega, rfl⟩⟩
      rw [reported, whole.visited, List.length_reverse]
      omega

/-- Every slot shown reaches the sink once and in order, in batches that fill their buffers but for the last. That is
so for any sink, however large the buffers it gives back, and however the scan ends, be it that the reporter is just
dropped. -/
theorem slots_handed_over_once (sink : Sink τ) (state : τ) (slots : List Slot) :
    let first := max (sink.capacity state) 1
    let scan := (reporting sink.logged (showing sink.logged slots)).run ((), state, [])
    let log := scan.2.2.2
    (reporting sink (showing sink slots)).run ((), state) = (scan.1, (), scan.2.2.1) ∧
    (EdgeBuffer.maxCapacity < first → scan = (.error (.panic .capacityOverflow), (), state, [])) ∧
    (first ≤ EdgeBuffer.maxCapacity → ∃ shown rest, slots = shown ++ rest ∧ shown.Nodup ∧
      (batches log).flatten = shown ∧ Regular first log ∧ Ending first log shown rest scan.1 ∧
      ((∀ filled state, (sink.flush filled state).1.slots = []) → scan.1 ≠ .error (.panic .keptBuffer)) ∧
      ∀ reporter, start sink state = .ok reporter →
        ((visitAll sink slots).run reporter).2.close sink = scan.2.2.1 ∧ ∀ k ≤ shown.length,
          ((visitAll sink (slots.take k)).run reporter).2.reported = k ∧
            (((visitAll sink (slots.take k)).run reporter).1 = .ok () ∨
              k = shown.length ∧ scan.1 = .error (.panic .keptBuffer))) := by
  intro first scan log
  have hfirst : 0 < first := Nat.lt_of_lt_of_le Nat.one_pos (Nat.le_max_right ..)
  by_cases hroom : first ≤ EdgeBuffer.maxCapacity
  · have hstart : start sink state = .ok (begun first state).unlogged := start_of_le hroom
    have hlogged : start sink.logged (state, []) = .ok (begun first state) := start_of_le hroom
    obtain ⟨shown, rest, hslots, hnodup, hended⟩ := visitAll_ends sink hfirst (filling_begun hfirst state) .nil slots
    rw [List.nil_append] at hnodup hended
    have hplain := mirrors_visitAll sink slots (begun first state)
    have hreported {k : Nat} (hk : k ≤ shown.length) :=
      reported_take hfirst (filling_begun hfirst state) hslots hnodup hended hk
    generalize hrun : (visitAll sink.logged slots).run (begun first state) = ended at *
    obtain ⟨outcome, last⟩ := ended
    have hscan : scan = (outcome.map fun _ => last.reported, (), last.close sink.logged) := by
      simp only [scan, run_reporting_showing hlogged, hrun]
    have hsame : (reporting sink (showing sink slots)).run ((), state) = (scan.1, (), scan.2.2.1) := by
      rw [run_reporting_showing hstart, hplain, close_unlogged, hscan]
      rfl
    have hlog : log = (last.close sink.logged).2 := by rw [show log = scan.2.2.2 from rfl, hscan]
    have hends := hended.close hfirst
    rw [← hlog, show (outcome.map fun _ => last.reported) = scan.1 by rw [hscan]] at hends
    obtain ⟨hflat, hregular, hending, hempties⟩ := hends
    refine ⟨hsame, fun hover => absurd hroom (Nat.not_le.2 hover), fun _ =>
      ⟨shown, rest, hslots, hnodup, hflat, hregular, hending, hempties, fun reporter hreporter => ?_⟩⟩
    cases hstart.symm.trans hreporter
    constructor
    · rw [hplain, hscan]
      exact close_unlogged sink last
    · intro k hk
      obtain ⟨hcount, hreturned⟩ := hreported hk
      rw [mirrors_visitAll sink (slots.take k) (begun first state)]
      refine ⟨hcount, hreturned.imp_right fun ⟨hall, hkept⟩ => ⟨hall, ?_⟩⟩
      rw [hscan, show outcome = _ from hkept]
      rfl
  · have hover := Nat.lt_of_not_le hroom
    have hlogged : EdgeBuffer.maxCapacity < max (sink.logged.capacity (state, [])) 1 := hover
    have hscan : scan = (.error (.panic .capacityOverflow), (), state, []) := run_reporting_of_lt hlogged _
    refine ⟨?_, fun _ => hscan, fun h => absurd h hroom⟩
    rw [run_reporting_of_lt hover, hscan]

example : (batches ((reporting (Sink.growing 2).logged (showing (Sink.growing 2).logged
    [⟨8⟩, ⟨16⟩, ⟨24⟩, ⟨32⟩, ⟨40⟩, ⟨48⟩, ⟨56⟩])).run ((), [], [])).2.2.2).map List.length = [2, 4, 1] := by
  decide +kernel

end Reporter

end Safepoint
