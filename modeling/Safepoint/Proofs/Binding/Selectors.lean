import Safepoint.Proofs.Binding.FailedScans
import Safepoint.Proofs.Roots.Progress

/-!
# Which threads a scan covers

A scan of threads depends on the set of ids it is given. It scans nothing if one of them is not registered. Otherwise it
goes through the threads in ascending order and shows its reporter the stack of each and the code that no thread before
it has. So whatever the sink, it comes to what a reporter comes to that is shown these slots.
-/
namespace Safepoint

namespace Reporter

open Handover (batches)

variable {τ : Type} {sink : Sink τ} {state : τ} {slots : List Slot}

/-- What a reporter comes to that is shown these slots, with a log of what it handed over. -/
def shown (sink : Sink τ) (slots : List Slot) (state : τ) : Except Fault Nat × Unit × τ × List Handover :=
  (reporting sink.logged (showing sink.logged slots)).run ((), state, [])

/-- It comes to the same without the log. -/
theorem run_showing_eq (sink : Sink τ) (state : τ) (slots : List Slot) :
    (reporting sink (showing sink slots)).run ((), state) =
      ((shown sink slots state).1, (), (shown sink slots state).2.2.1) := by
  unfold shown
  by_cases hroom : sink.HasRoom state
  · have hstart : start sink state = .ok (begun (max (sink.capacity state) 1) state).unlogged := start_of_le hroom
    have hlogged : start sink.logged (state, []) = .ok (begun (max (sink.capacity state) 1) state) := start_of_le hroom
    rw [run_reporting_showing hstart, run_reporting_showing hlogged, mirrors_visitAll sink slots, close_unlogged]
    rfl
  · have hover : EdgeBuffer.maxCapacity < max (sink.capacity state) 1 := Nat.lt_of_not_le hroom
    have hlogged : EdgeBuffer.maxCapacity < max (sink.logged.capacity (state, [])) 1 := hover
    rw [run_reporting_of_lt hover, run_reporting_of_lt hlogged]

/-- How it ends where there is room for the first buffer. -/
theorem shown_ends (hroom : sink.HasRoom state) (slots : List Slot) :
    ∃ before rest first, slots = before ++ rest ∧ before.Nodup ∧
      (batches (shown sink slots state).2.2.2).flatten = before ∧
      Ending first (shown sink slots state).2.2.2 before rest (shown sink slots state).1 ∧
      ((∀ filled state, (sink.flush filled state).1.slots = []) →
        (shown sink slots state).1 ≠ .error (.panic .keptBuffer)) := by
  have hfirst : 0 < max (sink.capacity state) 1 := Nat.lt_of_lt_of_le Nat.one_pos (Nat.le_max_right ..)
  have hlogged : start sink.logged (state, []) = .ok (begun (max (sink.capacity state) 1) state) := start_of_le hroom
  obtain ⟨before, rest, hslots, hnodup, hended⟩ := visitAll_ends sink hfirst (filling_begun hfirst state) .nil slots
  rw [List.nil_append] at hnodup hended
  obtain ⟨hflat, -, hending, hempties⟩ := hended.close hfirst
  refine ⟨before, rest, max (sink.capacity state) 1, hslots, hnodup, ?_⟩
  rw [shown, run_reporting_showing hlogged]
  exact ⟨hflat, hending, hempties⟩

/-- A reporter that returns has handed over all it was shown. -/
theorem handed_over_of_returns {n : Nat} (h : (shown sink slots state).1 = .ok n) :
    n = slots.length ∧ (batches (shown sink slots state).2.2.2).flatten = slots := by
  by_cases hroom : sink.HasRoom state
  · obtain ⟨before, rest, first, hslots, -, hflat, hending, -⟩ := shown_ends hroom slots
    rw [h] at hending
    cases hending
    rw [List.append_nil] at hslots
    subst hslots
    exact ⟨rfl, hflat⟩
  · have hover : EdgeBuffer.maxCapacity < max (sink.logged.capacity (state, [])) 1 := Nat.lt_of_not_le hroom
    rw [shown, run_reporting_of_lt hover] at h
    cases h

/-- A reporter returns if it is shown no slot twice and gets its buffers. -/
theorem returns_of_emptied (hroom : sink.HasRoom state) (hnodup : slots.Nodup)
    (hempties : ∀ filled state, (sink.flush filled state).1.slots = []) :
    (shown sink slots state).1 = .ok slots.length := by
  obtain ⟨before, rest, first, hslots, -, -, hending, hkept⟩ := shown_ends hroom slots
  generalize (shown sink slots state).1 = outcome at *
  cases hending with
  | returned => rw [hslots, List.append_nil]
  | repeated _ again =>
    rw [hslots] at hnodup
    exact absurd rfl ((List.nodup_append.1 hnodup).2.2 _ again _ (.head _))
  | kept => exact absurd rfl (hkept hempties)

end Reporter

namespace Binding

open Reporter (visitAll)
open Handover (batches)

variable {μ ε τ α : Type} {b : Binding μ ε} {sink : Sink τ} {s s₁ s₂ : State μ ε} {t : τ} {slots more : List Slot}

/-- From `s` on, a scan does with its reporter what a visit of the slots does, and it leaves `s₁` if that returns. -/
def Replays (sink : Sink τ) (scan : Scan μ ε τ Unit) (s : State μ ε) (slots : List Slot) (s₁ : State μ ε) : Prop :=
  ∀ reporter, ∃ left,
    scan.run (s, reporter) = (((visitAll sink slots).run reporter).1, left, ((visitAll sink slots).run reporter).2) ∧
      (((visitAll sink slots).run reporter).1 = .ok () → left = s₁)

namespace Replays

variable {scan next : Scan μ ε τ Unit}

theorem nothing : Replays sink (pure ()) s [] s := fun _ => ⟨s, rfl, fun _ => rfl⟩

theorem report (slots : List Slot) : Replays sink (Scan.report sink slots) s slots s := fun _ => ⟨s, rfl, fun _ => rfl⟩

theorem andThen (h : Replays sink scan s slots s₁) (hnext : Replays sink next s₁ more s₂) :
    Replays sink (scan >>= fun _ => next) s (slots ++ more) s₂ := by
  intro reporter
  obtain ⟨left, hrun, hleft⟩ := h reporter
  have hvisits : visitAll sink (slots ++ more) = visitAll sink slots >>= fun _ => visitAll sink more :=
    List.forM_append
  rw [hvisits, Act.run_bind, Act.run_bind, hrun]
  generalize (visitAll sink slots).run reporter = visits at hleft
  rcases visits with ⟨cause | ⟨⟩, reporter₁⟩
  · exact ⟨left, rfl, fun h => nomatch h⟩
  · obtain rfl := hleft rfl
    exact hnext reporter₁

/-- A walk shows nothing, and what comes after it begins where it ends. -/
theorem walk {walk : Act (Machine ε) α} {a : α} {m : Machine ε} (hwalk : walk.run s.machine = (.ok a, m))
    {next : α → Scan μ ε τ Unit} (h : Replays sink (next a) { s with machine := m } slots s₁) :
    Replays sink (Scan.walk walk >>= next) s slots s₁ := by
  intro reporter
  rw [Act.run_bind_ok (run_walk hwalk reporter)]
  exact h reporter

theorem visitBlob (sink : Sink τ) (code : CodeId) (s : State μ ε) : Replays sink (visitBlob sink code) s
    ((s.codeTable.claim code).1.getD []) { s with codeTable := (s.codeTable.claim code).2 } := by
  intro reporter
  rw [run_visitBlob]
  exact report _ reporter

theorem visitBlobs (sink : Sink τ) (codes : List CodeId) (s : State μ ε) :
    Replays sink (codes.forM (Binding.visitBlob sink)) s (s.codeTable.claims codes).1
      { s with codeTable := (s.codeTable.claims codes).2 } := by
  induction codes generalizing s with
  | nil => exact nothing
  | cons code codes ih =>
    rw [List.forM_eq_forM, List.forM_cons]
    exact (visitBlob sink code s).andThen (ih _)

/-- A scan that has a reporter of its own comes to what a reporter comes to that is shown the slots. -/
theorem run_reporting (h : Replays sink scan s slots s₁) (t : τ) :
    ∃ left, (reporting sink scan).run (s, t) =
        ((Reporter.shown sink slots t).1, left, (Reporter.shown sink slots t).2.2.1) ∧
      ∀ n, (Reporter.shown sink slots t).1 = .ok n → left = s₁ := by
  have hshown := Reporter.run_showing_eq sink t slots
  have houtcome := congrArg Prod.fst hshown
  have hsink := congrArg (fun p => p.2.2) hshown
  dsimp only at houtcome hsink
  rw [← houtcome, ← hsink]
  by_cases hroom : sink.HasRoom t
  · have hstart := Reporter.start_of_le hroom
    obtain ⟨left, hrun, hleft⟩ := h ⟨t, .ofCapacity (max (sink.capacity t) 1), []⟩
    rw [Reporter.run_reporting_showing hstart]
    simp only [Act.run] at hrun hleft
    simp only [reporting, Act.run, hstart, hrun]
    generalize visitAll sink slots _ = visits at hleft
    rcases visits with ⟨cause | ⟨⟩, reporter⟩
    · exact ⟨left, rfl, fun n h => by cases h⟩
    · exact ⟨left, rfl, fun n _ => hleft rfl⟩
  · have hover := Nat.lt_of_not_le hroom
    rw [Reporter.run_reporting_of_lt hover, Reporter.run_reporting_of_lt hover]
    exact ⟨s, rfl, fun n h => by cases h⟩

end Replays

section Threads

variable {id : MutatorId} {ids : List MutatorId} {stack : List Slot} {codes seen : List CodeId}
  {found : List (List Slot × List CodeId)} {m : Machine ε} {table : CodeTable}

/-- What the host finds of a thread: its stack and the code on it. A scan asks for them in this order. -/
def walkThread (b : Binding μ ε) (id : MutatorId) : Act (Machine ε) (List Slot × List CodeId) :=
  if b.options.relocateCode then do
    let stack ← b.host.threadStack id
    return (stack, ← b.host.threadCode id)
  else do
    let codes ← b.host.threadCode id
    return (← b.host.threadStack id, codes)

/-- The slots of a thread with those of the code it came to first. Where code is relocated, the stack is before it. -/
def ordered (b : Binding μ ε) (stack blobs : List Slot) : List Slot :=
  if b.options.relocateCode then stack ++ blobs else blobs ++ stack

/-- The slots of all threads found: of each its stack and the unclaimed code that was not seen on a thread before. -/
def foundSlots (b : Binding μ ε) (table : CodeTable) (seen : List CodeId) : List (List Slot × List CodeId) → List Slot
  | [] => []
  | (stack, codes) :: found =>
    b.ordered stack ((CodeTable.unseen seen codes).flatMap fun code => (table.unclaimed code).getD []) ++
      foundSlots b table (seen ++ codes) found

theorem Replays.visitThread (sink : Sink τ) (hwalk : (b.walkThread id).run s.machine = (.ok (stack, codes), m)) :
    Replays sink (visitThread b sink id) s (b.ordered stack (s.codeTable.claims codes).1)
      { s with machine := m, codeTable := (s.codeTable.claims codes).2 } := by
  unfold walkThread at hwalk
  unfold Binding.visitThread ordered
  split at hwalk
  · obtain ⟨_, m₁, hstack, hrest⟩ := Act.run_bind_eq_ok.1 hwalk
    obtain ⟨_, m₂, hcode, hdone⟩ := Act.run_bind_eq_ok.1 hrest
    cases hdone
    rename_i hrelocate
    rw [if_pos hrelocate, if_pos hrelocate]
    exact (walk hstack (report stack)).andThen (walk hcode (visitBlobs sink codes _))
  · obtain ⟨_, m₁, hcode, hrest⟩ := Act.run_bind_eq_ok.1 hwalk
    obtain ⟨_, m₂, hstack, hdone⟩ := Act.run_bind_eq_ok.1 hrest
    cases hdone
    rename_i hrelocate
    rw [if_neg hrelocate, if_neg hrelocate]
    exact (walk hcode (visitBlobs sink codes _)).andThen (walk hstack (report stack))

/-- One thread after the other, of which those before saw some of the code. -/
theorem replays_threads (sink : Sink τ) (htable : table.Sound) (hsound : s.codeTable.Sound)
    (hseen : table.Reaches (· ∈ seen) s.codeTable) (hwalks : (ids.mapM b.walkThread).run s.machine = (.ok found, m)) :
    ∃ left, Replays sink (ids.forM (visitThread b sink)) s (b.foundSlots table seen found)
        { s with machine := m, codeTable := left } ∧
      table.Reaches (fun code => code ∈ seen ∨ ∃ thread ∈ found, code ∈ thread.2) left ∧ left.Sound := by
  induction ids generalizing s seen found with
  | nil =>
    cases hwalks
    exact ⟨s.codeTable, .nothing, hseen.congr fun code => by simp, hsound⟩
  | cons id ids ih =>
    rw [List.mapM_cons] at hwalks
    obtain ⟨⟨stack, codes⟩, m₁, hwalk, hrest⟩ := Act.run_bind_eq_ok.1 hwalks
    obtain ⟨others, m₂, hwalks, hdone⟩ := Act.run_bind_eq_ok.1 hrest
    cases hdone
    obtain ⟨hslots, hreaches⟩ := hseen.claims codes
    obtain ⟨-, -, hclaimed⟩ := CodeTable.claims_spec hsound codes
    have hfirst := Replays.visitThread sink hwalk
    obtain ⟨left, hothers, hleft, hsound'⟩ :=
      ih (s := { s with machine := m₁, codeTable := (s.codeTable.claims codes).2 }) hclaimed hreaches hwalks
    refine ⟨left, ?_, hleft.congr fun code => by simp [or_assoc], hsound'⟩
    simp only [CodeTable.claim_eq_unclaimed htable] at hslots
    rw [hslots] at hfirst
    rw [List.forM_eq_forM, List.forM_cons]
    exact hfirst.andThen hothers

end Threads

section Selectors

variable {ids others : List MutatorId}

/-- Lists in ascending order that have the same members are one list. -/
theorem eq_of_ascending (h : ids.Pairwise fun a b => a.value < b.value)
    (hothers : others.Pairwise fun a b => a.value < b.value) (hmem : ∀ id, id ∈ others ↔ id ∈ ids) : others = ids := by
  have hnodup {l : List MutatorId} (hl : l.Pairwise fun a b => a.value < b.value) : l.Nodup :=
    hl.imp fun {a b} hlt (he : a = b) => UInt64.lt_irrefl a.value (he ▸ hlt)
  exact List.Perm.eq_of_pairwise (fun a b _ _ hab hba => absurd hba (UInt64.lt_asymm hab)) hothers h
    ((List.perm_ext_iff_of_nodup (hnodup hothers) (hnodup h)).2 hmem)

theorem value_lt_of_compare {a b : MutatorId} (h : compare a b = .lt) : a.value < b.value := by
  change compareOfLessAndEq a.value b.value = .lt at h
  exact compareOfLessAndEq_eq_lt.1 h

theorem mem_subset {registry : Registry μ} {id : MutatorId} :
    id ∈ (ThreadSelector.subset ids).ids registry ↔ id ∈ ids := by
  rw [ThreadSelector.ids, Std.ExtTreeSet.mem_toList, Std.ExtTreeSet.mem_ofList, List.contains_iff_mem]

theorem ascending_subset (registry : Registry μ) (ids : List MutatorId) :
    ((ThreadSelector.subset ids).ids registry).Pairwise fun a b => a.value < b.value :=
  Std.ExtTreeSet.ordered_toList.imp value_lt_of_compare

theorem ascending_all {registry : Registry μ} (h : registry.Sound) :
    (ThreadSelector.all.ids registry).Pairwise fun a b => a.value < b.value := by
  rw [ThreadSelector.ids, h.mutatorIds]
  exact Std.ExtTreeMap.ordered_keys.imp value_lt_of_compare

theorem mem_all {registry : Registry μ} (h : registry.Sound) {id : MutatorId} :
    id ∈ ThreadSelector.all.ids registry ↔ (registry.get id).isSome := by
  rw [ThreadSelector.ids, h.mutatorIds, Std.ExtTreeMap.mem_keys, Registry.get, Std.ExtTreeMap.mem_iff_isSome_getElem?]

/-- A scan depends on its selector by the ids selected. -/
theorem scanThreads_eq (b : Binding μ ε) (sink : Sink τ) (selector : ThreadSelector) (s : State μ ε) (t : τ) :
    (b.scanThreads sink selector).run (s, t) =
      match (selector.ids s.registry).find? fun id => (s.registry.get id).isNone with
      | some missing => (.ok (.error (.unknownMutator missing)), s, t)
      | none =>
        let run := (reporting sink ((selector.ids s.registry).forM (visitThread b sink))).run (s, t)
        (run.1.map .ok, run.2) := by
  rw [scanThreads, Act.run_bind_ok (Act.run_get _)]
  dsimp only
  cases (selector.ids s.registry).find? fun id => (s.registry.get id).isNone with
  | some missing => rfl
  | none =>
    dsimp only
    rw [← map_eq_pure_bind, Act.run_map]

theorem scanThreads_congr {selector other : ThreadSelector} (b : Binding μ ε) (sink : Sink τ) {s : State μ ε}
    (h : other.ids s.registry = selector.ids s.registry) (t : τ) :
    (b.scanThreads sink other).run (s, t) = (b.scanThreads sink selector).run (s, t) := by
  rw [scanThreads_eq, scanThreads_eq, h]

/-- The first id without a mutator is the smallest. -/
theorem scanThreads_unknown (b : Binding μ ε) (sink : Sink τ) {s : State μ ε}
    (h : ∃ id ∈ ids, (s.registry.get id).isNone) (t : τ) :
    ∃ id ∈ ids, (s.registry.get id).isNone ∧
      (∀ other ∈ ids, (s.registry.get other).isNone → id.value ≤ other.value) ∧
      (b.scanThreads sink (.subset ids)).run (s, t) = (.ok (.error (.unknownMutator id)), s, t) := by
  rw [scanThreads_eq]
  cases hfind : ((ThreadSelector.subset ids).ids s.registry).find? fun id => (s.registry.get id).isNone with
  | none =>
    obtain ⟨id, hid, hnone⟩ := h
    exact absurd hnone (List.find?_eq_none.1 hfind id (mem_subset.2 hid))
  | some missing =>
    obtain ⟨hnone, before, after, hids, hbefore⟩ := List.find?_eq_some_iff_append.1 hfind
    have hmem : missing ∈ (ThreadSelector.subset ids).ids s.registry := List.mem_of_find?_eq_some hfind
    refine ⟨missing, mem_subset.1 hmem, hnone, fun other hother hunknown => ?_, rfl⟩
    have hascending := ascending_subset s.registry ids
    have hother : other ∈ (ThreadSelector.subset ids).ids s.registry := mem_subset.2 hother
    rw [hids] at hascending hother
    obtain hother | hother := List.mem_append.1 hother
    · have hhere := hbefore other hother
      rw [hunknown] at hhere
      cases hhere
    · obtain rfl | hother := List.mem_cons.1 hother
      · exact UInt64.le_refl _
      · have hafter := (List.pairwise_cons.1 (List.pairwise_append.1 hascending).2.1).1 other hother
        exact UInt64.le_of_lt hafter

/-- The slots of all stacks, and those of each unclaimed blob that was found once. -/
theorem foundSlots_perm (b : Binding μ ε) (table : CodeTable) (seen : List CodeId)
    (found : List (List Slot × List CodeId)) :
    (b.foundSlots table seen found).Perm (found.flatMap Prod.fst ++
      (CodeTable.unseen seen (found.flatMap Prod.snd)).flatMap fun code => (table.unclaimed code).getD []) := by
  induction found generalizing seen with
  | nil => exact .refl _
  | cons thread found ih =>
    obtain ⟨stack, codes⟩ := thread
    have hordered (blobs : List Slot) : (b.ordered stack blobs).Perm (stack ++ blobs) := by
      unfold ordered
      split
      · exact .refl _
      · exact List.perm_append_comm
    rw [foundSlots, List.flatMap_cons, List.flatMap_cons, CodeTable.unseen_append, List.flatMap_append]
    refine ((hordered _).append (ih (seen ++ codes))).trans ?_
    rw [List.append_assoc, List.append_assoc]
    exact (List.perm_append_comm_assoc ..).append_left stack

/-- What a scan came to that has its reporter shown the slots, after walks that leave the host in `m` and find the code
of these ids: its reporter came to what any reporter comes to that is shown them, and if it returned, the code is
claimed. -/
structure Scanned (sink : Sink τ) (slots : List Slot) (codes : List CodeId) (m : Machine ε) (s : State μ ε) (t : τ)
    (result : Except Fault (Except Violation Nat) × State μ ε × τ) : Prop where
  outcome : result.1 = (Reporter.shown sink slots t).1.map .ok
  received : result.2.2 = (Reporter.shown sink slots t).2.2.1
  handed : ∀ n, result.1 = .ok (.ok n) → n = slots.length ∧ (batches (Reporter.shown sink slots t).2.2.2).flatten = slots
  recorded : ∀ n, result.1 = .ok (.ok n) → result.2.1.codeTable.recorded = s.codeTable.recorded
  claimed : ∀ n, result.1 = .ok (.ok n) → ∀ code, code ∈ result.2.1.codeTable.claimed ↔
    code ∈ s.codeTable.claimed ∨ code ∈ codes ∧ (s.codeTable.recorded code).isSome
  rest : ∀ n, result.1 = .ok (.ok n) → result.2.1 = { s with machine := m, codeTable := result.2.1.codeTable }
  returns : sink.HasRoom t → slots.Nodup → (∀ filled state, (sink.flush filled state).1.slots = []) →
    result.1 = .ok (.ok slots.length)

theorem scanned_of_replays {scan : Scan μ ε τ Unit} {codes : List CodeId} {m : Machine ε} {table : CodeTable}
    (hsound : s.codeTable.Sound) (htable : table.Sound) (hreaches : s.codeTable.Reaches (· ∈ codes) table)
    (hreplays : Replays sink scan s slots { s with machine := m, codeTable := table }) (t : τ) :
    let run := (reporting sink scan).run (s, t)
    Scanned sink slots codes m s t (run.1.map .ok, run.2) := by
  obtain ⟨left, hrun, hstate⟩ := hreplays.run_reporting t
  dsimp only
  rw [hrun]
  cases hshown : (Reporter.shown sink slots t).1 with
  | error cause =>
    exact ⟨by rw [hshown], rfl, nofun, nofun, nofun, nofun, fun hroom hslots hempties => by
      rw [Reporter.returns_of_emptied hroom hslots hempties] at hshown
      cases hshown⟩
  | ok count =>
    obtain rfl := hstate count hshown
    obtain ⟨rfl, hbatches⟩ := Reporter.handed_over_of_returns hshown
    refine ⟨by rw [hshown], rfl, fun n hn => ?_, fun n _ => hreaches.recorded, fun n _ code => ?_, fun n _ => rfl,
      fun _ _ _ => rfl⟩
    · cases hn
      exact ⟨rfl, hbatches⟩
    · exact hreaches.mem_claimed hsound htable code

theorem scanned_of_known (hsound : s.codeTable.Sound) {found : List (List Slot × List CodeId)} {m : Machine ε}
    (sink : Sink τ) {selector : ThreadSelector} (hknown : ∀ id ∈ selector.ids s.registry, (s.registry.get id).isSome)
    (hwalks : ((selector.ids s.registry).mapM b.walkThread).run s.machine = (.ok found, m)) (t : τ) :
    Scanned sink (b.foundSlots s.codeTable [] found) (found.flatMap Prod.snd) m s t
      ((b.scanThreads sink selector).run (s, t)) := by
  have hfind : (selector.ids s.registry).find? (fun id => (s.registry.get id).isNone) = none :=
    List.find?_eq_none.2 fun id hid => by simp [Option.isSome_iff_ne_none.1 (hknown id hid)]
  have hunseen : s.codeTable.Reaches (· ∈ ([] : List CodeId)) s.codeTable :=
    (CodeTable.Reaches.refl s.codeTable).congr fun code => by simp
  obtain ⟨table, hreplays, hreaches, htable⟩ := replays_threads sink hsound hsound hunseen hwalks
  rw [scanThreads_eq, hfind]
  exact scanned_of_replays hsound htable (hreaches.congr fun code => by simp) hreplays t

/-- A scan of some threads depends on the set of their ids, and all are scanned as any list of them. If a thread is not
registered, the scan names the one with the smallest id and does nothing. Otherwise it goes through the threads in
ascending order, whatever the host finds and whatever the sink. -/
theorem selected_threads_scanned (reached : s.Reached) (sink : Sink τ) (t : τ) (ids : List MutatorId) :
    (∀ others : List MutatorId, (∀ id, id ∈ others ↔ id ∈ ids) →
      (b.scanThreads sink (.subset others)).run (s, t) = (b.scanThreads sink (.subset ids)).run (s, t)) ∧
    ((∀ id, id ∈ ids ↔ (s.registry.get id).isSome) →
      (b.scanThreads sink .all).run (s, t) = (b.scanThreads sink (.subset ids)).run (s, t)) ∧
    (∀ id, (b.scanThreads sink (.one id)).run (s, t) = (b.scanThreads sink (.subset [id])).run (s, t)) ∧
    ((∃ id ∈ ids, (s.registry.get id).isNone) → ∃ id ∈ ids, (s.registry.get id).isNone ∧
      (∀ other ∈ ids, (s.registry.get other).isNone → id.value ≤ other.value) ∧
      (b.scanThreads sink (.subset ids)).run (s, t) = (.ok (.error (.unknownMutator id)), s, t)) ∧
    ((∀ id ∈ ids, (s.registry.get id).isSome) → ∃ sorted : List MutatorId,
      (sorted.Pairwise fun a b => a.value < b.value) ∧ (∀ id, id ∈ sorted ↔ id ∈ ids) ∧
      ∀ found m, (sorted.mapM b.walkThread).run s.machine = (.ok found, m) →
        Scanned sink (b.foundSlots s.codeTable [] found) (found.flatMap Prod.snd) m s t
          ((b.scanThreads sink (.subset ids)).run (s, t)) ∧
        ∃ blobs : List CodeId, blobs.Nodup ∧ (∀ code, code ∈ blobs ↔ code ∈ found.flatMap Prod.snd) ∧
          (b.foundSlots s.codeTable [] found).Perm
            (found.flatMap Prod.fst ++ blobs.flatMap fun code => (s.codeTable.unclaimed code).getD [])) := by
  obtain ⟨hregistry, hcode, -⟩ := reached.sound
  refine ⟨fun others hothers => ?_, fun hall => ?_, fun id => ?_, fun hunknown => scanThreads_unknown b sink hunknown t,
    fun hknown => ?_⟩
  · refine scanThreads_congr b sink (eq_of_ascending (ascending_subset _ ids) (ascending_subset _ others) fun id => ?_) t
    rw [mem_subset, mem_subset, hothers]
  · refine scanThreads_congr b sink (eq_of_ascending (ascending_subset _ ids) (ascending_all hregistry) fun id => ?_) t
    rw [mem_subset, mem_all hregistry, hall]
  · refine scanThreads_congr b sink (eq_of_ascending (ascending_subset _ [id]) (List.pairwise_singleton ..)
      fun other => ?_) t
    rw [mem_subset]
    rfl
  · refine ⟨_, ascending_subset s.registry ids, fun id => mem_subset, fun found m hwalks => ?_⟩
    obtain ⟨hmem, hnodup⟩ := CodeTable.unseen_spec [] (found.flatMap Prod.snd)
    exact ⟨scanned_of_known hcode sink (fun id hid => hknown id (mem_subset.1 hid)) hwalks t, _, hnodup,
      fun code => by simp [hmem], b.foundSlots_perm s.codeTable [] found⟩

theorem reached_begun {s : State Unit Unit} (h : s.Reached) (hcycles : s.codeTable.epoch + 1 ≠ 0) : s.begun.Reached := by
  have hcode := h.code .beginCycle (fun _ => pure ()) () fun _ => hcycles
  rw [State.begun, run_beginCycle hcycles]
  simpa [CodeOp.act, CodeTable.tablePlace, CodeTable.run_beginCycle, State.nextCycle] using hcode

/-- A blob that both threads run comes with the first of them, and its slots before the stack. -/
theorem shared_code_with_first_thread :
    let b := twoThreads.binding {}
    let s := (twoMutators [(⟨7⟩, [⟨0x7000⟩, ⟨0x7008⟩]), (⟨8⟩, [⟨0x8000⟩])]).begun
    let sink := Sink.collecting 4
    let found : List (List Slot × List CodeId) := [([⟨0x1000⟩, ⟨0x1008⟩], [⟨7⟩]), ([⟨0x2000⟩], [⟨8⟩, ⟨7⟩])]
    let slots : List Slot := [⟨0x7000⟩, ⟨0x7008⟩, ⟨0x1000⟩, ⟨0x1008⟩, ⟨0x8000⟩, ⟨0x2000⟩]
    s.Reached ∧
      (b.scanThreads sink .all).run (s, []) = (b.scanThreads sink (.subset [⟨2⟩, ⟨1⟩, ⟨2⟩])).run (s, []) ∧
      (b.scanThreads sink (.subset [⟨9⟩, ⟨1⟩, ⟨4⟩])).run (s, []) = (.ok (.error (.unknownMutator ⟨4⟩)), s, []) ∧
      (([⟨1⟩, ⟨2⟩] : List MutatorId).mapM b.walkThread).run s.machine = (.ok found, s.machine) ∧
      Scanned sink slots (found.flatMap Prod.snd) s.machine s []
        ((b.scanThreads sink (.subset [⟨2⟩, ⟨1⟩, ⟨2⟩])).run (s, [])) ∧
      ((b.scanThreads sink (.subset [⟨2⟩, ⟨1⟩, ⟨2⟩])).run (s, [])).1 = .ok (.ok 6) := by
  intro b s sink found slots
  have hreached : s.Reached := reached_begun (twoMutators_reached _) (by decide +kernel)
  obtain ⟨-, hall, -, -, hknown⟩ := selected_threads_scanned (b := b) hreached sink [] [⟨2⟩, ⟨1⟩, ⟨2⟩]
  obtain ⟨-, -, -, hunknown, -⟩ := selected_threads_scanned (b := b) hreached sink [] [⟨9⟩, ⟨1⟩, ⟨4⟩]
  obtain ⟨sorted, hsorted, hmem, hscanned⟩ := hknown (by decide +kernel)
  obtain rfl : sorted = [⟨1⟩, ⟨2⟩] := eq_of_ascending (by decide) hsorted fun id => by grind
  obtain ⟨hscanned, -⟩ := hscanned found s.machine rfl
  have hslots : b.foundSlots s.codeTable [] found = slots := by decide +kernel
  rw [hslots] at hscanned
  have hids : ThreadSelector.all.ids s.registry = [⟨1⟩, ⟨2⟩] := by decide +kernel
  refine ⟨hreached, hall fun id => ?_, ?_, rfl, hscanned, hscanned.returns (by decide) (by decide) fun _ _ => rfl⟩
  · rw [← mem_all hreached.sound.1, hids]
    grind
  · obtain ⟨id, hid, hnone, hleast, hrun⟩ := hunknown (by decide +kernel)
    simp only [List.mem_cons, List.not_mem_nil, or_false] at hid
    obtain rfl | rfl | rfl := hid
    · exact absurd (hleast ⟨4⟩ (by simp) (by decide +kernel)) (by decide)
    · exact absurd hnone (by decide +kernel)
    · exact hrun

/-- Where there can be no first buffer, none of the slots is reported. -/
theorem selected_threads_not_reported :
    let b := twoThreads.binding {}
    let s := (twoMutators [(⟨7⟩, [⟨0x7000⟩, ⟨0x7008⟩]), (⟨8⟩, [⟨0x8000⟩])]).begun
    let found : List (List Slot × List CodeId) := [([⟨0x1000⟩, ⟨0x1008⟩], [⟨7⟩]), ([⟨0x2000⟩], [⟨8⟩, ⟨7⟩])]
    s.Reached ∧ (∀ id ∈ [⟨1⟩, ⟨2⟩], (s.registry.get id).isSome) ∧
      (([⟨1⟩, ⟨2⟩] : List MutatorId).mapM b.walkThread).run s.machine = (.ok found, s.machine) ∧
      (b.foundSlots s.codeTable [] found).Nodup ∧ (b.foundSlots s.codeTable [] found).length = 6 ∧
      (b.scanThreads (.collecting (EdgeBuffer.maxCapacity + 1)) (.subset [⟨1⟩, ⟨2⟩])).run (s, []) =
        (.error (.panic .capacityOverflow), s, []) := by
  intro b s found
  have hfind : ((ThreadSelector.subset [⟨1⟩, ⟨2⟩]).ids s.registry).find? (fun id => (s.registry.get id).isNone) =
      none := by decide +kernel
  have hover : EdgeBuffer.maxCapacity < max ((Sink.collecting (EdgeBuffer.maxCapacity + 1)).capacity []) 1 := by
    decide
  have hhuge : (b.scanThreads (.collecting (EdgeBuffer.maxCapacity + 1)) (.subset [⟨1⟩, ⟨2⟩])).run (s, []) =
      (.error (.panic .capacityOverflow), s, []) := by
    simp only [scanThreads_eq, hfind, Reporter.run_reporting_of_lt hover]
    rfl
  exact ⟨reached_begun (twoMutators_reached _) (by decide +kernel), by decide +kernel, rfl, by decide +kernel,
    by decide +kernel, hhuge⟩

end Selectors

end Binding
end Safepoint
