import Mathlib.Data.List.Induction
import Safepoint.Proofs.Binding.Frames
import Safepoint.Proofs.Binding.RootSplits
import Safepoint.Proofs.Edges.Handover
import Safepoint.Proofs.Roots.Records

/-!
# What a failed scan loses

A scan claims blobs where they are, so whatever makes it fail, they stay on record. A scan of the code table is
different: it holds the blobs of the nursery while it shows slots to the sink, and lets them go if it fails.
-/
namespace Safepoint

open Act (Moves)

/-- Whether there can be a buffer as large as the sink wants the first one. -/
def Sink.HasRoom {τ : Type} (sink : Sink τ) (state : τ) : Prop := max (sink.capacity state) 1 ≤ EdgeBuffer.maxCapacity

instance {τ : Type} (sink : Sink τ) (state : τ) : Decidable (sink.HasRoom state) :=
  inferInstanceAs (Decidable (_ ≤ _))

namespace Binding

variable {μ ε τ : Type} {b : Binding μ ε} {sink : Sink τ} {s s' : State μ ε} {t t' : τ} {fault : Fault}
  {category : RootCategory}

/-- What scans keep of the tables on which they depend. -/
structure Kept (s s' : State μ ε) : Prop where
  registry : s'.registry = s.registry
  epoch : s'.codeTable.epoch = s.codeTable.epoch
  sound : s.codeTable.Sound → s'.codeTable.Sound
  recorded : s'.codeTable.recorded = s.codeTable.recorded

theorem Kept.refl (s : State μ ε) : Kept s s := ⟨rfl, rfl, id, rfl⟩

theorem Kept.trans {s₁ s₂ s₃ : State μ ε} (h : Kept s₁ s₂) (h' : Kept s₂ s₃) : Kept s₁ s₃ :=
  ⟨h'.registry.trans h.registry, h'.epoch.trans h.epoch, h'.sound ∘ h.sound, h'.recorded.trans h.recorded⟩

theorem claimSteps_kept (b : Binding μ ε) : b.ClaimSteps Kept where
  refl := .refl
  trans _ _ _ := .trans
  walks :=
    { stack := fun _ _ => ⟨rfl, rfl, id, rfl⟩
      code := fun _ _ => ⟨rfl, rfl, id, rfl⟩
      globals := fun _ _ => ⟨rfl, rfl, id, rfl⟩
      strings := fun _ _ => ⟨rfl, rfl, id, rfl⟩
      loaders := fun _ _ => ⟨rfl, rfl, id, rfl⟩
      weak := fun _ _ => ⟨rfl, rfl, id, rfl⟩ }
  claim s code := ⟨rfl, s.codeTable.epoch_claim code, fun h => h.claim code, s.codeTable.recorded_claim code⟩
  nursery _ := ⟨rfl, rfl, id, rfl⟩

/-- How a scan with a reporter of its own fails: for want of a buffer, before anything is done, or on the way. -/
theorem reporting_eq_error {σ : Type} {scan : Act (σ × Reporter τ) Unit} {s s' : σ}
    (h : (reporting sink scan).run (s, t) = (.error fault, s', t')) :
    ¬sink.HasRoom t ∧ s' = s ∨
    sink.HasRoom t ∧ ∃ reporter reporter', scan.run (s, reporter) = (.error fault, s', reporter') := by
  by_cases hroom : sink.HasRoom t
  · refine .inr ⟨hroom, ?_⟩
    rcases hscan : scan.run (s, ⟨t, .ofCapacity (max (sink.capacity t) 1), []⟩) with ⟨cause | ⟨⟩, s₁, reporter'⟩
    · simp only [Act.run] at hscan
      simp only [reporting, Act.run, Reporter.start_of_le hroom, hscan] at h
      cases h
      exact ⟨_, reporter', hscan⟩
    · simp only [Act.run] at hscan
      simp only [reporting, Act.run, Reporter.start_of_le hroom, hscan] at h
      cases h
  · rw [Reporter.run_reporting_of_lt (Nat.lt_of_not_le hroom)] at h
    cases h
    exact .inl ⟨hroom, rfl⟩

/-- A scan of the code table that fails on the way leaves the rest of the state as it was. -/
theorem drained_of_scanCode (h : (scanCode sink : Act (State μ ε × τ) Nat).run (s, t) = (.error fault, s', t')) :
    ¬sink.HasRoom t ∧ s' = s ∨ sink.HasRoom t ∧ CodeTable.Drained s.codeTable s'.codeTable := by
  refine (reporting_eq_error h).imp_right fun ⟨hroom, reporter, reporter', hscan⟩ => ⟨hroom, ?_⟩
  rw [Act.run_bind] at hscan
  rcases htable : (CodeTable.scan (Reporter.visitAll sink)).run (s.codeTable, reporter) with
    ⟨cause | count, left, reporter₁⟩
  · have hdrained := CodeTable.drained_of_fault htable
    simp only [Act.run_within, Scan.codePlace, htable] at hscan
    cases hscan
    exact hdrained
  · simp only [Act.run_within, Scan.codePlace, htable] at hscan
    cases hscan

/-- However it ends, a scan leaves a sound table of code. -/
theorem moves_sound (sink : Sink τ) (category : RootCategory) :
    Moves (fun s s' : State μ ε => s.codeTable.Sound → s'.codeTable.Sound) Prod.fst (b.scan sink category) := by
  have hrefl (s : State μ ε) : s.codeTable.Sound → s.codeTable.Sound := id
  have htrans (s₁ s₂ s₃ : State μ ε) (h : s₁.codeTable.Sound → s₂.codeTable.Sound)
      (h' : s₂.codeTable.Sound → s₃.codeTable.Sound) : s₁.codeTable.Sound → s₃.codeTable.Sound := h' ∘ h
  by_cases hcategory : category = .codeCache
  · subst hcategory
    refine .bind htrans (moves_reporting id hrefl ?_) fun _ => .unmoved hrefl fun _ => rfl
    exact .bind htrans (fun p h => h.run_scan _ p.2) fun _ => .unmoved hrefl fun _ => rfl
  · exact fun p => ((claimSteps_kept b).scan hcategory p).sound

/-- The state in which the next cycle begins. -/
def State.nextCycle (s : State μ ε) : State μ ε :=
  { s with codeTable := { s.codeTable with epoch := s.codeTable.epoch + 1 } }

theorem run_beginCycle (h : s.codeTable.epoch + 1 ≠ 0) : (Act.within State.codePlace CodeTable.beginCycle).run s =
    (.ok (s.codeTable.epoch + 1), s.nextCycle) := by
  simp [State.codePlace, CodeTable.run_beginCycle, h, State.nextCycle]

/-- In a new cycle the scan of the code table reports what is on record, if it is refused neither a buffer nor a
slot. -/
theorem scanCode_nextCycle (hsound : s.codeTable.Sound) {sink : Sink FlushLog} (hsink : sink.Empties)
    (hroom : sink.HasRoom []) (hcycles : s.codeTable.epoch + 1 ≠ 0) (hblobs : s.codeTable.slots.Nodup) :
    ∃ s₁ log, (b.scan sink .codeCache).run (s.nextCycle, []) = (.ok (.ok (FlushLog.slots log).length), s₁, log) ∧
      log.slots = s.codeTable.slots := by
  have hfree : s.nextCycle.codeTable.freeSlots = s.codeTable.slots :=
    CodeTable.freeSlots_begun hsound (toNat_add_one_lt hcycles)
  have hshows : Shows (fun _ => True) _ s.nextCycle.tables _ _ := shows_scanCode (μ := μ) (ε := ε) hsink
  obtain ⟨s₁, log, hrun, hlog, -⟩ := run_reporting hsink hroom (s := s.nextCycle) (P := fun _ => True)
    fun reporter hr => by
      obtain ⟨s₁, reporter', hrun, -, -, hr'⟩ := hshows s.nextCycle reporter [] trivial rfl hr (by
        rw [List.nil_append]
        exact hfree ▸ hblobs)
      exact ⟨s₁, reporter', hrun, hr', trivial⟩
  refine ⟨s₁, log, ?_, hlog.trans hfree⟩
  rw [hlog]
  exact Act.run_bind_ok hrun

/-- A failed scan takes off the record just the blobs that were in the nursery when it took the nursery out. The next
cycle reports what is left, and nothing else. -/
theorem record_after_failed_scan (reached : s.Reached)
    (failed : (b.scan sink category).run (s, t) = (.error fault, s', t')) :
    (∀ code, s'.codeTable.recorded code =
      if category = .codeCache ∧ sink.HasRoom t ∧ code ∈ s.codeTable.nursery then none
      else s.codeTable.recorded code) ∧
    ∀ next : Sink FlushLog, next.Empties → next.HasRoom [] → s'.codeTable.epoch + 1 ≠ 0 →
      s'.codeTable.slots.Nodup →
      ∃ cycle s₀ s₁ log, (Act.within State.codePlace CodeTable.beginCycle).run s' = (.ok cycle, s₀) ∧
        (b.scan next .codeCache).run (s₀, []) = (.ok (.ok (FlushLog.slots log).length), s₁, log) ∧
        ∀ slot, slot ∈ log.slots ↔ ∃ code slots, s'.codeTable.recorded code = some slots ∧ slot ∈ slots := by
  obtain ⟨-, hcode, -⟩ := reached.sound
  have hsound : s'.codeTable.Sound := by
    have hmoves := moves_sound (b := b) sink category (s, t)
    rw [failed] at hmoves
    exact hmoves hcode
  refine ⟨?_, fun next hnext hroom hcycles hblobs => ?_⟩
  · by_cases hcategory : category = .codeCache
    · subst hcategory
      have hscan : (scanCode sink : Act (State μ ε × τ) Nat).run (s, t) = (.error fault, s', t') := by
        rcases hrun : (scanCode sink : Act (State μ ε × τ) Nat).run (s, t) with ⟨cause | count, s₁, t₁⟩
        · cases (Act.run_bind_error hrun).symm.trans failed
          rfl
        · cases (Act.run_bind_ok hrun).symm.trans failed
      intro code
      obtain ⟨hroom, rfl⟩ | ⟨hroom, hdrained⟩ := drained_of_scanCode hscan
      · rw [if_neg fun h => hroom h.2.1]
      · rw [hdrained.recorded_eq hcode]
        simp [hroom]
    · have hkept : Kept s ((b.scan sink category).run (s, t)).2.1 := (claimSteps_kept b).scan hcategory (s, t)
      rw [failed] at hkept
      intro code
      rw [if_neg fun h => hcategory h.1]
      exact congrFun hkept.recorded code
  · obtain ⟨s₁, log, hrun, hlog⟩ := scanCode_nextCycle (b := b) hsound hnext hroom hcycles hblobs
    refine ⟨_, _, s₁, log, run_beginCycle hcycles, hrun, fun slot => ?_⟩
    rw [hlog, CodeTable.slots_eq_blobs, List.mem_flatMap, Prod.exists]
    simp only [CodeTable.mem_blobs hsound]

/-- A binding whose table of code is what some operations leave, with visits that never fail. -/
def codeAfter (ops : List CodeOp) : State Unit Unit where
  machine := ⟨.zero, ()⟩
  codeTable := ops.foldl (fun table op => ((op.act fun _ => pure ()).run (table, ())).2.1) {}

theorem codeAfter_reached (ops : List CodeOp)
    (hcycles : ∀ n ≤ ops.length, (codeAfter (ops.take n)).codeTable.epoch + 1 ≠ 0) : (codeAfter ops).Reached := by
  induction ops using List.reverseRecOn with
  | nil => exact .fresh _
  | append_singleton ops op ih =>
    rw [List.length_append, List.length_singleton] at hcycles
    have hbefore : (codeAfter ops).Reached := ih fun n hn => by
      rw [← List.take_append_of_le_length hn]
      exact hcycles n (Nat.le_succ_of_le hn)
    have hlast := hcycles ops.length (Nat.le_succ _)
    rw [List.take_left] at hlast
    have hstep : codeAfter (ops ++ [op]) = { codeAfter ops with
        codeTable := ((op.act fun _ => pure ()).run ((codeAfter ops).codeTable, ())).2.1 } := by
      simp [codeAfter, List.foldl_append]
    rw [hstep]
    exact .code hbefore op (fun _ => pure ()) () fun _ => hlast

/-- Two blobs share a slot, and one of them was there when a scan was made: it stays, and the other is lost. -/
theorem mature_blob_stays :
    let b := twoThreads.binding {}
    let s := codeAfter [.register ⟨1⟩ [⟨0x7000⟩], .beginCycle, .scan, .register ⟨2⟩ [⟨0x7000⟩, ⟨0x7008⟩], .beginCycle]
    ∃ s' log, (b.scan (.collecting 4) .codeCache).run (s, []) = (.error (.panic (.repeatedSlot ⟨0x7000⟩)), s', log) ∧
      s'.codeTable.recorded ⟨1⟩ = some [⟨0x7000⟩] ∧ s'.codeTable.recorded ⟨2⟩ = none ∧
      ∃ cycle s₀ s₁ log', (Act.within State.codePlace CodeTable.beginCycle).run s' = (.ok cycle, s₀) ∧
        (b.scan (.collecting 4) .codeCache).run (s₀, []) = (.ok (.ok (FlushLog.slots log').length), s₁, log') ∧
        ⟨0x7000⟩ ∈ log'.slots := by
  intro b s
  have hfault : (b.scan (.collecting 4) .codeCache).faultOf (s, []) = some (.panic (.repeatedSlot ⟨0x7000⟩)) := by
    decide +kernel
  obtain ⟨⟨s', log⟩, hfailed⟩ := Act.exists_run_eq_error hfault
  obtain ⟨hrecord, hnext⟩ := record_after_failed_scan (codeAfter_reached _ (by decide +kernel)) hfailed
  obtain rfl : ((b.scan (.collecting 4) .codeCache).run (s, [])).2.1 = s' := by rw [hfailed]
  have hkept := hrecord ⟨1⟩
  have hlost := hrecord ⟨2⟩
  rw [if_neg (by decide +kernel)] at hkept
  rw [if_pos (by decide +kernel)] at hlost
  have hfirst : s.codeTable.recorded ⟨1⟩ = some [⟨0x7000⟩] := by decide +kernel
  obtain ⟨cycle, s₀, s₁, log', hbegin, hrun, hslots⟩ := hnext (.collecting 4) (Sink.collecting_empties 4)
    (by decide) (by decide +kernel) (by decide +kernel)
  exact ⟨_, log, hfailed, hkept.trans hfirst, hlost, cycle, s₀, s₁, log', hbegin, hrun,
    (hslots _).2 ⟨⟨1⟩, _, hkept.trans hfirst, .head _⟩⟩

/-- Where two new blobs share a slot, both are lost, and the next cycle reports nothing. -/
theorem nursery_lost_by_failed_scan :
    let b := twoThreads.binding {}
    let s := codeAfter [.register ⟨1⟩ [⟨0x7000⟩], .register ⟨2⟩ [⟨0x7000⟩], .beginCycle]
    let left := ((b.scan (.collecting 4) .codeCache).run (s, [])).2.1
    s.Reached ∧ (b.scan (.collecting 4) .codeCache).faultOf (s, []) = some (.panic (.repeatedSlot ⟨0x7000⟩)) ∧
      s.codeTable.recorded ⟨1⟩ = some [⟨0x7000⟩] ∧ left.codeTable.recorded ⟨1⟩ = none ∧
      ((b.scan (.collecting 4) .codeCache).run (left.begun, [])).2.2 = [] := by
  intro b s left
  exact ⟨codeAfter_reached _ (by decide +kernel), by decide +kernel, by decide +kernel, by decide +kernel,
    by decide +kernel⟩

end Binding

end Safepoint
