import Safepoint.Proofs.Binding.FailedScans
import Safepoint.Proofs.Edges.Batches

/-!
# Scans made again

A scan tells two states apart by the walks of the host, by who is registered, and by what claims of code give. Where
these are the same, it reports the same slots, in whatever buffers. A cycle later they are the same again.
-/
namespace Safepoint.Binding

open Act (Alike)
open Reporter (Twins)

variable {μ ε α : Type} {b : Binding μ ε} {S : State μ ε → State μ ε → Prop} {capacity capacity' : Nat}
  {s s' t : State μ ε}

/-- Related states that walks and claims do not tell apart. -/
structure Likeness (b : Binding μ ε) (S : State μ ε → State μ ε → Prop) : Prop where
  walks : b.host.Walks fun walk => Alike S (onMachine walk) (onMachine walk)
  registry : ∀ s t, S s t → s.registry = t.registry
  claim : ∀ s t (code : CodeId), S s t → (s.codeTable.claim code).1 = (t.codeTable.claim code).1 ∧
    S { s with codeTable := (s.codeTable.claim code).2 } { t with codeTable := (t.codeTable.claim code).2 }

/-- Scans under way that were shown the same. -/
def Level (S : State μ ε → State μ ε → Prop) (capacity capacity' : Nat) (p q : State μ ε × Reporter FlushLog) : Prop :=
  S p.1 q.1 ∧ Twins capacity capacity' p.2 q.2

theorem alike_walk {walk : Act (Machine ε) α} (hwalk : Alike S (onMachine walk) (onMachine walk)) :
    Alike (Level S capacity capacity') (Scan.walk walk) (Scan.walk walk) :=
  .within hwalk (fun _ _ h => h.1) fun _ _ _ _ h h' => ⟨h', h.2⟩

theorem alike_report (slots : List Slot) : Alike (Level S capacity capacity')
    (Scan.report (.collecting capacity) slots) (Scan.report (.collecting capacity') slots) :=
  .within (Reporter.alike_visitAll slots) (fun _ _ h => h.2) fun _ _ _ _ h h' => ⟨h.1, h'⟩

theorem alike_walkReport {walk : Act (Machine ε) α} (hwalk : Alike S (onMachine walk) (onMachine walk))
    (slotsOf : α → List Slot) : Alike (Level S capacity capacity')
      (do Scan.report (.collecting capacity) (slotsOf (← Scan.walk walk)))
      (do Scan.report (.collecting capacity') (slotsOf (← Scan.walk walk))) :=
  .bind (alike_walk hwalk) fun found => alike_report (slotsOf found)

/-- A scan of one walk of the host. -/
theorem sameReport_walk (room : capacity ≤ EdgeBuffer.maxCapacity) (room' : capacity' ≤ EdgeBuffer.maxCapacity)
    (hs : S s t) {walk : Act (Machine ε) α} (hwalk : Alike S (onMachine walk) (onMachine walk))
    (slotsOf : α → List Slot) : SameReport some S capacity capacity'
      ((reporting (.collecting capacity) (do Scan.report (.collecting capacity) (slotsOf (← Scan.walk walk)))).run
        (s, []))
      ((reporting (.collecting capacity') (do Scan.report (.collecting capacity') (slotsOf (← Scan.walk walk)))).run
        (t, [])) :=
  sameReport_reporting room room' (alike_walkReport hwalk slotsOf) hs

namespace Likeness

variable (h : b.Likeness S)
include h

theorem visitBlob (code : CodeId) : Alike (Level S capacity capacity') (visitBlob (.collecting capacity) code)
    (visitBlob (.collecting capacity') code) := by
  refine .bind (fun p q hpq => ?_) fun claimed => ?_
  · obtain ⟨hgiven, hleft⟩ := h.claim p.1 q.1 code hpq.1
    exact ⟨congrArg Except.ok hgiven, hleft, hpq.2⟩
  · cases claimed with
    | none => exact .pure ()
    | some slots => exact alike_report slots

theorem visitThread (id : MutatorId) : Alike (Level S capacity capacity')
    (visitThread b (.collecting capacity) id) (visitThread b (.collecting capacity') id) := by
  have hstack : Alike (Level S capacity capacity') (visitStack b (.collecting capacity) id)
      (visitStack b (.collecting capacity') id) := alike_walkReport (h.walks.stack id) fun slots => slots
  have hcode : Alike (Level S capacity capacity') (visitThreadCode b (.collecting capacity) id)
      (visitThreadCode b (.collecting capacity') id) :=
    .bind (alike_walk (h.walks.code id)) fun codes => .forM codes fun code _ => h.visitBlob code
  unfold Binding.visitThread
  split
  · exact .bind hstack fun _ => hcode
  · exact .bind hcode fun _ => hstack

variable (room : capacity ≤ EdgeBuffer.maxCapacity) (room' : capacity' ≤ EdgeBuffer.maxCapacity) (hs : S s t)
include room room' hs

theorem scanThreads (selector : ThreadSelector) : SameReport Except.toOption S capacity capacity'
    ((b.scanThreads (.collecting capacity) selector).run (s, []))
    ((b.scanThreads (.collecting capacity') selector).run (t, [])) := by
  unfold Binding.scanThreads
  rw [Act.run_bind_ok (Act.run_get _), Act.run_bind_ok (Act.run_get _)]
  simp only [h.registry s t hs]
  split
  · exact ⟨rfl, hs, rfl, fun _ _ ha hn => (by cases ha; cases hn), by simp, by simp⟩
  · refine .map (fun _ => rfl) (sameReport_reporting room room' ?_ hs)
    exact .forM _ fun id _ => h.visitThread id

theorem scanLoaders (weakSink : Sink FlushLog) (policy : LoaderScan) :
    SameReport some (fun p q => S p.1 q.1 ∧ p.2 = q.2) capacity capacity'
      ((b.scanLoaders (.collecting capacity) weakSink policy).run ((s, []), []))
      ((b.scanLoaders (.collecting capacity') weakSink policy).run ((t, []), [])) := by
  have hedges : Alike (fun p q => Level S capacity capacity' p.1 q.1 ∧ p.2 = q.2)
      (scanLoaders.walkEdges b (.collecting capacity) weakSink policy)
      (scanLoaders.walkEdges b (.collecting capacity') weakSink policy) := by
    refine .bind (.within (h.walks.loaders policy) (fun _ _ hpq => hpq.1.1)
      fun _ _ _ _ hpq hleft => ⟨⟨hleft, hpq.1.2⟩, hpq.2⟩) fun edges => .forM edges fun edge _ => ?_
    split
    · exact .within (.same _) (fun _ _ hpq => hpq.2) fun _ _ _ _ hpq hleft => ⟨hpq.1, hleft⟩
    · exact .within (Reporter.alike_visit edge.slot) (fun _ _ hpq => hpq.1.2)
        fun _ _ _ _ hpq hleft => ⟨⟨hpq.1.1, hleft⟩, hpq.2⟩
  refine sameReport_reporting room room' ?_ ⟨hs, rfl⟩
  exact .within (.bind (alike_reporting hedges) fun _ => .pure ()) (fun _ _ hpq => ⟨⟨hpq.1.1, hpq.2⟩, hpq.1.2⟩)
    fun _ _ _ _ _ hleft => ⟨⟨hleft.1.1, hleft.2⟩, hleft.1.2⟩

theorem scanLoaderRoots : SameReport some S capacity capacity'
    ((b.scanLoaderRoots (.collecting capacity)).run (s, []))
    ((b.scanLoaderRoots (.collecting capacity')).run (t, [])) := by
  unfold Binding.scanLoaderRoots
  split
  · have hreport := h.scanLoaders room room' hs .discarding .liveFiltered
    exact ⟨hreport.outcome, hreport.state.1, hreport.slots, hreport.count, hreport.short, hreport.short'⟩
  · exact sameReport_walk room room' hs (h.walks.loaders .allStrong) (List.map LoaderEdge.slot)

theorem scanWeak {filter : LiveFilter} (hhandles : filter = .nonStuckOnly → ∀ s t, S s t →
      s.weakHandles.nursery = t.weakHandles.nursery ∧ S { s with weakHandles := s.weakHandles.takeNursery.2 }
        { t with weakHandles := t.weakHandles.takeNursery.2 }) : SameReport some S capacity capacity'
    ((b.scanWeak (.collecting capacity) filter).run (s, []))
    ((b.scanWeak (.collecting capacity') filter).run (t, [])) := by
  refine sameReport_reporting room room' ?_ hs
  refine .bind (alike_walk (h.walks.weak filter)) fun found => .bind (alike_report found) fun _ => ?_
  split
  · rename_i hfilter
    refine .bind (fun p q hpq => ?_) fun waiting => alike_report waiting
    obtain ⟨hsame, hleft⟩ := hhandles hfilter p.1 q.1 hpq.1
    exact ⟨congrArg Except.ok hsame, hleft, hpq.2⟩
  · exact .pure ()

/-- A scan of any category but the code table, whose maps may lie in different orders, and the weak handles, which are
handed out once. -/
theorem scan {category : RootCategory} (hcode : category ≠ .codeCache)
    (hweak : category = .weakProcessor → b.defaultFilter ≠ .nonStuckOnly) :
    SameReport Except.toOption S capacity capacity' ((b.scan (.collecting capacity) category).run (s, []))
      ((b.scan (.collecting capacity') category).run (t, [])) := by
  cases category with
  | threadStacks => exact h.scanThreads room room' hs .all
  | global table => exact .map (fun _ => rfl) (sameReport_walk room room' hs (h.walks.globals table) fun slots => slots)
  | codeCache => exact absurd rfl hcode
  | stringTable => exact .map (fun _ => rfl) (sameReport_walk room room' hs (h.walks.strings _) fun slots => slots)
  | classLoaderGraph => exact .map (fun _ => rfl) (h.scanLoaderRoots room room' hs)
  | weakProcessor =>
    exact .map (fun _ => rfl) (h.scanWeak room room' hs fun hfilter => absurd hfilter (hweak rfl))

end Likeness

theorem likeness_eq (b : Binding μ ε) : b.Likeness Eq where
  walks := ⟨fun _ => .same _, fun _ => .same _, fun _ => .same _, fun _ => .same _, fun _ => .same _, fun _ => .same _⟩
  registry _ _ := congrArg State.registry
  claim _ _ code hs := by rw [hs]; exact ⟨rfl, rfl⟩

/-- From one state, the size of the buffers makes no difference. -/
theorem sameReport_scan (room : capacity ≤ EdgeBuffer.maxCapacity) (room' : capacity' ≤ EdgeBuffer.maxCapacity)
    (s : State μ ε) (category : RootCategory) : SameReport Except.toOption Eq capacity capacity'
      ((b.scan (.collecting capacity) category).run (s, []))
      ((b.scan (.collecting capacity') category).run (s, [])) := by
  by_cases hcode : category = .codeCache
  · subst hcode
    refine .map (fun _ => rfl) (sameReport_reporting room room' ?_ rfl)
    refine .bind (.within (CodeTable.alike_scan fun slots => Reporter.alike_visitAll slots) ?_ ?_) fun _ => .pure ()
    · exact fun _ _ hpq => ⟨congrArg State.codeTable hpq.1, hpq.2⟩
    · rintro p q p' q' hpq ⟨htable, hleft⟩
      exact ⟨by simp [Scan.codePlace, hpq.1, htable], hleft⟩
  · by_cases hweak : category = .weakProcessor
    · subst hweak
      refine .map (fun _ => rfl) ((likeness_eq b).scanWeak room room' rfl fun _ s t hst => ?_)
      rw [hst]
      exact ⟨rfl, rfl⟩
    · exact (likeness_eq b).scan room room' rfl hcode fun h => absurd h hweak

/-- States in which walks that give the same on every steady machine find the same roots. -/
structure SameRoots (steady : Machine ε → Prop) (s t : State μ ε) : Prop where
  steady : steady s.machine ∧ steady t.machine
  registry : s.registry = t.registry
  claims : ∀ code, (s.codeTable.claim code).1 = (t.codeTable.claim code).1

/-- Walks that come to the same whenever they are made. -/
def Repeats (b : Binding μ ε) (steady : Machine ε → Prop) : Prop :=
  b.host.Walks fun walk => Alike (fun m m' => steady m ∧ steady m') walk walk

theorem likeness_sameRoots {steady : Machine ε → Prop} (walks : b.Repeats steady) :
    b.Likeness (SameRoots steady) where
  walks := by
    have hwalk {α : Type} {walk : Act (Machine ε) α} (h : Alike (fun m m' => steady m ∧ steady m') walk walk) :
        Alike (SameRoots (μ := μ) steady) (onMachine walk) (onMachine walk) :=
      .within h (fun _ _ hst => hst.steady) fun _ _ _ _ hst hleft => ⟨hleft, hst.registry, hst.claims⟩
    exact ⟨fun id => hwalk (walks.stack id), fun id => hwalk (walks.code id), fun table => hwalk (walks.globals table),
      fun filter => hwalk (walks.strings filter), fun policy => hwalk (walks.loaders policy),
      fun filter => hwalk (walks.weak filter)⟩
  registry _ _ hst := hst.registry
  claim s t code hst := by
    refine ⟨hst.claims code, hst.steady, hst.registry, fun other => ?_⟩
    rw [CodeTable.claim_claim_eq, CodeTable.claim_claim_eq, hst.claims other]

theorem beginCycle_eq_ok {s₀ : State μ ε} {cycle : UInt64}
    (h : (Act.within State.codePlace CodeTable.beginCycle).run s = (.ok cycle, s₀)) :
    s.codeTable.epoch + 1 ≠ 0 ∧ cycle = s.codeTable.epoch + 1 ∧ s₀ = s.nextCycle := by
  by_cases hzero : s.codeTable.epoch + 1 = 0
  · simp [State.codePlace, CodeTable.run_beginCycle, hzero] at h
  · rw [run_beginCycle hzero] at h
    cases h
    exact ⟨hzero, rfl, rfl⟩

theorem claim_nextCycle (hsound : s.codeTable.Sound) (hcycles : s.codeTable.epoch + 1 ≠ 0) (code : CodeId) :
    (s.nextCycle.codeTable.claim code).1 = s.codeTable.recorded code :=
  CodeTable.claim_begun hsound (toNat_add_one_lt hcycles) code

/-- The next scan of any category but the code table finds the same, in the same order. -/
theorem rescan_alike {steady : Machine ε → Prop} (walks : b.Repeats steady) (hsound : s.codeTable.Sound)
    (still : steady s.machine) (room : capacity ≤ EdgeBuffer.maxCapacity) (room' : capacity' ≤ EdgeBuffer.maxCapacity)
    {category : RootCategory} (hcode : category ≠ .codeCache)
    (hweak : category = .weakProcessor → b.defaultFilter ≠ .nonStuckOnly) (hcycles : s.codeTable.epoch + 1 ≠ 0)
    (hmore : s.codeTable.epoch + 1 + 1 ≠ 0) :
    let first := (b.scan (.collecting capacity) category).run (s.nextCycle, [])
    first.2.1.codeTable.epoch = s.codeTable.epoch + 1 ∧
      SameReport Except.toOption (SameRoots steady) capacity capacity' first
        ((b.scan (.collecting capacity') category).run (first.2.1.nextCycle, [])) := by
  intro first
  have hkept : Kept s.nextCycle first.2.1 := (claimSteps_kept b).scan hcode (s.nextCycle, [])
  have hafter : first.2.1.codeTable.Sound := hkept.sound (hsound.beginCycle (toNat_add_one_lt hcycles))
  have hsame : SameRoots steady s.nextCycle s.nextCycle := ⟨⟨still, still⟩, rfl, fun _ => rfl⟩
  have hself : SameReport Except.toOption (SameRoots steady) capacity capacity first first :=
    (likeness_sameRoots walks).scan room room hsame hcode hweak
  have hepoch : first.2.1.codeTable.epoch = s.codeTable.epoch + 1 := hkept.epoch
  refine ⟨hepoch, (likeness_sameRoots walks).scan room room' ?_ hcode hweak⟩
  refine ⟨⟨still, hself.state.steady.1⟩, hkept.registry.symm, fun code => ?_⟩
  rw [claim_nextCycle hsound hcycles, claim_nextCycle hafter (hepoch ▸ hmore), hkept.recorded]
  rfl

/-- A scan of the code table that returned has reported all free blobs, and no slot twice. -/
theorem scanCode_eq_ok {sink : Sink FlushLog} (hsink : sink.Empties) {n : Nat} {s' : State μ ε} {log : FlushLog}
    (h : (b.scan sink .codeCache).run (s, []) = (.ok (.ok n), s', log)) :
    log.slots = s.codeTable.freeSlots ∧ log.slots.Nodup ∧ s'.codeTable = s.codeTable.scanned := by
  obtain ⟨count, p, hscan, hdone⟩ := Act.run_bind_eq_ok.1 h
  cases hdone
  refine slots_of_reporting (Q := fun slots s' => slots = s.codeTable.freeSlots ∧ slots.Nodup ∧
    s'.codeTable = s.codeTable.scanned) hsink ?_ hscan
  intro reporter reporter' s₁ hr hrun
  obtain ⟨count, q, hwithin, hdone⟩ := Act.run_bind_eq_ok.1 hrun
  cases hdone
  obtain ⟨⟨left, r⟩, htable, hput⟩ := Act.run_within_eq_ok.1 hwithin
  cases hput
  have hvisits := CodeTable.visits_of_scan htable
  have hleft : (CodeTable.scan (Reporter.visitAll sink)).run (s.codeTable, reporter) = _ := CodeTable.run_scan hvisits
  have hall : (Reporter.visitAll sink s.codeTable.freeSlots).run reporter = (.ok (), r) := by
    rw [Reporter.visitAll, CodeTable.freeSlots, Act.forM_flatMap]
    exact hvisits
  refine ⟨s.codeTable.freeSlots, by simpa using Reporter.holds_of_visitAll hsink hr hall, rfl,
    by simpa using Reporter.nodup_of_visitAll hsink hr .nil hall, ?_⟩
  cases hleft.symm.trans htable
  rfl

/-- The next scan of the code table finds the same blobs, all of them mature now. -/
theorem rescan_code (hsound : s.codeTable.Sound) (room' : capacity' ≤ EdgeBuffer.maxCapacity)
    (hcycles : s.codeTable.epoch + 1 ≠ 0) (hmore : s.codeTable.epoch + 1 + 1 ≠ 0) {n : Nat} {s₁ : State μ ε}
    {log : FlushLog} (h : (b.scan (.collecting capacity) .codeCache).run (s.nextCycle, []) = (.ok (.ok n), s₁, log)) :
    s₁.codeTable.epoch = s.codeTable.epoch + 1 ∧ ∃ s₂ log',
      (b.scan (.collecting capacity') .codeCache).run (s₁.nextCycle, []) =
        (.ok (.ok (FlushLog.slots log').length), s₂, log') ∧ (FlushLog.slots log').Perm log.slots := by
  have hlt := toNat_add_one_lt hcycles
  obtain ⟨hlog, hnodup, hscanned⟩ := scanCode_eq_ok (Sink.collecting_empties capacity) h
  have hbegun : s.nextCycle.codeTable.Sound := hsound.beginCycle hlt
  have hfree : s.nextCycle.codeTable.freeSlots = s.codeTable.slots := CodeTable.freeSlots_begun hsound hlt
  have hperm : s₁.codeTable.slots.Perm log.slots := by
    have hpromoted : s.nextCycle.codeTable.scanned.slots.Perm s.nextCycle.codeTable.slots :=
      CodeTable.slots_perm hbegun hbegun.scanned (CodeTable.recorded_scanned hbegun)
    rw [hlog, hfree, hscanned]
    exact hpromoted
  have hepoch : s₁.codeTable.epoch = s.codeTable.epoch + 1 := by
    rw [hscanned]
    rfl
  have hroom : (Sink.collecting capacity').HasRoom [] := Nat.max_le.2 ⟨Nat.max_le.2 ⟨room', by decide⟩, by decide⟩
  obtain ⟨s₂, log', hrun, hlog'⟩ := scanCode_nextCycle (b := b) (hscanned ▸ hbegun.scanned)
    (Sink.collecting_empties capacity') hroom (hepoch ▸ hmore) (hperm.nodup_iff.2 hnodup)
  exact ⟨hepoch, s₂, log', hrun, hlog' ▸ hperm⟩

/-- Whatever the sizes of the buffers, as long as there can be such buffers: a scan that completed in one cycle
completes in the next, and reports the same slots; and from one state, scans come to the same. -/
theorem scans_stable_across_buffers (room : capacity ≤ EdgeBuffer.maxCapacity)
    (room' : capacity' ≤ EdgeBuffer.maxCapacity) (s : State μ ε) (category : RootCategory) :
    (∀ steady : Machine ε → Prop, b.Repeats steady → s.Reached → steady s.machine →
      ¬(category = .weakProcessor ∧ b.options.weakProcessing = .referenceCounting) →
      ∀ cycle s₀ n s₁ log, (Act.within State.codePlace CodeTable.beginCycle).run s = (.ok cycle, s₀) →
        (b.scan (.collecting capacity) category).run (s₀, []) = (.ok (.ok n), s₁, log) → cycle + 1 ≠ 0 →
        ∃ s₂ s₃ log', (Act.within State.codePlace CodeTable.beginCycle).run s₁ = (.ok (cycle + 1), s₂) ∧
          (b.scan (.collecting capacity') category).run (s₂, []) = (.ok (.ok n), s₃, log') ∧
          (FlushLog.slots log').Perm (FlushLog.slots log) ∧ (FlushLog.slots log).length = n ∧
          (∀ batch ∈ FlushLog.batches log, batch.length ≤ max capacity 1) ∧
          ∀ batch ∈ FlushLog.batches log', batch.length ≤ max capacity' 1) ∧
    let one := (b.scan (.collecting capacity) category).run (s, [])
    let other := (b.scan (.collecting capacity') category).run (s, [])
    one.1 = other.1 ∧ one.2.1 = other.2.1 ∧ FlushLog.slots one.2.2 = FlushLog.slots other.2.2 := by
  constructor
  · intro steady walks reached still hweak cycle s₀ n s₁ log begun completed hmore
    obtain ⟨-, hsound, -⟩ := reached.sound
    obtain ⟨hcycles, rfl, rfl⟩ := beginCycle_eq_ok begun
    have hfilter : category = .weakProcessor → b.defaultFilter ≠ .nonStuckOnly := by
      intro hcategory hfilter
      refine hweak ⟨hcategory, ?_⟩
      unfold defaultFilter at hfilter
      cases hmode : b.options.weakProcessing with
      | tracing => simp [hmode, LiveFilter.ofMode] at hfilter
      | referenceCounting => rfl
    have hself := sameReport_scan (b := b) room room s.nextCycle category
    rw [completed] at hself
    have hagain : s₁.codeTable.epoch = s.codeTable.epoch + 1 ∧ ∃ s₃ log',
        (b.scan (.collecting capacity') category).run (s₁.nextCycle, []) = (.ok (.ok n), s₃, log') ∧
        (FlushLog.slots log').Perm (FlushLog.slots log) := by
      by_cases hcode : category = .codeCache
      · subst hcode
        obtain ⟨hepoch, s₃, log', hrun, hperm⟩ := rescan_code hsound room' hcycles hmore completed
        rw [hperm.length_eq, hself.count _ n rfl rfl] at hrun
        exact ⟨hepoch, s₃, log', hrun, hperm⟩
      · obtain ⟨hepoch, hreport⟩ := rescan_alike walks hsound still room room' hcode hfilter hcycles hmore
        rw [completed] at hepoch hreport
        exact ⟨hepoch, _, _, Act.run_eq_ok hreport.outcome.symm, .of_eq hreport.slots.symm⟩
    obtain ⟨hepoch, s₃, log', hrun, hperm⟩ := hagain
    have hself' := sameReport_scan (b := b) room' room' s₁.nextCycle category
    rw [hrun] at hself'
    refine ⟨s₁.nextCycle, s₃, log', ?_, hrun, hperm, hself.count _ n rfl rfl, List.forall_mem_map.2 hself.short,
      List.forall_mem_map.2 hself'.short⟩
    rw [run_beginCycle (hepoch ▸ hmore), hepoch]
  · have hreport := sameReport_scan (b := b) room room' s category
    exact ⟨hreport.outcome, hreport.state, hreport.slots⟩

theorem HostRoots.repeats (roots : HostRoots) (options : Options) : (roots.binding options).Repeats fun _ => True where
  stack _ := .pure _
  code _ := .pure _
  globals _ := .pure _
  strings _ := .pure _
  loaders _ := .pure _
  weak _ := .pure _

/-- Blobs out of the nursery, reported one by one, and again in one batch when they are mature. -/
theorem blobs_reported_again :
    let b := twoThreads.binding {}
    let s := twoMutators [(⟨8⟩, [⟨0x8000⟩]), (⟨7⟩, [⟨0x7000⟩, ⟨0x7008⟩])]
    ∃ s₁ log s₂ s₃ log', (b.scan (.collecting 1) .codeCache).run (s.begun, []) = (.ok (.ok 3), s₁, log) ∧
      (Act.within State.codePlace CodeTable.beginCycle).run s₁ = (.ok 2, s₂) ∧
      (b.scan (.collecting 4096) .codeCache).run (s₂, []) = (.ok (.ok 3), s₃, log') ∧
      (FlushLog.slots log').Perm [⟨0x7000⟩, ⟨0x7008⟩, ⟨0x8000⟩] := by
  intro b s
  have hfirst : ((b.scan (.collecting 1) .codeCache).run (s.begun, [])).1 = .ok (.ok 3) := by decide +kernel
  have hslots : FlushLog.slots ((b.scan (.collecting 1) .codeCache).run (s.begun, [])).2.2 =
      [⟨0x7000⟩, ⟨0x7008⟩, ⟨0x8000⟩] := by decide +kernel
  have hbegun : (Act.within State.codePlace CodeTable.beginCycle).run s = (.ok 1, s.begun) := rfl
  have hone : 1 ≤ EdgeBuffer.maxCapacity := by decide
  have hmany : 4096 ≤ EdgeBuffer.maxCapacity := by decide
  obtain ⟨hagain, -⟩ := scans_stable_across_buffers (b := b) hone hmany s .codeCache
  obtain ⟨s₂, s₃, log', hbegin, hrun, hperm, -⟩ := hagain (fun _ => True) (twoThreads.repeats {})
    (twoMutators_reached _) trivial (by simp) 1 s.begun 3 _ _ hbegun (Act.run_eq_ok hfirst) (by decide)
  exact ⟨_, _, s₂, s₃, log', Act.run_eq_ok hfirst, hbegin, hrun, hperm.trans (.of_eq hslots)⟩

/-- A buffer that cannot be allocated ends the scan. -/
theorem huge_buffer_refused :
    let b := twoThreads.binding {}
    let s := (twoMutators [(⟨7⟩, [⟨0x7000⟩])]).begun
    let huge := EdgeBuffer.maxCapacity + 1
    let first := (b.scan (.collecting 4) (.global .universe)).run (s, [])
    (b.scan (.collecting 4) (.global .universe)).faultOf (s, []) = none ∧ FlushLog.slots first.2.2 = [⟨0x3000⟩] ∧
      (b.scan (.collecting huge) (.global .universe)).faultOf (first.2.1.begun, []) = some (.panic .capacityOverflow) ∧
      (b.scan (.collecting huge) (.global .universe)).faultOf (s, []) = some (.panic .capacityOverflow) := by
  decide +kernel

end Safepoint.Binding
