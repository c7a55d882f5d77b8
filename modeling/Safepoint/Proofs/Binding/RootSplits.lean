import Safepoint.Proofs.Binding.ScanOrder

/-!
# The strong roots, split either way

A collector takes the stacks of all threads as one category of roots, or as one job for each
mutator. Either way, and in whatever order the jobs are done, the same slots are reported.
-/
namespace Safepoint.Binding

variable {μ ε : Type} {b : Binding μ ε} {roots : HostRoots}

/-- Two ways to split a scan of the strong roots, and the order in which the jobs are done. -/
def Splits (b : Binding μ ε) (registry : Registry μ) (jobs : List RootJob) : Prop :=
  jobs.Perm b.jobsByCategory ∨ jobs.Perm (b.jobsByMutator registry)

theorem strong_eq (b : Binding μ ε) :
    RootCategory.strong b.options.weakProcessing = .threadStacks :: b.sharedCategories := by
  unfold sharedCategories
  cases b.options.weakProcessing <;> rfl

namespace Splits

variable {jobs : List RootJob} {registry : Registry μ}

theorem category_mem (h : b.Splits registry jobs) {category : RootCategory} (hc : category ∈ b.sharedCategories) :
    .category category ∈ jobs := by
  obtain h | h := h
  · rw [h.mem_iff, jobsByCategory, strong_eq]
    exact List.mem_map_of_mem (List.mem_cons_of_mem _ hc)
  · rw [h.mem_iff, jobsByMutator]
    exact List.mem_append_right _ (List.mem_map_of_mem hc)

theorem mutator_mem (h : b.Splits registry jobs) {id : MutatorId} (hid : .mutator id ∈ jobs) :
    id ∈ registry.mutatorIds := by
  obtain h | h := h
  · simp [h.mem_iff, jobsByCategory] at hid
  · simpa [h.mem_iff, jobsByMutator] using hid

theorem ownSlots (h : b.Splits registry jobs) : (jobs.flatMap (b.ownSlots roots registry)).Perm
    (b.jobsByCategory.flatMap (b.ownSlots roots registry)) := by
  obtain h | h := h
  · exact h.flatMap_right _
  · refine (h.flatMap_right _).trans (.of_eq ?_)
    simp [jobsByMutator, jobsByCategory, strong_eq, Binding.ownSlots, List.flatMap_map]

theorem exhausts (h : b.Splits registry jobs) (t : Tables μ) : b.Exhausted (b.jobsEffect roots t jobs).2 := by
  refine exhausted_jobsEffect (.inr (h.category_mem ?_)) fun hfilter => .inr (h.category_mem ?_)
  · unfold sharedCategories
    cases b.options.weakProcessing <;> decide
  · unfold sharedCategories
    unfold defaultFilter at hfilter
    cases hmode : b.options.weakProcessing with
    | tracing => simp [hmode, LiveFilter.ofMode] at hfilter
    | referenceCounting => decide

end Splits

/-- What a scan of the strong roots reports: what the walks find, all blobs, and the weak handles that are roots. -/
def rootSlots (b : Binding μ ε) (roots : HostRoots) (s : State μ ε) : List Slot :=
  b.jobsByCategory.flatMap (b.ownSlots roots s.registry) ++ (s.codeTable.slots ++ b.waiting s.tables)

/-- What was scanned to the end has no roots in its tables that were not there before. -/
theorem rootSlots_finished {s s' : State μ ε} (epoch : UInt64)
    (h : s'.tables = b.finished { s.tables with code := { s.codeTable with epoch } }) :
    b.rootSlots roots s' ⊆ b.rootSlots roots s := by
  have hregistry : s'.registry = s.registry := congrArg Tables.registry h
  have hcode : s'.codeTable = CodeTable.scanned { s.codeTable with epoch } := congrArg Tables.code h
  have hslots : s'.codeTable.slots ⊆ s.codeTable.slots := by
    rw [hcode]
    exact CodeTable.slots_scanned _
  have hwaiting : b.waiting s'.tables ⊆ b.waiting s.tables := by
    rw [h]
    unfold waiting finished
    split <;> simp [WeakHandles.takeNursery]
  unfold rootSlots
  rw [hregistry]
  intro slot hslot
  simp only [List.mem_append] at hslot ⊢
  exact hslot.imp_right (Or.imp (@hslots slot) (@hwaiting slot))

/-- The walks of the host find what they found, and `slot` perhaps. -/
structure HostRoots.Widened (roots wider : HostRoots) (slot : Slot) : Prop where
  stack : ∀ id, wider.stack id ⊆ slot :: roots.stack id
  globals : ∀ table, wider.globals table ⊆ slot :: roots.globals table
  strings : ∀ filter, wider.strings filter ⊆ slot :: roots.strings filter
  loaders : ∀ policy, ∀ edge ∈ wider.loaders policy, edge ∈ roots.loaders policy ∨ edge.slot = slot
  weak : ∀ filter, wider.weak filter ⊆ slot :: roots.weak filter

namespace HostRoots.Widened

variable {wider : HostRoots} {slot : Slot} (h : roots.Widened wider slot)
include h

theorem edgeSlots (policy : LoaderScan) (weak : Bool) :
    edgeSlots weak (wider.loaders policy) ⊆ slot :: Binding.edgeSlots weak (roots.loaders policy) := by
  intro other hother
  obtain ⟨edge, hedge, rfl⟩ := List.mem_map.1 hother
  obtain ⟨hmem, hweak⟩ := List.mem_filter.1 hedge
  obtain hold | hnew := h.loaders policy edge hmem
  · exact List.mem_cons_of_mem _ (List.mem_map_of_mem (List.mem_filter.2 ⟨hold, hweak⟩))
  · exact List.mem_cons.2 (.inl hnew)

theorem slots (policy : LoaderScan) :
    (wider.loaders policy).map LoaderEdge.slot ⊆ slot :: (roots.loaders policy).map LoaderEdge.slot := by
  intro other hother
  obtain ⟨edge, hmem, rfl⟩ := List.mem_map.1 hother
  obtain hold | hnew := h.loaders policy edge hmem
  · exact List.mem_cons_of_mem _ (List.mem_map_of_mem hold)
  · exact List.mem_cons.2 (.inl hnew)

theorem ownSlots (registry : Registry μ) (job : RootJob) :
    b.ownSlots wider registry job ⊆ slot :: b.ownSlots roots registry job := by
  cases job with
  | mutator id => exact h.stack id
  | category category =>
    cases category with
    | threadStacks =>
      intro other hother
      obtain ⟨id, hid, hmem⟩ := List.mem_flatMap.1 hother
      obtain hnew | hold := List.mem_cons.1 (h.stack id hmem)
      · exact List.mem_cons.2 (.inl hnew)
      · exact List.mem_cons_of_mem _ (List.mem_flatMap.2 ⟨id, hid, hold⟩)
    | global table => exact h.globals table
    | codeCache => exact List.nil_subset _
    | stringTable => exact h.strings _
    | classLoaderGraph =>
      rw [Binding.ownSlots, Binding.ownSlots]
      cases b.options.classUnloading with
      | true => exact h.edgeSlots _ false
      | false => exact h.slots _
    | weakProcessor => exact h.weak _

theorem rootSlots (s : State μ ε) : b.rootSlots wider s ⊆ slot :: b.rootSlots roots s := by
  intro other hother
  unfold Binding.rootSlots at hother ⊢
  obtain hown | htables := List.mem_append.1 hother
  · obtain ⟨job, hjob, hmem⟩ := List.mem_flatMap.1 hown
    obtain hnew | hold := List.mem_cons.1 (h.ownSlots s.registry job hmem)
    · exact List.mem_cons.2 (.inl hnew)
    · exact List.mem_cons_of_mem _ (List.mem_append_left _ (List.mem_flatMap.2 ⟨job, hjob, hold⟩))
  · exact List.mem_cons_of_mem _ (List.mem_append_right _ htables)

end HostRoots.Widened

/-- The walks of the host find no slot twice, and none that a blob or a weak handle has. -/
structure Apart (b : Binding μ ε) (roots : HostRoots) (s : State μ ε) : Prop where
  walks : (b.jobsByCategory.flatMap (b.ownSlots roots s.registry)).Nodup
  /-- Edges count that are not reported. -/
  loaders : (b.loaderSlots roots).Nodup
  code : ∀ job ∈ b.jobsByCategory, ∀ slot ∈ b.ownSlots roots s.registry job, slot ∉ s.codeTable.slots
  weak : ∀ job ∈ b.jobsByCategory, ∀ slot ∈ b.ownSlots roots s.registry job, slot ∉ s.weakHandles.nursery

namespace Apart

variable {s : State μ ε}

theorem nodup (h : b.Apart roots s) {more : List Slot} (hmore : more.Nodup)
    (hapart : ∀ job ∈ b.jobsByCategory, ∀ slot ∈ b.ownSlots roots s.registry job, slot ∉ more) :
    (b.jobsByCategory.flatMap (b.ownSlots roots s.registry) ++ more).Nodup := by
  refine List.nodup_append.2 ⟨h.walks, hmore, fun slot hslot other hother => ?_⟩
  obtain ⟨job, hjob, hown⟩ := List.mem_flatMap.1 hslot
  rintro rfl
  exact hapart job hjob slot hown hother

theorem fits (h : b.Apart roots s) (hblobs : s.codeTable.slots.Nodup)
    (hfree : s.codeTable.freeSlots = s.codeTable.slots) (hweak : s.weakHandles.Sound) {jobs : List RootJob}
    (hsplit : b.Splits s.registry jobs) {job : RootJob} (hjob : job ∈ jobs) : b.Fits roots s.tables job := by
  have hroom {more : List Slot}
      (hmore : (b.jobsByCategory.flatMap (b.ownSlots roots s.registry) ++ more).Nodup) :
      (b.ownSlots roots s.registry job ++ more).Nodup := by
    have hall : (jobs.flatMap (b.ownSlots roots s.registry) ++ more).Nodup :=
      (hsplit.ownSlots.symm.append_right more).nodup hmore
    have hone : (b.ownSlots roots s.registry job).Sublist (jobs.flatMap (b.ownSlots roots s.registry)) :=
      List.sublist_flatten_of_mem (List.mem_map_of_mem hjob)
    exact hall.sublist (hone.append_right more)
  refine ⟨hroom ?_, hroom ?_⟩
  · change (_ ++ s.codeTable.freeSlots).Nodup
    rw [hfree]
    exact h.nodup hblobs h.code
  · unfold waiting
    split
    · exact h.nodup hweak.nodup h.weak
    · simpa using h.walks

end Apart

/-- What the jobs of mutators report, in the order in which they are done. -/
def stackReports (reports : List (RootJob × List Slot)) : List Slot :=
  (reports.filter (·.1.mutator?.isSome)).flatMap Prod.snd

theorem stackReports_append (reports more : List (RootJob × List Slot)) :
    stackReports (reports ++ more) = stackReports reports ++ stackReports more := by
  simp [stackReports]

theorem stackReports_nil {t : Tables μ} {jobs : List RootJob} (h : jobs.filterMap RootJob.mutator? = []) :
    stackReports (b.jobsEffect roots t jobs).1 = [] := by
  induction jobs generalizing t with
  | nil => rfl
  | cons job jobs ih =>
    cases job with
    | mutator id => simp [RootJob.mutator?] at h
    | category category => exact ih (by simpa [RootJob.mutator?] using h)

/-- Before the code table is scanned, threads claim code one by one as they claim it all at once. -/
theorem stackReports_jobsEffect {t : Tables μ} {jobs : List RootJob}
    (h : ∀ job ∈ jobs, job ≠ .category .codeCache ∧ job ≠ .category .threadStacks) :
    stackReports (b.jobsEffect roots t jobs).1 =
      (b.threadsSlots roots t.code (jobs.filterMap RootJob.mutator?)).1 := by
  induction jobs generalizing t with
  | nil => rfl
  | cons job jobs ih =>
    have hrest := ih (t := (b.jobEffect roots t job).2) fun other hother => h other (List.mem_cons_of_mem _ hother)
    cases job with
    | mutator id =>
      have hfirst : stackReports (b.jobsEffect roots t (.mutator id :: jobs)).1 =
          (b.threadSlots roots t.code id).1 ++
            stackReports (b.jobsEffect roots (b.jobEffect roots t (.mutator id)).2 jobs).1 := by
        simp [stackReports, jobsEffect, jobEffect, threadsSlots, RootJob.mutator?]
      rw [hfirst, hrest]
      rfl
    | category category =>
      have hcode : (b.jobEffect roots t (.category category)).2.code = t.code := by
        obtain ⟨hcache, hstacks⟩ := h _ (List.mem_cons_self ..)
        cases category with
        | threadStacks => exact absurd rfl hstacks
        | codeCache => exact absurd rfl hcache
        | weakProcessor =>
          simp only [jobEffect]
          split <;> rfl
        | global | stringTable | classLoaderGraph => rfl
      rw [hcode] at hrest
      exact hrest

theorem threadStacks_not_mem (b : Binding μ ε) (registry : Registry μ) :
    .category .threadStacks ∉ b.jobsByMutator registry := by simp [jobsByMutator, sharedCategories]

theorem nodup_jobsByMutator (b : Binding μ ε) {registry : Registry μ} (h : registry.Sound) :
    (b.jobsByMutator registry).Nodup := by
  have hshared : b.sharedCategories.Nodup := by
    unfold sharedCategories
    cases b.options.weakProcessing <;> decide
  refine List.nodup_append.2 ⟨?_, ?_, ?_⟩
  · exact List.Pairwise.map _ (fun _ _ hne heq => hne (RootJob.mutator.inj heq)) h.nodup
  · exact List.Pairwise.map _ (fun _ _ hne heq => hne (RootJob.category.inj heq)) hshared
  · intro job hjob other hother
    obtain ⟨id, -, rfl⟩ := List.mem_map.1 hjob
    obtain ⟨category, -, rfl⟩ := List.mem_map.1 hother
    simp

theorem filterMap_jobsByMutator (b : Binding μ ε) (registry : Registry μ) :
    (b.jobsByMutator registry).filterMap RootJob.mutator? = registry.mutatorIds := by
  simp [jobsByMutator, List.filterMap_append, List.filterMap_map, Function.comp_def, RootJob.mutator?]

/-- With all mutators before the code table, in the order in which they were given their ids, their jobs report
what the scan of all stacks does. -/
theorem stackReports_in_turn {t : Tables μ} (hregistry : t.registry.Sound) {before after : List RootJob}
    (hsplit : (before ++ .category .codeCache :: after).Perm (b.jobsByMutator t.registry))
    (hturn : before.filterMap RootJob.mutator? = t.registry.mutatorIds) :
    stackReports (b.jobsEffect roots t (before ++ .category .codeCache :: after)).1 =
      (b.jobEffect roots t (.category .threadStacks)).1 := by
  have hnodup := hsplit.symm.nodup (nodup_jobsByMutator b hregistry)
  have hbefore : ∀ job ∈ before, job ≠ .category .codeCache ∧ job ≠ .category .threadStacks := by
    intro job hjob
    constructor
    · exact (List.nodup_append.1 hnodup).2.2 job hjob _ (List.mem_cons_self ..)
    · rintro rfl
      exact threadStacks_not_mem b t.registry (hsplit.mem_iff.1 (List.mem_append_left _ hjob))
  have hafter : after.filterMap RootJob.mutator? = [] := by
    have hlength := (hsplit.filterMap RootJob.mutator?).length_eq
    rw [filterMap_jobsByMutator, List.filterMap_append, hturn, List.length_append] at hlength
    exact List.eq_nil_of_length_eq_zero (by simpa [RootJob.mutator?] using hlength)
  rw [jobsEffect_append, stackReports_append, stackReports_jobsEffect hbefore, hturn,
    stackReports_nil (by simpa [RootJob.mutator?] using hafter), List.append_nil]
  rfl

/-- When a cycle begins, the tables are in order and every blob is free. -/
theorem begun_sound {s s₀ : State μ ε} {cycle : UInt64} (h : s.Reached)
    (begun : (Act.within State.codePlace CodeTable.beginCycle).run s = (.ok cycle, s₀)) :
    s₀.registry.Sound ∧ s₀.codeTable.Sound ∧ s₀.weakHandles.Sound ∧ s₀.codeTable.freeSlots = s₀.codeTable.slots := by
  obtain ⟨hregistry, hcode, hweak⟩ := h.sound
  by_cases hzero : s.codeTable.epoch + 1 = 0
  · simp [State.codePlace, CodeTable.run_beginCycle, hzero] at begun
  · obtain ⟨-, rfl⟩ : _ ∧ { s with codeTable := { s.codeTable with epoch := s.codeTable.epoch + 1 } } = s₀ := by
      simpa [State.codePlace, CodeTable.run_beginCycle, hzero] using begun
    have hlt := toNat_add_one_lt hzero
    exact ⟨hregistry, hcode.beginCycle hlt, hweak, CodeTable.freeSlots_begun hcode hlt⟩

/-- From a cycle's beginning on, all jobs together report each strong root once and leave the same tables, however
the stacks are split and whichever job comes first. -/
theorem strong_roots_in_any_order {steady : Machine ε → Prop} {s s₀ : State μ ε} {cycle : UInt64}
    {jobs : List RootJob} (room : b.options.rootBufferCapacity ≤ EdgeBuffer.maxCapacity)
    (walks : roots.Of b.host steady) (reached : s.Reached)
    (begun : (Act.within State.codePlace CodeTable.beginCycle).run s = (.ok cycle, s₀))
    (still : steady s₀.machine) (apart : b.Apart roots s₀) (blobs : s₀.codeTable.slots.Nodup)
    (split : b.Splits s₀.registry jobs) :
    ∃ reports s', (b.runJobs jobs).run s₀ = (.ok reports, s') ∧
      (reports.flatMap Prod.snd).Perm (b.rootSlots roots s₀) ∧ s'.tables = b.finished s₀.tables ∧
      ∀ before after, jobs = before ++ .category .codeCache :: after → jobs.Perm (b.jobsByMutator s₀.registry) →
        before.filterMap RootJob.mutator? = s₀.registry.mutatorIds →
        ∃ s₁, (b.runJob (.category .threadStacks)).run s₀ = (.ok (stackReports reports), s₁) := by
  obtain ⟨hregistry, hcode, hweak, hfree⟩ := begun_sound reached begun
  obtain ⟨hperm, hfinished, -⟩ := passes_jobsEffect (t := s₀.tables) b roots hcode jobs
  have hexhausted : b.Exhausted (b.jobsEffect roots s₀.tables jobs).2 := split.exhausts s₀.tables
  obtain ⟨s', hrun, -, htables⟩ := run_jobs room walks apart.loaders still rfl hregistry hcode
    (fun id hid => split.mutator_mem hid) (fun job hjob => apart.fits blobs hfree hweak split hjob)
  refine ⟨_, s', hrun, ?_, ?_, ?_⟩
  · rw [hexhausted.freeSlots, hexhausted.waiting, List.append_nil, List.append_nil] at hperm
    refine hperm.trans ?_
    change (_ ++ (s₀.codeTable.freeSlots ++ _)).Perm _
    rw [hfree]
    exact split.ownSlots.append_right _
  · rw [htables, ← hexhausted.finished, hfinished]
  · rintro before after rfl hsplit hturn
    have hstacks : b.Fits roots s₀.tables (.category .threadStacks) :=
      apart.fits blobs hfree hweak (.inl (.refl b.jobsByCategory)) (by simp [jobsByCategory, strong_eq])
    obtain ⟨s₁, hall, -⟩ := run_job room walks (.category .threadStacks) (fun id hid => hregistry.known hid)
      (by simp) still rfl apart.loaders (hstacks.nodup hcode)
    rw [stackReports_in_turn hregistry hsplit hturn]
    exact ⟨s₁, hall⟩

/-- A host that gives its roots and does nothing else. -/
def HostRoots.host {ε : Type} (roots : HostRoots) : Host ε where
  suspendAll _ := pure ()
  resumeAll _ := pure ()
  enterSafeRegion _ := pure ()
  leaveSafeRegion _ := pure ()
  spawnThread _ _ := pure false
  threadStack id := pure (roots.stack id)
  threadCode id := pure (roots.code id)
  globals table := pure (roots.globals table)
  stringTable filter := pure (roots.strings filter)
  classLoaderGraph policy := pure (roots.loaders policy)
  weakProcessor filter := pure (roots.weak filter)
  scanObject _ := pure []
  objectSize _ _ := 0
  dumpObject _ _ := ""
  className _ _ := none
  hook _ _ := pure ()
  scheduleFinalizer := pure ()
  unloadClasses _ := pure ()
  swapPending _ := pure none

theorem HostRoots.of_host {ε : Type} (roots : HostRoots) : roots.Of (roots.host : Host ε) fun _ => True :=
  ⟨fun _ m _ => ⟨m, rfl, trivial⟩, fun _ m _ => ⟨m, rfl, trivial⟩, fun _ m _ => ⟨m, rfl, trivial⟩,
    fun _ m _ => ⟨m, rfl, trivial⟩, fun _ m _ => ⟨m, rfl, trivial⟩, fun _ m _ => ⟨m, rfl, trivial⟩⟩

/-- A binding of such a host to a collector that does nothing. -/
def HostRoots.binding (roots : HostRoots) (options : Options) : Binding Unit Unit where
  options
  layout := ⟨16, 24, 8, 8, 24, 16, 0⟩
  codec := .identity
  host := roots.host
  engine :=
    { bind := fun _ => pure ()
      writePre := fun _ => pure ()
      writePost := fun _ => pure ()
      copyPre := fun _ => pure ()
      copyPost := fun _ => pure ()
      requestCollection := fun _ => pure ()
      isLive := fun _ _ => true }

/-- Two threads share a blob of code, one of them has another to itself, and a third is on no stack. -/
def twoThreads : HostRoots where
  stack id := if id = ⟨1⟩ then [⟨0x1000⟩, ⟨0x1008⟩] else [⟨0x2000⟩]
  code id := if id = ⟨1⟩ then [⟨7⟩] else [⟨8⟩, ⟨7⟩]
  globals table := if table = .universe then [⟨0x3000⟩] else []
  strings _ := [⟨0x4000⟩]
  loaders _ := [⟨false, ⟨0x5000⟩⟩, ⟨true, ⟨0x5008⟩⟩]
  weak _ := [⟨0x6000⟩]

/-- A binding that has registered two mutators, blobs of code and a weak handle. -/
def twoMutators (blobs : List (CodeId × List Slot)) : State Unit Unit where
  machine := ⟨.zero, ()⟩
  registry := (((({} : Registry Unit).addId ⟨⟨1⟩, ⟨"a"⟩, none⟩ ()).addThread ⟨⟨1⟩, ⟨"a"⟩, none⟩).addId
    ⟨⟨2⟩, ⟨"b"⟩, none⟩ ()).addThread ⟨⟨2⟩, ⟨"b"⟩, none⟩
  codeTable := blobs.foldl (fun table blob => table.register blob.1 blob.2) {}
  weakHandles := ({} : WeakHandles).register ⟨0x6008⟩

theorem twoMutators_reached (blobs : List (CodeId × List Slot)) : (twoMutators blobs).Reached := by
  have hmutators : ({ (twoMutators []) with weakHandles := {} } : State Unit Unit).Reached :=
    .mutator (.mutator (.fresh ⟨.zero, ()⟩) _ _) _ _
  have hblobs (table : CodeTable) (h : ({ (twoMutators []) with codeTable := table } : State Unit Unit).Reached) :
      ({ (twoMutators []) with codeTable := blobs.foldl (fun table blob => table.register blob.1 blob.2) table } :
        State Unit Unit).Reached := by
    induction blobs generalizing table with
    | nil => exact h
    | cons blob blobs ih => exact ih _ (.code h (.register blob.1 blob.2) (fun _ => pure ()) () (by simp))
  exact hblobs {} (.handle hmutators ⟨0x6008⟩)

/-- The state in which a first cycle begins. -/
def State.begun (s : State Unit Unit) : State Unit Unit :=
  ((Act.within State.codePlace CodeTable.beginCycle).run s).2

/-- Under reference counting, with the threads in turn before the code table. -/
theorem shared_blob_reported_once :
    let b := twoThreads.binding { barrier := .field, weakProcessing := .referenceCounting }
    let s := (twoMutators [(⟨7⟩, [⟨0x7000⟩, ⟨0x7008⟩]), (⟨8⟩, [⟨0x8000⟩]), (⟨9⟩, [⟨0x9000⟩])]).begun
    ∃ reports s', (b.runJobs (b.jobsByMutator s.registry)).run s = (.ok reports, s') ∧
      (reports.flatMap Prod.snd).Perm [⟨0x1000⟩, ⟨0x1008⟩, ⟨0x2000⟩, ⟨0x3000⟩, ⟨0x4000⟩, ⟨0x5000⟩, ⟨0x6000⟩,
        ⟨0x7000⟩, ⟨0x7008⟩, ⟨0x8000⟩, ⟨0x9000⟩, ⟨0x6008⟩] ∧
      ∃ s₁, (b.runJob (.category .threadStacks)).run s = (.ok (stackReports reports), s₁) := by
  intro b s
  have hbegun : (Act.within State.codePlace CodeTable.beginCycle).run
      (twoMutators [(⟨7⟩, [⟨0x7000⟩, ⟨0x7008⟩]), (⟨8⟩, [⟨0x8000⟩]), (⟨9⟩, [⟨0x9000⟩])]) = (.ok 1, s) := rfl
  have hapart : b.Apart twoThreads s := by
    refine ⟨?_, ?_, ?_, ?_⟩ <;> decide +kernel
  obtain ⟨reports, s', hrun, hperm, -, hturn⟩ := strong_roots_in_any_order (by decide) twoThreads.of_host
    (twoMutators_reached _) hbegun trivial hapart (by decide +kernel) (.inr (.refl (b.jobsByMutator s.registry)))
  refine ⟨reports, s', hrun, hperm.trans (.of_eq (by decide +kernel)), ?_⟩
  exact hturn ([.mutator ⟨1⟩, .mutator ⟨2⟩] ++ GlobalRoots.all.map fun table => .category (.global table))
    [.category .stringTable, .category .classLoaderGraph, .category .weakProcessor] (by decide +kernel) (.refl _)
    (by decide +kernel)

/-- Where two blobs share a slot, the order of the jobs decides whether they return. Where a buffer cannot be as
large as the options say, no job does. -/
theorem shared_slot_depends_on_order :
    let b := twoThreads.binding {}
    let s := (twoMutators [(⟨7⟩, [⟨0x7000⟩]), (⟨9⟩, [⟨0x7000⟩])]).begun
    let others := (b.jobsByMutator s.registry).erase (.category .codeCache)
    let large := twoThreads.binding { rootBufferCapacity := EdgeBuffer.maxCapacity + 1 }
    (b.Apart twoThreads s ∧
      b.Splits s.registry (others ++ [.category .codeCache]) ∧ b.Splits s.registry (.category .codeCache :: others) ∧
      (∃ reports s', (b.runJobs (others ++ [.category .codeCache])).run s = (.ok reports, s')) ∧
      ∃ s', (b.runJobs (.category .codeCache :: others)).run s = (.error (.panic (.repeatedSlot ⟨0x7000⟩)), s')) ∧
    large.Apart twoThreads (twoMutators []).begun ∧
      ∃ s', (large.runJobs large.jobsByCategory).run (twoMutators []).begun =
        (.error (.panic .capacityOverflow), s') := by
  intro b s others large
  have hcache : .category .codeCache ∈ b.jobsByMutator s.registry := by decide +kernel
  have hsplit : b.Splits s.registry (.category .codeCache :: others) := .inr (List.perm_cons_erase hcache).symm
  refine ⟨⟨?_, ?_, hsplit, Act.exists_run_eq_ok ?_, Act.exists_run_eq_error ?_⟩, ?_, Act.exists_run_eq_error ?_⟩
  · refine ⟨?_, ?_, ?_, ?_⟩ <;> decide +kernel
  · exact .inr (List.perm_append_comm.trans (List.perm_cons_erase hcache).symm)
  · decide +kernel
  · decide +kernel
  · refine ⟨?_, ?_, ?_, ?_⟩ <;> decide +kernel
  · decide +kernel

end Safepoint.Binding
