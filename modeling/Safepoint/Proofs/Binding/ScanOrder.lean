import Safepoint.Proofs.Binding.RootJobs

/-!
# Root scans in any order

Which job reports a blob of code depends on the order, for threads and the scan of the code table
compete for it. All jobs together report the same slots in every order, and leave the same tables.
-/
namespace Safepoint.Binding

variable {μ ε : Type} (b : Binding μ ε) (roots : HostRoots)

/-- The weak handles that are roots. -/
def waiting (t : Tables μ) : List Slot := if b.defaultFilter = .nonStuckOnly then t.weak.nursery else []

/-- What all jobs leave. -/
def finished (t : Tables μ) : Tables μ :=
  { t with
    code := t.code.scanned
    weak := if b.defaultFilter = .nonStuckOnly then t.weak.takeNursery.2 else t.weak }

variable {b roots} {t : Tables μ}

theorem threadsSlots_spec (b : Binding μ ε) (roots : HostRoots) {table : CodeTable} (h : table.Sound)
    (ids : List MutatorId) :
    ∃ blobs, (b.threadsSlots roots table ids).1.Perm (ids.flatMap roots.stack ++ blobs) ∧
      (blobs ++ (b.threadsSlots roots table ids).2.freeSlots).Perm table.freeSlots ∧
      (b.threadsSlots roots table ids).2.scanned = table.scanned ∧ (b.threadsSlots roots table ids).2.Sound := by
  induction ids generalizing table with
  | nil => exact ⟨[], .refl _, .refl _, rfl, h⟩
  | cons id ids ih =>
    obtain ⟨hfree, hscan, hsound⟩ := CodeTable.claims_spec h (roots.code id)
    obtain ⟨blobs, hslots, hfree', hscan', hsound'⟩ := ih hsound
    have hfirst : (b.threadSlots roots table id).1.Perm (roots.stack id ++ (table.claims (roots.code id)).1) := by
      unfold threadSlots
      split
      · exact .refl _
      · exact List.perm_append_comm
    refine ⟨(table.claims (roots.code id)).1 ++ blobs, ?_, ?_, hscan'.trans hscan, hsound'⟩
    · simp only [threadsSlots, List.flatMap_cons]
      refine (hfirst.append hslots).trans ?_
      simp only [List.append_assoc]
      exact (List.perm_append_comm_assoc _ _ _).append_left _
    · rw [List.append_assoc]
      exact (hfree'.append_left _).trans hfree

theorem threadsSlots_settled {table : CodeTable} (h : table.Settled) (ids : List MutatorId) :
    (b.threadsSlots roots table ids).2 = table := by
  induction ids with
  | nil => rfl
  | cons id ids ih =>
    have hsame : (b.threadSlots roots table id).2 = table := by
      simp [threadSlots, CodeTable.claims_settled h]
    simp only [threadsSlots, hsame, ih]

/-- What a job takes from the tables, blobs or handles, is gone then. -/
structure Taking (b : Binding μ ε) (roots : HostRoots) (t : Tables μ) (job : RootJob) (blobs handles : List Slot) :
    Prop where
  slots : (b.jobEffect roots t job).1.Perm (b.ownSlots roots t.registry job ++ (blobs ++ handles))
  either : blobs = [] ∨ handles = []
  code : (blobs ++ (b.jobEffect roots t job).2.code.freeSlots).Perm t.code.freeSlots
  weak : handles ++ b.waiting (b.jobEffect roots t job).2 = b.waiting t
  finished : b.finished (b.jobEffect roots t job).2 = b.finished t
  sound : (b.jobEffect roots t job).2.code.Sound
  registry : (b.jobEffect roots t job).2.registry = t.registry

theorem taking_threads (job : RootJob) {ids : List MutatorId} (h : t.code.Sound)
    (hjob : b.jobEffect roots t job = ((b.threadsSlots roots t.code ids).1,
      { t with code := (b.threadsSlots roots t.code ids).2 }))
    (hown : b.ownSlots roots t.registry job = ids.flatMap roots.stack) :
    ∃ blobs, b.Taking roots t job blobs [] := by
  obtain ⟨blobs, hslots, hfree, hscan, hsound⟩ := threadsSlots_spec b roots h ids
  refine ⟨blobs, ?_, .inr rfl, ?_, ?_, ?_, ?_, ?_⟩ <;> rw [hjob]
  · rw [hown, List.append_nil]
    exact hslots
  · exact hfree
  · rfl
  · simp [Binding.finished, hscan]
  · exact hsound

theorem exists_taking (b : Binding μ ε) (roots : HostRoots) (h : t.code.Sound) (job : RootJob) :
    ∃ blobs handles, b.Taking roots t job blobs handles := by
  cases job with
  | mutator id =>
    obtain ⟨blobs, htaking⟩ := taking_threads (b := b) (.mutator id) h rfl (List.flatMap_singleton ..).symm
    exact ⟨blobs, [], htaking⟩
  | category category =>
    cases category with
    | threadStacks =>
      obtain ⟨blobs, htaking⟩ := taking_threads (b := b) (.category .threadStacks) h rfl rfl
      exact ⟨blobs, [], htaking⟩
    | codeCache =>
      refine ⟨t.code.freeSlots, [], ?_, .inr rfl, ?_, rfl, ?_, h.scanned, rfl⟩
      · simp [jobEffect, ownSlots]
      · simp [jobEffect, CodeTable.freeSlots, CodeTable.free_scanned]
      · have hsettled : t.code.scanned.scanned = t.code.scanned := CodeTable.settled_scanned t.code
        simp [jobEffect, finished, hsettled]
    | weakProcessor =>
      by_cases hfilter : b.defaultFilter = .nonStuckOnly
      · refine ⟨[], t.weak.nursery, ?_, .inl rfl, ?_, ?_, ?_, ?_, ?_⟩ <;>
          simp [jobEffect, ownSlots, waiting, finished, hfilter, WeakHandles.takeNursery, h]
      · refine ⟨[], [], ?_, .inl rfl, ?_, ?_, ?_, ?_, ?_⟩ <;>
          simp [jobEffect, ownSlots, waiting, finished, hfilter, h]
    | global | stringTable | classLoaderGraph =>
      exact ⟨[], [], by simp [jobEffect], .inl rfl, .refl _, rfl, rfl, h, rfl⟩

/-- Nothing is left in the tables for a scan of the strong roots to report. -/
structure Exhausted (b : Binding μ ε) (t : Tables μ) : Prop where
  code : t.code.Settled
  weak : b.defaultFilter = .nonStuckOnly → t.weak.nursery = []

theorem Exhausted.finished (h : b.Exhausted t) : b.finished t = t := by
  obtain ⟨registry, code, weak⟩ := t
  have hcode : code.scanned = code := h.code
  simp only [Binding.finished, hcode]
  split
  · rename_i hfilter
    have hnil : weak.nursery = [] := h.weak hfilter
    simp [WeakHandles.takeNursery, ← hnil]
  · rfl

theorem Exhausted.freeSlots (h : b.Exhausted t) : t.code.freeSlots = [] := by
  rw [CodeTable.freeSlots, h.code.free]
  rfl

theorem Exhausted.waiting (h : b.Exhausted t) : b.waiting t = [] := by
  unfold Binding.waiting
  split
  · exact h.weak ‹_›
  · rfl

theorem settled_jobEffect {job : RootJob} (h : t.code.Settled ∨ job = .category .codeCache) :
    (b.jobEffect roots t job).2.code.Settled := by
  cases job with
  | mutator id =>
    have hsettled := h.resolve_right (by simp)
    simp only [jobEffect, threadsSlots_settled hsettled]
    exact hsettled
  | category category =>
    cases category with
    | threadStacks =>
      have hsettled := h.resolve_right (by simp)
      simp only [jobEffect, threadsSlots_settled hsettled]
      exact hsettled
    | codeCache => exact CodeTable.settled_scanned t.code
    | weakProcessor =>
      have hsettled := h.resolve_right (by simp)
      simp only [jobEffect]
      split <;> exact hsettled
    | global | stringTable | classLoaderGraph => exact h.resolve_right (by simp)

theorem taken_jobEffect {job : RootJob} (hfilter : b.defaultFilter = .nonStuckOnly)
    (h : t.weak.nursery = [] ∨ job = .category .weakProcessor) : (b.jobEffect roots t job).2.weak.nursery = [] := by
  cases job with
  | mutator id => exact h.resolve_right (by simp)
  | category category =>
    cases category with
    | weakProcessor => simp [jobEffect, hfilter, WeakHandles.takeNursery]
    | threadStacks | codeCache | global | stringTable | classLoaderGraph => exact h.resolve_right (by simp)

/-- What jobs report, one after another, and the tables after them. -/
def jobsEffect (b : Binding μ ε) (roots : HostRoots) (t : Tables μ) :
    List RootJob → List (RootJob × List Slot) × Tables μ
  | [] => ([], t)
  | job :: jobs =>
    let first := b.jobEffect roots t job
    let others := jobsEffect b roots first.2 jobs
    ((job, first.1) :: others.1, others.2)

/-- A job that finds no slot twice, whatever blobs or handles it takes. -/
structure Fits (b : Binding μ ε) (roots : HostRoots) (t : Tables μ) (job : RootJob) : Prop where
  code : (b.ownSlots roots t.registry job ++ t.code.freeSlots).Nodup
  weak : (b.ownSlots roots t.registry job ++ b.waiting t).Nodup

/-- What a list has room for, it has room for after some of it is gone. -/
theorem nodup_append_of_perm {own taken left all : List Slot} (h : (own ++ all).Nodup)
    (hperm : (taken ++ left).Perm all) : (own ++ taken).Nodup ∧ (own ++ left).Nodup := by
  have hall : (own ++ (taken ++ left)).Nodup := (hperm.symm.append_left own).nodup h
  constructor
  · rw [← List.append_assoc] at hall
    exact (List.nodup_append.1 hall).1
  · exact hall.sublist ((List.sublist_append_right taken left).append_left own)

theorem Fits.nodup {job : RootJob} (hfit : b.Fits roots t job) (h : t.code.Sound) :
    (b.jobEffect roots t job).1.Nodup := by
  obtain ⟨blobs, handles, htaking⟩ := exists_taking b roots h job
  refine htaking.slots.symm.nodup ?_
  obtain rfl | rfl := htaking.either
  · exact (nodup_append_of_perm hfit.weak (.of_eq htaking.weak)).1
  · rw [List.append_nil]
    exact (nodup_append_of_perm hfit.code htaking.code).1

theorem Fits.next {job other : RootJob} (hfit : b.Fits roots t other) (h : t.code.Sound) :
    b.Fits roots (b.jobEffect roots t job).2 other := by
  obtain ⟨blobs, handles, htaking⟩ := exists_taking b roots h job
  constructor <;> rw [htaking.registry]
  · exact (nodup_append_of_perm hfit.code htaking.code).2
  · exact (nodup_append_of_perm hfit.weak (.of_eq htaking.weak)).2

theorem jobsEffect_append (t : Tables μ) (jobs more : List RootJob) :
    (b.jobsEffect roots t (jobs ++ more)).1 =
      (b.jobsEffect roots t jobs).1 ++ (b.jobsEffect roots (b.jobsEffect roots t jobs).2 more).1 := by
  induction jobs generalizing t with
  | nil => rfl
  | cons job jobs ih => simp [jobsEffect, ih]

section Passing

/-- Slots pass from the tables to what scans have shown. Those that are `due`, shown or to be shown, and those that the
tables have for whoever takes them, are the same slots before and after. -/
structure Passes (b : Binding μ ε) (t : Tables μ) (due : List Slot) (t' : Tables μ) (due' : List Slot) : Prop where
  slots : (due' ++ (t'.code.freeSlots ++ b.waiting t')).Perm (due ++ (t.code.freeSlots ++ b.waiting t))
  finished : b.finished t' = b.finished t
  sound : t'.code.Sound

variable {t₁ t₂ : Tables μ} {owed owed₁ owed₂ more more₂ : List Slot}

theorem Passes.refl (h : t.code.Sound) : b.Passes t owed t owed := ⟨.refl _, rfl, h⟩

theorem Passes.trans (h : b.Passes t owed t₁ owed₁) (h₁ : b.Passes t₁ owed₁ t₂ owed₂) : b.Passes t owed t₂ owed₂ :=
  ⟨h₁.slots.trans h.slots, h₁.finished.trans h.finished, h₁.sound⟩

/-- What other scans have shown and have to show is due as well. -/
theorem Passes.beside (h : b.Passes t owed t₁ owed₁) (before after : List Slot) :
    b.Passes t (before ++ owed ++ after) t₁ (before ++ owed₁ ++ after) where
  slots := by
    have hrest : (owed₁ ++ after ++ (t₁.code.freeSlots ++ b.waiting t₁)).Perm
        (owed ++ after ++ (t.code.freeSlots ++ b.waiting t)) := by
      rw [List.append_assoc, List.append_assoc]
      refine (List.perm_append_comm_assoc _ _ _).trans ((h.slots.append_left after).trans ?_)
      exact List.perm_append_comm_assoc _ _ _
    simpa only [List.append_assoc] using hrest.append_left before
  finished := h.finished
  sound := h.sound

/-- One after another, scans pass on what both have due. -/
theorem Passes.andThen (h : b.Passes t owed t₁ owed₁) (h₁ : b.Passes t₁ more t₂ more₂) :
    b.Passes t (owed ++ more) t₂ (owed₁ ++ more₂) := by
  have hfirst := h.beside [] more
  have hothers := h₁.beside owed₁ []
  rw [List.append_nil, List.append_nil] at hothers
  exact hfirst.trans hothers

theorem Passes.of_taking {job : RootJob} {blobs handles : List Slot} (h : b.Taking roots t job blobs handles) :
    b.Passes t (b.ownSlots roots t.registry job) (b.jobEffect roots t job).2 (b.jobEffect roots t job).1 where
  slots := by
    refine (h.slots.append_right _).trans ?_
    rw [List.append_assoc, ← h.weak, List.append_assoc]
    refine List.Perm.append_left _ ?_
    exact ((List.perm_append_comm_assoc handles _ _).append_left blobs).trans
      (by simpa only [List.append_assoc] using h.code.append_right _)
  finished := h.finished
  sound := h.sound

/-- Jobs one after another take slots from the tables. -/
theorem passes_jobsEffect (b : Binding μ ε) (roots : HostRoots) (h : t.code.Sound) (jobs : List RootJob) :
    b.Passes t (jobs.flatMap (b.ownSlots roots t.registry)) (b.jobsEffect roots t jobs).2
      ((b.jobsEffect roots t jobs).1.flatMap Prod.snd) := by
  induction jobs generalizing t with
  | nil => exact .refl h
  | cons job jobs ih =>
    obtain ⟨blobs, handles, htaking⟩ := exists_taking b roots h job
    have hothers := ih htaking.sound
    rw [htaking.registry] at hothers
    exact (Passes.of_taking htaking).andThen hothers

end Passing

theorem exhausted_jobsEffect {jobs : List RootJob} (hcode : t.code.Settled ∨ .category .codeCache ∈ jobs)
    (hweak : b.defaultFilter = .nonStuckOnly → t.weak.nursery = [] ∨ .category .weakProcessor ∈ jobs) :
    b.Exhausted (b.jobsEffect roots t jobs).2 := by
  induction jobs generalizing t with
  | nil => exact ⟨by simpa [jobsEffect] using hcode, by simpa [jobsEffect] using hweak⟩
  | cons job jobs ih =>
    refine ih ?_ fun hfilter => ?_
    · obtain hsettled | hmem := hcode
      · exact .inl (settled_jobEffect (.inl hsettled))
      · obtain hfirst | hrest := List.mem_cons.1 hmem
        · exact .inl (settled_jobEffect (.inr hfirst.symm))
        · exact .inr hrest
    · obtain hnil | hmem := hweak hfilter
      · exact .inl (taken_jobEffect hfilter (.inl hnil))
      · obtain hfirst | hrest := List.mem_cons.1 hmem
        · exact .inl (taken_jobEffect hfilter (.inr hfirst.symm))
        · exact .inr hrest

theorem registry_jobEffect (job : RootJob) : (b.jobEffect roots t job).2.registry = t.registry := by
  cases job with
  | mutator id => rfl
  | category category =>
    cases category with
    | weakProcessor =>
      unfold jobEffect
      dsimp only
      split <;> rfl
    | threadStacks | codeCache | global | stringTable | classLoaderGraph => rfl

/-- Jobs of which none reports a slot twice do what is read off the tables. -/
theorem run_jobs_of_nodup (room : b.options.rootBufferCapacity ≤ EdgeBuffer.maxCapacity) {steady : Machine ε → Prop}
    (hroots : roots.Of b.host steady) (hloaders : (b.loaderSlots roots).Nodup) {jobs : List RootJob} {s : State μ ε}
    (hm : steady s.machine) (ht : s.tables = t) (hregistry : t.registry.Sound)
    (hmutators : ∀ id, .mutator id ∈ jobs → id ∈ t.registry.mutatorIds)
    (hnew : ∀ report ∈ (b.jobsEffect roots t jobs).1, report.2.Nodup) :
    ∃ s', (b.runJobs jobs).run s = (.ok (b.jobsEffect roots t jobs).1, s') ∧ steady s'.machine ∧
      s'.tables = (b.jobsEffect roots t jobs).2 := by
  induction jobs generalizing s t with
  | nil => exact ⟨s, rfl, hm, ht⟩
  | cons job jobs ih =>
    subst ht
    have hmutator : ∀ id, job = .mutator id → id ∈ s.registry.mutatorIds := by
      rintro id rfl
      exact hmutators id (List.mem_cons_self ..)
    have hfirst : (b.jobEffect roots s.tables job).1.Nodup := hnew _ (List.mem_cons_self ..)
    obtain ⟨s₁, hrun, hm₁, ht₁⟩ :=
      run_job room hroots job (fun id hid => hregistry.known hid) hmutator hm rfl hloaders hfirst
    have hsame : (b.jobEffect roots s.tables job).2.registry = s.registry := registry_jobEffect job
    have hrest : ∀ id, .mutator id ∈ jobs → id ∈ (b.jobEffect roots s.tables job).2.registry.mutatorIds := by
      intro id hid
      rw [hsame]
      exact hmutators id (List.mem_cons_of_mem _ hid)
    obtain ⟨s', hothers, hm', ht'⟩ := ih hm₁ ht₁ (by rwa [hsame]) hrest
      fun report hreport => hnew report (List.mem_cons_of_mem _ hreport)
    refine ⟨s', ?_, hm', ht'⟩
    have htagged : ((job, ·) <$> b.runJob job).run s = (.ok (job, (b.jobEffect roots s.tables job).1), s₁) := by
      rw [Act.run_map, hrun]
      rfl
    rw [runJobs, List.mapM_cons, Act.run_bind_ok htagged]
    exact Act.run_bind_ok hothers

theorem Fits.nodup_jobsEffect (hcode : t.code.Sound) {jobs : List RootJob} (hfit : ∀ job ∈ jobs, b.Fits roots t job) :
    ∀ report ∈ (b.jobsEffect roots t jobs).1, report.2.Nodup := by
  induction jobs generalizing t with
  | nil => simp [jobsEffect]
  | cons job jobs ih =>
    obtain ⟨blobs, handles, htaking⟩ := exists_taking b roots hcode job
    intro report hreport
    obtain rfl | hreport := List.mem_cons.1 hreport
    · exact (hfit job (List.mem_cons_self ..)).nodup hcode
    · have hnext : ∀ other ∈ jobs, b.Fits roots (b.jobEffect roots t job).2 other :=
        fun other hother => (hfit other (List.mem_cons_of_mem _ hother)).next hcode
      exact ih htaking.sound hnext report hreport

/-- Jobs that find no slot twice, whatever others took, do what is read off the tables. -/
theorem run_jobs (room : b.options.rootBufferCapacity ≤ EdgeBuffer.maxCapacity) {steady : Machine ε → Prop}
    (hroots : roots.Of b.host steady) (hloaders : (b.loaderSlots roots).Nodup) {jobs : List RootJob} {s : State μ ε}
    (hm : steady s.machine) (ht : s.tables = t) (hregistry : t.registry.Sound) (hcode : t.code.Sound)
    (hmutators : ∀ id, .mutator id ∈ jobs → id ∈ t.registry.mutatorIds) (hfit : ∀ job ∈ jobs, b.Fits roots t job) :
    ∃ s', (b.runJobs jobs).run s = (.ok (b.jobsEffect roots t jobs).1, s') ∧ steady s'.machine ∧
      s'.tables = (b.jobsEffect roots t jobs).2 :=
  run_jobs_of_nodup room hroots hloaders hm ht hregistry hmutators (Fits.nodup_jobsEffect hcode hfit)

end Safepoint.Binding
