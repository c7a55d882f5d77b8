import Mathlib.Data.List.Forall2
import Safepoint.Proofs.Binding.ScanTurns

/-!
# Scans that take turns

Whatever turns they take, scans of which none finds a slot twice come to their ends, and what they report and leave is
read off the walks of the host and the tables. A scan nobody comes into is the scan of its category.
-/
namespace Safepoint.Binding

variable {μ ε τ : Type}

section Turns

variable (b : Binding μ ε) (sink : Sink τ) (start : τ)

/-- After a turn, what is left of a leg is what the leg would have done from there on. -/
theorem turn_whole (leg : Leg) :
    (do (← leg.turn b sink).forM (Leg.whole b sink)) = (leg.whole b sink : Scan μ ε τ Unit) := by
  cases leg with
  | stack id => simp [Leg.turn, Leg.whole]
  | code id => simp [Leg.turn, Leg.whole, visitThreadCode]
  | blob found => simp [Leg.turn, Leg.whole]

/-- The legs of a mutator are the scan of its stack. -/
theorem forM_legs (id : MutatorId) : (b.legs id).forM (Leg.whole b sink) = visitThread b sink id := by
  unfold legs visitThread
  split <;> simp [Leg.whole]

theorem run_walking (legs : List Leg) (reporter : Reporter τ) (s : State μ ε) :
    (b.finishJob sink start (.walking legs reporter)).run s =
      match (legs.forM (Leg.whole b sink)).run (s, reporter) with
      | (.ok (), s', reporter') => (.ok (.ok (.threadStacks, reporter'.close sink)), s')
      | (.error fault, s', _) => (.error fault, s') := rfl

/-- A scan of all stacks that is begun, and then done, is the scan of that category. -/
theorem openStacks_finishJob :
    (do b.finishJob sink start (← b.openStacks sink start)) = b.scanInto sink start .threadStacks := by
  funext s
  change (b.openStacks sink start >>= b.finishJob sink start).run s = (b.scanInto sink start .threadStacks).run s
  cases hfind : s.registry.mutatorIds.find? fun id => (s.registry.get id).isNone with
  | some missing =>
    have hopen : (b.openStacks sink start).run s = (.ok (.ended (.ok (.error (.unknownMutator missing)))), s) := by
      rw [openStacks, Act.run_bind_ok (Act.run_get _)]
      simp only [hfind]
      rfl
    have hscan : (b.scan sink .threadStacks).run (s, start) = (.ok (.error (.unknownMutator missing)), s, start) := by
      rw [scan, scanThreads, Act.run_bind_ok (Act.run_get _)]
      simp only [ThreadSelector.ids, hfind]
      rfl
    rw [Act.run_bind_ok hopen, run_scanInto, hscan]
    rfl
  | none =>
    have hscan : (b.scan sink .threadStacks).run (s, start) =
        (do return .ok (← reporting sink (s.registry.mutatorIds.forM (visitThread b sink))) :
          Act (State μ ε × τ) (Except Violation Nat)).run (s, start) := by
      rw [scan, scanThreads, Act.run_bind_ok (Act.run_get _)]
      simp only [ThreadSelector.ids, hfind]
    cases hstart : Reporter.start sink start with
    | error cause =>
      have hopen : (b.openStacks sink start).run s = (.ok (.ended (.error (.panic cause))), s) := by
        rw [openStacks, Act.run_bind_ok (Act.run_get _)]
        simp only [hfind, hstart]
        rfl
      have hreport : (reporting sink (s.registry.mutatorIds.forM (visitThread b sink))).run (s, start) =
          (.error (.panic cause), s, start) := by
        simp only [reporting, Act.run, hstart]
      rw [Act.run_bind_ok hopen, run_scanInto, hscan, Act.run_bind_error hreport]
      rfl
    | ok reporter =>
      have hopen : (b.openStacks sink start).run s =
          (.ok (.walking (s.registry.mutatorIds.flatMap b.legs) reporter), s) := by
        rw [openStacks, Act.run_bind_ok (Act.run_get _)]
        simp only [hfind, hstart]
        rfl
      have hlegs : (s.registry.mutatorIds.flatMap b.legs).forM (Leg.whole b sink) =
          s.registry.mutatorIds.forM (visitThread b sink) := by
        simp only [Act.forM_flatMap, forM_legs]
      rw [Act.run_bind_ok hopen, run_walking, run_scanInto, hscan, hlegs, Act.run_bind]
      simp only [reporting, Act.run, hstart]
      rcases s.registry.mutatorIds.forM (visitThread b sink) (s, reporter) with ⟨_ | _, s', reporter'⟩ <;> rfl

/-- A job into which nobody comes between two of its turns does what it would have done at once. -/
theorem advance_finishJob (job : ScanJob τ) :
    (do b.finishJob sink start (← b.advance sink start job)) = b.finishJob sink start job := by
  funext s
  change (b.advance sink start job >>= b.finishJob sink start).run s = (b.finishJob sink start job).run s
  cases job with
  | ahead category =>
    cases category with
    | threadStacks => exact congrFun (openStacks_finishJob b sink start) s
    | global | codeCache | stringTable | classLoaderGraph | weakProcessor => rfl
  | walking legs reporter =>
    cases legs with
    | nil => rfl
    | cons leg legs =>
      have hlegs : (leg :: legs).forM (Leg.whole b sink) =
          (do ((← leg.turn b sink) ++ legs).forM (Leg.whole b sink)) := by
        rw [List.forM_eq_forM, List.forM_cons, ← turn_whole]
        simp only [List.forM_eq_forM, List.forM_append, bind_assoc]
      rw [Act.run_bind, run_walking, hlegs, Act.run_bind]
      simp only [advance, Act.run]
      rcases leg.turn b sink (s, reporter) with ⟨_ | more, s', reporter'⟩ <;> rfl
  | ended outcome => rfl

end Turns

section Shown

variable {b : Binding μ ε} {roots : HostRoots} {t : Tables μ} {stage : ScanStage} {stages : List ScanStage}
  {place : Nat} {turns : List Nat}

/-- A turn takes back nothing that was shown. -/
theorem shown_stageTurn (b : Binding μ ε) (roots : HostRoots) (t : Tables μ) (stage : ScanStage) :
    stage.shown <+: (b.stageTurn roots t stage).1.shown := by
  cases stage with
  | ahead category => exact List.nil_prefix
  | walking legs shown =>
    cases legs with
    | nil => exact List.prefix_rfl
    | cons leg legs => exact List.prefix_append ..
  | ended category shown => exact List.prefix_rfl

theorem shown_stageWhole (b : Binding μ ε) (roots : HostRoots) (t : Tables μ) (stage : ScanStage) :
    stage.shown <+: (b.stageWhole roots t stage).1.2 := by
  cases stage with
  | ahead category => exact List.nil_prefix
  | walking legs shown => exact List.prefix_append ..
  | ended category shown => exact List.prefix_rfl

/-- If no scan has shown a slot twice after a turn, none had before. -/
theorem nodup_of_placeTurn (h : ∀ stage ∈ (b.placeTurn roots t place stages).1, stage.shown.Nodup) :
    ∀ stage ∈ stages, stage.shown.Nodup := by
  obtain hsame | ⟨before, stage, after, rfl, hturn⟩ := placeTurn_cases b roots t place stages
  · rwa [hsame] at h
  · rw [hturn] at h
    simp only [List.mem_append, List.mem_cons] at h ⊢
    rintro other (hbefore | rfl | hafter)
    · exact h other (.inl hbefore)
    · exact (h _ (.inr (.inl rfl))).sublist (shown_stageTurn b roots t other).sublist
    · exact h other (.inr (.inr hafter))

theorem nodup_of_placeTurns (h : ∀ stage ∈ (b.placeTurns roots t turns stages).1, stage.shown.Nodup) :
    ∀ stage ∈ stages, stage.shown.Nodup := by
  induction turns generalizing t stages with
  | nil => exact h
  | cons place turns ih => exact nodup_of_placeTurn (ih h)

/-- If no scan reports a slot twice in the end, none had shown a slot twice before. -/
theorem nodup_of_stagesWhole (h : ∀ report ∈ (b.stagesWhole roots t stages).1, report.2.Nodup) :
    ∀ stage ∈ stages, stage.shown.Nodup := by
  induction stages generalizing t with
  | nil => simp
  | cons stage stages ih =>
    intro other hother
    obtain rfl | hother := List.mem_cons.1 hother
    · exact (h _ (List.mem_cons_self ..)).sublist (shown_stageWhole b roots t other).sublist
    · exact ih (fun report hreport => h report (List.mem_cons_of_mem _ hreport)) other hother

end Shown

section Runs

variable {b : Binding μ ε} {roots : HostRoots} {steady : Machine ε → Prop} {s : State μ ε} {t : Tables μ}

/-- A job stands where its scan is said to have come to. -/
inductive Stands : ScanJob FlushLog → ScanStage → Prop
  | ahead (category : RootCategory) : Stands (.ahead category) (.ahead category)
  | walking {legs : List Leg} {reporter : Reporter FlushLog} {shown : List Slot} (holds : reporter.Holds shown) :
      Stands (.walking legs reporter) (.walking legs shown)
  | ended (category : RootCategory) (log : FlushLog) :
      Stands (.ended (.ok (.ok (category, log)))) (.ended category log.slots)

theorem shows_whole (hroots : roots.Of b.host steady) (t : Tables μ) (leg : Leg) :
    Shows steady (leg.whole b b.packetSink) t (legWhole roots t.code leg).1
      { t with code := (legWhole roots t.code leg).2 } := by
  have hsink : b.packetSink.Empties := Sink.collecting_empties _
  cases leg with
  | stack id => exact shows_visitStack hsink hroots t id
  | code id => exact shows_visitThreadCode hsink hroots t id
  | blob found =>
    have hblob : Shows steady ([found].forM (visitBlob b.packetSink)) t _ _ := shows_visitBlobs hsink [found] t
    simpa [Leg.whole, legWhole, legTurn] using hblob

theorem shows_legsWhole (hroots : roots.Of b.host steady) (t : Tables μ) (legs : List Leg) :
    Shows steady (legs.forM (Leg.whole b b.packetSink)) t (legsWhole roots t.code legs).1
      { t with code := (legsWhole roots t.code legs).2 } := by
  induction legs generalizing t with
  | nil => exact .nothing
  | cons leg legs ih =>
    rw [List.forM_eq_forM, List.forM_cons]
    exact (shows_whole hroots t leg).andThen (ih _)

theorem run_legTurn (hroots : roots.Of b.host steady) (hm : steady s.machine) (ht : s.tables = t) (leg : Leg)
    {reporter : Reporter FlushLog} {shown : List Slot} (hr : reporter.Holds shown)
    (hnew : (shown ++ (legTurn roots t.code leg).1).Nodup) :
    ∃ (s' : State μ ε) (reporter' : Reporter FlushLog),
      (leg.turn b b.packetSink).run (s, reporter) = (.ok (legLeft roots leg), s', reporter') ∧ steady s'.machine ∧
      s'.tables = { t with code := (legTurn roots t.code leg).2 } ∧
      reporter'.Holds (shown ++ (legTurn roots t.code leg).1) := by
  cases leg with
  | code id =>
    obtain ⟨m, hwalk, hm'⟩ := hroots.code id s.machine hm
    refine ⟨{ s with machine := m }, reporter, ?_, hm', ht, by simpa [legTurn] using hr⟩
    exact Act.run_bind_ok (run_walk hwalk reporter)
  | stack id =>
    obtain ⟨s', reporter', hrun, h'⟩ := shows_whole hroots t (.stack id) s reporter shown hm ht hr hnew
    exact ⟨s', reporter', Act.run_bind_ok hrun, h'⟩
  | blob found =>
    obtain ⟨s', reporter', hrun, h'⟩ := shows_whole hroots t (.blob found) s reporter shown hm ht hr hnew
    exact ⟨s', reporter', Act.run_bind_ok hrun, h'⟩

/-- All mutators are there, so the scan of their stacks begins. -/
theorem run_openStacks (room : b.options.rootBufferCapacity ≤ EdgeBuffer.maxCapacity)
    (hregistry : s.registry.Sound) : ∃ reporter : Reporter FlushLog,
      (b.openStacks b.packetSink []).run s = (.ok (.walking (s.registry.mutatorIds.flatMap b.legs) reporter), s) ∧
      reporter.Holds [] := by
  have hnone := find?_missing fun id (hid : id ∈ s.registry.mutatorIds) => hregistry.known hid
  have hstart := Reporter.start_of_le (room_of_capacity room)
  refine ⟨⟨[], .ofCapacity (max (b.packetSink.capacity []) 1), []⟩, ?_, rfl, rfl⟩
  rw [openStacks, Act.run_bind_ok (Act.run_get _)]
  simp only [hnone, hstart]
  rfl

theorem stageTurn_ahead {category : RootCategory} (h : category ≠ .threadStacks) :
    b.stageTurn roots t (.ahead category) = (.ended category (b.jobEffect roots t (.category category)).1,
      (b.jobEffect roots t (.category category)).2) := by
  cases category with
  | threadStacks => exact absurd rfl h
  | global | codeCache | stringTable | classLoaderGraph | weakProcessor => rfl

theorem run_advance_ahead {sink : Sink τ} {start : τ} {category : RootCategory} (h : category ≠ .threadStacks) :
    (b.advance sink start (.ahead category)).run s = (.ok (.ended ((b.scanInto sink start category).run s).1),
      ((b.scanInto sink start category).run s).2) := by
  cases category with
  | threadStacks => exact absurd rfl h
  | global | codeCache | stringTable | classLoaderGraph | weakProcessor => rfl

section Jobs

variable (room : b.options.rootBufferCapacity ≤ EdgeBuffer.maxCapacity) (hroots : roots.Of b.host steady)
  (hloaders : (b.loaderSlots roots).Nodup) (hm : steady s.machine) (ht : s.tables = t)
  (hregistry : t.registry.Sound)
include room hroots hloaders hm ht hregistry

theorem run_scanInto_effect (category : RootCategory)
    (hnew : (b.jobEffect roots t (.category category)).1.Nodup) :
    ∃ log s', (b.scanInto b.packetSink [] category).run s = (.ok (.ok (category, log)), s') ∧
      log.slots = (b.jobEffect roots t (.category category)).1 ∧ steady s'.machine ∧
      s'.tables = (b.jobEffect roots t (.category category)).2 := by
  subst ht
  obtain ⟨s', hrun, h'⟩ := run_job room hroots (.category category) (fun id hid => hregistry.known hid) (by simp) hm
    rfl hloaders hnew
  obtain ⟨outcome, s₁, hinto, hrest⟩ := Act.run_bind_eq_ok.1 hrun
  have hcategory := hinto
  rw [run_scanInto] at hcategory
  cases outcome with
  | error breach => cases hrest
  | ok scan =>
    obtain ⟨found, log⟩ := scan
    have hdone : (Except.ok (FlushLog.slots log), s₁) =
        ((.ok (b.jobEffect roots s.tables (.category category)).1, s') : Except Fault (List Slot) × State μ ε) := hrest
    obtain ⟨hlog, rfl⟩ := Prod.mk.inj hdone
    obtain rfl : found = category := by
      split at hcategory <;> cases hcategory
      rfl
    exact ⟨log, s₁, hinto, Except.ok.inj hlog, h'⟩

theorem run_advance {job : ScanJob FlushLog} {stage : ScanStage} (hstands : Stands job stage)
    (hnew : (b.stageTurn roots t stage).1.shown.Nodup) :
    ∃ job' s', (b.advance b.packetSink [] job).run s = (.ok job', s') ∧
      Stands job' (b.stageTurn roots t stage).1 ∧ steady s'.machine ∧ s'.tables = (b.stageTurn roots t stage).2 := by
  cases hstands with
  | ahead category =>
    by_cases hstacks : category = .threadStacks
    · subst ht hstacks
      obtain ⟨reporter, hrun, hr⟩ := run_openStacks room hregistry
      exact ⟨_, s, hrun, .walking hr, hm, rfl⟩
    · rw [stageTurn_ahead hstacks] at hnew ⊢
      obtain ⟨log, s', hrun, hlog, h'⟩ := run_scanInto_effect room hroots hloaders hm ht hregistry category hnew
      refine ⟨.ended (.ok (.ok (category, log))), s', ?_, ?_, h'⟩
      · rw [run_advance_ahead hstacks, hrun]
      · rw [← hlog]
        exact .ended category log
  | @walking legs reporter shown holds =>
    cases legs with
    | nil =>
      refine ⟨_, s, rfl, ?_, hm, ht⟩
      rw [stageTurn, ← Reporter.slots_close (Sink.collecting_empties _) holds]
      exact .ended .threadStacks _
    | cons leg legs =>
      obtain ⟨s', reporter', hrun, hm', ht', hr'⟩ := run_legTurn hroots hm ht leg holds hnew
      refine ⟨.walking (legLeft roots leg ++ legs) reporter', s', ?_, .walking hr', hm', ht'⟩
      simp only [Act.run] at hrun
      simp only [advance, Act.run, hrun]
  | ended category log => exact ⟨_, s, rfl, .ended category log, hm, ht⟩

theorem run_finishJob {job : ScanJob FlushLog} {stage : ScanStage} (hstands : Stands job stage)
    (hnew : (b.stageWhole roots t stage).1.2.Nodup) :
    ∃ scan s', (b.finishJob b.packetSink [] job).run s = (.ok (.ok scan), s') ∧
      (scan.1, FlushLog.slots scan.2) = (b.stageWhole roots t stage).1 ∧ steady s'.machine ∧
      s'.tables = (b.stageWhole roots t stage).2 := by
  cases hstands with
  | ahead category =>
    obtain ⟨log, s', hrun, hlog, h'⟩ := run_scanInto_effect room hroots hloaders hm ht hregistry category hnew
    exact ⟨(category, log), s', hrun, by rw [hlog]; rfl, h'⟩
  | @walking legs reporter shown holds =>
    obtain ⟨s', reporter', hrun, hm', ht', hr'⟩ := shows_legsWhole hroots t legs s reporter shown hm ht holds hnew
    refine ⟨(.threadStacks, reporter'.close b.packetSink), s', ?_, ?_, hm', ht'⟩
    · rw [run_walking, hrun]
    · have hsink : b.packetSink.Empties := Sink.collecting_empties _
      exact congrArg (Prod.mk RootCategory.threadStacks) (Reporter.slots_close hsink hr')
  | ended category log => exact ⟨(category, log), s, rfl, rfl, hm, ht⟩

theorem run_takeTurn {jobs : List (ScanJob FlushLog)} {stages : List ScanStage} {place : Nat}
    (hstands : List.Forall₂ Stands jobs stages)
    (hnew : ∀ stage ∈ (b.placeTurn roots t place stages).1, stage.shown.Nodup) :
    ∃ jobs' s', (b.takeTurn b.packetSink [] place jobs).run s = (.ok jobs', s') ∧
      List.Forall₂ Stands jobs' (b.placeTurn roots t place stages).1 ∧ steady s'.machine ∧
      s'.tables = (b.placeTurn roots t place stages).2 := by
  induction hstands generalizing place with
  | nil => exact ⟨[], s, by cases place <;> rfl, by cases place <;> exact .nil, hm, by cases place <;> exact ht⟩
  | @cons job stage jobs stages hjob hjobs ih =>
    cases place with
    | zero =>
      obtain ⟨job', s', hrun, hjob', h'⟩ :=
        run_advance room hroots hloaders hm ht hregistry hjob (hnew _ (List.mem_cons_self ..))
      exact ⟨job' :: jobs, s', Act.run_bind_ok hrun, .cons hjob' hjobs, h'⟩
    | succ place =>
      obtain ⟨jobs', s', hrun, hjobs', h'⟩ := ih fun other hother => hnew other (List.mem_cons_of_mem _ hother)
      exact ⟨job :: jobs', s', Act.run_bind_ok hrun, .cons hjob hjobs', h'⟩

end Jobs

theorem run_takeTurns (room : b.options.rootBufferCapacity ≤ EdgeBuffer.maxCapacity) (hroots : roots.Of b.host steady)
    (hloaders : (b.loaderSlots roots).Nodup) (hm : steady s.machine) (ht : s.tables = t) (hregistry : t.registry.Sound)
    {jobs : List (ScanJob FlushLog)} {stages : List ScanStage} {turns : List Nat}
    (hstands : List.Forall₂ Stands jobs stages)
    (hnew : ∀ stage ∈ (b.placeTurns roots t turns stages).1, stage.shown.Nodup) :
    ∃ jobs' s', (b.takeTurns b.packetSink [] turns jobs).run s = (.ok jobs', s') ∧
      List.Forall₂ Stands jobs' (b.placeTurns roots t turns stages).1 ∧ steady s'.machine ∧
      s'.tables = (b.placeTurns roots t turns stages).2 := by
  induction turns generalizing s t jobs stages with
  | nil => exact ⟨jobs, s, rfl, hstands, hm, ht⟩
  | cons place turns ih =>
    obtain ⟨jobs₁, s₁, hrun, hstands₁, hm₁, ht₁⟩ :=
      run_takeTurn room hroots hloaders hm ht hregistry hstands (nodup_of_placeTurns hnew)
    obtain ⟨jobs', s', hrest, h'⟩ := ih hm₁ ht₁ (by rwa [registry_placeTurn]) hstands₁ hnew
    exact ⟨jobs', s', (Act.run_bind_ok hrun).trans hrest, h'⟩

theorem run_finishJobs (room : b.options.rootBufferCapacity ≤ EdgeBuffer.maxCapacity)
    (hroots : roots.Of b.host steady) (hloaders : (b.loaderSlots roots).Nodup) (hm : steady s.machine)
    (ht : s.tables = t) (hregistry : t.registry.Sound) {jobs : List (ScanJob FlushLog)} {stages : List ScanStage}
    (hstands : List.Forall₂ Stands jobs stages)
    (hnew : ∀ report ∈ (b.stagesWhole roots t stages).1, report.2.Nodup) :
    ∃ scans s', (inOrder (jobs.map (b.finishJob b.packetSink []))).run s = (.ok (.ok scans), s') ∧
      scans.map (fun scan => (scan.1, FlushLog.slots scan.2)) = (b.stagesWhole roots t stages).1 ∧
      steady s'.machine ∧ s'.tables = (b.stagesWhole roots t stages).2 := by
  induction hstands generalizing s t with
  | nil => exact ⟨[], s, rfl, rfl, hm, ht⟩
  | @cons job stage jobs stages hjob hjobs ih =>
    obtain ⟨scan, s₁, hrun, hscan, hm₁, ht₁⟩ :=
      run_finishJob room hroots hloaders hm ht hregistry hjob (hnew _ (List.mem_cons_self ..))
    obtain ⟨scans, s', hrest, hscans, h'⟩ := ih hm₁ ht₁ (by rwa [registry_stageWhole])
      fun report hreport => hnew report (List.mem_cons_of_mem _ hreport)
    refine ⟨scan :: scans, s', ?_, ?_, h'⟩
    · refine (Act.run_bind_ok hrun).trans ?_
      exact Act.run_bind_ok hrest
    · rw [List.map_cons, hscan, hscans]
      rfl

/-- Scans of categories report what is read off the walks and the tables, whatever turns they take, if none of them
reports a slot twice. -/
theorem run_scanCategories (room : b.options.rootBufferCapacity ≤ EdgeBuffer.maxCapacity)
    (hroots : roots.Of b.host steady) (hloaders : (b.loaderSlots roots).Nodup) (hm : steady s.machine)
    (ht : s.tables = t) (hregistry : t.registry.Sound) {turns : List Nat} {categories : List RootCategory}
    (hnew : ∀ report ∈ (b.scansEffect roots t turns categories).1, report.2.Nodup) :
    ∃ scans s', (b.scanCategories b.packetSink [] turns categories).run s = (.ok (.ok scans), s') ∧
      scans.map (fun scan => (scan.1, FlushLog.slots scan.2)) = (b.scansEffect roots t turns categories).1 ∧
      steady s'.machine ∧ s'.tables = (b.scansEffect roots t turns categories).2 := by
  have hahead : List.Forall₂ Stands (categories.map .ahead) (categories.map .ahead) := by
    rw [List.forall₂_map_left_iff, List.forall₂_map_right_iff]
    exact List.forall₂_same.2 fun category _ => .ahead category
  unfold scansEffect at hnew ⊢
  unfold scanCategories
  cases hparallel : b.options.parallelRootScan with
  | true =>
    simp only [hparallel, if_true] at hnew ⊢
    obtain ⟨jobs, s₁, hturns, hstands, hm₁, ht₁⟩ :=
      run_takeTurns room hroots hloaders hm ht hregistry hahead (nodup_of_stagesWhole hnew)
    obtain ⟨scans, s', hrest, h'⟩ :=
      run_finishJobs room hroots hloaders hm₁ ht₁ (by rwa [registry_placeTurns]) hstands hnew
    exact ⟨scans, s', (Act.run_bind_ok hturns).trans hrest, h'⟩
  | false =>
    simp only [hparallel] at hnew ⊢
    have hwhole := run_finishJobs room hroots hloaders hm ht hregistry hahead hnew
    rw [List.map_map] at hwhole
    exact hwhole

end Runs

end Safepoint.Binding
