import Safepoint.Proofs.Binding.Roots

/-!
# The jobs of a root scan

The strong roots are scanned job by job: a job is a category of roots, or the stack of one mutator.
What a job reports and what it leaves is read off the walks of the host and the tables it finds.
-/
namespace Safepoint

/-- A part of a scan of the strong roots. -/
inductive RootJob where
  | category (category : RootCategory)
  | mutator (id : MutatorId)
  deriving DecidableEq

def RootJob.mutator? : RootJob → Option MutatorId
  | .mutator id => some id
  | .category _ => none

namespace Binding

variable {μ ε : Type} (b : Binding μ ε) (roots : HostRoots)

/-- Do a job with a sink of its own, for the slots that reach it. -/
def runJob : RootJob → Act (State μ ε) (List Slot)
  | .category category => do
    return FlushLog.slots (← insist (← b.scanInto b.packetSink [] category)).2
  | .mutator id => FlushLog.slots <$> b.mutatorPackets id

/-- Do jobs one after another. What each of them reports comes back beside it. -/
def runJobs (jobs : List RootJob) : Act (State μ ε) (List (RootJob × List Slot)) :=
  jobs.mapM fun job => (job, ·) <$> b.runJob job

/-- The jobs of a scan that takes the roots category by category. -/
def jobsByCategory : List RootJob := (RootCategory.strong b.options.weakProcessing).map .category

/-- The jobs of a scan that takes the stacks one by one. -/
def jobsByMutator (registry : Registry μ) : List RootJob :=
  registry.mutatorIds.map .mutator ++ b.sharedCategories.map .category

theorem scanInto_category (category : RootCategory) :
    (Except.map fun scan => (category, scan.2)) <$> b.scanInto b.packetSink [] category =
      b.scanInto b.packetSink [] category := by
  funext s
  change ((Except.map fun scan => (category, scan.2)) <$> b.scanInto b.packetSink [] category).run s =
    (b.scanInto b.packetSink [] category).run s
  rw [Act.run_map]
  simp only [Act.run, scanInto]
  split <;> rfl

/-- Scans of categories one after another are their jobs. -/
theorem scanInOrder_eq (categories : List RootCategory) :
    (do return (← insist (← b.scanInOrder b.packetSink [] categories)).map fun scan =>
      (RootJob.category scan.1, FlushLog.slots scan.2)) = b.runJobs (categories.map .category) := by
  induction categories with
  | nil => rfl
  | cons category rest ih =>
    rw [runJobs, List.map_cons, List.mapM_cons, ← runJobs, ← ih]
    simp only [runJob, scanInOrder, List.map_cons, inOrder, bind_assoc, pure_bind, map_eq_pure_bind]
    rw [← scanInto_category b category]
    simp only [map_eq_pure_bind, bind_assoc, pure_bind]
    refine bind_congr fun first => ?_
    cases first with
    | error breach => rfl
    | ok first =>
      simp only [Except.map, insist, pure_bind, bind_assoc]
      refine bind_congr fun others => ?_
      cases others with
      | error breach => rfl
      | ok others => rfl

/-- The packets of the roots of no mutator hold what their jobs report. -/
theorem sharedPackets_eq : FlushLog.slots <$> b.sharedPackets =
    (do return (← b.runJobs (b.sharedCategories.map .category)).flatMap Prod.snd) := by
  rw [← scanInOrder_eq]
  simp only [sharedPackets, map_eq_pure_bind, bind_assoc, pure_bind]
  refine bind_congr fun outcome => bind_congr fun scans => congrArg pure ?_
  induction scans with
  | nil => rfl
  | cons scan scans ih =>
    rw [List.flatMap_cons, FlushLog.slots_append, ih]
    rfl

def loaderPolicy : LoaderScan := if b.options.classUnloading then .liveFiltered else .allStrong

/-- The slots of all edges that the scan of the class-loader graph meets. -/
def loaderSlots : List Slot := (roots.loaders b.loaderPolicy).map LoaderEdge.slot

/-- What a job reports of its own, whatever the tables hold. -/
def ownSlots (registry : Registry μ) : RootJob → List Slot
  | .mutator id => roots.stack id
  | .category .threadStacks => registry.mutatorIds.flatMap roots.stack
  | .category (.global table) => roots.globals table
  | .category .codeCache => []
  | .category .stringTable => roots.strings b.defaultFilter
  | .category .classLoaderGraph =>
    if b.options.classUnloading then edgeSlots false (roots.loaders .liveFiltered)
    else (roots.loaders .allStrong).map LoaderEdge.slot
  | .category .weakProcessor => roots.weak b.defaultFilter

/-- What a job reports, and the tables after it. -/
def jobEffect (t : Tables μ) : RootJob → List Slot × Tables μ
  | .mutator id =>
    let threads := b.threadsSlots roots t.code [id]
    (threads.1, { t with code := threads.2 })
  | .category .threadStacks =>
    let threads := b.threadsSlots roots t.code t.registry.mutatorIds
    (threads.1, { t with code := threads.2 })
  | .category .codeCache => (t.code.freeSlots, { t with code := t.code.scanned })
  | .category .weakProcessor =>
    if b.defaultFilter = .nonStuckOnly then
      (roots.weak b.defaultFilter ++ t.weak.nursery, { t with weak := t.weak.takeNursery.2 })
    else (roots.weak b.defaultFilter, t)
  | job => (b.ownSlots roots t.registry job, t)

section Run

variable {b roots} {steady : Machine ε → Prop} {s : State μ ε} {t t' : Tables μ}

theorem room_of_capacity (room : b.options.rootBufferCapacity ≤ EdgeBuffer.maxCapacity) :
    max (b.packetSink.capacity []) 1 ≤ EdgeBuffer.maxCapacity :=
  Nat.max_le.2 ⟨Nat.max_le.2 ⟨room, by decide⟩, by decide⟩

theorem run_reporting_shows (room : b.options.rootBufferCapacity ≤ EdgeBuffer.maxCapacity)
    {scan : Scan μ ε FlushLog Unit} {slots : List Slot} (h : Shows steady scan t slots t') (hm : steady s.machine)
    (ht : s.tables = t) (hnew : slots.Nodup) :
    ∃ s' log, (reporting b.packetSink scan).run (s, []) = (.ok slots.length, s', log) ∧ log.slots = slots ∧
      (steady s'.machine ∧ s'.tables = t') := by
  refine run_reporting (Sink.collecting_empties _) (room_of_capacity room) fun reporter hr => ?_
  obtain ⟨s', reporter', hrun, hm', ht', hr'⟩ := h s reporter [] hm ht hr hnew
  exact ⟨s', reporter', hrun, hr', hm', ht'⟩

theorem run_scanInto {τ : Type} (b : Binding μ ε) (sink : Sink τ) (start : τ) (category : RootCategory)
    (s : State μ ε) : (b.scanInto sink start category).run s =
      match (b.scan sink category).run (s, start) with
      | (.ok (.ok _), s', t) => (.ok (.ok (category, t)), s')
      | (.ok (.error breach), s', _) => (.ok (.error breach), s')
      | (.error fault, s', _) => (.error fault, s') := rfl

theorem run_category {category : RootCategory} {s' : State μ ε} {count : Nat} {log : FlushLog}
    (h : (b.scan b.packetSink category).run (s, []) = (.ok (.ok count), s', log)) :
    (b.runJob (.category category)).run s = (.ok log.slots, s') := by
  have hinto : (b.scanInto b.packetSink [] category).run s = (.ok (.ok (category, log)), s') := by
    rw [run_scanInto, h]
  rw [runJob, Act.run_bind_ok hinto]
  rfl

theorem find?_missing {registry : Registry μ} {ids : List MutatorId} (h : ∀ id ∈ ids, (registry.get id).isSome) :
    ids.find? (fun id => (registry.get id).isNone) = none := by
  rw [List.find?_eq_none]
  intro id hid
  simp [Option.isNone_iff_eq_none, Option.isSome_iff_ne_none.1 (h id hid)]

/-- Threads that are registered are all scanned. -/
theorem run_scanThreads (room : b.options.rootBufferCapacity ≤ EdgeBuffer.maxCapacity)
    (hroots : roots.Of b.host steady) (selector : ThreadSelector)
    (hknown : ∀ id ∈ selector.ids s.registry, (s.registry.get id).isSome) (hm : steady s.machine) (ht : s.tables = t)
    (hnew : (b.threadsSlots roots t.code (selector.ids s.registry)).1.Nodup) :
    ∃ s' log, (b.scanThreads b.packetSink selector).run (s, []) =
        (.ok (.ok (b.threadsSlots roots t.code (selector.ids s.registry)).1.length), s', log) ∧
      log.slots = (b.threadsSlots roots t.code (selector.ids s.registry)).1 ∧
      (steady s'.machine ∧ s'.tables =
        { t with code := (b.threadsSlots roots t.code (selector.ids s.registry)).2 }) := by
  obtain ⟨s', log, hrun, h'⟩ := run_reporting_shows room
    (shows_visitThreads (Sink.collecting_empties _) hroots t (selector.ids s.registry)) hm ht hnew
  refine ⟨s', log, ?_, h'⟩
  have hnone := find?_missing hknown
  rw [scanThreads, Act.run_bind_ok (Act.run_get _)]
  simp only [hnone]
  exact Act.run_bind_ok hrun

theorem nodup_edgeSlots {edges : List LoaderEdge} (h : (edges.map LoaderEdge.slot).Nodup) (weak : Bool) :
    (edgeSlots weak edges).Nodup := h.sublist (List.filter_sublist.map _)

theorem run_scanLoaderRoots (room : b.options.rootBufferCapacity ≤ EdgeBuffer.maxCapacity)
    (hroots : roots.Of b.host steady) (hm : steady s.machine) (ht : s.tables = t)
    (hnew : (b.loaderSlots roots).Nodup) :
    ∃ s' log, (b.scanLoaderRoots b.packetSink).run (s, []) =
        (.ok (b.ownSlots roots t.registry (.category .classLoaderGraph)).length, s', log) ∧
      log.slots = b.ownSlots roots t.registry (.category .classLoaderGraph) ∧
      (steady s'.machine ∧ s'.tables = t) := by
  unfold scanLoaderRoots ownSlots
  unfold loaderSlots loaderPolicy at hnew
  by_cases hunload : b.options.classUnloading
  · simp only [hunload, if_true] at hnew ⊢
    obtain ⟨p, log, hrun, hlog, hm', ht'⟩ := run_scanLoaders (Sink.collecting_empties b.options.rootBufferCapacity)
      Sink.discarding_empties (room_of_capacity room) (by decide) hroots .liveFiltered hm (nodup_edgeSlots hnew false)
      (nodup_edgeSlots hnew true)
    have hrun : (b.scanLoaders b.packetSink Sink.discarding .liveFiltered).run ((s, []), []) = _ := hrun
    exact ⟨p.1, log, by simp [hrun], hlog, hm', ht'.trans ht⟩
  · simp only [hunload] at hnew ⊢
    exact run_reporting_shows room (.walk (hroots.loaders .allStrong) (shows_report (Sink.collecting_empties _) _))
      hm ht hnew

/-- A scan that reports to a sink of its own and cannot be refused does the job of its category. -/
theorem run_single {act : Act (State μ ε × FlushLog) Nat} {category : RootCategory} {slots : List Slot}
    (hscan : b.scan b.packetSink category = do return .ok (← act))
    (h : ∃ s' log, act.run (s, []) = (.ok slots.length, s', log) ∧ log.slots = slots ∧
      (steady s'.machine ∧ s'.tables = t')) :
    ∃ s', (b.runJob (.category category)).run s = (.ok slots, s') ∧ steady s'.machine ∧ s'.tables = t' := by
  obtain ⟨s', log, hrun, hlog, h'⟩ := h
  refine ⟨s', ?_, h'⟩
  have hcategory : (b.scan b.packetSink category).run (s, []) = (.ok (.ok slots.length), s', log) := by
    rw [hscan, Act.run_bind_ok hrun]
    rfl
  rw [← hlog]
  exact run_category hcategory

theorem run_mutator (room : b.options.rootBufferCapacity ≤ EdgeBuffer.maxCapacity) (hroots : roots.Of b.host steady)
    {id : MutatorId} (hknown : (s.registry.get id).isSome) (hm : steady s.machine) (ht : s.tables = t)
    (hnew : (b.jobEffect roots t (.mutator id)).1.Nodup) :
    ∃ s', (b.runJob (.mutator id)).run s = (.ok (b.jobEffect roots t (.mutator id)).1, s') ∧ steady s'.machine ∧
      s'.tables = (b.jobEffect roots t (.mutator id)).2 := by
  have hone : ∀ other ∈ (ThreadSelector.one id).ids s.registry, (s.registry.get other).isSome := by
    intro other hother
    rw [List.mem_singleton.1 hother]
    exact hknown
  obtain ⟨s', log, hrun, hlog, h'⟩ := run_scanThreads room hroots (.one id) hone hm ht hnew
  refine ⟨s', ?_, h'⟩
  have hpackets : (b.mutatorPackets id).run s = (.ok log, s') := by
    simp only [Act.run] at hrun
    simp only [mutatorPackets, Act.run, hrun]
  rw [runJob, Act.run_map, hpackets]
  exact congrArg (fun slots => (Except.ok slots, s')) hlog

theorem run_scanWeak (room : b.options.rootBufferCapacity ≤ EdgeBuffer.maxCapacity) (hroots : roots.Of b.host steady)
    (hm : steady s.machine) (ht : s.tables = t) (hnew : (b.jobEffect roots t (.category .weakProcessor)).1.Nodup) :
    ∃ s' log, (b.scanWeak b.packetSink b.defaultFilter).run (s, []) =
        (.ok (b.jobEffect roots t (.category .weakProcessor)).1.length, s', log) ∧
      log.slots = (b.jobEffect roots t (.category .weakProcessor)).1 ∧
      (steady s'.machine ∧ s'.tables = (b.jobEffect roots t (.category .weakProcessor)).2) := by
  have hsink : b.packetSink.Empties := Sink.collecting_empties _
  have hreport : Shows steady (Scan.report b.packetSink (roots.weak b.defaultFilter)) t
      (roots.weak b.defaultFilter) t := shows_report hsink _
  unfold jobEffect at hnew ⊢
  by_cases hfilter : b.defaultFilter = .nonStuckOnly
  · rw [if_pos hfilter] at hnew ⊢
    refine run_reporting_shows room (.walk (hroots.weak _) (hreport.andThen ?_)) hm ht hnew
    rw [if_pos hfilter]
    exact shows_takeHandles hsink
  · rw [if_neg hfilter] at hnew ⊢
    refine run_reporting_shows room (.walk (hroots.weak _) ?_) hm ht hnew
    simpa [hfilter] using hreport.andThen .nothing

theorem run_job (room : b.options.rootBufferCapacity ≤ EdgeBuffer.maxCapacity) (hroots : roots.Of b.host steady)
    (job : RootJob) (hknown : ∀ id ∈ s.registry.mutatorIds, (s.registry.get id).isSome)
    (hmutator : ∀ id, job = .mutator id → id ∈ s.registry.mutatorIds) (hm : steady s.machine) (ht : s.tables = t)
    (hloaders : (b.loaderSlots roots).Nodup) (hnew : (b.jobEffect roots t job).1.Nodup) :
    ∃ s', (b.runJob job).run s = (.ok (b.jobEffect roots t job).1, s') ∧ steady s'.machine ∧
      s'.tables = (b.jobEffect roots t job).2 := by
  have hsink : b.packetSink.Empties := Sink.collecting_empties _
  cases job with
  | mutator id => exact run_mutator room hroots (hknown id (hmutator id rfl)) hm ht hnew
  | category category =>
    cases category with
    | threadStacks =>
      subst ht
      obtain ⟨s', log, hrun, hlog, h'⟩ := run_scanThreads room hroots .all hknown hm rfl hnew
      refine ⟨s', ?_, h'⟩
      have hcategory : (b.scan b.packetSink .threadStacks).run (s, []) = _ := hrun
      rw [run_category hcategory]
      exact congrArg (fun slots => (Except.ok slots, s')) hlog
    | global table =>
      exact run_single rfl (run_reporting_shows room (.walk (hroots.globals table) (shows_report hsink _)) hm ht hnew)
    | codeCache => exact run_single rfl (run_reporting_shows room (shows_scanCode hsink) hm ht hnew)
    | stringTable =>
      exact run_single rfl (run_reporting_shows room (.walk (hroots.strings _) (shows_report hsink _)) hm ht hnew)
    | classLoaderGraph => exact run_single rfl (run_scanLoaderRoots room hroots hm ht hloaders)
    | weakProcessor => exact run_single rfl (run_scanWeak room hroots hm ht hnew)

end Run

end Binding

end Safepoint
