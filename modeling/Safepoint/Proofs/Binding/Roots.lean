import Safepoint.Binding.Collecting
import Safepoint.Proofs.Binding.State
import Safepoint.Proofs.Edges.Reporter

/-!
# What the scans of a binding report

While the world stands still the walks of the host give the same slots whenever they are made. What
a scan reports then depends on the tables of the binding alone.
-/
namespace Safepoint.Binding

variable {μ ε α : Type}

/-- What the walks of a host give. -/
structure HostRoots where
  stack : MutatorId → List Slot
  code : MutatorId → List CodeId
  globals : GlobalRoots → List Slot
  strings : LiveFilter → List Slot
  loaders : LoaderScan → List LoaderEdge
  weak : LiveFilter → List Slot

/-- A walk that gives `a` on every steady machine, and leaves it steady. -/
def Gives (steady : Machine ε → Prop) (walk : Act (Machine ε) α) (a : α) : Prop :=
  ∀ m, steady m → ∃ m', walk.run m = (.ok a, m') ∧ steady m'

structure HostRoots.Of (roots : HostRoots) (host : Host ε) (steady : Machine ε → Prop) : Prop where
  stack : ∀ id, Gives steady (host.threadStack id) (roots.stack id)
  code : ∀ id, Gives steady (host.threadCode id) (roots.code id)
  globals : ∀ table, Gives steady (host.globals table) (roots.globals table)
  strings : ∀ filter, Gives steady (host.stringTable filter) (roots.strings filter)
  loaders : ∀ policy, Gives steady (host.classLoaderGraph policy) (roots.loaders policy)
  weak : ∀ filter, Gives steady (host.weakProcessor filter) (roots.weak filter)

/-- The tables on which a scan depends. -/
structure Tables (μ : Type) where
  registry : Registry μ
  code : CodeTable
  weak : WeakHandles

def State.tables (s : State μ ε) : Tables μ := ⟨s.registry, s.codeTable, s.weakHandles⟩

/-- A scan that shows `slots` to its reporter and takes the tables from `t` to `t'`. -/
def Shows (steady : Machine ε → Prop) (scan : Scan μ ε FlushLog Unit) (t : Tables μ) (slots : List Slot)
    (t' : Tables μ) : Prop :=
  ∀ (s : State μ ε) (reporter : Reporter FlushLog) (shown : List Slot), steady s.machine → s.tables = t →
    reporter.Holds shown → (shown ++ slots).Nodup →
    ∃ (s' : State μ ε) (reporter' : Reporter FlushLog), scan.run (s, reporter) = (.ok (), s', reporter') ∧
      steady s'.machine ∧ s'.tables = t' ∧ reporter'.Holds (shown ++ slots)

/-- A walk of the host, as a scan makes it. -/
theorem run_walk {τ : Type} {walk : Act (Machine ε) α} {s : State μ ε} {a : α} {m : Machine ε}
    (h : walk.run s.machine = (.ok a, m)) (reporter : Reporter τ) :
    (Scan.walk walk : Scan μ ε τ α).run (s, reporter) = (.ok a, { s with machine := m }, reporter) := by
  simp [Scan.walk, onMachine, Scan.statePlace, State.machinePlace, h]

/-- A visit of a blob reports what the claim gives. -/
theorem run_visitBlob {τ : Type} (sink : Sink τ) (code : CodeId) (s : State μ ε) (reporter : Reporter τ) :
    (visitBlob sink code).run (s, reporter) = (Scan.report sink ((s.codeTable.claim code).1.getD [])).run
      ({ s with codeTable := (s.codeTable.claim code).2 }, reporter) := by
  have hclaim : (Act.within Scan.statePlace (Act.within State.codePlace (modifyGet (·.claim code))) :
      Scan μ ε τ (Option (List Slot))).run (s, reporter) =
        (.ok (s.codeTable.claim code).1, { s with codeTable := (s.codeTable.claim code).2 }, reporter) := rfl
  rw [visitBlob, Act.run_bind_ok hclaim]
  cases (s.codeTable.claim code).1 <;> rfl

section Scans

variable {steady : Machine ε → Prop} {t t₁ t₂ : Tables μ} {slots more : List Slot} {sink : Sink FlushLog}

theorem Shows.nothing : Shows steady (pure ()) t [] t :=
  fun s reporter shown hm ht hr _ => ⟨s, reporter, rfl, hm, ht, by simpa using hr⟩

theorem Shows.andThen {scan next : Scan μ ε FlushLog Unit} (h : Shows steady scan t slots t₁)
    (hnext : Shows steady next t₁ more t₂) : Shows steady (scan >>= fun _ => next) t (slots ++ more) t₂ := by
  intro s reporter shown hm ht hr hnew
  rw [← List.append_assoc] at hnew
  obtain ⟨s₁, reporter₁, hrun, hm₁, ht₁, hr₁⟩ := h s reporter shown hm ht hr (List.nodup_append.1 hnew).1
  obtain ⟨s₂, reporter₂, hrun₂, hm₂, ht₂, hr₂⟩ := hnext s₁ reporter₁ _ hm₁ ht₁ hr₁ hnew
  exact ⟨s₂, reporter₂, (Act.run_bind_ok hrun).trans hrun₂, hm₂, ht₂, by rwa [← List.append_assoc]⟩

theorem Shows.walk {walk : Act (Machine ε) α} {a : α} (hw : Gives steady walk a) {next : α → Scan μ ε FlushLog Unit}
    (h : Shows steady (next a) t slots t₁) : Shows steady (Scan.walk walk >>= next) t slots t₁ := by
  intro s reporter shown hm ht hr hnew
  obtain ⟨m', hrun, hm'⟩ := hw s.machine hm
  obtain ⟨s', reporter', hrun', h'⟩ := h { s with machine := m' } reporter shown hm' ht hr hnew
  exact ⟨s', reporter', (Act.run_bind_ok (run_walk hrun reporter)).trans hrun', h'⟩

theorem shows_report (hsink : sink.Empties) (slots : List Slot) :
    Shows steady (Scan.report sink slots) t slots t := by
  intro s reporter shown hm ht hr hnew
  obtain ⟨reporter', hrun, hr'⟩ := Reporter.run_visitAll hsink hr hnew
  refine ⟨s, reporter', ?_, hm, ht, hr'⟩
  simp [Scan.report, Scan.reporterPlace, hrun]

theorem shows_visitBlob (hsink : sink.Empties) (code : CodeId) : Shows steady (visitBlob sink code) t
    ((t.code.claim code).1.getD []) { t with code := (t.code.claim code).2 } := by
  intro s reporter shown hm ht hr hnew
  subst ht
  let claimed : State μ ε := { s with codeTable := (s.codeTable.claim code).2 }
  have hreport : Shows steady (Scan.report sink ((s.codeTable.claim code).1.getD [])) claimed.tables _
      claimed.tables := shows_report hsink _
  rw [run_visitBlob]
  exact hreport claimed reporter shown hm rfl hr hnew

theorem shows_visitBlobs (hsink : sink.Empties) (codes : List CodeId) (t : Tables μ) :
    Shows steady (codes.forM (visitBlob sink)) t (t.code.claims codes).1
      { t with code := (t.code.claims codes).2 } := by
  induction codes generalizing t with
  | nil => exact .nothing
  | cons code codes ih =>
    rw [List.forM_eq_forM, List.forM_cons]
    exact (shows_visitBlob hsink code).andThen (ih _)

theorem shows_scanCode (hsink : sink.Empties) : Shows steady
    (do let _ ← Act.within Scan.codePlace (CodeTable.scan (Reporter.visitAll sink))) t
    t.code.freeSlots { t with code := t.code.scanned } := by
  intro s reporter shown hm ht hr hnew
  subst ht
  obtain ⟨reporter', hvisits, hr'⟩ := Reporter.run_visitAll hsink hr hnew
  rw [Reporter.visitAll, CodeTable.freeSlots, Act.forM_flatMap] at hvisits
  have hscan : (CodeTable.scan (Reporter.visitAll sink)).run (s.codeTable, reporter) = _ := CodeTable.run_scan hvisits
  refine ⟨{ s with codeTable := s.codeTable.scanned }, reporter', ?_, hm, rfl, hr'⟩
  have hwithin : (Act.within Scan.codePlace (CodeTable.scan (Reporter.visitAll sink)) : Scan μ ε FlushLog Nat).run
      (s, reporter) = (.ok (s.codeTable.free.flatMap Prod.snd).length,
        { s with codeTable := s.codeTable.scanned }, reporter') := by
    simp [Scan.codePlace, hscan]
  rw [Act.run_bind_ok hwithin]
  rfl

theorem shows_takeHandles (hsink : sink.Empties) : Shows steady
    (do Scan.report sink (← Act.within Scan.statePlace (Act.within State.weakPlace (modifyGet (·.takeNursery))))) t
    t.weak.nursery { t with weak := t.weak.takeNursery.2 } := by
  intro s reporter shown hm ht hr hnew
  subst ht
  let taken : State μ ε := { s with weakHandles := s.weakHandles.takeNursery.2 }
  have hreport : Shows steady (Scan.report sink s.weakHandles.nursery) taken.tables _ taken.tables :=
    shows_report hsink _
  exact hreport taken reporter shown hm rfl hr hnew

end Scans

section Threads

variable (b : Binding μ ε) (roots : HostRoots)

/-- What the scan of one thread reports, and the code table then. -/
def threadSlots (table : CodeTable) (id : MutatorId) : List Slot × CodeTable :=
  let taken := table.claims (roots.code id)
  (if b.options.relocateCode then roots.stack id ++ taken.1 else taken.1 ++ roots.stack id, taken.2)

def threadsSlots (table : CodeTable) : List MutatorId → List Slot × CodeTable
  | [] => ([], table)
  | id :: ids =>
    let first := b.threadSlots roots table id
    let others := threadsSlots first.2 ids
    (first.1 ++ others.1, others.2)

variable {b roots} {steady : Machine ε → Prop} {sink : Sink FlushLog}

theorem shows_visitStack (hsink : sink.Empties) (hroots : roots.Of b.host steady) (t : Tables μ) (id : MutatorId) :
    Shows steady (visitStack b sink id) t (roots.stack id) t :=
  .walk (hroots.stack id) (shows_report hsink _)

theorem shows_visitThreadCode (hsink : sink.Empties) (hroots : roots.Of b.host steady) (t : Tables μ)
    (id : MutatorId) : Shows steady (visitThreadCode b sink id) t (t.code.claims (roots.code id)).1
      { t with code := (t.code.claims (roots.code id)).2 } :=
  .walk (hroots.code id) (shows_visitBlobs hsink _ t)

theorem shows_visitThread (hsink : sink.Empties) (hroots : roots.Of b.host steady) (t : Tables μ) (id : MutatorId) :
    Shows steady (visitThread b sink id) t (b.threadSlots roots t.code id).1
      { t with code := (b.threadSlots roots t.code id).2 } := by
  have hcode := shows_visitThreadCode hsink hroots t id
  unfold visitThread threadSlots
  by_cases hrelocate : b.options.relocateCode
  · simp only [hrelocate, if_true]
    exact (shows_visitStack hsink hroots t id).andThen hcode
  · simp only [hrelocate]
    exact hcode.andThen (shows_visitStack hsink hroots _ id)

theorem shows_visitThreads (hsink : sink.Empties) (hroots : roots.Of b.host steady) (t : Tables μ)
    (ids : List MutatorId) : Shows steady (ids.forM (visitThread b sink)) t (b.threadsSlots roots t.code ids).1
      { t with code := (b.threadsSlots roots t.code ids).2 } := by
  induction ids generalizing t with
  | nil => exact .nothing
  | cons id ids ih =>
    rw [List.forM_eq_forM, List.forM_cons]
    exact (shows_visitThread hsink hroots t id).andThen (ih _)

end Threads

section Loaders

variable {b : Binding μ ε} {roots : HostRoots} {steady : Machine ε → Prop} {sink weakSink : Sink FlushLog}

/-- The slots of the edges of one strength, in the order of the walk. -/
def edgeSlots (weak : Bool) (edges : List LoaderEdge) : List Slot :=
  (edges.filter (·.weak = weak)).map LoaderEdge.slot

theorem run_edges (hsink : sink.Empties) (hweak : weakSink.Empties) (edges : List LoaderEdge) (s : State μ ε)
    {strong weak : Reporter FlushLog} {shown dropped : List Slot} (hs : strong.Holds shown) (hd : weak.Holds dropped)
    (hnew : (shown ++ edgeSlots false edges).Nodup) (hdrop : (dropped ++ edgeSlots true edges).Nodup) :
    ∃ strong' weak', (edges.forM fun edge =>
        if edge.weak then Act.within scanLoaders.weak (Reporter.visit weakSink edge.slot)
        else Act.within scanLoaders.strong (Reporter.visit sink edge.slot)).run ((s, strong), weak) =
      (.ok (), (s, strong'), weak') ∧ strong'.Holds (shown ++ edgeSlots false edges) ∧
      weak'.Holds (dropped ++ edgeSlots true edges) := by
  induction edges generalizing strong weak shown dropped with
  | nil => exact ⟨strong, weak, rfl, by simpa [edgeSlots] using hs, by simpa [edgeSlots] using hd⟩
  | cons edge edges ih =>
    rw [List.forM_eq_forM, List.forM_cons]
    cases hedge : edge.weak with
    | true =>
      have hfalse : edgeSlots false (edge :: edges) = edgeSlots false edges := by simp [edgeSlots, hedge]
      have htrue : edgeSlots true (edge :: edges) = edge.slot :: edgeSlots true edges := by simp [edgeSlots, hedge]
      rw [hfalse] at hnew ⊢
      rw [htrue] at hdrop ⊢
      obtain ⟨weak₁, hvisit, hd₁⟩ := Reporter.run_visit hweak hd (Reporter.not_mem_of_nodup hdrop)
      obtain ⟨strong', weak', hrun, hs', hd'⟩ := ih hs hd₁ hnew (by simpa using hdrop)
      have hstep : (Act.within scanLoaders.weak (Reporter.visit weakSink edge.slot)).run ((s, strong), weak) =
          (.ok (), (s, strong), weak₁) := by simp [scanLoaders.weak, hvisit]
      exact ⟨strong', weak', (Act.run_bind_ok hstep).trans hrun, hs', by simpa using hd'⟩
    | false =>
      have hfalse : edgeSlots false (edge :: edges) = edge.slot :: edgeSlots false edges := by simp [edgeSlots, hedge]
      have htrue : edgeSlots true (edge :: edges) = edgeSlots true edges := by simp [edgeSlots, hedge]
      rw [hfalse] at hnew ⊢
      rw [htrue] at hdrop ⊢
      obtain ⟨strong₁, hvisit, hs₁⟩ := Reporter.run_visit hsink hs (Reporter.not_mem_of_nodup hnew)
      obtain ⟨strong', weak', hrun, hs', hd'⟩ := ih hs₁ hd (by simpa using hnew) hdrop
      have hstep : (Act.within scanLoaders.strong (Reporter.visit sink edge.slot)).run ((s, strong), weak) =
          (.ok (), (s, strong₁), weak) := by simp [scanLoaders.strong, hvisit]
      exact ⟨strong', weak', (Act.run_bind_ok hstep).trans hrun, by simpa using hs', hd'⟩

theorem run_walkEdges (hsink : sink.Empties) (hweak : weakSink.Empties) {policy : LoaderScan} {s : State μ ε}
    {edges : List LoaderEdge} {m : Machine ε} (hwalk : (b.host.classLoaderGraph policy).run s.machine = (.ok edges, m))
    {strong weak : Reporter FlushLog} (hs : strong.Holds []) (hd : weak.Holds []) (hnew : (edgeSlots false edges).Nodup)
    (hdrop : (edgeSlots true edges).Nodup) :
    ∃ strong' weak' : Reporter FlushLog, (scanLoaders.walkEdges b sink weakSink policy).run ((s, strong), weak) =
        (.ok (), ({ s with machine := m }, strong'), weak') ∧
      strong'.Holds (edgeSlots false edges) ∧ weak'.Holds (edgeSlots true edges) := by
  have hstate : (Act.within scanLoaders.state (onMachine (b.host.classLoaderGraph policy))).run ((s, strong), weak) =
      (.ok edges, ({ s with machine := m }, strong), weak) := by
    simp [scanLoaders.state, onMachine, State.machinePlace, hwalk]
  obtain ⟨strong', weak', hrun, hs', hd'⟩ := run_edges hsink hweak edges { s with machine := m } hs hd
    (by simpa using hnew) (by simpa using hdrop)
  exact ⟨strong', weak', (Act.run_bind_ok hstate).trans hrun, by simpa using hs', by simpa using hd'⟩

/-- A scan of the graph hands over the edges that the walk gives, and leaves the machine as the walk does. -/
theorem run_scanLoaders_of_walk (hsink : sink.Empties) (hweak : weakSink.Empties)
    (room : max (sink.capacity []) 1 ≤ EdgeBuffer.maxCapacity)
    (roomWeak : max (weakSink.capacity []) 1 ≤ EdgeBuffer.maxCapacity) {policy : LoaderScan} {s : State μ ε}
    {edges : List LoaderEdge} {m : Machine ε} (hwalk : (b.host.classLoaderGraph policy).run s.machine = (.ok edges, m))
    (hnew : (edgeSlots false edges).Nodup) (hdrop : (edgeSlots true edges).Nodup) :
    ∃ weakLog log : FlushLog, (b.scanLoaders sink weakSink policy).run ((s, []), []) =
        (.ok (edgeSlots false edges).length, ({ s with machine := m }, weakLog), log) ∧
      log.slots = edgeSlots false edges ∧ weakLog.slots = edgeSlots true edges := by
  have hscan : ∃ (p : State μ ε × FlushLog) (log : FlushLog), (b.scanLoaders sink weakSink policy).run ((s, []), []) =
      (.ok (edgeSlots false edges).length, p, log) ∧ log.slots = edgeSlots false edges ∧
        (p.1 = { s with machine := m } ∧ p.2.slots = edgeSlots true edges) := by
    refine run_reporting hsink room fun strong hs => ?_
    have hinner : ∃ (q : State μ ε × Reporter FlushLog) (dropped : FlushLog),
        (reporting weakSink (scanLoaders.walkEdges b sink weakSink policy)).run ((s, strong), []) =
          (.ok (edgeSlots true edges).length, q, dropped) ∧ dropped.slots = edgeSlots true edges ∧
        (q.1 = { s with machine := m } ∧ q.2.Holds (edgeSlots false edges)) := by
      refine run_reporting hweak roomWeak fun weak hd => ?_
      obtain ⟨strong', weak', hrun, hs', hd'⟩ := run_walkEdges hsink hweak hwalk hs hd hnew hdrop
      exact ⟨({ s with machine := m }, strong'), weak', hrun, hd', rfl, hs'⟩
    obtain ⟨q, dropped, hrun, hdropped, hq, hs'⟩ := hinner
    refine ⟨(q.1, dropped), q.2, ?_, hs', hq, hdropped⟩
    simp [scanLoaders.inner, hrun, Except.map]
  obtain ⟨⟨_, weakLog⟩, log, hrun, hlog, rfl, hweakLog⟩ := hscan
  exact ⟨weakLog, log, hrun, hlog, hweakLog⟩

theorem run_scanLoaders (hsink : sink.Empties) (hweak : weakSink.Empties)
    (room : max (sink.capacity []) 1 ≤ EdgeBuffer.maxCapacity)
    (roomWeak : max (weakSink.capacity []) 1 ≤ EdgeBuffer.maxCapacity) (hroots : roots.Of b.host steady)
    (policy : LoaderScan) {s : State μ ε} (hm : steady s.machine)
    (hnew : (edgeSlots false (roots.loaders policy)).Nodup)
    (hdrop : (edgeSlots true (roots.loaders policy)).Nodup) :
    ∃ (p : State μ ε × FlushLog) (log : FlushLog), (b.scanLoaders sink weakSink policy).run ((s, []), []) =
        (.ok (edgeSlots false (roots.loaders policy)).length, p, log) ∧
      log.slots = edgeSlots false (roots.loaders policy) ∧ steady p.1.machine ∧ p.1.tables = s.tables := by
  obtain ⟨m, hwalk, hm'⟩ := hroots.loaders policy s.machine hm
  obtain ⟨weakLog, log, hrun, hlog, -⟩ := run_scanLoaders_of_walk hsink hweak room roomWeak hwalk hnew hdrop
  exact ⟨({ s with machine := m }, weakLog), log, hrun, hlog, hm', rfl⟩

end Loaders

end Safepoint.Binding
