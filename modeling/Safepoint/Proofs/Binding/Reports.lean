import Safepoint.Proofs.Binding.Roots

/-!
# What scans that returned have reported

A scan may be refused for a slot that it meets twice. One that returns has handed over what the walk of the host gave.
-/
namespace Safepoint.Binding

variable {μ ε : Type} {b : Binding μ ε} {sink weakSink : Sink FlushLog} {s s' : State μ ε}

theorem run_walk_eq_ok {α : Type} {walk : Act (Machine ε) α} {reporter reporter' : Reporter FlushLog} {a : α}
    (h : (Scan.walk walk : Scan μ ε FlushLog α).run (s, reporter) = (.ok a, s', reporter')) :
    walk.run s.machine = (.ok a, s'.machine) ∧ reporter' = reporter := by
  obtain ⟨s₁, hwalk, hput⟩ := Act.run_within_eq_ok.1 h
  obtain ⟨m, hrun, rfl⟩ := Act.run_within_eq_ok.1 hwalk
  cases hput
  exact ⟨hrun, rfl⟩

theorem run_report_eq_ok (hsink : sink.Empties) {slots shown : List Slot} {reporter reporter' : Reporter FlushLog}
    (hr : reporter.Holds shown)
    (h : (Scan.report sink slots : Scan μ ε FlushLog Unit).run (s, reporter) = (.ok (), s', reporter')) :
    s' = s ∧ reporter'.Holds (shown ++ slots) := by
  obtain ⟨reporter₁, hrun, hput⟩ := Act.run_within_eq_ok.1 h
  cases hput
  exact ⟨rfl, Reporter.holds_of_visitAll hsink hr hrun⟩

/-- A scan that reports what one walk gives. -/
theorem slots_of_walkReport (hsink : sink.Empties) {α : Type} {walk : Act (Machine ε) α} {slotsOf : α → List Slot}
    {reporter reporter' : Reporter FlushLog} (hr : reporter.Holds [])
    (h : (do Scan.report sink (slotsOf (← Scan.walk walk)) : Scan μ ε FlushLog Unit).run (s, reporter) =
      (.ok (), s', reporter')) :
    ∃ a, walk.run s.machine = (.ok a, s'.machine) ∧ reporter'.Holds (slotsOf a) := by
  obtain ⟨a, ⟨s₁, reporter₁⟩, hwalk, hreport⟩ := Act.run_bind_eq_ok.1 h
  obtain ⟨hrun, rfl⟩ := run_walk_eq_ok hwalk
  obtain ⟨rfl, hr'⟩ := run_report_eq_ok hsink hr hreport
  exact ⟨a, hrun, by simpa using hr'⟩

theorem holds_of_edges (hsink : sink.Empties) (hweak : weakSink.Empties) (found : List LoaderEdge)
    {strong weak strong' weak' : Reporter FlushLog} {shown dropped : List Slot} (hs : strong.Holds shown)
    (hd : weak.Holds dropped) (hrun : (found.forM fun edge =>
        if edge.weak then Act.within scanLoaders.weak (Reporter.visit weakSink edge.slot)
        else Act.within scanLoaders.strong (Reporter.visit sink edge.slot)).run ((s, strong), weak) =
      (.ok (), (s', strong'), weak')) :
    s' = s ∧ strong'.Holds (shown ++ edgeSlots false found) ∧ weak'.Holds (dropped ++ edgeSlots true found) := by
  induction found generalizing strong weak shown dropped with
  | nil =>
    cases hrun
    exact ⟨rfl, by simpa [edgeSlots] using hs, by simpa [edgeSlots] using hd⟩
  | cons edge found ih =>
    rw [List.forM_eq_forM, List.forM_cons] at hrun
    obtain ⟨_, p, hvisit, hrest⟩ := Act.run_bind_eq_ok.1 hrun
    cases hedge : edge.weak with
    | true =>
      simp only [hedge, if_true] at hvisit
      obtain ⟨weak₁, hvisited, rfl⟩ := Act.run_within_eq_ok.1 hvisit
      obtain ⟨rfl, hs', hd'⟩ := ih hs (Reporter.holds_of_visit hweak hd hvisited) hrest
      refine ⟨rfl, ?_, ?_⟩
      · simpa [edgeSlots, hedge] using hs'
      · simpa [edgeSlots, hedge] using hd'
    | false =>
      simp only [hedge, Bool.false_eq_true, if_false] at hvisit
      obtain ⟨strong₁, hvisited, rfl⟩ := Act.run_within_eq_ok.1 hvisit
      obtain ⟨rfl, hs', hd'⟩ := ih (Reporter.holds_of_visit hsink hs hvisited) hd hrest
      refine ⟨rfl, ?_, ?_⟩
      · simpa [edgeSlots, hedge] using hs'
      · simpa [edgeSlots, hedge] using hd'

theorem holds_of_walkEdges (hsink : sink.Empties) (hweak : weakSink.Empties) {policy : LoaderScan}
    {strong weak strong' weak' : Reporter FlushLog} (hs : strong.Holds []) (hd : weak.Holds [])
    (hrun : (scanLoaders.walkEdges b sink weakSink policy).run ((s, strong), weak) = (.ok (), (s', strong'), weak')) :
    ∃ found, (b.host.classLoaderGraph policy).run s.machine = (.ok found, s'.machine) ∧
      strong'.Holds (edgeSlots false found) ∧ weak'.Holds (edgeSlots true found) := by
  obtain ⟨found, p, hwalk, hvisits⟩ := Act.run_bind_eq_ok.1 hrun
  obtain ⟨s₁, hstate, rfl⟩ := Act.run_within_eq_ok.1 hwalk
  obtain ⟨m, hgraph, rfl⟩ := Act.run_within_eq_ok.1 hstate
  obtain ⟨rfl, hs', hd'⟩ := holds_of_edges hsink hweak found hs hd hvisits
  exact ⟨found, hgraph, by simpa using hs', by simpa using hd'⟩

/-- The weak edges that a scan of the graph hands over. -/
theorem weak_of_scanLoaders (hsink : sink.Empties) (hweak : weakSink.Empties) {policy : LoaderScan} {count : Nat}
    {log weakLog : FlushLog}
    (hrun : (b.scanLoaders sink weakSink policy).run ((s, []), []) = (.ok count, (s', weakLog), log)) :
    ∃ found, (b.host.classLoaderGraph policy).run s.machine = (.ok found, s'.machine) ∧
      weakLog.slots = edgeSlots true found := by
  refine slots_of_reporting (Q := fun _ q => ∃ found,
    (b.host.classLoaderGraph policy).run s.machine = (.ok found, q.1.machine) ∧ q.2.slots = edgeSlots true found)
    hsink ?_ hrun
  intro strong strong' p hs hscan
  obtain ⟨⟨⟨s₁, strong₁⟩, weakLog₁⟩, hinner, hput⟩ := Act.run_within_eq_ok.1 hscan
  cases hput
  obtain ⟨count₁, q, hreport, hdone⟩ := Act.run_bind_eq_ok.1 hinner
  cases hdone
  obtain ⟨found, hgraph, hlog, hs'⟩ := slots_of_reporting (Q := fun slots q => ∃ found,
    (b.host.classLoaderGraph policy).run s.machine = (.ok found, q.1.machine) ∧ slots = edgeSlots true found ∧
      q.2.Holds (edgeSlots false found)) hweak (fun weak weak' q hd hedges => by
        obtain ⟨found, hgraph, hs', hd'⟩ := holds_of_walkEdges hsink hweak hs hd hedges
        exact ⟨_, hd', found, hgraph, rfl, hs'⟩) hreport
  exact ⟨_, hs', found, hgraph, hlog⟩

/-- What a scan with every edge taken as strong hands over. -/
theorem slots_of_scanLoadersStrong (hsink : sink.Empties) {count : Nat} {log : FlushLog}
    (hrun : (b.scanLoadersStrong sink).run (s, []) = (.ok count, s', log)) :
    ∃ found, (b.host.classLoaderGraph .allStrong).run s.machine = (.ok found, s'.machine) ∧
      log.slots = found.map LoaderEdge.slot := by
  refine slots_of_reporting (Q := fun slots (s' : State μ ε) => ∃ found,
    (b.host.classLoaderGraph .allStrong).run s.machine = (.ok found, s'.machine) ∧
      slots = found.map LoaderEdge.slot) hsink ?_ hrun
  intro reporter reporter' s₁ hr hscan
  obtain ⟨found, hgraph, hr'⟩ := slots_of_walkReport hsink hr hscan
  exact ⟨_, hr', found, hgraph, rfl⟩

/-- What an update of weak storage is shown of it. -/
theorem slots_of_scanWeak (hsink : sink.Empties) {count : Nat} {log : FlushLog}
    (hrun : (b.scanWeak sink .all).run (s, []) = (.ok count, s', log)) :
    (b.host.weakProcessor .all).run s.machine = (.ok log.slots, s'.machine) := by
  refine slots_of_reporting (Q := fun slots (s' : State μ ε) =>
    (b.host.weakProcessor .all).run s.machine = (.ok slots, s'.machine)) hsink ?_ hrun
  intro reporter reporter' s₁ hr hscan
  obtain ⟨slots, ⟨s₂, reporter₂⟩, hwalk, hrest⟩ := Act.run_bind_eq_ok.1 hscan
  obtain ⟨_, ⟨s₃, reporter₃⟩, hreport, hdone⟩ := Act.run_bind_eq_ok.1 hrest
  obtain ⟨hweak, rfl⟩ := run_walk_eq_ok hwalk
  obtain ⟨rfl, hr'⟩ := run_report_eq_ok hsink hr hreport
  cases hdone
  exact ⟨slots, by simpa using hr', hweak⟩

theorem gather_eq_ok {τ α : Type} {start t : τ} {scan : Act (State μ ε × τ) α} :
    (gather start scan).run s = (.ok t, s') ↔ ∃ a, scan.run (s, start) = (.ok a, s', t) := by
  simp only [Act.run, gather]
  constructor
  · intro h
    split at h
    · rename_i hscan
      cases h
      exact ⟨_, hscan⟩
    · cases h
  · rintro ⟨a, hscan⟩
    rw [hscan]

end Safepoint.Binding
