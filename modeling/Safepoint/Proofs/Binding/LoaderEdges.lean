import Safepoint.Proofs.Binding.Frames
import Safepoint.Proofs.Binding.Reports
import Safepoint.Proofs.Binding.RootSplits
import Safepoint.Proofs.Marking
import Safepoint.Proofs.Weak.Update

/-!
# Weak edges of the class-loader graph

Whether weak edges are roots of a cycle follows from the options; whether they are cleared after it follows from what
the cycle was started for. Where no cycle keeps from unloading that was told by the options to drop weak edges, none of
them is left with a dead object.
-/
namespace Safepoint.Binding

open Act (Moves)

variable {μ ε : Type} {b : Binding μ ε} {weak : Slot → Prop} {edges : ε → List Slot} {live : ObjectRef → Prop}

/-- A call that adds no weak edge, writes into none, and leaves what the collector knows of objects. -/
structure Calm (b : Binding μ ε) (weak : Slot → Prop) (edges : ε → List Slot) (m m' : Machine ε) : Prop where
  edges : ∀ slot ∈ edges m'.env, slot ∈ edges m.env ∧ slot.loadBits m'.memory = slot.loadBits m.memory
  settled : ∀ live, b.engine.Settled b.codec weak live m → b.engine.Settled b.codec weak live m'

theorem Calm.refl (m : Machine ε) : Calm b weak edges m m :=
  ⟨fun _ hslot => ⟨hslot, rfl⟩, fun _ hsettled => hsettled⟩

theorem Calm.trans (m₁ m₂ m₃ : Machine ε) (h : Calm b weak edges m₁ m₂) (h' : Calm b weak edges m₂ m₃) :
    Calm b weak edges m₁ m₃ := by
  constructor
  · intro slot hslot
    obtain ⟨hmiddle, hbits⟩ := h'.edges slot hslot
    obtain ⟨hfirst, hbits'⟩ := h.edges slot hmiddle
    exact ⟨hfirst, hbits.trans hbits'⟩
  · intro live hsettled
    exact h'.settled live (h.settled live hsettled)

/-- Weak edges that are null or hold live objects stay so. -/
theorem Calm.kept {m m' : Machine ε} (h : Calm b weak edges m m')
    (hedges : ∀ slot ∈ edges m.env, slot.NullOrLive b.codec live m.memory) :
    ∀ slot ∈ edges m'.env, slot.NullOrLive b.codec live m'.memory := by
  intro slot hslot
  obtain ⟨hold, hbits⟩ := h.edges slot hslot
  exact (hedges slot hold).of_null_or_same (.inr (Slot.load_congr hbits))

/-- A host whose weak references lie at the slots `weak`, the edges of its class-loader graph among them. -/
structure LoaderGraph (b : Binding μ ε) (weak : Slot → Prop) (edges : ε → List Slot) : Prop where
  /-- Weak references do not overlap, and the collector keeps nothing it knows in them. -/
  clearable : ∀ live, WeakTest.Clearable b.engine b.codec weak live (b.engine.Settled b.codec weak live)
  storage : ∀ m slots m', (b.host.weakProcessor .all).run m = (.ok slots, m') → ∀ slot ∈ slots, weak slot
  inside : ∀ env, ∀ slot ∈ edges env, weak slot
  /-- A walk over the graph finds the weak edges, whatever it takes loaders for. -/
  graph : ∀ policy m found m', (b.host.classLoaderGraph policy).run m = (.ok found, m') →
    ∀ slot, slot ∈ edgeSlots true found ↔ slot ∈ edges m'.env
  walks : b.host.Walks fun walk => Moves (Calm b weak edges) id walk
  releases : b.host.Releases fun service => Moves (Calm b weak edges) id service
  unloads : ∀ alive, Moves (Calm b weak edges) id (b.host.unloadClasses alive)

/-- A step of a binding that is calm, and leaves the registered handles and the kind of the cycle. -/
structure Still (b : Binding μ ε) (weak : Slot → Prop) (edges : ε → List Slot) (s s' : State μ ε) : Prop where
  calm : Calm b weak edges s.machine s'.machine
  unloading : s'.unloading = s.unloading
  handles : s'.weakHandles.slots = s.weakHandles.slots

theorem Still.refl (s : State μ ε) : Still b weak edges s s := ⟨.refl _, rfl, rfl⟩

theorem Still.trans (s₁ s₂ s₃ : State μ ε) (h : Still b weak edges s₁ s₂) (h' : Still b weak edges s₂ s₃) :
    Still b weak edges s₁ s₃ :=
  ⟨.trans _ _ _ h.calm h'.calm, h'.unloading.trans h.unloading, h'.handles.trans h.handles⟩

theorem still_onMachine {α : Type} {act : Act (Machine ε) α} (h : Moves (Calm b weak edges) id act) :
    Moves (Still b weak edges) id (onMachine act) := by
  intro s
  exact ⟨h s.machine, rfl, rfl⟩

/-- Root scans write into no weak edge. -/
theorem LoaderGraph.scanSteps (graph : b.LoaderGraph weak edges) : b.ScanSteps (Still b weak edges) where
  refl := .refl
  trans := .trans
  walks :=
    { stack := fun id => still_onMachine (graph.walks.stack id)
      code := fun id => still_onMachine (graph.walks.code id)
      globals := fun table => still_onMachine (graph.walks.globals table)
      strings := fun filter => still_onMachine (graph.walks.strings filter)
      loaders := fun policy => still_onMachine (graph.walks.loaders policy)
      weak := fun filter => still_onMachine (graph.walks.weak filter) }
  code _ _ := ⟨.refl _, rfl, rfl⟩
  nursery _ := ⟨.refl _, rfl, rfl⟩

section Weak

variable (graph : b.LoaderGraph weak edges) {s s' : State μ ε} {stats : WeakStats} {mode : WeakProcessing}
include graph

/-- An update of weak storage clears weak edges at most. -/
theorem LoaderGraph.updateWeak (handles : ∀ slot ∈ s.weakHandles.slots, weak slot)
    (hsettled : b.engine.Settled b.codec weak live s.machine)
    (hrun : (b.updateWeak mode).run s = (.ok stats, s')) :
    b.engine.Settled b.codec weak live s'.machine ∧ s'.unloading = s.unloading ∧
      ((∀ slot ∈ edges s.machine.env, slot.NullOrLive b.codec live s.machine.memory) →
        ∀ slot ∈ edges s'.machine.env, slot.NullOrLive b.codec live s'.machine.memory) := by
  obtain ⟨log, s₁, hgather, hrest⟩ := Act.run_bind_eq_ok.1 hrun
  obtain ⟨_, s₂, hget, hupdate⟩ := Act.run_bind_eq_ok.1 hrest
  cases hget
  have hstill : Still b weak edges s s₁ := (moves_gather (graph.scanSteps.claims.scanWeak .all) []).run hgather
  obtain ⟨count, hscan⟩ := gather_eq_ok.1 hgather
  have hstorage := graph.storage _ _ _ (slots_of_scanWeak (Sink.collecting_empties _) hscan)
  have hslots : ∀ slot ∈ FlushLog.slots log ++ s₁.weakHandles.slots, weak slot := by
    intro slot hslot
    obtain hslot | hslot := List.mem_append.1 hslot
    · exact hstorage slot hslot
    · rw [hstill.handles] at hslot
      exact handles slot hslot
  obtain ⟨m, hall, rfl⟩ := Act.run_within_eq_ok.1 hupdate
  have hclear : WeakTest.Clearable (b.weakTest mode).engine (b.weakTest mode).codec weak live
    (b.engine.Settled b.codec weak live) := graph.clearable live
  obtain ⟨hsettled', hswept⟩ := hclear.swept hslots (hstill.calm.settled live hsettled) hall
  refine ⟨hsettled', hstill.unloading, ?_⟩
  intro hedges slot hslot
  have henv : m.env = s₁.machine.env := hswept.env
  have hslot : slot ∈ edges s₁.machine.env := by
    rw [← henv]
    exact hslot
  have hfirst := hstill.calm.kept hedges slot hslot
  apply hfirst.of_null_or_same
  apply hswept.others
  intro other hother
  exact hclear.separate other slot (hslots other hother) (graph.inside _ slot hslot)

/-- Unloading leaves no weak edge with a dead object. -/
theorem LoaderGraph.unloadClasses (hsettled : b.engine.Settled b.codec weak live s.machine)
    (hrun : b.unloadClasses.run s = (.ok stats, s')) :
    b.engine.Settled b.codec weak live s'.machine ∧
      ∀ slot ∈ edges s'.machine.env, slot.NullOrLive b.codec live s'.machine.memory := by
  obtain ⟨_, s₁, hunload, hrest⟩ := Act.run_bind_eq_ok.1 hrun
  obtain ⟨log, s₂, hgather, hupdate⟩ := Act.run_bind_eq_ok.1 hrest
  have hsettled₁ := ((still_onMachine (graph.unloads _)).run hunload).calm.settled live hsettled
  obtain ⟨count, hwithin⟩ := gather_eq_ok.1 hgather
  obtain ⟨⟨⟨s₃, weakLog⟩, strongLog⟩, hscan, hput⟩ := Act.run_within_eq_ok.1 hwithin
  cases hput
  have hstill : Still b weak edges s₁ s₃ := (graph.scanSteps.claims.scanLoaders .liveFiltered).run hscan
  obtain ⟨found, hgraph, hlog⟩ := weak_of_scanLoaders Sink.discarding_empties (Sink.collecting_empties _) hscan
  have hfound := graph.graph _ _ _ _ hgraph
  have hslots : ∀ slot ∈ FlushLog.slots weakLog, weak slot := by
    intro slot hslot
    rw [hlog, hfound] at hslot
    exact graph.inside _ slot hslot
  obtain ⟨m, hall, rfl⟩ := Act.run_within_eq_ok.1 hupdate
  have hclear : WeakTest.Clearable (b.weakTest b.options.weakProcessing).engine
      (b.weakTest b.options.weakProcessing).codec weak live (b.engine.Settled b.codec weak live) :=
    graph.clearable live
  obtain ⟨hsettled', hswept⟩ := hclear.swept hslots (hstill.calm.settled live hsettled₁) hall
  refine ⟨hsettled', ?_⟩
  intro slot hslot
  apply hswept.updated
  have henv : m.env = s₃.machine.env := hswept.env
  rw [hlog, hfound, ← henv]
  exact hslot

end Weak

section Strong

variable (graph : b.LoaderGraph weak edges) {s s' : State μ ε}
include graph

/-- Where classes are not unloaded, weak edges are reported with the strong ones. -/
theorem LoaderGraph.reported (hstrong : b.options.classUnloading = false) {scan : RootCategory × FlushLog}
    (hrun : (b.scanInto b.packetSink [] .classLoaderGraph).run s = (.ok (.ok scan), s')) :
    ∀ slot ∈ edges s'.machine.env, slot ∈ FlushLog.slots scan.2 := by
  have hscan : ∃ count, (b.scan b.packetSink .classLoaderGraph).run (s, []) = (.ok (.ok count), s', scan.2) := by
    simp only [Act.run, scanInto] at hrun ⊢
    split at hrun
    · rename_i hok
      cases hrun
      exact ⟨_, hok⟩
    · cases hrun
    · cases hrun
  obtain ⟨count, hscan⟩ := hscan
  obtain ⟨count₁, p, hroots, hdone⟩ := Act.run_bind_eq_ok.1 hscan
  cases hdone
  simp only [scanLoaderRoots, hstrong] at hroots
  obtain ⟨found, hgraph, hslots⟩ := slots_of_scanLoadersStrong (Sink.collecting_empties _) hroots
  intro slot hslot
  have hedge := (graph.graph _ _ _ _ hgraph slot).2 hslot
  obtain ⟨edge, hmem, rfl⟩ := List.mem_map.1 hedge
  rw [hslots]
  exact List.mem_map_of_mem (List.mem_of_mem_filter hmem)

/-- A job that is to report the weak edges there are, or that has reported them unless it failed. -/
inductive Gathers (edges : ε → List Slot) (s : State μ ε) : ScanJob FlushLog → Prop
  | ahead : Gathers edges s (.ahead .classLoaderGraph)
  | ended {outcome : Except Fault (Except Violation (RootCategory × FlushLog))}
      (reported : ∀ scan, outcome = .ok (.ok scan) → ∀ slot ∈ edges s.machine.env, slot ∈ FlushLog.slots scan.2) :
      Gathers edges s (.ended outcome)

omit graph in
theorem Gathers.later {job : ScanJob FlushLog} (h : Gathers edges s job) (hstill : Still b weak edges s s') :
    Gathers edges s' job := by
  cases h with
  | ahead => exact .ahead
  | ended reported =>
    exact .ended fun scan hscan slot hslot => reported scan hscan slot (hstill.calm.edges slot hslot).1

variable {job job' : ScanJob FlushLog} {jobs jobs' : List (ScanJob FlushLog)} {place : Nat} {turns : List Nat}
  (hstrong : b.options.classUnloading = false)
include hstrong

theorem LoaderGraph.gathers_advance (h : Gathers edges s job)
    (hrun : (b.advance b.packetSink [] job).run s = (.ok job', s')) : Gathers edges s' job' := by
  cases h with
  | ahead =>
    cases hscan : (b.scanInto b.packetSink [] .classLoaderGraph).run s with
    | mk outcome s₁ =>
      have hadvance : (b.advance b.packetSink [] (.ahead .classLoaderGraph)).run s = (.ok (.ended outcome), s₁) := by
        simp only [advance, Act.run] at hscan ⊢
        rw [hscan]
      rw [hadvance] at hrun
      cases hrun
      refine .ended fun scan hok => ?_
      rw [hok] at hscan
      exact graph.reported hstrong hscan
  | ended reported =>
    cases hrun
    exact .ended reported

theorem LoaderGraph.gathers_takeTurn (h : ∃ job ∈ jobs, Gathers edges s job)
    (hrun : (b.takeTurn b.packetSink [] place jobs).run s = (.ok jobs', s')) : ∃ job ∈ jobs', Gathers edges s' job := by
  induction jobs generalizing place jobs' with
  | nil => simp at h
  | cons first rest ih =>
    obtain ⟨job, hjob, hgathers⟩ := h
    cases place with
    | zero =>
      obtain ⟨first', s₁, hadvance, hdone⟩ := Act.run_bind_eq_ok.1 hrun
      cases hdone
      obtain rfl | hrest := List.mem_cons.1 hjob
      · exact ⟨first', List.mem_cons_self .., graph.gathers_advance hstrong hgathers hadvance⟩
      · have hstill := (graph.scanSteps.advance [] first).run hadvance
        exact ⟨job, List.mem_cons_of_mem _ hrest, hgathers.later hstill⟩
    | succ place =>
      obtain ⟨rest', s₁, hturn, hdone⟩ := Act.run_bind_eq_ok.1 hrun
      cases hdone
      obtain rfl | hrest := List.mem_cons.1 hjob
      · have hstill := (graph.scanSteps.takeTurn [] place rest).run hturn
        exact ⟨job, List.mem_cons_self .., hgathers.later hstill⟩
      · obtain ⟨job', hjob', hgathers'⟩ := ih ⟨job, hrest, hgathers⟩ hturn
        exact ⟨job', List.mem_cons_of_mem _ hjob', hgathers'⟩

theorem LoaderGraph.gathers_takeTurns (h : ∃ job ∈ jobs, Gathers edges s job)
    (hrun : (b.takeTurns b.packetSink [] turns jobs).run s = (.ok jobs', s')) : ∃ job ∈ jobs', Gathers edges s' job := by
  induction turns generalizing s jobs with
  | nil =>
    cases hrun
    exact h
  | cons place turns ih =>
    obtain ⟨jobs₁, s₁, hturn, hrest⟩ := Act.run_bind_eq_ok.1 hrun
    exact ih (graph.gathers_takeTurn hstrong h hturn) hrest

theorem LoaderGraph.gathers_finishJob (h : Gathers edges s job) {scan : RootCategory × FlushLog}
    (hrun : (b.finishJob b.packetSink [] job).run s = (.ok (.ok scan), s')) :
    ∀ slot ∈ edges s'.machine.env, slot ∈ FlushLog.slots scan.2 := by
  cases h with
  | ahead => exact graph.reported hstrong hrun
  | ended reported =>
    cases hrun
    exact reported scan rfl

theorem LoaderGraph.reported_of_gathers (h : ∃ job ∈ jobs, Gathers edges s job)
    {scans : List (RootCategory × FlushLog)}
    (hrun : (inOrder (jobs.map (b.finishJob b.packetSink []))).run s = (.ok (.ok scans), s')) :
    ∀ slot ∈ edges s'.machine.env, ∃ scan ∈ scans, slot ∈ FlushLog.slots scan.2 := by
  induction jobs generalizing s scans with
  | nil => simp at h
  | cons job jobs ih =>
    obtain ⟨first, s₁, hfirst, hnext⟩ := Act.run_bind_eq_ok.1 hrun
    cases first with
    | error breach => cases hnext
    | ok first =>
      obtain ⟨others, s₂, hothers, hdone⟩ := Act.run_bind_eq_ok.1 hnext
      cases others with
      | error breach => cases hdone
      | ok others =>
        cases hdone
        intro slot hslot
        obtain ⟨gatherer, hmem, hgathers⟩ := h
        obtain rfl | hrest := List.mem_cons.1 hmem
        · have hstill := (graph.scanSteps.finishJobs [] jobs).run hothers
          have hslot₁ := (hstill.calm.edges slot hslot).1
          exact ⟨first, List.mem_cons_self .., graph.gathers_finishJob hstrong hgathers hfirst slot hslot₁⟩
        · have hlater := hgathers.later ((graph.scanSteps.finishJob [] job).run hfirst)
          obtain ⟨scan, hscan, hlog⟩ := ih ⟨gatherer, hrest, hlater⟩ hothers slot hslot
          exact ⟨scan, List.mem_cons_of_mem _ hscan, hlog⟩

/-- Whatever the turns of the scans, weak edges are reported. -/
theorem LoaderGraph.reported_of_mem {categories : List RootCategory} (hmem : .classLoaderGraph ∈ categories)
    {scans : List (RootCategory × FlushLog)}
    (hrun : (b.scanCategories b.packetSink [] turns categories).run s = (.ok (.ok scans), s')) :
    ∀ slot ∈ edges s'.machine.env, ∃ scan ∈ scans, slot ∈ FlushLog.slots scan.2 := by
  have hahead (s : State μ ε) : ∃ job ∈ categories.map .ahead, Gathers edges s job :=
    ⟨.ahead .classLoaderGraph, List.mem_map_of_mem hmem, .ahead⟩
  unfold scanCategories at hrun
  split at hrun
  · obtain ⟨jobs, s₁, hturns, hrest⟩ := Act.run_bind_eq_ok.1 hrun
    exact graph.reported_of_gathers hstrong (graph.gathers_takeTurns hstrong (hahead s) hturns) hrest
  · refine graph.reported_of_gathers hstrong (hahead s) ?_
    rw [List.map_map]
    exact hrun

end Strong

/-- Weak references are brought up to date, and classes unloaded if the cycle was started for that. -/
def weakPhase (b : Binding μ ε) (mode : WeakProcessing) : Act (State μ ε) Unit := do
  let _ ← b.updateWeak mode
  if (← get).unloading then
    let _ ← b.unloadClasses

theorem weakPhase_eq (b : Binding μ ε) : b.weakPhase b.options.weakProcessing = b.processWeak := rfl

/-- A cycle that a collector drives to its end, with scans one after another or side by side. What it does to find out
what is live lies between `scanned` and `traced`. -/
structure Cycle (b : Binding μ ε) (me : ThreadId) (unload : Bool) (mode : WeakProcessing) (s : State μ ε) where
  mutators : List Mutator
  stopped : State μ ε
  stop : (b.stopAllMutators me unload).run s = (.ok mutators, stopped)
  categories : List RootCategory
  strong : categories.Perm (RootCategory.strong mode)
  turns : List Nat
  scans : List (RootCategory × FlushLog)
  scanned : State μ ε
  scan : (b.scanCategories b.packetSink [] turns categories).run stopped = (.ok (.ok scans), scanned)
  traced : Machine ε
  updated : State μ ε
  update : (b.weakPhase mode).run { scanned with machine := traced } = (.ok (), updated)
  count : UInt64
  resumed : State μ ε
  resume : (b.resumeMutators me).run updated = (.ok count, resumed)

namespace Cycle

variable {me : ThreadId} {unload : Bool} {mode : WeakProcessing} {s : State μ ε} (cycle : b.Cycle me unload mode s)

def reported : List Slot := cycle.scans.flatMap fun scan => FlushLog.slots scan.2

/-- What can be reached from the slots that were reported, through the fields that the host finds in objects. -/
def Live : ObjectRef → Prop :=
  Reaches (fun slot => (slot.load b.codec cycle.traced.memory).toOption.join)
    (fun object => (((b.host.scanObject object).run cycle.traced).1.toOption).getD []) cycle.reported

/-- The collector reads what was reported, writes into no weak edge, and takes for live what can be reached. -/
structure Traces (weak : Slot → Prop) (edges : ε → List Slot) : Prop where
  read : ∀ slot ∈ cycle.reported, ∃ found, slot.load b.codec cycle.traced.memory = .ok found
  edges : ∀ slot ∈ edges cycle.traced.env, slot ∈ edges cycle.scanned.machine.env ∧
    slot.loadBits cycle.traced.memory = slot.loadBits cycle.scanned.machine.memory
  live : b.engine.Settled b.codec weak cycle.Live cycle.traced

theorem scanned_still (graph : b.LoaderGraph weak edges) : Still b weak edges cycle.stopped cycle.scanned :=
  (graph.scanSteps.scanCategories [] cycle.turns cycle.categories).run cycle.scan

variable {cycle}

/-- Weak edges that are roots hold live objects. -/
theorem live_of_reported (graph : b.LoaderGraph weak edges) (traces : cycle.Traces weak edges)
    (hstrong : b.options.classUnloading = false) :
    ∀ slot ∈ edges cycle.traced.env, slot.NullOrLive b.codec cycle.Live cycle.traced.memory := by
  intro slot hslot
  have hmem : .classLoaderGraph ∈ cycle.categories := by
    rw [cycle.strong.mem_iff]
    cases mode <;> decide
  obtain ⟨scan, hscan, hlog⟩ :=
    graph.reported_of_mem hstrong hmem cycle.scan slot (traces.edges slot hslot).1
  have hreported : slot ∈ cycle.reported := List.mem_flatMap.2 ⟨scan, hscan, hlog⟩
  obtain ⟨found, hload⟩ := traces.read slot hreported
  refine ⟨found, hload, ?_⟩
  rintro object rfl
  apply Reaches.root hreported
  simp [hload, Except.toOption]

/-- Where a cycle that drops weak edges unloads classes too, weak edges are null or hold live objects afterwards. -/
theorem weak_edges_never_dangle (cycle : b.Cycle me unload mode s) (graph : b.LoaderGraph weak edges)
    (handles : ∀ slot ∈ cycle.stopped.weakHandles.slots, weak slot) (traces : cycle.Traces weak edges)
    (agree : b.options.classUnloading = true → unload = true) {policy : LoaderScan} {found : List LoaderEdge}
    {m : Machine ε} (asked : (b.host.classLoaderGraph policy).run cycle.resumed.machine = (.ok found, m)) :
    ∀ slot ∈ edgeSlots true found,
      slot.NullOrLive b.codec (fun object => b.engine.isLive m object = true) m.memory := by
  have hstill := cycle.scanned_still graph
  have hunloading : cycle.scanned.unloading = unload := hstill.unloading.trans (unloading_of_stop cycle.stop)
  have hhandles : ∀ slot ∈ cycle.scanned.weakHandles.slots, weak slot := by
    rw [hstill.handles]
    exact handles
  obtain ⟨stats, s₁, hupdate, hnext⟩ := Act.run_bind_eq_ok.1 cycle.update
  obtain ⟨hsettled₁, hflag, hkept⟩ :=
    graph.updateWeak (s := { cycle.scanned with machine := cycle.traced }) hhandles traces.live hupdate
  obtain ⟨_, s₂, hget, hunload⟩ := Act.run_bind_eq_ok.1 hnext
  cases hget
  have hflag : s₁.unloading = unload := hflag.trans hunloading
  have hupdated : b.engine.Settled b.codec weak cycle.Live cycle.updated.machine ∧
      ∀ slot ∈ edges cycle.updated.machine.env,
        slot.NullOrLive b.codec cycle.Live cycle.updated.machine.memory := by
    cases unload with
    | true =>
      simp only [hflag, if_true] at hunload
      obtain ⟨_, s₃, hclasses, hdone⟩ := Act.run_bind_eq_ok.1 hunload
      cases hdone
      exact graph.unloadClasses hsettled₁ hclasses
    | false =>
      have hstrong : b.options.classUnloading = false := by
        cases hoption : b.options.classUnloading with
        | true => exact (agree hoption).symm
        | false => rfl
      simp only [hflag, Bool.false_eq_true, if_false] at hunload
      cases hunload
      exact ⟨hsettled₁, hkept (live_of_reported graph traces hstrong)⟩
  have hresumed : Calm b weak edges cycle.updated.machine cycle.resumed.machine :=
    (moves_resumeMutators Calm.refl Calm.trans graph.releases).run cycle.resume
  have hasked : Calm b weak edges cycle.resumed.machine m := (graph.walks.loaders policy).run asked
  have hcalm := hresumed.trans _ _ _ hasked
  have hsettled := hcalm.settled cycle.Live hupdated.1
  intro slot hslot
  have hedge : slot ∈ edges m.env := (graph.graph _ _ _ _ asked slot).1 hslot
  obtain ⟨object?, hload, hlive⟩ := hcalm.kept hupdated.2 slot hedge
  refine ⟨object?, hload, ?_⟩
  rintro object rfl
  have hknows := hsettled slot (graph.inside _ slot hedge) object hload
  exact hknows.isLive.2 (hlive object rfl)

end Cycle

/-- A binding of a host that gives its roots and does nothing else to a collector that moves nothing and finds what it
is told to be live. -/
def HostRoots.marking (roots : HostRoots) (options : Options) (live : ObjectRef → Bool) : Binding Unit Unit :=
  { roots.binding options with
    engine :=
      { (roots.binding options).engine with
        isLive := fun _ object => live object
        forwarded := fun _ _ => .ok none
        referenceCount := fun _ object => if live object then 1 else 0 } }

theorem settled_marking {roots : HostRoots} {options : Options} {marked : ObjectRef → Bool} {m : Machine Unit} :
    (roots.marking options marked).engine.Settled .identity weak live m ↔
      ∀ slot, weak slot → ∀ object, slot.load .identity m.memory = .ok (some object) →
        (marked object = true ↔ live object) := by
  constructor
  · intro h slot hslot object hload
    exact (h slot hslot object hload).isLive
  · intro h slot hslot object hload
    have hlive := h slot hslot object hload
    refine ⟨hlive, rfl, ?_⟩
    intro hcount
    change 0 < (if marked object then 1 else 0) at hcount
    split at hcount
    · exact hlive.1 ‹_›
    · cases hcount

/-- Nothing is done by such a host, and nothing that its collector knows lies in memory. -/
theorem HostRoots.marking_graph (roots : HostRoots) (options : Options) (marked : ObjectRef → Bool) {edges : List Slot}
    (separate : ∀ slot other, weak slot → weak other → slot.Separate other)
    (storage : ∀ slot ∈ roots.weak .all, weak slot)
    (inside : ∀ slot ∈ edges, weak slot) (graph : ∀ policy, edgeSlots true (roots.loaders policy) = edges) :
    (roots.marking options marked).LoaderGraph weak fun _ => edges := by
  constructor
  · intro live
    refine ⟨separate, fun _ hsettled => hsettled, ?_⟩
    intro slot m hslot hsettled
    change (roots.marking options marked).engine.Settled .identity weak live _ at hsettled
    change (roots.marking options marked).engine.Settled .identity weak live _
    rw [settled_marking] at hsettled ⊢
    intro other hother object hload
    have hcleared := Slot.load_clear_of_separate .identity m.memory (separate slot other hslot hother)
    obtain hnull | hsame := hcleared
    · rw [WeakTest.cleared, hnull] at hload
      cases hload
    · exact hsettled other hother object (hsame.symm.trans hload)
  · intro m slots m' hrun
    cases hrun
    exact storage
  · intro _
    exact inside
  · intro policy m found m' hrun
    cases hrun
    intro slot
    rw [graph]
  · constructor <;> intro _ m <;> exact Calm.refl m
  · constructor
    · intro _ _ m
      exact Calm.refl m
    · intro _ m
      exact Calm.refl m
  · intro _ m
    exact Calm.refl m

/-- A loader at the end of a strong root, and two weak edges of which only one leads to it. -/
def looseLoader : HostRoots where
  stack _ := []
  code _ := []
  globals table := if table = .universe then [⟨0x3000⟩] else []
  strings _ := []
  loaders _ := [⟨true, ⟨0x5000⟩⟩, ⟨true, ⟨0x5008⟩⟩]
  weak _ := []

def keptLoader : ObjectRef := ⟨0x100, by decide, by decide⟩

def lostLoader : ObjectRef := ⟨0x200, by decide, by decide⟩

def looseBinding : Binding Unit Unit := looseLoader.marking {} fun object => object = keptLoader

/-- A collector thread is there to drive a cycle. -/
def looseState : State Unit Unit where
  machine := ⟨((Memory.zero.store 0x3000 8 0x100).store 0x5000 8 0x100).store 0x5008 8 0x200, ()⟩
  registry := { collectors := ({} : Std.ExtTreeMap ThreadId CollectorKind).insert ⟨"g"⟩ .controller }

def stoppedLoose (unload : Bool) : State Unit Unit := ((looseBinding.stopAllMutators ⟨"g"⟩ unload).run looseState).2

/-- What the scans of the strong roots hand over. -/
def looseScans : List (RootCategory × FlushLog) :=
  (RootCategory.strong .tracing).map fun category =>
    (category, if category = .global .universe then [⟨[⟨0x3000⟩], 4096⟩] else [])

def scannedLoose (unload : Bool) : State Unit Unit :=
  ((looseBinding.scanCategories looseBinding.packetSink [] [] (RootCategory.strong .tracing)).run
    (stoppedLoose unload)).2

def updatedLoose (unload : Bool) : State Unit Unit :=
  ((looseBinding.weakPhase .tracing).run
    { scannedLoose unload with machine := (scannedLoose unload).machine }).2

/-- A cycle over these edges. The collector has nothing to do, for it knows what is live. -/
def looseCycle (unload : Bool) : looseBinding.Cycle ⟨"g"⟩ unload .tracing looseState where
  mutators := []
  stopped := stoppedLoose unload
  stop := Act.run_eq_ok (by cases unload <;> decide +kernel)
  categories := RootCategory.strong .tracing
  strong := .refl _
  turns := []
  scans := looseScans
  scanned := scannedLoose unload
  scan := Act.run_eq_ok (by cases unload <;> decide +kernel)
  traced := (scannedLoose unload).machine
  updated := updatedLoose unload
  update := Act.run_eq_ok (by cases unload <;> decide +kernel)
  count := 1
  resumed := ((looseBinding.resumeMutators ⟨"g"⟩).run (updatedLoose unload)).2
  resume := Act.run_eq_ok (by cases unload <;> decide +kernel)

theorem looseCycle_live (unload : Bool) (object : ObjectRef) :
    (looseCycle unload).Live object ↔ object = keptLoader := by
  have hreported : (looseCycle unload).reported = [⟨0x3000⟩] := by
    cases unload <;> decide +kernel
  have hload : (⟨0x3000⟩ : Slot).load .identity (looseCycle unload).traced.memory = .ok (some keptLoader) := by
    cases unload <;> decide +kernel
  constructor
  · intro hlive
    cases hlive with
    | root mem target =>
      rw [hreported, List.mem_singleton] at mem
      subst mem
      change ((⟨0x3000⟩ : Slot).load .identity (looseCycle unload).traced.memory).toOption.join = _ at target
      rw [hload] at target
      cases target
      rfl
    | field _ mem _ => cases mem
  · rintro rfl
    refine .root (hreported ▸ List.mem_singleton_self _) ?_
    change ((⟨0x3000⟩ : Slot).load .identity (looseCycle unload).traced.memory).toOption.join = _
    rw [hload]
    rfl

/-- The slots of the weak edges, and no others, hold weak references. -/
def looseEdges : List Slot := [⟨0x5000⟩, ⟨0x5008⟩]

theorem looseGraph : looseBinding.LoaderGraph (· ∈ looseEdges) fun _ => looseEdges := by
  refine HostRoots.marking_graph looseLoader {} _ ?_ (by simp [looseLoader]) (fun _ hslot => hslot) (fun _ => by rfl)
  intro slot other hslot hother
  have hall : ∀ slot ∈ looseEdges, ∀ other ∈ looseEdges, slot.Separate other := by decide
  exact hall slot hslot other hother

theorem looseCycle_traces (unload : Bool) : (looseCycle unload).Traces (· ∈ looseEdges) fun _ => looseEdges := by
  constructor
  · have hload : ∀ slot ∈ (looseCycle unload).reported,
        slot.load .identity (looseCycle unload).traced.memory = .ok (some keptLoader) := by
      cases unload <;> decide +kernel
    intro slot hslot
    exact ⟨_, hload slot hslot⟩
  · intro slot hslot
    exact ⟨hslot, rfl⟩
  · refine settled_marking.2 ?_
    intro slot _ object _
    rw [looseCycle_live]
    exact decide_eq_true_iff

/-- A cycle that unloads classes clears the edge to the loader that was lost. -/
theorem lost_loader_cleared :
    let cycle := looseCycle true
    (looseBinding.options.classUnloading = true → true = true) ∧
      (∀ slot ∈ cycle.stopped.weakHandles.slots, slot ∈ looseEdges) ∧
      (∀ slot ∈ looseEdges,
        slot.NullOrLive .identity (fun object => object = keptLoader) cycle.resumed.machine.memory) ∧
      (⟨0x5008⟩ : Slot).load .identity cycle.resumed.machine.memory = .ok none := by
  intro cycle
  have handles : ∀ slot ∈ cycle.stopped.weakHandles.slots, slot ∈ looseEdges := by decide +kernel
  have asked : (looseBinding.host.classLoaderGraph .liveFiltered).run cycle.resumed.machine =
      (.ok (looseLoader.loaders .liveFiltered), cycle.resumed.machine) := rfl
  have hsafe := cycle.weak_edges_never_dangle looseGraph handles (looseCycle_traces true) (fun _ => rfl) asked
  refine ⟨fun _ => rfl, handles, ?_, by decide +kernel⟩
  intro slot hslot
  obtain ⟨found, hload, hlive⟩ := hsafe slot hslot
  exact ⟨found, hload, fun object hobject => of_decide_eq_true (hlive object hobject)⟩

/-- A cycle that drops weak edges and unloads no classes leaves an edge to the loader that was lost. -/
theorem lost_loader_left_behind :
    looseBinding.LoaderGraph (· ∈ looseEdges) (fun _ => looseEdges) ∧
      ∃ cycle : looseBinding.Cycle ⟨"g"⟩ false .tracing looseState,
        (∀ slot ∈ cycle.stopped.weakHandles.slots, slot ∈ looseEdges) ∧
        cycle.Traces (· ∈ looseEdges) (fun _ => looseEdges) ∧
        (looseBinding.host.classLoaderGraph .liveFiltered).run cycle.resumed.machine =
          (.ok (looseLoader.loaders .liveFiltered), cycle.resumed.machine) ∧
        ∃ slot ∈ edgeSlots true (looseLoader.loaders .liveFiltered),
          slot.load .identity cycle.resumed.machine.memory = .ok (some lostLoader) ∧
          looseBinding.engine.isLive cycle.resumed.machine lostLoader = false := by
  refine ⟨looseGraph, looseCycle false, by decide +kernel, looseCycle_traces false, rfl, ⟨0x5008⟩, ?_, ?_, ?_⟩
  · decide +kernel
  · decide +kernel
  · decide +kernel

end Safepoint.Binding
