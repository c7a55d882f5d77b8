import Safepoint.Proofs.Binding.SideBySide
import Safepoint.Proofs.Marking
import Safepoint.Proofs.Simulated.Finish

/-!
# Cycles of a simulation

A cycle marks what can be reached, when the world was stopped, from the slots of the strong roots, and frees the rest.
-/
namespace Safepoint.Simulated

open Act (Meets)
open Heap (fieldSlot)

/-- What can be reached from some slots through the strong fields of objects. -/
def Reachable (codec : PointerCodec) (m : SimMachine) (roots : List Slot) : ObjectRef → Prop :=
  Reaches (fun slot => (slot.load codec m.memory).toOption.join)
    (fun object => ((m.env.heap.strongFields object).toOption).getD []) roots

section Marking

variable {options : Options} {codec : PointerCodec} {range : Option (Address × Address)} {m : SimMachine}
  {roots : List Slot}

/-- What can be reached is read off memory and the heap. -/
theorem reachable_congr {m' : SimMachine} (hmemory : m'.memory = m.memory) (hheap : m'.env.heap = m.env.heap) :
    Reachable codec m' roots = Reachable codec m roots := by
  unfold Reachable
  rw [hmemory, hheap]

theorem marks_lawful (b : SimBinding) : (marker b).marks.Lawful where
  get_put _ _ := rfl
  put_put _ _ _ := rfl
  put_get _ := rfl

/-- From no marks on, the collector marks what can be reached. -/
theorem run_marker (options : Options) (range : Option (Address × Address)) (hsound : m.env.heap.Sound)
    (hempty : m.env.collector.marks = {})
    (hroots : ∀ slot ∈ roots, slot.NullOrLive codec m.env.heap.Holds m.memory)
    (hfields : ∀ object a, m.env.heap.get? object = some a → ∀ i < a.fields.toNat,
      (fieldSlot object i).NullOrLive codec m.env.heap.Holds m.memory) :
    ∃ marks, ((marker (simBinding options codec range)).markFrom (roots.length + m.env.heap.fieldCount) roots).run m =
        (.ok (), { m with env.collector.marks := marks }) ∧
      ∀ object, object ∈ marks ↔ Reachable codec m roots object := by
  have hload {slot : Slot} (h : slot.NullOrLive codec m.env.heap.Holds m.memory) :
      slot.load codec m.memory = .ok (slot.load codec m.memory).toOption.join := by
    obtain ⟨found, hfound, -⟩ := h
    rw [hfound]
    rfl
  have hstrong (object : ObjectRef) :
      ((m.env.heap.strongFields object).toOption).getD [] = m.env.heap.strongSlots object := by
    rw [hsound.strongFields_eq]
    rfl
  have hreads : (marker (simBinding options codec range)).Reads m
      (fun slot => (slot.load codec m.memory).toOption.join)
      (fun object => ((m.env.heap.strongFields object).toOption).getD []) roots := by
    constructor
    · exact marks_lawful _
    · intro slot hslot
      exact hload (hroots slot hslot)
    · intro object _ slot hslot
      rw [hstrong] at hslot
      obtain ⟨a, ha, i, hi, rfl⟩ := hsound.mem_strongSlots hslot
      exact hload (hfields object a ha i hi)
    · intro object _ marks
      have hscan : m.env.heap.strongFields object = .ok (((m.env.heap.strongFields object).toOption).getD []) := by
        rw [hsound.strongFields_eq]
        rfl
      change (Act.read fun m : SimMachine => m.env.heap.strongFields object).run
        { m with env.collector.marks := marks } = _
      simp only [Act.run_read]
      rw [hscan]
      rfl
  have hbound : ∀ objects : List ObjectRef, objects.Nodup →
      (objects.map fun object => (((m.env.heap.strongFields object).toOption).getD []).length).sum ≤
        m.env.heap.fieldCount := by
    intro objects hnodup
    simp only [hstrong]
    exact hsound.sum_strongSlots hnodup
  exact Marker.run_markFrom hreads hempty hbound

end Marking

theorem runCycle_eq (b : SimBinding) (turns : List Nat) (me : ThreadId) : runCycle b turns me = (do
    Binding.onMachine (onCollector fun c => { c with marks := {} })
    let _ ← b.stopAllMutators me b.options.classUnloading
    let scanned ← Binding.insist
      (← b.scanCategories b.packetSink [] turns (RootCategory.strong b.options.weakProcessing))
    let roots := scanned.flatMap fun scan => FlushLog.slots scan.2
    let rounds := roots.length + (← get).machine.env.heap.fieldCount
    Binding.onMachine ((marker b).markFrom rounds roots)
    finish b me) := rfl

/-- The tables as the scans of a cycle find them. -/
def begunTables (s : World) : Binding.Tables SimMutator :=
  { s.tables with code := { s.codeTable with epoch := s.codeTable.epoch + 1 } }

/-- What the scans of the strong roots report in a cycle in which they take these turns. -/
def rootReports (b : SimBinding) (turns : List Nat) (s : World) : List (RootCategory × List Slot) :=
  (b.scansEffect s.machine.env.host.walks (begunTables s) turns (RootCategory.strong b.options.weakProcessing)).1

/-- A collector thread may run a cycle. -/
structure Ready (b : SimBinding) (turns : List Nat) (me : ThreadId) (s : World) : Prop extends Orderly b.codec s where
  collector : ∃ kind, s.registry.collectors[me]? = some kind
  running : s.world.state = .running
  waits : Waits s.machine.env.host
  generation : s.world.generation.toNat + 1 < wordLimit
  epoch : s.codeTable.epoch + 1 ≠ 0
  room : b.options.rootBufferCapacity ≤ EdgeBuffer.maxCapacity
  registry : s.registry.Sound
  distinct : ∀ report ∈ rootReports b turns s, report.2.Nodup
  roots : ∀ report ∈ rootReports b turns s, ∀ slot ∈ report.2,
    slot.NullOrLive b.codec s.machine.env.heap.Holds s.machine.memory

/-- Of two states of a heap, the later one has freed what is not to be kept, and differs in nothing else. -/
structure Heap.Frees (before after : Heap) (kept : ObjectRef → Prop) : Prop where
  same : ∀ object, after.get? object = none ↔ before.get? object = none
  freed : ∀ object a c, before.get? object = some a → after.get? object = some c →
    c.fields = a.fields ∧ c.kind = a.kind ∧ (c.freed = true ↔ a.freed = true ∨ ¬kept object)

theorem Heap.frees_sweep {heap : Heap} {marks : Marks} {kept : ObjectRef → Prop}
    (h : ∀ object, object ∈ marks ↔ kept object) : heap.Frees (heap.sweep (· ∈ marks)).2 kept := by
  constructor
  · intro object
    rw [get?_sweep, Option.map_eq_none_iff]
  · intro object a c ha hc
    rw [get?_sweep, ha, Option.map_some, Option.some.injEq] at hc
    subst hc
    refine ⟨rfl, rfl, ?_⟩
    rw [← h]
    simp

/-- The world was stopped and its roots were scanned, from `s` on. -/
structure Scanned (s stopped scanned : World) : Prop where
  quiet : quiet stopped.machine = quiet s.machine
  machine : scanned.machine = stopped.machine
  registry : scanned.registry = s.registry
  world : scanned.world = ⟨.suspended, s.world.generation⟩
  handles : scanned.weakHandles.slots = s.weakHandles.slots

theorem Scanned.memory {s stopped scanned : World} (h : Scanned s stopped scanned) :
    stopped.machine.memory = s.machine.memory := by
  have hsame : (Simulated.quiet stopped.machine).memory = (Simulated.quiet s.machine).memory := by rw [h.quiet]
  exact hsame

theorem Scanned.heap {s stopped scanned : World} (h : Scanned s stopped scanned) :
    stopped.machine.env.heap = s.machine.env.heap := by
  have hsame : (Simulated.quiet stopped.machine).env.heap = (Simulated.quiet s.machine).env.heap := by rw [h.quiet]
  exact hsame

section Runs

variable {options : Options} {codec : PointerCodec} {range : Option (Address × Address)} {turns : List Nat}
  {me : ThreadId} {s : World}

/-- The marks of an earlier cycle do not matter. -/
theorem Ready.unmarked {b : SimBinding} (ready : Ready b turns me s) :
    Ready b turns me { s with machine.env.collector.marks := {} } where
  toOrderly := ready.toOrderly.of_same rfl rfl rfl rfl rfl
  collector := ready.collector
  running := ready.running
  waits := ready.waits
  generation := ready.generation
  epoch := ready.epoch
  room := ready.room
  registry := ready.registry
  distinct := ready.distinct
  roots := ready.roots

/-- A collector thread stops the world and scans the strong roots. -/
theorem stop_and_scan (ready : Ready (simBinding options codec range) turns me s) :
    ∃ mutators stopped scans scanned,
      ((simBinding options codec range).stopAllMutators me options.classUnloading).run s = (.ok mutators, stopped) ∧
      ((simBinding options codec range).scanCategories (simBinding options codec range).packetSink [] turns
        (RootCategory.strong options.weakProcessing)).run stopped = (.ok (.ok scans), scanned) ∧
      Scanned s stopped scanned ∧ scanned.unloading = options.classUnloading ∧
      scanned.tables = ((simBinding options codec range).scansEffect s.machine.env.host.walks (begunTables s) turns
        (RootCategory.strong options.weakProcessing)).2 ∧
      (scans.flatMap fun scan => FlushLog.slots scan.2) =
        (rootReports (simBinding options codec range) turns s).flatMap Prod.snd := by
  let b := simBinding options codec range
  obtain ⟨kind, hcollector⟩ := ready.collector
  have hstop := stop_meets options codec range (t := hush s) hcollector ready.running
    ready.epoch options.classUnloading
  obtain ⟨mutators, stopped, hstopped, hhush⟩ := hstop s ⟨rfl, ready.waits⟩
  have hquiet : quiet stopped.machine = quiet s.machine := congrArg Binding.State.machine hhush
  have htables : (hush stopped).tables = begunTables s := by
    rw [hhush]
    rfl
  have hworld : (hush stopped).world = ⟨.suspended, s.world.generation⟩ := by
    rw [hhush]
    rfl
  have hunloading : (hush stopped).unloading = options.classUnloading := by
    rw [hhush]
    rfl
  have hwalks : (quiet stopped.machine).env.host.walks = (quiet s.machine).env.host.walks := by rw [hquiet]
  have hroots : s.machine.env.host.walks.Of b.host (· = stopped.machine) := by
    apply of_host
    rintro m rfl
    exact hwalks
  obtain ⟨scans, scanned, hscan, hreports, hmachine, hscanned⟩ := Binding.run_scanCategories (b := b) ready.room hroots
    ready.edges (s := stopped) rfl htables ready.registry ready.distinct
  have haside : Aside stopped scanned := ((scanSteps_aside b).scanCategories [] turns _).run hscan
  refine ⟨mutators, stopped, scans, scanned, hstopped, hscan, ⟨hquiet, hmachine, ?_, ?_, ?_⟩,
    haside.unloading.trans hunloading, hscanned, ?_⟩
  · exact haside.registry.trans (congrArg Binding.Tables.registry htables)
  · exact haside.world.trans hworld
  · exact haside.handles.trans (congrArg (fun tables : Binding.Tables SimMutator => tables.weak.slots) htables)
  · change _ = (b.scansEffect s.machine.env.host.walks (begunTables s) turns
      (RootCategory.strong b.options.weakProcessing)).1.flatMap Prod.snd
    rw [← hreports, List.flatMap_map]

/-- The world was stopped and what can be reached was marked, from `s` on. -/
structure Marked (b : SimBinding) (turns : List Nat) (s marked : World) : Prop where
  memory : marked.machine.memory = s.machine.memory
  heap : marked.machine.env.heap = s.machine.env.heap
  walks : marked.machine.env.host.walks = s.machine.env.host.walks
  pending : marked.machine.env.host.pending = s.machine.env.host.pending
  registry : marked.registry = s.registry
  handles : marked.weakHandles.slots = s.weakHandles.slots
  tables : marked.tables = (b.scansEffect s.machine.env.host.walks (begunTables s) turns
    (RootCategory.strong b.options.weakProcessing)).2
  world : marked.world = ⟨.suspended, s.world.generation⟩
  unloading : marked.unloading = b.options.classUnloading
  marks : ∀ object, object ∈ marked.machine.env.collector.marks ↔
    Reachable b.codec s.machine ((rootReports b turns s).flatMap Prod.snd) object

theorem Marked.orderly {b : SimBinding} {marked : World} (h : Marked b turns s marked) (ready : Orderly codec s) :
    Orderly codec marked := ready.of_same h.memory h.heap h.walks h.pending h.handles

theorem Marked.updatedSlots {b : SimBinding} {marked : World} (h : Marked b turns s marked) :
    updatedSlots marked.unloading marked = updatedSlots b.options.classUnloading s := by
  rw [h.unloading, updatedSlots_congr h.walks h.handles]

/-- From the marks on a cycle comes to its end. -/
theorem Marked.settles {marked : World} (h : Marked (simBinding options codec range) turns s marked)
    (hrange : ∀ found ∈ range, found = (s.machine.env.heap.start, s.machine.env.heap.limit))
    (uncompressed : options.compressedPointers = false) (ready : Ready (simBinding options codec range) turns me s) :
    ∃ generation s', (finish (simBinding options codec range) me).run marked = (.ok generation, s') ∧
      Settled (simBinding options codec range) marked s' := by
  obtain ⟨kind, hcollector⟩ := ready.collector
  have hkind : marked.registry.collectors[me]? = some kind := by
    rw [h.registry]
    exact hcollector
  have hcount : marked.world.generation.toNat + 1 < wordLimit := by
    rw [h.world]
    exact ready.generation
  rw [← h.heap] at hrange
  exact finish_settles hrange uncompressed ready.room (h.orderly ready.toOrderly) hkind
    (congrArg Coordinator.state h.world) hcount marked rfl

/-- A cycle comes to its end with the marks made. -/
theorem run_to_marks (ready : Ready (simBinding options codec range) turns me s) :
    ∃ mutators stopped scans scanned marked,
      ((simBinding options codec range).stopAllMutators me options.classUnloading).run
        { s with machine.env.collector.marks := {} } = (.ok mutators, stopped) ∧
      ((simBinding options codec range).scanCategories (simBinding options codec range).packetSink [] turns
        (RootCategory.strong options.weakProcessing)).run stopped = (.ok (.ok scans), scanned) ∧
      Scanned { s with machine.env.collector.marks := {} } stopped scanned ∧
      (scans.flatMap fun scan => FlushLog.slots scan.2) =
        (rootReports (simBinding options codec range) turns s).flatMap Prod.snd ∧
      (runCycle (simBinding options codec range) turns me).run s =
        (finish (simBinding options codec range) me).run marked ∧
      Marked (simBinding options codec range) turns s marked := by
  let b := simBinding options codec range
  let unmarked : World := { s with machine.env.collector.marks := {} }
  obtain ⟨mutators, stopped, scans, scanned, hstopped, hscan, hscanned, hunloading, htables, hroots⟩ :=
    stop_and_scan ready.unmarked
  change (scans.flatMap fun scan => FlushLog.slots scan.2) = (rootReports b turns s).flatMap Prod.snd at hroots
  let roots := scans.flatMap fun scan => FlushLog.slots scan.2
  have hmemory : stopped.machine.memory = s.machine.memory := hscanned.memory
  have hheap : stopped.machine.env.heap = s.machine.env.heap := hscanned.heap
  have hempty : (quiet stopped.machine).env.collector.marks = (quiet unmarked.machine).env.collector.marks := by
    rw [hscanned.quiet]
  have hwalks : (quiet stopped.machine).env.host.walks = (quiet unmarked.machine).env.host.walks := by
    rw [hscanned.quiet]
  have hpending : (quiet stopped.machine).env.host.pending = (quiet unmarked.machine).env.host.pending := by
    rw [hscanned.quiet]
  have hsound := ready.heap
  have hfields := ready.fields
  have hread : ∀ slot ∈ roots, slot.NullOrLive codec s.machine.env.heap.Holds s.machine.memory := by
    intro slot hslot
    have hmem : slot ∈ (rootReports b turns s).flatMap Prod.snd := by
      rw [← hroots]
      exact hslot
    obtain ⟨report, hreport, hslot⟩ := List.mem_flatMap.1 hmem
    exact ready.roots report hreport slot hslot
  rw [← hheap] at hsound
  rw [← hheap, ← hmemory] at hfields hread
  obtain ⟨marks, hmark, hmarks⟩ := run_marker options range hsound hempty hread hfields
  let marked : World := { scanned with machine := { stopped.machine with env.collector.marks := marks } }
  have hmarked : (Binding.onMachine
      ((marker b).markFrom (roots.length + scanned.machine.env.heap.fieldCount) roots)).run scanned =
      (.ok (), marked) := by
    refine Act.run_within_eq_ok.2 ⟨{ stopped.machine with env.collector.marks := marks }, ?_, rfl⟩
    change ((marker b).markFrom (roots.length + scanned.machine.env.heap.fieldCount) roots).run scanned.machine = _
    rw [hscanned.machine]
    exact hmark
  refine ⟨mutators, stopped, scans, scanned, marked, hstopped, hscan, hscanned, hroots, ?_, ?_⟩
  · have hunmark : (Binding.onMachine (onCollector fun c => { c with marks := {} })).run s = (.ok (), unmarked) := rfl
    have hinsist : (Binding.insist (.ok scans) : Act World _).run scanned = (.ok scans, scanned) := rfl
    rw [runCycle_eq]
    refine (Act.run_bind_ok hunmark).trans ?_
    refine (Act.run_bind_ok hstopped).trans ?_
    refine (Act.run_bind_ok hscan).trans ?_
    refine (Act.run_bind_ok hinsist).trans ?_
    refine (Act.run_bind_ok (Act.run_get scanned)).trans ?_
    exact Act.run_bind_ok hmarked
  · refine ⟨hmemory, hheap, hwalks, hpending, hscanned.registry, hscanned.handles, htables, hscanned.world, hunloading,
      ?_⟩
    intro object
    change object ∈ marks ↔ Reachable codec s.machine ((rootReports b turns s).flatMap Prod.snd) object
    rw [hmarks, reachable_congr hmemory hheap, ← hroots]

/-- A cycle ends, has marked what could be reached when the world was stopped, and has freed the rest. -/
theorem frees_what_is_not_reached {layout : Layout} {b : SimBinding} (valid : layoutFacts.validate = .ok layout)
    (made : Binding.ofCodec options layout host
      (engine (some (s.machine.env.heap.start, s.machine.env.heap.limit))) codec = .ok b)
    (uncompressed : b.options.compressedPointers = false) (ready : Ready b turns me s) :
    ∃ mutators stopped scans scanned generation s',
      (b.stopAllMutators me b.options.classUnloading).run { s with machine.env.collector.marks := {} } =
        (.ok mutators, stopped) ∧
      (b.scanCategories b.packetSink [] turns (RootCategory.strong b.options.weakProcessing)).run stopped =
        (.ok (.ok scans), scanned) ∧
      (runCycle b turns me).run s = (.ok generation, s') ∧
      (∀ object, object ∈ s'.machine.env.collector.marks ↔
        Reachable b.codec stopped.machine (scans.flatMap fun scan => FlushLog.slots scan.2) object) ∧
      s.machine.env.heap.Frees s'.machine.env.heap
        (Reachable b.codec stopped.machine (scans.flatMap fun scan => FlushLog.slots scan.2)) := by
  obtain rfl := ofCodec_eq valid made
  obtain ⟨mutators, stopped, scans, scanned, marked, hstopped, hscan, hscanned, hroots, hrun, hmarked⟩ :=
    run_to_marks ready
  obtain ⟨generation, s', hfinish, hsettled⟩ := hmarked.settles (by simp) uncompressed ready
  have hmarks : ∀ object, object ∈ s'.machine.env.collector.marks ↔
      Reachable codec stopped.machine (scans.flatMap fun scan => FlushLog.slots scan.2) object := by
    intro object
    rw [hsettled.marks, hmarked.marks, hroots]
    rw [reachable_congr (m := s.machine) hscanned.memory hscanned.heap]
    rfl
  refine ⟨mutators, stopped, scans, scanned, generation, s', hstopped, hscan, hrun.trans hfinish, hmarks, ?_⟩
  rw [hsettled.swept rfl, hmarked.heap]
  rw [hsettled.marks] at hmarks
  exact Heap.frees_sweep hmarks

end Runs

/-- A heap after an allocation. -/
def allocated (g : Ground) (fields : UInt64) : Ground := ((Ground.allocate fields .plain).run g).2

/-- Three objects with one field each. -/
def ringGround : Ground := allocated (allocated (allocated ⟨{ start := 0x10000 }, .zero⟩ 1) 1) 1

theorem ringGround_sound : ringGround.heap.Sound := by
  have hempty : Heap.Sound { start := 0x10000 } := Heap.Sound.empty (by decide)
  have hplain : ObjectKind.plain = .reference → (1 : UInt64) = 2 := by decide
  have hfirst := Ground.sound_allocate (g := ⟨{ start := 0x10000 }, .zero⟩) hempty hplain rfl (by decide +kernel)
  have hsecond := Ground.sound_allocate hfirst hplain rfl (by decide +kernel)
  exact Ground.sound_allocate hsecond hplain rfl (by decide +kernel)

def ringMutator : Mutator := ⟨⟨1⟩, ⟨"m"⟩, none⟩

/-- A mutator and a collector thread. -/
def ringRegistry : Registry SimMutator :=
  (Registry.addId { nextId := 2, collectors := ({} : Std.ExtTreeMap ThreadId CollectorKind).insert ⟨"g"⟩ .controller }
    ringMutator ⟨⟨1⟩, 0⟩).addThread ringMutator

theorem ringRegistry_sound : ringRegistry.Sound :=
  Registry.Sound.addId (by simp [Registry.Sound]) ringMutator ⟨⟨1⟩, 0⟩

/-- Two of the objects refer to each other. Code on the mutator's stack leads to one of these, and a weak slot to the
third object. -/
def ringWorld : World where
  machine.memory := (((ringGround.memory.store 0x10010 8 0x10018).store 0x10028 8 0x10000).store 0x3000 8 0x10000).store
    0x4000 8 0x10030
  machine.env.heap := ringGround.heap
  machine.env.other := { start := 0x7e0000000000 }
  machine.env.host := { roots := [(.weakProcessor, ⟨0x4000⟩)], threadCode := [(⟨1⟩, ⟨7⟩)] }
  registry := ringRegistry
  codeTable := ({} : CodeTable).register ⟨7⟩ [⟨0x3000⟩]

/-- The scans of the roots go on side by side. -/
def ringBinding : SimBinding :=
  simBinding { parallelRootScan := true } .identity (ringGround.heap.start, ringGround.heap.limit)

/-- The scan of the code table comes between the walk of the mutator's stack and the claim of the blob found there. -/
def ringTurns : List Nat := [0, 0, 9]

/-- What is to be checked where the heap and the slots are given. -/
theorem Orderly.of_entries {codec : PointerCodec} {s : World} (heap : s.machine.env.heap.Sound)
    (fields : ∀ e ∈ s.machine.env.heap.objects.toList, ∀ i < e.2.fields.toNat,
      (fieldSlot e.1 i).NullOrLive codec s.machine.env.heap.Holds s.machine.memory)
    (separate : ∀ slot ∈ weakSlots s, ∀ other ∈ weakSlots s, slot.Separate other)
    (references : ∀ e ∈ s.machine.env.heap.objects.toList, e.2.kind = .reference → ∀ i < 2, ∀ slot ∈ weakSlots s,
      (fieldSlot e.1 i).Separate slot)
    (weak : ∀ slot ∈ weakSlots s, slot.NullOrLive codec s.machine.env.heap.Holds s.machine.memory)
    (pending : ∀ object ∈ s.machine.env.host.pending, s.machine.env.heap.Holds object)
    (unmoved : ∀ e ∈ s.machine.env.heap.objects.toList,
      (ForwardingWord.load e.1 s.machine.memory).isForwarded = false)
    (storage : (s.machine.env.host.slotsOf .weakProcessor).Nodup)
    (edges : (s.machine.env.host.loaderEdges.map LoaderEdge.slot).Nodup)
    (plain : ∀ slot ∈ Binding.edgeSlots true s.machine.env.host.loaderEdges, ∀ m,
      slot.load .identity m = slot.load codec m) : Orderly codec s where
  heap := heap
  fields object a ha := fields (object, a) (Heap.mem_entries ha)
  laid :=
    { separate := fun slot other hslot hother => separate slot hslot other hother
      fields := by
        rintro reference ⟨a, ha, hkind⟩
        exact references (reference, a) (Heap.mem_entries ha) hkind }
  tidy :=
    { weak := weak
      pending := pending
      unmoved := by
        intro object hobject
        obtain ⟨a, ha⟩ := Option.isSome_iff_exists.1 hobject
        exact unmoved (object, a) (Heap.mem_entries ha) }
  storage := storage
  edges := edges
  plain := plain

theorem ringWorld_orderly : Orderly .identity ringWorld :=
  .of_entries ringGround_sound (by decide +kernel) (by decide +kernel) (by decide +kernel) (by decide +kernel)
    (by decide +kernel) (by decide +kernel) (by decide +kernel) (by decide +kernel) fun _ _ _ => rfl

theorem ringWorld_ready : Ready ringBinding ringTurns ⟨"g"⟩ ringWorld where
  toOrderly := ringWorld_orderly
  collector := ⟨.controller, by decide +kernel⟩
  running := rfl
  waits := by simp [Waits, ringWorld]
  generation := by decide
  epoch := by decide
  room := by decide
  registry := ringRegistry_sound
  distinct := by decide +kernel
  roots := by decide +kernel

def ringFirst : ObjectRef := ⟨0x10000, by decide, by decide⟩

def ringSecond : ObjectRef := ⟨0x10018, by decide, by decide⟩

def ringLost : ObjectRef := ⟨0x10030, by decide, by decide⟩

/-- The two objects are kept, and the third is freed. -/
theorem ring_kept :
    layoutFacts.validate = .ok simLayout ∧
      Binding.ofCodec { parallelRootScan := true } simLayout host
        (engine (some (ringWorld.machine.env.heap.start, ringWorld.machine.env.heap.limit))) .identity =
          .ok ringBinding ∧
      ringBinding.options.compressedPointers = false ∧ Ready ringBinding ringTurns ⟨"g"⟩ ringWorld ∧
      ∃ generation s', (runCycle ringBinding ringTurns ⟨"g"⟩).run ringWorld = (.ok generation, s') ∧
        (∀ object, object ∈ s'.machine.env.collector.marks ↔ object = ringFirst ∨ object = ringSecond) ∧
        s'.machine.env.heap.isFreed ringLost = true := by
  have made : Binding.ofCodec { parallelRootScan := true } simLayout host
      (engine (some (ringWorld.machine.env.heap.start, ringWorld.machine.env.heap.limit))) .identity =
        .ok ringBinding := rfl
  refine ⟨validate_layoutFacts, made, rfl, ringWorld_ready, ?_⟩
  obtain ⟨_, stopped, scans, _, generation, s', -, -, hrun, hmarks, hfrees⟩ :=
    frees_what_is_not_reached validate_layoutFacts made rfl ringWorld_ready
  have hmarked : ((runCycle ringBinding ringTurns ⟨"g"⟩).run ringWorld).2.machine.env.collector.marks.toList =
      [ringFirst, ringSecond] := by decide +kernel
  rw [hrun] at hmarked
  have hkept (object : ObjectRef) :
      object ∈ s'.machine.env.collector.marks ↔ object = ringFirst ∨ object = ringSecond := by
    rw [← Std.ExtTreeSet.mem_toList, hmarked]
    simp
  have hlost : ¬Reachable ringBinding.codec stopped.machine (scans.flatMap fun scan => FlushLog.slots scan.2)
      ringLost := by
    rw [← hmarks, hkept]
    decide
  refine ⟨generation, s', hrun, hkept, ?_⟩
  have hbefore : ringWorld.machine.env.heap.get? ringLost = some ⟨1, .plain, false⟩ := by decide +kernel
  unfold Heap.isFreed
  cases hafter : s'.machine.env.heap.get? ringLost with
  | none => rfl
  | some a => exact (hfrees.freed ringLost _ a hbefore hafter).2.2.2 (.inr hlost)

/-- One object without fields, and no roots. -/
def loneGround : Ground := allocated ⟨{ start := 0x10000 }, .zero⟩ 0

theorem loneGround_sound : loneGround.heap.Sound := by
  have hempty : Heap.Sound { start := 0x10000 } := Heap.Sound.empty (by decide)
  have hplain : ObjectKind.plain = .reference → (0 : UInt64) = 2 := by decide
  exact Ground.sound_allocate (g := ⟨{ start := 0x10000 }, .zero⟩) hempty hplain rfl (by decide +kernel)

def loneWorld : World where
  machine := ⟨loneGround.memory, { heap := loneGround.heap, other := { start := 0x7e0000000000 } }⟩
  registry := { collectors := ({} : Std.ExtTreeMap ThreadId CollectorKind).insert ⟨"g"⟩ .controller }

theorem loneWorld_orderly : Orderly .identity loneWorld :=
  .of_entries loneGround_sound (by decide +kernel) (by decide +kernel) (by decide +kernel) (by decide +kernel)
    (by decide +kernel) (by decide +kernel) (by decide +kernel) (by decide +kernel) fun _ _ _ => rfl

def loneBinding : SimBinding := simBinding {} .identity (loneGround.heap.start, loneGround.heap.limit)

/-- A binding to a collector that was given no heap. -/
def heapless : SimBinding := { loneBinding with engine := engine none }

/-- A binding whose buffers are larger than memory. -/
def oversized : SimBinding := { loneBinding with options := { rootBufferCapacity := EdgeBuffer.maxCapacity + 1 } }

/-- A thread is attached that neither parks nor polls. -/
def busyWorld : World :=
  { loneWorld with machine.env.host.parking.attached := ({} : Std.ExtTreeSet ThreadId).insert ⟨"m"⟩ }

/-- As many cycles have been completed as can be counted. -/
def lastWorld : World := { loneWorld with world.generation := 0xffffffffffffffff }

/-- A collector without a heap keeps an object that nothing leads to. A cycle does not end well if a buffer cannot be
made, an attached thread does not park, or the count of cycles runs over. -/
theorem lone_object_kept :
    (Binding.ofCodec {} simLayout host (engine none) .identity = .ok heapless ∧ Ready heapless [] ⟨"g"⟩ loneWorld ∧
      ∃ stopped scans s',
        ((heapless.stopAllMutators ⟨"g"⟩ true).run loneWorld).2 = stopped ∧
        ((heapless.scanCategories heapless.packetSink [] [] (RootCategory.strong .tracing)).run stopped).1 =
          .ok (.ok scans) ∧
        (runCycle heapless [] ⟨"g"⟩).run loneWorld = (.ok 1, s') ∧
        s'.machine.env.heap.isFreed ringFirst = false ∧
        ¬Reachable .identity stopped.machine (scans.flatMap fun scan => FlushLog.slots scan.2) ringFirst) ∧
    (Binding.ofCodec { rootBufferCapacity := EdgeBuffer.maxCapacity + 1 } simLayout host
        (engine (some (loneWorld.machine.env.heap.start, loneWorld.machine.env.heap.limit))) .identity = .ok oversized ∧
      ((runCycle oversized [] ⟨"g"⟩).run loneWorld).1 = .error (.panic .capacityOverflow)) ∧
    (Orderly .identity busyWorld ∧ ((runCycle loneBinding [] ⟨"g"⟩).run busyWorld).1 = .error .stuck) ∧
    (Orderly .identity lastWorld ∧
      ((runCycle loneBinding [] ⟨"g"⟩).run lastWorld).1 = .error (.panic .addOverflow)) := by
  refine ⟨⟨rfl, ?_, ?_⟩, ⟨rfl, by decide +kernel⟩, ⟨?_, by decide +kernel⟩, ⟨?_, by decide +kernel⟩⟩
  · exact
      { toOrderly := loneWorld_orderly
        collector := ⟨.controller, by decide +kernel⟩
        running := rfl
        waits := by simp [Waits, loneWorld]
        generation := by decide
        epoch := by decide
        room := by decide
        registry := by simp [Registry.Sound, loneWorld]
        distinct := by decide +kernel
        roots := by decide +kernel }
  · let scans : List (RootCategory × FlushLog) := (RootCategory.strong .tracing).map fun category => (category, [])
    have hroots : (scans.flatMap fun scan => FlushLog.slots scan.2) = [] := by decide +kernel
    refine ⟨_, scans, ((runCycle heapless [] ⟨"g"⟩).run loneWorld).2, rfl, by decide +kernel,
      Act.run_eq_ok (by decide +kernel), by decide +kernel, ?_⟩
    rw [hroots]
    exact not_reaches_nil
  · exact loneWorld_orderly.of_same rfl rfl rfl rfl rfl
  · exact loneWorld_orderly.of_same rfl rfl rfl rfl rfl

end Safepoint.Simulated
