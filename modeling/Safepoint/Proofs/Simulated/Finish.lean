import Safepoint.Proofs.Simulated.Weak

/-!
# The end of a cycle

Once the marks are made, a cycle clears the referents that died, enqueues their reference objects, brings weak slots up
to date, sweeps and releases the world. What it leaves is known up to the records of the host and the places of its
threads.
-/
namespace Safepoint.Simulated

open Act (Meets)
open Heap (fieldSlot)

/-- The end of a cycle, once the marks are made. -/
def finish (b : SimBinding) (me : ThreadId) : Act World UInt64 := do
  let dead ← Binding.onMachine (Act.read (deadReferences b))
  Binding.onMachine (dead.forM fun reference =>
    Machine.poke (b.referenceFields.clearReferent reference))
  let _ ← b.enqueueReferences dead
  let _ ← b.updateWeak b.options.weakProcessing
  if (← get).unloading then
    let _ ← b.unloadClasses
  let _ ← Binding.onMachine (sweep b)
  let generation ← b.resumeMutators me
  Binding.onMachine (onCollector fun c => { c with cycles := c.cycles + 1 })
  return generation

/-- Clear the referents that died, and enqueue their reference objects. -/
def relieve (b : SimBinding) : Act World Nat := do
  let dead ← Binding.onMachine (Act.read (deadReferences b))
  Binding.onMachine (dead.forM fun reference =>
    Machine.poke (b.referenceFields.clearReferent reference))
  b.enqueueReferences dead

/-- Sweep the heap and release the world. -/
def release (b : SimBinding) (me : ThreadId) : Act World UInt64 := do
  let _ ← Binding.onMachine (sweep b)
  let generation ← b.resumeMutators me
  Binding.onMachine (onCollector fun c => { c with cycles := c.cycles + 1 })
  return generation

theorem finish_eq (b : SimBinding) (me : ThreadId) : finish b me = (do
    let _ ← relieve b
    let _ ← b.updateWeak b.options.weakProcessing
    if (← get).unloading then
      let _ ← b.unloadClasses
    release b me) := by
  simp only [finish, relieve, release, bind_assoc]

/-- The slots of weak storage, the weak handles, and the weak edges of the class-loader graph. -/
def weakSlots (s : World) : List Slot :=
  s.machine.env.host.slotsOf .weakProcessor ++ s.weakHandles.slots ++
    Binding.edgeSlots true s.machine.env.host.loaderEdges

/-- What the end of a cycle relies on. -/
structure Orderly (codec : PointerCodec) (s : World) : Prop where
  heap : s.machine.env.heap.Sound
  /-- The fields of objects are null or lead to objects. -/
  fields : ∀ object a, s.machine.env.heap.get? object = some a → ∀ i < a.fields.toNat,
    (fieldSlot object i).NullOrLive codec s.machine.env.heap.Holds s.machine.memory
  laid : Laid s.machine.env.heap (· ∈ weakSlots s)
  tidy : Tidy codec (· ∈ weakSlots s) s.machine
  storage : (s.machine.env.host.slotsOf .weakProcessor).Nodup
  edges : (s.machine.env.host.loaderEdges.map LoaderEdge.slot).Nodup
  /-- The host reads weak edges as the collector does. -/
  plain : ∀ slot ∈ Binding.edgeSlots true s.machine.env.host.loaderEdges, ∀ m,
    slot.load .identity m = slot.load codec m

/-- The weak slots that a cycle brings up to date. -/
def updatedSlots (unloading : Bool) (s : World) : List Slot :=
  s.machine.env.host.slotsOf .weakProcessor ++ s.weakHandles.slots ++
    if unloading then Binding.edgeSlots true s.machine.env.host.loaderEdges else []

theorem updatedSlots_subset (unloading : Bool) (s : World) : updatedSlots unloading s ⊆ weakSlots s := by
  unfold updatedSlots weakSlots
  cases unloading <;> simp

section Same

variable {s t : World} (hwalks : t.machine.env.host.walks = s.machine.env.host.walks)
include hwalks

theorem storage_congr : t.machine.env.host.slotsOf .weakProcessor = s.machine.env.host.slotsOf .weakProcessor :=
  congrArg (fun walks => walks.weak .all) hwalks

theorem loaderEdges_congr : t.machine.env.host.loaderEdges = s.machine.env.host.loaderEdges :=
  congrArg (fun walks => walks.loaders .allStrong) hwalks

theorem weakSlots_congr (hhandles : t.weakHandles.slots = s.weakHandles.slots) : weakSlots t = weakSlots s := by
  unfold weakSlots
  rw [storage_congr hwalks, loaderEdges_congr hwalks, hhandles]

theorem updatedSlots_congr (hhandles : t.weakHandles.slots = s.weakHandles.slots) (unloading : Bool) :
    updatedSlots unloading t = updatedSlots unloading s := by
  unfold updatedSlots
  rw [storage_congr hwalks, loaderEdges_congr hwalks, hhandles]

end Same

theorem Orderly.of_same {codec : PointerCodec} {s t : World} (h : Orderly codec s)
    (hmemory : t.machine.memory = s.machine.memory) (hheap : t.machine.env.heap = s.machine.env.heap)
    (hwalks : t.machine.env.host.walks = s.machine.env.host.walks)
    (hpending : t.machine.env.host.pending = s.machine.env.host.pending)
    (hhandles : t.weakHandles.slots = s.weakHandles.slots) : Orderly codec t := by
  have hstorage := storage_congr hwalks
  have hedges := loaderEdges_congr hwalks
  have hweak := weakSlots_congr hwalks hhandles
  constructor
  · rw [hheap]
    exact h.heap
  · rw [hheap, hmemory]
    exact h.fields
  · rw [hheap, hweak]
    exact h.laid
  · constructor
    · rw [hheap, hmemory, hweak]
      exact h.tidy.weak
    · rw [hheap, hpending]
      exact h.tidy.pending
    · rw [hheap, hmemory]
      exact h.tidy.unmoved
  · rw [hstorage]
    exact h.storage
  · rw [hedges]
    exact h.edges
  · rw [hedges]
    exact h.plain

section Finish

variable {options : Options} {codec : PointerCodec} {range : Option (Address × Address)} {b : SimBinding}
  {me : ThreadId} {s t : World} {slots more : List Slot}

/-- From the state `t` with its marks made, referents were cleared, references enqueued and `slots` updated. -/
structure Refreshed (b : SimBinding) (t : World) (slots : List Slot) (s : World) : Prop where
  tables : s.tables = t.tables
  world : s.world = t.world
  unloading : s.unloading = t.unloading
  calm : Calm b.codec (· ∈ weakSlots t) t.machine s.machine
  pending : s.machine.env.host.pending = (relieved b t.machine).env.host.pending
  memory : WeakTest.Updated b.codec (· ∈ t.machine.env.collector.marks) slots (relieved b t.machine).memory
    s.machine.memory

theorem Refreshed.handles (h : Refreshed b t slots s) : s.weakHandles = t.weakHandles :=
  congrArg Binding.Tables.weak h.tables

theorem Refreshed.of_quiet (h : Refreshed b t slots s) {m : SimMachine} (hquiet : quiet m = quiet s.machine) :
    Refreshed b t slots { s with machine := m } := by
  refine ⟨h.tables, h.world, h.unloading, h.calm.of_quiet hquiet, ?_, ?_⟩
  · have hpending : (quiet m).env.host.pending = (quiet s.machine).env.host.pending := by rw [hquiet]
    exact hpending.trans h.pending
  · have hmemory : (quiet m).memory = (quiet s.machine).memory := by rw [hquiet]
    change WeakTest.Updated _ _ _ _ (quiet m).memory
    rw [hmemory]
    exact h.memory

/-- Referents that died are cleared, and their reference objects enqueued. -/
theorem relieve_meets (huncompressed : options.compressedPointers = false) (ht : Orderly codec t) :
    Meets (· = t) (relieve (simBinding options codec range)) fun _ s =>
      Refreshed (simBinding options codec range) t [] s := by
  rintro s rfl
  have hreferents : ∀ r, s.machine.env.heap.IsReference r →
      ∃ found, (fieldSlot r 0).load codec s.machine.memory = .ok found := by
    rintro r ⟨a, ha, hkind⟩
    have htwo : a.fields = 2 := ht.heap.reference r a ha hkind
    obtain ⟨found, hfound, -⟩ := ht.fields r a ha 0 (by simp [htwo])
    exact ⟨found, hfound⟩
  let dead := lost (simBinding options codec range) s.machine
  let cleared : SimMachine := { s.machine with memory := written (referents dead) s.machine.memory }
  have hreferences : ∀ r ∈ dead, s.machine.env.heap.IsReference r := fun _ => isReference_of_lost
  have hdead : (Binding.onMachine (Act.read (deadReferences (simBinding options codec range)))).run s =
      (.ok dead, s) := by
    have hfound := deadReferences_eq range huncompressed ht.heap hreferents
    simp [Binding.onMachine, Binding.State.machinePlace, hfound, dead]
  have hclear : (Binding.onMachine (dead.forM fun reference =>
      Machine.poke ((simBinding options codec range).referenceFields.clearReferent reference))).run s =
      (.ok (), { s with machine := cleared }) :=
    Act.run_within_eq_ok.2 ⟨cleared, run_clearReferents huncompressed ht.heap hreferences, rfl⟩
  have henqueue : ((simBinding options codec range).enqueueReferences dead).run { s with machine := cleared } =
      (.ok dead.length, { s with machine := relieved (simBinding options codec range) s.machine }) :=
    Act.run_within_eq_ok.2 ⟨_, run_enqueue (m := cleared) huncompressed ht.heap hreferences, rfl⟩
  refine ⟨dead.length, { s with machine := relieved (simBinding options codec range) s.machine }, ?_, rfl, rfl, rfl,
    calm_relieved _ ht.heap ht.laid ht.tidy, rfl, .nil⟩
  exact (Act.run_bind_ok hdead).trans ((Act.run_bind_ok hclear).trans henqueue)

section Update

variable (hrange : ∀ found ∈ range, found = (t.machine.env.heap.start, t.machine.env.heap.limit))
  (ht : Orderly codec t) (hslots : slots ⊆ weakSlots t)
include hrange ht hslots

theorem updateSlots_meets (hmore : more ⊆ weakSlots t) (mode : WeakProcessing) :
    Meets (Refreshed (simBinding options codec range) t slots) (Binding.onMachine
      (((simBinding options codec range).weakTest mode).updateAll {} more))
      fun _ s => Refreshed (simBinding options codec range) t (slots ++ more) s := by
  intro s hs
  obtain ⟨stats, m, hrun, hcalm, henv, hupdated⟩ :=
    run_updateAll options hrange ht.heap ht.laid (fun _ h => hmore h) mode {} hs.calm
  refine ⟨stats, { s with machine := m }, Act.run_within_eq_ok.2 ⟨m, hrun, rfl⟩, hs.tables, hs.world, hs.unloading,
    hcalm, ?_, ?_⟩
  · exact (congrArg (fun env : Simulation => env.host.pending) henv).trans hs.pending
  · refine hs.memory.trans hupdated ?_
    intro slot hslot other hother
    exact ht.laid.separate other slot (hmore hother) (hslots hslot)

/-- Weak storage and weak handles are brought up to date. -/
theorem updateWeak_meets (room : options.rootBufferCapacity ≤ EdgeBuffer.maxCapacity) (mode : WeakProcessing) :
    Meets (Refreshed (simBinding options codec range) t slots)
      ((simBinding options codec range).updateWeak mode)
      fun _ s => Refreshed (simBinding options codec range) t
        (slots ++ (t.machine.env.host.slotsOf .weakProcessor ++ t.weakHandles.slots)) s := by
  intro s hs
  have hnodup := ht.storage
  rw [← storage_congr hs.calm.walks] at hnodup
  obtain ⟨log, hgather, hlog⟩ := run_gatherStorage codec range room hnodup
  have hmore : FlushLog.slots log ++ s.weakHandles.slots ⊆ weakSlots t := by
    rw [hlog, storage_congr hs.calm.walks, hs.handles]
    exact List.subset_append_left ..
  obtain ⟨stats, s', hrun, hs'⟩ := updateSlots_meets hrange ht hslots hmore mode s hs
  rw [hlog, storage_congr hs.calm.walks, hs.handles] at hs'
  refine ⟨stats, s', ?_, hs'⟩
  exact (Act.run_bind_ok hgather).trans ((Act.run_bind_ok (Act.run_get s)).trans hrun)

/-- Classes are unloaded, and the weak edges to dead loaders cleared. -/
theorem unload_meets (room : options.rootBufferCapacity ≤ EdgeBuffer.maxCapacity) :
    Meets (Refreshed (simBinding options codec range) t slots)
      (simBinding options codec range).unloadClasses
      fun _ s => Refreshed (simBinding options codec range) t
        (slots ++ Binding.edgeSlots true t.machine.env.host.loaderEdges) s := by
  intro s hs
  have hedges : ∀ slot ∈ Binding.edgeSlots true t.machine.env.host.loaderEdges, slot ∈ weakSlots t :=
    fun slot hslot => List.mem_append_right _ hslot
  obtain ⟨m, hask, hquiet⟩ := run_askLoaders options range hedges ht.laid ht.plain options.weakProcessing hs.calm
  have hasked := hs.of_quiet hquiet
  have hnodup := ht.edges
  rw [← loaderEdges_congr hasked.calm.walks] at hnodup
  obtain ⟨log, hgather, hlog⟩ := run_gatherEdges codec range room hnodup
  rw [loaderEdges_congr hasked.calm.walks] at hlog
  have hmore : FlushLog.slots log ⊆ weakSlots t := by
    rw [hlog]
    exact hedges
  obtain ⟨stats, s', hrun, hs'⟩ :=
    updateSlots_meets hrange ht hslots hmore options.weakProcessing _ hasked
  rw [hlog] at hs'
  refine ⟨stats, s', ?_, hs'⟩
  have hasking : (Binding.onMachine (host.unloadClasses
      ((simBinding options codec range).weakTest options.weakProcessing).isAlive)).run s =
      (.ok (), { s with machine := m }) := Act.run_within_eq_ok.2 ⟨m, hask, rfl⟩
  exact (Act.run_bind_ok hasking).trans ((Act.run_bind_ok hgather).trans hrun)

end Update

/-- The heap as a sweep leaves it. A collector without a heap frees nothing. -/
def sweptHeap (b : SimBinding) (m : SimMachine) : Heap :=
  if b.engine.heapRange.isSome then (m.env.heap.sweep (· ∈ m.env.collector.marks)).2 else m.env.heap

theorem run_sweep (options : Options) (codec : PointerCodec) (range : Option (Address × Address)) (m : SimMachine) :
    ∃ freed, (sweep (simBinding options codec range)).run m =
      (.ok freed, { m with env.heap := sweptHeap (simBinding options codec range) m }) := by
  cases range with
  | none => exact ⟨0, rfl⟩
  | some range => exact ⟨(m.env.heap.sweep (· ∈ m.env.collector.marks)).1, rfl⟩

/-- What a cycle leaves that had its marks made in `t`. -/
structure Settled (b : SimBinding) (t s : World) : Prop where
  tables : s.tables = t.tables
  world : s.world = ⟨.running, t.world.generation + 1⟩
  walks : s.machine.env.host.walks = t.machine.env.host.walks
  marks : s.machine.env.collector.marks = t.machine.env.collector.marks
  heap : s.machine.env.heap = sweptHeap b t.machine
  pending : s.machine.env.host.pending = (relieved b t.machine).env.host.pending
  memory : WeakTest.Updated b.codec (· ∈ t.machine.env.collector.marks) (updatedSlots t.unloading t)
    (relieved b t.machine).memory s.machine.memory

theorem Settled.swept (h : Settled b t s) (hheap : b.engine.heapRange.isSome) :
    s.machine.env.heap = (t.machine.env.heap.sweep (· ∈ t.machine.env.collector.marks)).2 := h.heap.trans (if_pos hheap)

/-- The heap is swept and the world released. -/
theorem release_meets (options : Options) (codec : PointerCodec) (range : Option (Address × Address))
    {kind : CollectorKind} (hcollector : t.registry.collectors[me]? = some kind)
    (hsuspended : t.world.state = .suspended) (hcount : t.world.generation.toNat + 1 < wordLimit) :
    Meets (Refreshed (simBinding options codec range) t (updatedSlots t.unloading t))
      (release (simBinding options codec range) me) fun _ s => Settled (simBinding options codec range) t s := by
  intro s hs
  let swept : World := { s with machine.env.heap := sweptHeap (simBinding options codec range) s.machine }
  obtain ⟨freed, hfreed⟩ := run_sweep options codec range s.machine
  have hsweep : (Binding.onMachine (sweep (simBinding options codec range))).run s = (.ok freed, swept) :=
    Act.run_within_eq_ok.2 ⟨_, hfreed, rfl⟩
  have hkind : (hush swept).registry.collectors[me]? = some kind := by
    change s.registry.collectors[me]? = some kind
    rw [← hcollector]
    exact congrArg (fun tables : Binding.Tables SimMutator => tables.registry.collectors[me]?) hs.tables
  have hstate : (hush swept).world.state = .suspended := (congrArg Coordinator.state hs.world).trans hsuspended
  have hnext : (hush swept).world.generation.toNat + 1 < wordLimit := by
    change s.world.generation.toNat + 1 < wordLimit
    rw [hs.world]
    exact hcount
  obtain ⟨generation, resumed, hresume, hresumed⟩ := resume_meets options codec range hkind hstate hnext swept rfl
  have hquiet : quiet resumed.machine = quiet swept.machine := congrArg Binding.State.machine hresumed
  have htables : (hush resumed).tables = s.tables := by
    rw [hresumed]
    rfl
  have hworld : (hush resumed).world = ⟨.running, s.world.generation + 1⟩ := by
    rw [hresumed]
    rfl
  have hmemory : (quiet resumed.machine).memory = (quiet swept.machine).memory := by rw [hquiet]
  have henv : (quiet resumed.machine).env = (quiet swept.machine).env := by rw [hquiet]
  refine ⟨generation, _, (Act.run_bind_ok hsweep).trans ((Act.run_bind_ok hresume).trans rfl), ?_⟩
  constructor
  · exact htables.trans hs.tables
  · rw [hs.world] at hworld
    exact hworld
  · exact (congrArg (fun env : Simulation => env.host.walks) henv).trans hs.calm.walks
  · have hmarks := congrArg (fun env : Simulation => env.collector.marks) henv
    exact hmarks.trans (congrArg Collector.marks hs.calm.collector)
  · refine (congrArg Simulation.heap henv).trans ?_
    change sweptHeap _ s.machine = sweptHeap _ t.machine
    unfold sweptHeap
    rw [hs.calm.heap, hs.calm.collector]
  · exact (congrArg (fun env : Simulation => env.host.pending) henv).trans hs.pending
  · change WeakTest.Updated _ _ _ _ (quiet resumed.machine).memory
    rw [hmemory]
    exact hs.memory

/-- Once the marks are made, a cycle comes to its end. -/
theorem finish_settles {kind : CollectorKind}
    (hrange : ∀ found ∈ range, found = (t.machine.env.heap.start, t.machine.env.heap.limit))
    (huncompressed : options.compressedPointers = false) (room : options.rootBufferCapacity ≤ EdgeBuffer.maxCapacity)
    (ht : Orderly codec t) (hcollector : t.registry.collectors[me]? = some kind)
    (hsuspended : t.world.state = .suspended) (hcount : t.world.generation.toNat + 1 < wordLimit) :
    Meets (· = t) (finish (simBinding options codec range) me) fun _ s =>
      Settled (simBinding options codec range) t s := by
  let updated := t.machine.env.host.slotsOf .weakProcessor ++ t.weakHandles.slots
  have hupdated : updated ⊆ weakSlots t := List.subset_append_left ..
  have hupdate := updateWeak_meets hrange ht (List.nil_subset _) room options.weakProcessing
  have hunload := unload_meets hrange ht hupdated room
  have hrelease := release_meets options codec range hcollector hsuspended hcount
  rw [finish_eq]
  apply Meets.bind (relieve_meets huncompressed ht)
  intro _
  apply Meets.bind hupdate
  intro _
  apply Meets.bind Meets.get
  rintro now s ⟨rfl, hs⟩
  rw [hs.unloading]
  unfold updatedSlots at hrelease
  cases hunloading : t.unloading with
  | true =>
    rw [hunloading, if_pos rfl] at hrelease
    exact Meets.bind hunload (fun _ => hrelease) now hs
  | false =>
    rw [hunloading, if_neg (by decide), List.append_nil] at hrelease
    exact hrelease now hs

end Finish

end Safepoint.Simulated
