import Safepoint.Proofs.Simulated.Ground
import Safepoint.Proofs.Simulated.WeakLocations

/-!
# No dangling pointers after a cycle

What a cycle frees cannot be reached, so no root leads to it, and no field of an object that is left. The links that a
cycle writes are the exception: the last of the reference objects it enqueues is linked to the old pending list, and
that is no root. A cycle leaves no dangling pointer if and only if it keeps what it links to.
-/
namespace Safepoint.Simulated

open Heap (fieldSlot)

/-- The slots of the strong roots. -/
def rootCells (b : SimBinding) (s : World) : List Slot := b.rootSlots s.machine.env.host.walks s

/-- The slots in which references are held off the heap. -/
def cells (b : SimBinding) (s : World) : List Slot := rootCells b s ++ weakSlots s

theorem rootCells_subset (b : SimBinding) (s : World) : rootCells b s ⊆ cells b s := List.subset_append_left ..

theorem weakSlots_subset (b : SimBinding) (s : World) : weakSlots s ⊆ cells b s := List.subset_append_right ..

/-- What can be reached from the strong roots. -/
def Reached (b : SimBinding) (s : World) : ObjectRef → Prop := Reachable b.codec s.machine (rootCells b s)

/-- No strong root leads to a freed object, and no strong field of an object that was not freed. -/
def NoDangling (b : SimBinding) (s : World) : Prop := (groundPlace.get s.machine).Closed b.codec (rootCells b s)

/-- The weak roots of the host are listed once each, and it reads its weak edges as the collector does. -/
structure HostSide.Neat (r : HostSide) (codec : PointerCodec) : Prop where
  storage : (r.slotsOf .weakProcessor).Nodup
  edges : (r.loaderEdges.map LoaderEdge.slot).Nodup
  plain : ∀ slot ∈ Binding.edgeSlots true r.loaderEdges, ∀ m, slot.load .identity m = slot.load codec m

/-- A state in which mutators run, as operations leave it. -/
structure Sane (b : SimBinding) (s : World) : Prop where
  furnished : (groundPlace.get s.machine).Furnished b.codec (cells b s)
  /-- A collector that has a heap has this one. -/
  range : ∀ range ∈ b.engine.heapRange, range = (s.machine.env.heap.start, s.machine.env.heap.limit)
  pending : ∀ object ∈ s.machine.env.host.pending, s.machine.env.heap.Holds object
  host : s.machine.env.host.Neat b.codec
  running : s.world.state = .running
  room : b.options.rootBufferCapacity ≤ EdgeBuffer.maxCapacity
  registry : s.registry.Sound
  code : s.codeTable.Sound

/-- A collector thread may run a cycle: the others park, no count runs over, and no slot is reported twice at a time. -/
structure CanCycle (b : SimBinding) (turns : List Nat) (me : ThreadId) (s : World) : Prop where
  collector : ∃ kind, s.registry.collectors[me]? = some kind
  waits : Waits s.machine.env.host
  generation : s.world.generation.toNat + 1 < wordLimit
  epoch : s.codeTable.epoch.toNat + 1 < wordLimit
  distinct : ∀ report ∈ rootReports b turns s, report.2.Nodup

/-- If a reference object that is kept loses its referent, the pending list leads to an object that is kept. A collector
without a heap frees nothing. -/
def PendingKept (b : SimBinding) (s : World) : Prop :=
  b.engine.heapRange.isSome → (∃ reference ∈ s.machine.env.heap.references, Reached b s reference ∧ ∃ referent,
    (fieldSlot reference 0).load b.codec s.machine.memory = .ok (some referent) ∧ ¬Reached b s referent) →
  ∀ object ∈ s.machine.env.host.pending, Reached b s object

section States

variable {b : SimBinding} {turns : List Nat} {me : ThreadId} {s t : World} {object : ObjectRef} {slot : Slot}

/-- Scans of the strong roots report all their slots, whatever turns they take. -/
theorem mem_rootReports (hcode : s.codeTable.Sound) (hepoch : s.codeTable.epoch.toNat + 1 < wordLimit) :
    slot ∈ (rootReports b turns s).flatMap Prod.snd ↔ slot ∈ rootCells b s := by
  have hbegun : (begunTables s).code.Sound := hcode.beginCycle hepoch
  have hperm := (Binding.scansEffect_strong b s.machine.env.host.walks hbegun turns).1
  have hfree : (begunTables s).code.freeSlots = s.codeTable.slots := CodeTable.freeSlots_begun hcode hepoch
  rw [hfree] at hperm
  exact hperm.mem_iff

/-- What can be reached depends on which slots the roots are. -/
theorem reaches_congr {refers : Slot → Option ObjectRef} {fields : ObjectRef → List Slot} {roots others : List Slot}
    (h : ∀ slot, slot ∈ roots ↔ slot ∈ others) :
    Reaches refers fields roots object ↔ Reaches refers fields others object := by
  constructor
  · intro hreaches
    induction hreaches with
    | root mem target => exact .root ((h _).1 mem) target
    | field _ mem target ih => exact .field ih mem target
  · intro hreaches
    induction hreaches with
    | root mem target => exact .root ((h _).2 mem) target
    | field _ mem target ih => exact .field ih mem target

/-- Where nothing dangles, what can be reached was not freed. -/
theorem NoDangling.unfreed (h : NoDangling b s) (hreached : Reached b s object) :
    s.machine.env.heap.Unfreed object := by
  have htarget {slot : Slot} {found : ObjectRef}
      (hlive : slot.NullOrLive b.codec s.machine.env.heap.Unfreed s.machine.memory)
      (hfound : (slot.load b.codec s.machine.memory).toOption.join = some found) :
      s.machine.env.heap.Unfreed found := by
    obtain ⟨value, hload, hall⟩ := hlive
    rw [hload] at hfound
    exact hall found hfound
  induction hreached with
  | root mem target => exact htarget (h.roots _ mem) target
  | @field source _ _ _ mem target ih =>
    cases hfields : s.machine.env.heap.strongFields source with
    | error cause =>
      rw [hfields] at mem
      cases mem
    | ok slots =>
      rw [hfields] at mem
      exact htarget (h.fields source ih slots hfields _ mem) target

/-- Where nothing dangles, a root is null or leads to what can be reached. -/
theorem NoDangling.root (h : NoDangling b s) (hslot : slot ∈ rootCells b s) :
    slot.NullOrLive b.codec (Reached b s) s.machine.memory := by
  obtain ⟨found, hload, -⟩ := h.roots slot hslot
  change slot.load b.codec s.machine.memory = .ok found at hload
  refine ⟨found, hload, ?_⟩
  rintro object rfl
  exact .root hslot (by rw [hload]; rfl)

/-- Where nothing dangles, a strong field of what can be reached is null or leads to what can be reached. -/
theorem NoDangling.field (h : NoDangling b s) (hreached : Reached b s object) {slots : List Slot}
    (hslots : s.machine.env.heap.strongFields object = .ok slots) (hslot : slot ∈ slots) :
    slot.NullOrLive b.codec (Reached b s) s.machine.memory := by
  obtain ⟨found, hload, -⟩ := h.fields object (h.unfreed hreached) slots hslots slot hslot
  change slot.load b.codec s.machine.memory = .ok found at hload
  refine ⟨found, hload, ?_⟩
  rintro target rfl
  have hmem : slot ∈ (s.machine.env.heap.strongFields object).toOption.getD [] := by
    rw [hslots]
    exact hslot
  exact .field hreached hmem (by rw [hload]; rfl)

theorem isField_of_reference {heap : Heap} (hsound : heap.Sound) (hreference : heap.IsReference object) {i : Nat}
    (hi : i < 2) : heap.IsField (fieldSlot object i) := by
  obtain ⟨a, ha, hkind⟩ := hreference
  have htwo : a.fields = 2 := hsound.reference object a ha hkind
  exact ⟨object, a, ha, i, by simpa [htwo] using hi, rfl⟩

namespace Sane

variable (h : Sane b s)
include h

theorem sound : s.machine.env.heap.Sound := h.furnished.heap

theorem orderly : Orderly b.codec s where
  heap := h.sound
  fields object a ha i hi := h.furnished.values (fieldSlot object i) (.inr ⟨object, a, ha, i, hi, rfl⟩)
  laid :=
    { separate := fun slot other hslot hother =>
        h.furnished.separate slot (weakSlots_subset b s hslot) other (weakSlots_subset b s hother)
      fields := by
        intro reference hreference i hi slot hslot
        have hlocation := h.furnished.placed slot (weakSlots_subset b s hslot)
        exact (h.sound.location_separate hlocation (isField_of_reference h.sound hreference hi)).symm }
  tidy :=
    { weak := fun slot hslot => h.furnished.values slot (.inl (weakSlots_subset b s hslot))
      pending := h.pending
      unmoved := h.furnished.unmoved }
  storage := h.host.storage
  edges := h.host.edges
  plain := h.host.plain

theorem ready (nothing : NoDangling b s) (can : CanCycle b turns me s) : Ready b turns me s where
  toOrderly := h.orderly
  collector := can.collector
  running := h.running
  waits := can.waits
  generation := can.generation
  epoch := by
    intro hzero
    have hepoch := can.epoch
    rw [← toNat_add_one can.epoch, hzero] at hepoch
    have hnext := toNat_add_one can.epoch
    rw [hzero] at hnext
    simp at hnext
  room := h.room
  registry := h.registry
  distinct := can.distinct
  roots := by
    intro report hreport slot hslot
    have hmem : slot ∈ rootCells b s :=
      (mem_rootReports h.code can.epoch).1 (List.mem_flatMap.2 ⟨report, hreport, hslot⟩)
    exact (nothing.roots slot hmem).mono fun _ hunfreed => hunfreed.holds

end Sane

/-- What the end of a cycle writes leads to reference objects that lost their referents, or to the pending list. -/
theorem Settled.nullOrLive {live : ObjectRef → Prop} (h : Settled b t s)
    (hsound : t.machine.env.heap.Sound) (hweak : ∀ weak ∈ updatedSlots t.unloading t, weak.Separate slot)
    (hfields : ∀ reference ∈ lost b t.machine, ∀ i < 2, (fieldSlot reference i).Separate slot)
    (hslot : slot.NullOrLive b.codec live t.machine.memory) (hlost : ∀ reference ∈ lost b t.machine, live reference)
    (hpending : lost b t.machine ≠ [] → ∀ object ∈ t.machine.env.host.pending, live object) :
    slot.NullOrLive b.codec live s.machine.memory := by
  have hrelieved : slot.NullOrLive b.codec live (relieved b t.machine).memory := by
    obtain hsame | ⟨value, hvalue, hload⟩ := load_relieved_cases hsound hfields
    · exact hslot.of_null_or_same (.inr hsame)
    · refine ⟨value, hload, ?_⟩
      obtain rfl | rfl | ⟨next, hnext, rfl⟩ := value_of_relief hvalue
      · simp
      · obtain ⟨reference, hreference, -⟩ := slot_of_relief hvalue
        exact hpending (List.ne_nil_of_mem hreference)
      · rintro _ ⟨⟩
        exact hlost next hnext
  exact hrelieved.of_null_or_same (h.memory.others slot hweak)

end States

/-- The links of reference objects end with the tail. -/
theorem exists_mem_links {tail : Option ObjectRef} {references : List ObjectRef} (h : references ≠ []) :
    ∃ last ∈ references, (fieldSlot last 1, tail) ∈ links tail references := by
  obtain ⟨head, rest, rfl⟩ := List.exists_cons_of_ne_nil h
  refine ⟨rest.getLastD head, List.getLastD_mem_cons .., ?_⟩
  rw [links_cons]
  exact List.mem_append_right _ (List.mem_singleton_self _)

section Cycle

variable {b : SimBinding} {turns : List Nat} {me : ThreadId} {s t s' : World} {object : ObjectRef} {slot : Slot}
  (hmarked : Marked b turns s t) (hsettled : Settled b t s')

include hmarked in
theorem updated_tracked (hslot : slot ∈ updatedSlots t.unloading t) :
    (groundPlace.get s.machine).Tracks (cells b s) slot := by
  have hweak := updatedSlots_subset _ _ hslot
  rw [weakSlots_congr hmarked.walks hmarked.handles] at hweak
  exact .inl (weakSlots_subset b s hweak)

include hmarked hsettled in
theorem alike_after : s.machine.env.heap.Alike s'.machine.env.heap := by
  rw [hsettled.heap, ← hmarked.heap]
  unfold sweptHeap
  split
  · exact .sweep _ _
  · exact .refl _

section Sane

variable (sane : Sane b s)
include hmarked sane

theorem Sane.lost_tracked {reference : ObjectRef} (hlost : reference ∈ lost b t.machine) {i : Nat} (hi : i < 2) :
    (groundPlace.get s.machine).Tracks (cells b s) (fieldSlot reference i) := by
  have hreference := isReference_of_lost hlost
  rw [hmarked.heap] at hreference
  exact .inr (isField_of_reference sane.sound hreference hi)

include hsettled

/-- A cell or field stays null or with something live if what the end of the cycle writes is live. -/
theorem Sane.nullOrLive {live : ObjectRef → Prop} (htracked : (groundPlace.get s.machine).Tracks (cells b s) slot)
    (hslot : slot.NullOrLive b.codec live s.machine.memory)
    (hlost : ∀ reference ∈ lost b t.machine, live reference)
    (hpending : lost b t.machine ≠ [] → ∀ object ∈ s.machine.env.host.pending, live object) :
    slot.NullOrLive b.codec live s'.machine.memory := by
  have hsound := sane.sound
  rw [← hmarked.heap] at hsound
  rw [← hmarked.pending] at hpending
  rw [← hmarked.memory] at hslot
  refine hsettled.nullOrLive hsound ?_ ?_ hslot hlost hpending
  · exact fun weak hweak => sane.furnished.tracked_separate (updated_tracked hmarked hweak) htracked
  · exact fun r hr i hi => sane.furnished.tracked_separate (sane.lost_tracked hmarked hr hi) htracked

theorem Sane.furnished_after : (groundPlace.get s'.machine).Furnished b.codec (cells b s) := by
  refine sane.furnished.changed (alike_after hmarked hsettled) ?_ ?_
  · intro slot hslot
    change slot.loadBits s'.machine.memory = slot.loadBits s.machine.memory
    rw [← hmarked.memory]
    apply hsettled.loadBits
    · exact fun weak hweak => hslot weak (sane.furnished.location (updated_tracked hmarked hweak))
    · exact fun r hr i hi => hslot _ (sane.furnished.location (sane.lost_tracked hmarked hr hi))
  · intro slot hslot
    apply sane.nullOrLive hmarked hsettled hslot (sane.furnished.values slot hslot)
    · intro reference hlost
      have hreference := isReference_of_lost hlost
      rw [hmarked.heap] at hreference
      exact hreference.holds
    · exact fun _ => sane.pending

variable (hepoch : s.codeTable.epoch.toNat + 1 < wordLimit)
include hepoch

theorem Sane.tables_after : s'.tables = b.finished (begunTables s) := by
  have hbegun : (begunTables s).code.Sound := sane.code.beginCycle hepoch
  rw [hsettled.tables, hmarked.tables]
  exact (Binding.scansEffect_strong b s.machine.env.host.walks hbegun turns).2

theorem Sane.rootCells_after : rootCells b s' ⊆ rootCells b s := by
  have hwalks := hsettled.walks.trans hmarked.walks
  have htables := sane.tables_after hmarked hsettled hepoch
  unfold rootCells
  rw [hwalks]
  exact Binding.rootSlots_finished _ htables

theorem Sane.cells_after : cells b s' ⊆ cells b s := by
  have hhandles : s'.weakHandles = t.weakHandles := congrArg Binding.Tables.weak hsettled.tables
  have hweak : weakSlots s' = weakSlots s := by
    apply weakSlots_congr (hsettled.walks.trans hmarked.walks)
    rw [hhandles]
    exact hmarked.handles
  unfold cells
  rw [hweak]
  exact List.append_subset.2 ⟨fun slot hslot =>
    List.mem_append_left _ (sane.rootCells_after hmarked hsettled hepoch hslot), List.subset_append_right ..⟩

/-- A cycle leaves the state in order. -/
theorem Sane.after : Sane b s' := by
  have hwalks := hsettled.walks.trans hmarked.walks
  have htables := sane.tables_after hmarked hsettled hepoch
  have hregistry : s'.registry = s.registry := congrArg Binding.Tables.registry htables
  have hcode : s'.codeTable = (begunTables s).code.scanned := congrArg Binding.Tables.code htables
  have hbegun : (begunTables s).code.Sound := sane.code.beginCycle hepoch
  have hedges := loaderEdges_congr hwalks
  have hfurnished := sane.furnished_after hmarked hsettled
  have halike := alike_after hmarked hsettled
  constructor
  · exact hfurnished.mono (sane.cells_after hmarked hsettled hepoch)
  · have hlimit : s'.machine.env.heap.limit = s.machine.env.heap.limit := by
      rw [Heap.limit, halike.start]
      rfl
    rw [halike.start, hlimit]
    exact sane.range
  · intro object hobject
    have ht := hmarked.orderly sane.orderly
    have hcalm := calm_relieved b ht.heap ht.laid ht.tidy
    rw [hsettled.pending] at hobject
    have hholds := hcalm.tidy.pending object hobject
    rw [hcalm.heap, hmarked.heap] at hholds
    rwa [halike.holds]
  · constructor
    · rw [storage_congr hwalks]
      exact sane.host.storage
    · rw [hedges]
      exact sane.host.edges
    · rw [hedges]
      exact sane.host.plain
  · rw [hsettled.world]
  · exact sane.room
  · rw [hregistry]
    exact sane.registry
  · rw [hcode]
    exact hbegun.scanned

end Sane

section Dangling

variable (sane : Sane b s) (hmarks : ∀ object, object ∈ t.machine.env.collector.marks ↔ Reached b s object)
include hmarked hmarks

/-- Reference objects lost their referents that can be reached when their referents cannot. -/
theorem mem_lost_reached {reference : ObjectRef} : reference ∈ lost b t.machine ↔ b.engine.heapRange.isSome ∧
    reference ∈ s.machine.env.heap.references ∧ Reached b s reference ∧ ∃ referent,
      (fieldSlot reference 0).load b.codec s.machine.memory = .ok (some referent) ∧ ¬Reached b s referent := by
  rw [mem_lost, hmarked.heap, hmarked.memory, hmarks]
  simp only [hmarks, and_comm (a := ¬_)]

include hsettled

/-- The objects left are those that can be reached. -/
theorem unfreed_after (hheap : b.engine.heapRange.isSome) :
    s'.machine.env.heap.Unfreed object ↔ s.machine.env.heap.Unfreed object ∧ Reached b s object := by
  rw [hsettled.swept hheap, hmarked.heap, ← hmarks, Heap.unfreed_iff, Heap.unfreed_iff]
  simp only [Heap.get?_sweep, Option.map_eq_some_iff]
  constructor
  · rintro ⟨_, ⟨a, ha, rfl⟩, hfreed⟩
    simp only [Bool.or_eq_false_iff, Bool.not_eq_false', decide_eq_true_eq] at hfreed
    exact ⟨⟨a, ha, hfreed.1⟩, hfreed.2⟩
  · rintro ⟨⟨a, ha, hfreed⟩, hmark⟩
    exact ⟨_, ⟨a, ha, rfl⟩, by simp [hfreed, hmark]⟩

/-- Whether or not the collector has a heap, what can be reached is left. -/
theorem NoDangling.left (nothing : NoDangling b s) (hreached : Reached b s object) :
    s'.machine.env.heap.Unfreed object := by
  by_cases hheap : b.engine.heapRange.isSome
  · exact (unfreed_after hmarked hsettled hmarks hheap).2 ⟨nothing.unfreed hreached, hreached⟩
  · rw [hsettled.heap, sweptHeap, if_neg hheap, hmarked.heap]
    exact nothing.unfreed hreached

/-- The strong fields of an object that is left led to objects that are left. -/
theorem NoDangling.field_left (nothing : NoDangling b s) (hobject : s'.machine.env.heap.Unfreed object)
    {slots : List Slot} (hslots : s.machine.env.heap.strongFields object = .ok slots) (hslot : slot ∈ slots) :
    slot.NullOrLive b.codec s'.machine.env.heap.Unfreed s.machine.memory := by
  by_cases hheap : b.engine.heapRange.isSome
  · have hreached := ((unfreed_after hmarked hsettled hmarks hheap).1 hobject).2
    exact (nothing.field hreached hslots hslot).mono fun _ => nothing.left hmarked hsettled hmarks
  · rw [hsettled.heap, sweptHeap, if_neg hheap, hmarked.heap] at hobject ⊢
    exact nothing.fields object hobject slots hslots slot hslot

include sane

/-- Nothing dangles after a cycle that keeps what it links to. -/
theorem NoDangling.after (nothing : NoDangling b s) (kept : PendingKept b s)
    (hepoch : s.codeTable.epoch.toNat + 1 < wordLimit) : NoDangling b s' := by
  have hlost : ∀ reference ∈ lost b t.machine, s'.machine.env.heap.Unfreed reference := by
    intro reference hreference
    obtain ⟨-, -, hreached, -⟩ := (mem_lost_reached hmarked hmarks).1 hreference
    exact nothing.left hmarked hsettled hmarks hreached
  have hpending : lost b t.machine ≠ [] → ∀ object ∈ s.machine.env.host.pending,
      s'.machine.env.heap.Unfreed object := by
    intro hne object hobject
    obtain ⟨reference, hreference⟩ := List.exists_mem_of_ne_nil _ hne
    obtain ⟨hheap, hlost⟩ := (mem_lost_reached hmarked hmarks).1 hreference
    exact nothing.left hmarked hsettled hmarks (kept hheap ⟨reference, hlost⟩ object hobject)
  constructor
  · intro slot hslot
    have hroot := sane.rootCells_after hmarked hsettled hepoch hslot
    have hlive := (nothing.root hroot).mono fun _ => nothing.left hmarked hsettled hmarks
    exact sane.nullOrLive hmarked hsettled (.inl (rootCells_subset b s hroot)) hlive hlost hpending
  · intro object hobject slots hslots slot hslot
    have halike := alike_after hmarked hsettled
    have hbefore : s.machine.env.heap.strongFields object = .ok slots := by
      change s'.machine.env.heap.strongFields object = .ok slots at hslots
      rw [(halike.sound sane.sound).strongFields_eq, halike.strongSlots] at hslots
      rw [sane.sound.strongFields_eq, hslots]
    have hlive := nothing.field_left hmarked hsettled hmarks hobject hbefore hslot
    exact sane.nullOrLive hmarked hsettled (.inr (sane.sound.isField_of_strong hbefore hslot)) hlive hlost hpending

/-- A cycle after which nothing dangles has kept what it linked to. -/
theorem PendingKept.of_after (clear : LinksClear s) (nothing' : NoDangling b s') : PendingKept b s := by
  rintro hheap ⟨reference, hreference⟩ object hpending
  have ht := hmarked.orderly sane.orderly
  have hlinks : LinksClear t := by
    unfold LinksClear
    rw [hmarked.heap, weakSlots_congr hmarked.walks hmarked.handles]
    exact clear
  have hne : lost b t.machine ≠ [] := List.ne_nil_of_mem ((mem_lost_reached hmarked hmarks).2 ⟨hheap, hreference⟩)
  obtain ⟨last, hlast, hlink⟩ : ∃ last ∈ lost b t.machine,
      (fieldSlot last 1, t.machine.env.host.pending) ∈ links t.machine.env.host.pending (lost b t.machine) :=
    exists_mem_links hne
  have hload := hsettled.linked ht hlinks hlink
  rw [hmarked.pending, Option.mem_def.1 hpending] at hload
  -- The last of the reference objects enqueued is left, and its link is a strong field.
  obtain ⟨-, hreferences, hreached, -⟩ := (mem_lost_reached hmarked hmarks).1 hlast
  obtain ⟨a, ha, hkind, hfreed⟩ := Heap.mem_references.1 hreferences
  have hleft : s'.machine.env.heap.Unfreed last :=
    (unfreed_after hmarked hsettled hmarks hheap).2 ⟨Heap.unfreed_iff.2 ⟨a, ha, hfreed⟩, hreached⟩
  have halike := alike_after hmarked hsettled
  have hstrong : s'.machine.env.heap.strongFields last = .ok [fieldSlot last 1] := by
    obtain ⟨fields, _, freed⟩ := a
    cases hkind
    rw [(halike.sound sane.sound).strongFields_eq, halike.strongSlots, Heap.strongSlots, ha]
  obtain ⟨found, hfound, hall⟩ := nothing'.fields last hleft _ hstrong _ (List.mem_singleton_self _)
  change (fieldSlot last 1).load b.codec s'.machine.memory = .ok found at hfound
  rw [hload] at hfound
  cases hfound
  exact ((unfreed_after hmarked hsettled hmarks hheap).1 (hall object rfl)).2

end Dangling

/-- A cycle comes to its end and leaves the state in order. Nothing dangles then if what it links to was kept; otherwise
something does, unless a weak slot lies on the link. -/
theorem cycle_leaves {options : Options} {codec : PointerCodec} {range : Option (Address × Address)}
    (uncompressed : options.compressedPointers = false) (sane : Sane (simBinding options codec range) s)
    (nothing : NoDangling (simBinding options codec range) s)
    (can : CanCycle (simBinding options codec range) turns me s) :
    ∃ generation s', (runCycle (simBinding options codec range) turns me).run s = (.ok generation, s') ∧
      Sane (simBinding options codec range) s' ∧
      (PendingKept (simBinding options codec range) s → NoDangling (simBinding options codec range) s') ∧
      (LinksClear s → NoDangling (simBinding options codec range) s' →
        PendingKept (simBinding options codec range) s) := by
  have ready := sane.ready nothing can
  obtain ⟨-, -, -, -, t, -, -, -, -, hrun, hmarked⟩ := run_to_marks ready
  obtain ⟨generation, s', hfinish, hsettled⟩ := hmarked.settles sane.range uncompressed ready
  have hmarks : ∀ object, object ∈ t.machine.env.collector.marks ↔
      Reached (simBinding options codec range) s object :=
    fun object => (hmarked.marks object).trans (reaches_congr fun slot => mem_rootReports sane.code can.epoch)
  exact ⟨generation, s', hrun.trans hfinish, sane.after hmarked hsettled can.epoch,
    fun kept => nothing.after hmarked hsettled sane hmarks kept can.epoch,
    fun clear => .of_after hmarked hsettled sane hmarks clear⟩

end Cycle

end Safepoint.Simulated
