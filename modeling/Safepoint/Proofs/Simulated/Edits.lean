import Safepoint.Proofs.Barrier.Store
import Safepoint.Proofs.Barrier.Tiers
import Safepoint.Proofs.Simulated.Dangling

/-!
# What mutators do to the heap between cycles

An allocation places an object that leads nowhere. A store, the setting of a cell and a new root come to the same: a
reference to an object that was not freed is put into one slot, which may be a new one. Neither leaves a dangling
pointer where there was none.
-/
namespace Safepoint.Simulated

open Heap (fieldSlot)

variable {options : Options} {codec : PointerCodec} {range : Option (Address × Address)} {b : SimBinding}
  {s s' : World} {slot cell : Slot} {value : Option ObjectRef}

/-- What mutators leave alone: the state of the world, and the tables but for what the collector keeps for them. -/
structure Beside (s s' : World) : Prop where
  byId : s'.registry.byId = s.registry.byId
  world : s'.world = s.world
  code : s'.codeTable = s.codeTable
  handles : s'.weakHandles = s.weakHandles

theorem Beside.machine (s : World) (m : SimMachine) : Beside s { s with machine := m } := ⟨rfl, rfl, rfl, rfl⟩

/-- The work of a mutator. -/
theorem Beside.leave (s : World) (id : MutatorId) (left : Attached SimMutator Simulation) :
    Beside s (s.leave id left) := ⟨rfl, rfl, rfl, rfl⟩

namespace Beside

variable (h : Beside s s')
include h

theorem rootSlots (b : SimBinding) (roots : Binding.HostRoots) : b.rootSlots roots s' = b.rootSlots roots s := by
  have hids : s'.registry.mutatorIds = s.registry.mutatorIds := by
    unfold Registry.mutatorIds Registry.mutators
    rw [h.byId]
  have hown : b.ownSlots roots s'.registry = b.ownSlots roots s.registry := by
    funext job
    unfold Binding.ownSlots
    rw [hids]
  have hwaiting : b.waiting s'.tables = b.waiting s.tables := by
    unfold Binding.waiting Binding.State.tables
    dsimp only
    rw [h.handles]
  unfold Binding.rootSlots
  rw [hown, h.code, hwaiting]

theorem rootCells (b : SimBinding) (hwalks : s'.machine.env.host.walks = s.machine.env.host.walks) :
    rootCells b s' = rootCells b s := by
  unfold Simulated.rootCells
  rw [h.rootSlots, hwalks]

theorem cells (b : SimBinding) (hwalks : s'.machine.env.host.walks = s.machine.env.host.walks) :
    cells b s' = cells b s := by
  have hhandles : s'.weakHandles.slots = s.weakHandles.slots := by rw [h.handles]
  unfold Simulated.cells
  rw [h.rootCells b hwalks, weakSlots_congr hwalks hhandles]

/-- A state stays in order if the ground does, and what the host keeps. -/
theorem sane (hsane : Sane b s) (hfurnished : (groundPlace.get s'.machine).Furnished b.codec (Simulated.cells b s'))
    (hstart : s'.machine.env.heap.start = s.machine.env.heap.start)
    (hholds : ∀ object, s.machine.env.heap.Holds object → s'.machine.env.heap.Holds object)
    (hpending : s'.machine.env.host.pending = s.machine.env.host.pending)
    (hhost : s'.machine.env.host.Neat b.codec) : Sane b s' := by
  constructor
  · exact hfurnished
  · have hlimit : s'.machine.env.heap.limit = s.machine.env.heap.limit := by rw [Heap.limit, hstart, Heap.limit]
    rw [hstart, hlimit]
    exact hsane.range
  · rw [hpending]
    exact fun object hobject => hholds object (hsane.pending object hobject)
  · exact hhost
  · rw [h.world]
    exact hsane.running
  · exact hsane.room
  · unfold Registry.Sound
    rw [h.byId]
    exact hsane.registry
  · rw [h.code]
    exact hsane.code

end Beside

section Preserved

variable (sane : Sane b s) (nothing : NoDangling b s)
include sane nothing

/-- An object is placed. -/
theorem Sane.placed {fields : UInt64} {kind : ObjectKind} {object : ObjectRef} {g : Ground}
    (hplaced : (groundPlace.get s.machine).Placed fields kind object g) (hkind : kind = .reference → fields = 2)
    (hground : groundPlace.get s'.machine = g) (hhost : s'.machine.env.host = s.machine.env.host)
    (hbeside : Beside s s') : Sane b s' ∧ NoDangling b s' := by
  subst hground
  have hwalks : s'.machine.env.host.walks = s.machine.env.host.walks := by rw [hhost]
  constructor
  · refine hbeside.sane sane ?_ hplaced.start (fun _ => hplaced.holds sane.sound) (by rw [hhost]) ?_
    · rw [hbeside.cells b hwalks]
      exact sane.furnished.allocate hplaced hkind
    · rw [hhost]
      exact sane.host
  · unfold NoDangling
    rw [hbeside.rootCells b hwalks]
    exact sane.furnished.closed_allocate hplaced hkind nothing (rootCells_subset b s)

/-- A reference to an object that was not freed is put into a slot, which may be a new one. -/
theorem Sane.edited (hslot : s.machine.env.heap.Location slot) (hseparate : ∀ other ∈ cells b s, slot.Separate other)
    (hwide : slot.isNarrow = false) (hvalue : ∀ object ∈ value, s.machine.env.heap.Unfreed object)
    (hground : groundPlace.get s'.machine =
      ⟨s.machine.env.heap, slot.storeBits (refBits value) s.machine.memory⟩)
    (hcells : cells b s' ⊆ slot :: cells b s) (hroots : rootCells b s' ⊆ slot :: rootCells b s)
    (hpending : s'.machine.env.host.pending = s.machine.env.host.pending)
    (hhost : s'.machine.env.host.Neat b.codec) (hbeside : Beside s s') : Sane b s' ∧ NoDangling b s' := by
  have hheap : s'.machine.env.heap = s.machine.env.heap := congrArg Ground.heap hground
  constructor
  · refine hbeside.sane sane ?_ (by rw [hheap]) (by simp [hheap]) hpending hhost
    rw [hground]
    exact (sane.furnished.store hslot hseparate hwide fun object hobject => (hvalue object hobject).holds).mono hcells
  · unfold NoDangling
    rw [hground]
    exact (sane.furnished.closed_store hslot hseparate hwide nothing (rootCells_subset b s) hvalue).mono hroots

/-- A reference to an object that was not freed is put into a cell or a field. -/
theorem Sane.overwritten (hslot : (groundPlace.get s.machine).Tracks (cells b s) slot)
    (hwide : slot.isNarrow = false) (hvalue : ∀ object ∈ value, s.machine.env.heap.Unfreed object)
    (hground : groundPlace.get s'.machine =
      ⟨s.machine.env.heap, slot.storeBits (refBits value) s.machine.memory⟩)
    (hhost : s'.machine.env.host = s.machine.env.host) (hbeside : Beside s s') : Sane b s' ∧ NoDangling b s' := by
  have hwalks : s'.machine.env.host.walks = s.machine.env.host.walks := by rw [hhost]
  refine sane.edited nothing (sane.furnished.location hslot) ?_ hwide hvalue hground ?_ ?_ ?_ ?_ hbeside
  · exact fun other hother => sane.furnished.tracked_separate hslot (.inl hother)
  · rw [hbeside.cells b hwalks]
    exact List.subset_cons_self ..
  · rw [hbeside.rootCells b hwalks]
    exact List.subset_cons_self ..
  · rw [hhost]
  · rw [hhost]
    exact sane.host

end Preserved

section Allocation

variable (sane : Sane b s) (nothing : NoDangling b s)
include sane nothing

theorem Sane.allocate {fields : UInt64} {object : ObjectRef}
    (hrun : (Binding.onMachine (Act.within groundPlace (Ground.allocate fields .plain))).run s = (.ok object, s')) :
    Sane b s' ∧ NoDangling b s' := by
  obtain ⟨m, hmachine, rfl⟩ := Act.run_within_eq_ok.1 hrun
  obtain ⟨g, hground, rfl⟩ := Act.run_within_eq_ok.1 hmachine
  exact sane.placed nothing (Ground.placed_allocate hground) (by simp) rfl rfl (.machine s _)

theorem Sane.allocateReference {referent : Option ObjectRef} {object : ObjectRef}
    (hreferent : ∀ object ∈ referent, s.machine.env.heap.Unfreed object)
    (hrun : (Binding.onMachine (Act.within groundPlace (Ground.allocateReference referent))).run s =
      (.ok object, s')) : Sane b s' ∧ NoDangling b s' := by
  obtain ⟨m, hmachine, rfl⟩ := Act.run_within_eq_ok.1 hrun
  obtain ⟨g, hground, rfl⟩ := Act.run_within_eq_ok.1 hmachine
  obtain ⟨placed, hplaced, rfl⟩ := Ground.placed_allocateReference sane.sound hground
  let middle : World := { s with machine := groundPlace.put placed s.machine }
  have hmiddle : Sane b middle ∧ NoDangling b middle :=
    sane.placed nothing hplaced (fun _ => rfl) rfl rfl (.machine s _)
  obtain ⟨sane', nothing'⟩ := hmiddle
  have hget : placed.heap.get? object = some ⟨2, .reference, false⟩ := by simpa using hplaced.objects object
  have hfield : middle.machine.env.heap.IsField (fieldSlot object 0) := ⟨object, _, hget, 0, by decide, rfl⟩
  refine sane'.overwritten nothing' (.inr hfield) (sane'.sound.field_wide hfield) ?_ rfl rfl (.machine middle _)
  exact fun other hother => hplaced.unfreed sane.sound (hreferent other hother)

end Allocation

section Store

/-- The parts of a machine that a store is about. -/
def shared (a : Attached SimMutator Simulation) : Memory × Heap × HostSide :=
  (a.machine.memory, a.machine.env.heap, a.machine.env.host)

theorem onCollector_moves (f : Collector → Collector) :
    Act.Moves Eq shared (Act.within Attached.machinePlace (onCollector f)) := fun _ => rfl

/-- What the collector does when it is told of a store stays on its side. -/
theorem reportPre_moves (range : Option (Address × Address)) (w : Write) :
    Act.Moves Eq shared (reportPre range w) := by
  have htrans (before middle after : Memory × Heap × HostSide) (h : before = middle) (h' : middle = after) :
      before = after := h.trans h'
  unfold reportPre
  refine .bind htrans (fun _ => rfl) fun _ => ?_
  dsimp only
  generalize (!w.slot.isNarrow && _) = reads
  split
  · refine .bind htrans (.unmoved (fun _ => rfl) fun a => ?_) fun old => ?_
    · rw [Act.run_read, Act.run_check_state]
    · exact .bind htrans (onCollector_moves _) fun _ => onCollector_moves _
  · exact onCollector_moves _

theorem writePre_moves (kind : BarrierKind) (range : Option (Address × Address)) (w : Write) :
    Act.Moves Eq shared (Barrier.writePre kind (engine range) w) := by
  intro a
  cases kind with
  | field =>
    rw [Barrier.run_writePre_field]
    exact reportPre_moves range w a
  | _ => rfl

theorem writePost_moves (kind : BarrierKind) (range : Option (Address × Address)) (w : Write) :
    Act.Moves Eq shared (Barrier.writePost kind (engine range) w) := by
  intro a
  cases kind with
  | object =>
    rw [Barrier.run_writePost_object]
    split <;> rfl
  | _ => rfl

/-- A write that returns has put the reference into its slot. -/
theorem shared_of_plainStore {a a' : Attached SimMutator Simulation} {stored : StoredValue}
    (hwide : slot.isNarrow = false)
    (hrun : (Act.within Attached.machinePlace (Barrier.plainStore codec slot value)).run a = (.ok stored, a')) :
    shared a' = (slot.storeBits (refBits value) a.machine.memory, a.machine.env.heap, a.machine.env.host) := by
  have hbits : slot.bits codec value = .ok (refBits value) := by simp [Slot.bits, hwide]
  rw [Barrier.run_plainStore, hbits] at hrun
  cases hrun
  rfl

/-- A store that returns has put the reference into its slot. -/
theorem shared_of_store {kind : BarrierKind} {d : Decorators} {source : ObjectRef} {operand : Operand}
    {a a' : Attached SimMutator Simulation} (hwide : slot.isNarrow = false)
    (hrun : (Barrier.store kind (engine range) codec d source slot operand).run a = (.ok (), a')) :
    shared a' = (slot.storeBits (refBits operand.object) a.machine.memory, a.machine.env.heap, a.machine.env.host) := by
  -- Past the hook before it, a store writes, and whatever comes after keeps what it wrote.
  have hlast {a : Attached SimMutator Simulation}
      (hrun : (do
        let stored ← Act.within Attached.machinePlace (Barrier.plainStore codec slot operand.object)
        let object ← Act.check (stored.decompress codec)
        Barrier.writePost kind (engine range) ⟨source, slot, object⟩ :
          Act (Attached SimMutator Simulation) Unit).run a = (.ok (), a')) :
      shared a' =
        (slot.storeBits (refBits operand.object) a.machine.memory, a.machine.env.heap, a.machine.env.host) := by
    obtain ⟨stored, a₁, hwrite, hchecked⟩ := Act.run_bind_eq_ok.1 hrun
    obtain ⟨object, a₂, hcheck, hpost⟩ := Act.run_bind_eq_ok.1 hchecked
    have hsame := Act.run_check_state (stored.decompress codec) a₁
    rw [hcheck] at hsame
    cases hsame
    rw [← (writePost_moves kind range _).run hpost]
    exact shared_of_plainStore hwide hwrite
  unfold Barrier.store at hrun
  dsimp only at hrun
  split at hrun
  · obtain ⟨stored, a₁, hwrite, hdone⟩ := Act.run_bind_eq_ok.1 hrun
    cases hdone
    exact shared_of_plainStore hwide hwrite
  · split at hrun
    · obtain ⟨_, a₁, hpre, hrest⟩ := Act.run_bind_eq_ok.1 hrun
      have hsame := (writePre_moves kind range _).run hpre
      unfold shared at hsame
      simp only [Prod.mk.injEq] at hsame
      rw [hlast hrest, hsame.1, hsame.2.1, hsame.2.2]
    · exact hlast hrun

/-- A store that returns, whoever does it and in whatever code. -/
theorem Sane.store {me : ThreadId} {tier : Tier} {d : Decorators} {source : ObjectRef} {operand : Operand}
    (sane : Sane (simBinding options codec range) s) (nothing : NoDangling (simBinding options codec range) s)
    (hslot : (groundPlace.get s.machine).Tracks (cells (simBinding options codec range) s) slot)
    (hwide : slot.isNarrow = false) (hvalue : ∀ object ∈ operand.object, s.machine.env.heap.Unfreed object)
    (hrun : ((simBinding options codec range).storeReference me tier d source slot operand).run s = (.ok (), s')) :
    Sane (simBinding options codec range) s' ∧ NoDangling (simBinding options codec range) s' := by
  obtain ⟨id, state, left, hstore, rfl⟩ | ⟨stored, hstore⟩ := Binding.storeReference_returns hrun
  · have hshared := shared_of_store hwide hstore
    unfold shared at hshared
    simp only [Prod.mk.injEq] at hshared
    obtain ⟨hmemory, hheap, hhost⟩ := hshared
    refine sane.overwritten nothing hslot hwide hvalue ?_ hhost (.leave s id left)
    exact congrArg₂ Ground.mk hheap hmemory
  · obtain ⟨m, hmachine, rfl⟩ := Act.run_within_eq_ok.1 hstore
    have hattached : (Act.within Attached.machinePlace (Barrier.plainStore codec slot operand.object)).run
        ⟨detachedMutator, s.machine⟩ = (.ok stored, ⟨detachedMutator, m⟩) :=
      Act.run_within_eq_ok.2 ⟨m, hmachine, rfl⟩
    have hshared := shared_of_plainStore hwide hattached
    unfold shared at hshared
    simp only [Prod.mk.injEq] at hshared
    obtain ⟨hmemory, hheap, hhost⟩ := hshared
    refine sane.overwritten nothing hslot hwide hvalue ?_ hhost (.machine s m)
    exact congrArg₂ Ground.mk hheap hmemory

end Store

section Roots

/-- Where a new root is entered. -/
inductive NewRoot where
  | table (category : RootCategory)
  | stack (id : MutatorId)
  | edge (weak : Bool)

def NewRoot.enter (cell : Slot) (r : HostSide) : NewRoot → HostSide
  | table category => { r with roots := r.roots ++ [(category, cell)] }
  | stack id => { r with stackRoots := r.stackRoots ++ [(id, cell)] }
  | edge weak => { r with loaderEdges := r.loaderEdges ++ [⟨weak, cell⟩] }

/-- Make a cell that holds `object`, and enter it as a root. -/
def addRoot (root : NewRoot) (object : Option ObjectRef) : Act SimMachine Slot := do
  let cell ← newCell object
  onHost fun r => root.enter cell r
  return cell

theorem run_poke (hwide : cell.isNarrow = false) (value : Option ObjectRef) (m : SimMachine) :
    (Machine.poke (cell.store .identity value)).run m =
      (.ok (), { m with memory := cell.storeBits (refBits value) m.memory }) := by
  simp [Machine.poke, Slot.store, Slot.bits, hwide, Except.map]

theorem mem_filter_snoc {κ : Type} [DecidableEq κ] {key key' : κ} {entries : List (κ × Slot)} :
    ((entries ++ [(key', cell)]).filter (·.1 = key)).map Prod.snd ⊆
      cell :: (entries.filter (·.1 = key)).map Prod.snd := by
  intro slot h
  rw [List.filter_append, List.map_append] at h
  obtain hold | hnew := List.mem_append.1 h
  · exact List.mem_cons_of_mem _ hold
  · obtain ⟨entry, hentry, rfl⟩ := List.mem_map.1 hnew
    rw [List.mem_singleton.1 (List.mem_filter.1 hentry).1]
    exact List.mem_cons_self ..

/-- Only the new cell is found besides what was found before. -/
theorem widened_enter (root : NewRoot) (cell : Slot) (r : HostSide) :
    r.walks.Widened (root.enter cell r).walks cell := by
  cases root with
  | table category =>
    exact ⟨fun _ => List.subset_cons_self .., fun _ => mem_filter_snoc, fun _ => mem_filter_snoc,
      fun _ _ hedge => .inl hedge, fun _ => mem_filter_snoc⟩
  | stack id =>
    exact ⟨fun _ => mem_filter_snoc, fun _ => List.subset_cons_self .., fun _ => List.subset_cons_self ..,
      fun _ _ hedge => .inl hedge, fun _ => List.subset_cons_self ..⟩
  | edge weak =>
    refine ⟨fun _ => List.subset_cons_self .., fun _ => List.subset_cons_self .., fun _ => List.subset_cons_self ..,
      fun _ edge hedge => ?_, fun _ => List.subset_cons_self ..⟩
    obtain hold | hnew := List.mem_append.1 hedge
    · exact .inl hold
    · rw [List.mem_singleton.1 hnew]
      exact .inr rfl

/-- A cell that was not there before is entered. -/
theorem HostSide.Neat.enter {r : HostSide} (h : r.Neat codec) (hwide : cell.isNarrow = false)
    (hstorage : cell ∉ r.slotsOf .weakProcessor) (hedges : cell ∉ r.loaderEdges.map LoaderEdge.slot)
    (root : NewRoot) : (root.enter cell r).Neat codec := by
  cases root with
  | table category =>
    refine ⟨?_, h.edges, h.plain⟩
    have hslots : (NewRoot.enter cell r (.table category)).slotsOf .weakProcessor =
        r.slotsOf .weakProcessor ++ if category = .weakProcessor then [cell] else [] := by
      change ((r.roots ++ [(category, cell)]).filter _).map _ = (r.roots.filter _).map _ ++ _
      by_cases hweak : category = .weakProcessor <;> simp [hweak]
    rw [hslots]
    split
    · exact nodup_snoc h.storage hstorage
    · simpa using h.storage
  | stack id => exact ⟨h.storage, h.edges, h.plain⟩
  | edge weak =>
    refine ⟨h.storage, ?_, ?_⟩
    · change ((r.loaderEdges ++ [LoaderEdge.mk weak cell]).map LoaderEdge.slot).Nodup
      rw [List.map_append]
      exact nodup_snoc h.edges hedges
    · intro slot hslot m
      have hcell := (widened_enter (.edge weak) cell r).edgeSlots .allStrong true hslot
      obtain rfl | hold := List.mem_cons.1 hcell
      · unfold Slot.load Slot.reference
        rw [hwide]
        rfl
      · exact h.plain slot hold m

/-- The edges of the class-loader graph are roots or weak. -/
theorem loaderEdges_subset (b : SimBinding) (s : World) :
    s.machine.env.host.loaderEdges.map LoaderEdge.slot ⊆ cells b s := by
  intro slot hslot
  obtain ⟨edge, hedge, rfl⟩ := List.mem_map.1 hslot
  have hstrength (weak : Bool) (h : edge.weak = weak) :
      edge.slot ∈ Binding.edgeSlots weak s.machine.env.host.loaderEdges :=
    List.mem_map_of_mem (List.mem_filter.2 ⟨hedge, by simp [h]⟩)
  cases hweak : edge.weak with
  | true => exact weakSlots_subset b s (List.mem_append_right _ (hstrength true hweak))
  | false =>
    have hjob : .category .classLoaderGraph ∈ b.jobsByCategory := by
      apply List.mem_map_of_mem
      cases b.options.weakProcessing <;> decide
    refine rootCells_subset b s (List.mem_append_left _ (List.mem_flatMap.2 ⟨_, hjob, ?_⟩))
    rw [Binding.ownSlots]
    split
    · exact hstrength false hweak
    · exact hslot

/-- A cell that whoever hands out cells may hand out: it lies off the heap, apart from all cells there are. -/
structure IsFresh (b : SimBinding) (s : World) (cell : Slot) : Prop where
  wide : cell.isNarrow = false
  off : cell.address.toNat + cell.width ≤ s.machine.env.heap.start.toNat ∨
    s.machine.env.heap.start.toNat + 8 * heapWords ≤ cell.address.toNat
  apart : ∀ other ∈ cells b s, cell.Apart other

theorem IsFresh.not_mem (h : IsFresh b s cell) {slots : List Slot} (hslots : slots ⊆ cells b s) : cell ∉ slots :=
  fun hcell => (h.apart cell (hslots hcell)).ne rfl

/-- One cell was added to those there are. The list of all of them is not walked. -/
def HostSide.listed (r : HostSide) : HostSide := { r with cells := r.cells ++ [r.freshCell] }

/-- The state in which a new root was entered. -/
def withRoot (s : World) (root : NewRoot) (value : Option ObjectRef) : World :=
  let cell := s.machine.env.host.freshCell
  { s with
    machine.memory := cell.storeBits (refBits value) s.machine.memory
    machine.env.host := root.enter cell s.machine.env.host.listed }

theorem run_addRoot (hwide : s.machine.env.host.freshCell.isNarrow = false) (root : NewRoot)
    (value : Option ObjectRef) : (Binding.onMachine (addRoot root value)).run s =
      (.ok s.machine.env.host.freshCell, withRoot s root value) := by
  simp [addRoot, newCell, onHost, Binding.onMachine, Binding.State.machinePlace, Act.run_bind, run_poke hwide,
    Except.map, withRoot, HostSide.listed]

/-- What the walks find, and the weak slots that are found otherwise. -/
theorem weakSlots_widened (hwidened : s.machine.env.host.walks.Widened s'.machine.env.host.walks cell)
    (hhandles : s'.weakHandles = s.weakHandles) : weakSlots s' ⊆ cell :: weakSlots s := by
  have hstorage := hwidened.weak .all
  have hedges := hwidened.edgeSlots .allStrong true
  intro slot hslot
  unfold weakSlots at hslot ⊢
  rw [hhandles] at hslot
  simp only [List.mem_append, List.mem_cons] at hslot ⊢
  obtain (hslot | hslot) | hslot := hslot
  · exact (List.mem_cons.1 (hstorage hslot)).imp_right fun hold => .inl (.inl hold)
  · exact .inr (.inl (.inr hslot))
  · exact (List.mem_cons.1 (hedges hslot)).imp_right .inr

/-- A root is entered that holds a reference to an object that was not freed. -/
theorem Sane.addRoot (sane : Sane b s) (nothing : NoDangling b s) {root : NewRoot}
    (hfresh : IsFresh b s s.machine.env.host.freshCell)
    (hvalue : ∀ object ∈ value, s.machine.env.heap.Unfreed object)
    (hrun : (Binding.onMachine (addRoot root value)).run s = (.ok cell, s')) : Sane b s' ∧ NoDangling b s' := by
  rw [run_addRoot hfresh.wide] at hrun
  cases hrun
  have hwidened : s.machine.env.host.walks.Widened (withRoot s root value).machine.env.host.walks
      s.machine.env.host.freshCell := widened_enter root _ s.machine.env.host.listed
  have hstorage : s.machine.env.host.slotsOf .weakProcessor ⊆ cells b s := fun slot hslot =>
    weakSlots_subset b s (List.mem_append_left _ (List.mem_append_left _ hslot))
  refine sane.edited nothing (hfresh.off.imp_right .inl) ?_ hfresh.wide hvalue rfl ?_ ?_ ?_ ?_ (.machine s _)
  · exact fun other hother => .inr (hfresh.apart other hother)
  · intro slot hslot
    obtain hroot | hweak := List.mem_append.1 hslot
    · exact List.cons_subset_cons _ (rootCells_subset b s) (hwidened.rootSlots s hroot)
    · exact List.cons_subset_cons _ (weakSlots_subset b s) (weakSlots_widened hwidened rfl hweak)
  · exact hwidened.rootSlots s
  · cases root <;> rfl
  · have hneat : s.machine.env.host.listed.Neat b.codec :=
      ⟨sane.host.storage, sane.host.edges, sane.host.plain⟩
    exact hneat.enter hfresh.wide (hfresh.not_mem hstorage) (hfresh.not_mem (loaderEdges_subset b s)) root

end Roots

end Safepoint.Simulated
