import Mathlib.Data.List.Pairwise
import Safepoint.Proofs.Binding.WeakStorage

/-!
# Classes unloaded

What the host is told of an object when it unloads classes is what becomes of the weak edges that lead to that object.
-/
namespace Safepoint.Binding

variable {μ ε : Type} {b : Binding μ ε} {s : State μ ε} {asked told m : Machine ε} {edges : List LoaderEdge}

/-- A scan for the weak edges of the graph hands over those that the walk gives, and leaves the machine as the walk
does. -/
theorem run_gather_weakEdges (room : b.options.rootBufferCapacity ≤ EdgeBuffer.maxCapacity)
    (hwalk : (b.host.classLoaderGraph .liveFiltered).run s.machine = (.ok edges, m))
    (hnodup : (edges.map LoaderEdge.slot).Nodup) :
    ∃ log, (gather [] (Act.within ⟨fun p => ((p.1, p.2), ([] : FlushLog)), fun q _ => (q.1.1, q.1.2)⟩
        (b.scanLoaders Sink.discarding b.packetSink .liveFiltered))).run s = (.ok log, { s with machine := m }) ∧
      FlushLog.slots log = edgeSlots true edges := by
  obtain ⟨weakLog, log, hrun, -, hweak⟩ := run_scanLoaders_of_walk Sink.discarding_empties
    (Sink.collecting_empties b.options.rootBufferCapacity) (by decide) (room_of_capacity room) hwalk
    (nodup_edgeSlots hnodup false) (nodup_edgeSlots hnodup true)
  exact ⟨weakLog, gather_eq_ok.2 ⟨_, Act.run_within_eq_ok.2 ⟨_, hrun, rfl⟩⟩, hweak⟩

/-- What an unloading of classes comes to, from the memory `before` on. The host and its walk left the machine `m`, and
`asked` is one on which the host had its questions answered. -/
structure Unloads (test : WeakTest μ ε) (edges : List LoaderEdge) (before : Memory) (asked m : Machine ε)
    (stats : WeakStats) (memory : Memory) : Prop where
  null : ∀ slot ∈ edgeSlots true edges, slot.load test.codec before = .ok none → slot.load test.codec memory = .ok none
  /-- A weak edge is cleared if the host was told that its object is dead, and follows its object otherwise. -/
  told : ∀ slot ∈ edgeSlots true edges, ∀ object, slot.load test.codec before = .ok (some object) →
    (slot.load test.codec memory = .ok none ↔ test.isAlive asked object = .ok false) ∧
      (slot.load test.codec memory ≠ .ok none → ∃ target, test.engine.forwarded asked object = .ok target ∧
        slot.load test.codec memory = .ok (some (target.getD object)))
  strong : ∀ slot ∈ edgeSlots false edges, slot.loadBits memory = slot.loadBits before
  others : m.memory.SameApart (edgeSlots true edges) memory
  counts : stats.Counts ((edgeSlots true edges).map (test.outcome m))

theorem apart_of_strength (hapart : (edges.map LoaderEdge.slot).Pairwise Slot.Apart) {slot other : Slot}
    (hslot : slot ∈ edgeSlots true edges) (hother : other ∈ edgeSlots false edges) : slot.Apart other := by
  obtain ⟨edge, hedge, rfl⟩ := List.mem_map.1 hslot
  obtain ⟨strong, hstrong, rfl⟩ := List.mem_map.1 hother
  obtain ⟨hedge, hweak⟩ := List.mem_filter.1 hedge
  obtain ⟨hstrong, hnot⟩ := List.mem_filter.1 hstrong
  have hne : edge ≠ strong := by
    rintro rfl
    simp_all
  have hall : edges.Pairwise fun edge other => edge.slot.Apart other.slot := List.pairwise_map.1 hapart
  have : Std.Symm fun edge other : LoaderEdge => edge.slot.Apart other.slot := ⟨fun _ _ h => h.symm⟩
  exact hall.forall hedge hstrong hne

/-- An update of the weak edges does what the host was told of their objects. -/
theorem unloads_of_updates {test : WeakTest μ ε} {before memory : Memory} {stats : WeakStats}
    (hgraph : ∀ edge ∈ edges, edge.slot.loadBits m.memory = edge.slot.loadBits before)
    (hapart : (edges.map LoaderEdge.slot).Pairwise Slot.Apart) (hasked : test.engine.Agrees asked m)
    (hupdatable : test.Updatable (edgeSlots true edges) m)
    (hupdates : test.Updates (edgeSlots true edges) m stats memory) :
    Unloads test edges before asked m stats memory := by
  have hbits (weak : Bool) : ∀ slot ∈ edgeSlots weak edges, slot.loadBits m.memory = slot.loadBits before := by
    intro slot hslot
    obtain ⟨edge, hedge, rfl⟩ := List.mem_map.1 hslot
    exact hgraph edge (List.mem_filter.1 hedge).1
  have hothers : m.memory.SameApart (edgeSlots true edges) memory := hupdates.spared.mono List.filter_sublist.subset
  refine ⟨?_, ?_, ?_, hothers, hupdates.counts⟩
  · intro slot hslot hnull
    have hload := hupdates.left slot hslot none ((Slot.load_congr (hbits true slot hslot)).trans hnull)
    exact hload
  · intro slot hslot object hobject
    have hheld : slot.load test.codec m.memory = .ok (some object) :=
      (Slot.load_congr (hbits true slot hslot)).trans hobject
    rw [hupdates.left slot hslot _ hheld, ← WeakTest.isAlive_congr hasked, ← hasked.forwarded]
    obtain ⟨hdead, hleft⟩ | ⟨target, htarget, halive, hleft⟩ :=
      WeakTest.leaves_eq (hupdatable.answers slot hslot object hheld)
    · simp [hdead, hleft]
    · simp [htarget, halive, hleft]
  · intro slot hslot
    rw [← hbits false slot hslot]
    exact hothers.loadBits fun other hother => apart_of_strength hapart hother hslot

/-- Where the host unloads classes and does not touch the edges of its graph, the weak edges of which can be updated, an
unloading of classes returns. A weak edge is cleared if and only if the host was told that its object is dead. -/
theorem unloads_as_told (room : b.options.rootBufferCapacity ≤ EdgeBuffer.maxCapacity)
    (hunload : (b.host.unloadClasses (b.weakTest b.options.weakProcessing).isAlive).run s.machine = (.ok (), told))
    (hwalk : (b.host.classLoaderGraph .liveFiltered).run told = (.ok edges, m))
    (hgraph : ∀ edge ∈ edges, edge.slot.loadBits m.memory = edge.slot.loadBits s.machine.memory)
    (hapart : (edges.map LoaderEdge.slot).Pairwise Slot.Apart) (hasked : b.engine.Agrees asked m)
    (hupdatable : (b.weakTest b.options.weakProcessing).Updatable (edgeSlots true edges) m) :
    ∃ stats memory, b.unloadClasses.run s = (.ok stats, { s with machine := { m with memory } }) ∧
      Unloads (b.weakTest b.options.weakProcessing) edges s.machine.memory asked m stats memory := by
  let test := b.weakTest b.options.weakProcessing
  have hnodup : (edges.map LoaderEdge.slot).Nodup := hapart.imp Slot.Apart.ne
  have hweak : (edgeSlots true edges).Pairwise Slot.Apart := hapart.sublist (List.filter_sublist.map _)
  have hhook : (onMachine (b.host.unloadClasses test.isAlive)).run s = (.ok (), { s with machine := told }) :=
    Act.run_within_eq_ok.2 ⟨_, hunload, rfl⟩
  obtain ⟨log, hgather, hlog⟩ := run_gather_weakEdges (s := { s with machine := told }) room hwalk hnodup
  obtain ⟨stats, memory, hrun, hupdates⟩ := hupdatable.updates hweak
  refine ⟨stats, memory, ?_, unloads_of_updates hgraph hapart hasked hupdatable hupdates⟩
  rw [← hlog] at hrun
  have hmachine : (onMachine (test.updateAll {} (FlushLog.slots log))).run { s with machine := m } =
      (.ok stats, { s with machine := { m with memory } }) := Act.run_within_eq_ok.2 ⟨_, hrun, rfl⟩
  exact (Act.run_bind_ok hhook).trans ((Act.run_bind_ok hgather).trans hmachine)

/-- Weak edges at three slots, and a strong one. -/
def fourEdges : List LoaderEdge := WeakTest.threeSlots.map (⟨true, ·⟩) ++ [⟨false, ⟨0x10000028⟩⟩]

/-- A host with a class-loader graph. -/
def loaderGraph (edges : List LoaderEdge) : HostRoots := { twoThreads with loaders := fun _ => edges }

def unloadingBinding : Binding Unit Unit :=
  { (loaderGraph fourEdges).binding {} with
    engine := .mover WeakTest.movedOnce fun object => object = WeakTest.staying }

/-- The strong edge leads to the object that is dead. -/
def unloadingState : State Unit Unit where
  machine := ⟨WeakTest.threeHeld.store 0x10000028 8 0x10003000, ()⟩

/-- One weak edge follows its loader, another stays, and the third is cleared. The strong edge to the same loader is
not. -/
theorem dead_loader_unloaded :
    let b := unloadingBinding
    let s := unloadingState
    let test := b.weakTest b.options.weakProcessing
    let dead : ObjectRef := ⟨0x10003000, by decide, by decide⟩
    (b.host.unloadClasses test.isAlive).run s.machine = (.ok (), s.machine) ∧
      (b.host.classLoaderGraph .liveFiltered).run s.machine = (.ok fourEdges, s.machine) ∧
      (fourEdges.map LoaderEdge.slot).Pairwise Slot.Apart ∧ test.Updatable (edgeSlots true fourEdges) s.machine ∧
      test.isAlive s.machine dead = .ok false ∧
      ∃ memory, b.unloadClasses.run s = (.ok ⟨3, 1, 1, 1⟩, { s with machine := { s.machine with memory } }) ∧
        fourEdges.map (fun edge => edge.slot.load b.codec memory) =
          [.ok (some WeakTest.arrived), .ok (some WeakTest.staying), .ok none, .ok (some dead)] := by
  intro b s test dead
  have hapart : (fourEdges.map LoaderEdge.slot).Pairwise Slot.Apart := by decide
  have hheld : (edgeSlots true fourEdges).map (fun slot => slot.load test.codec s.machine.memory) =
      [some WeakTest.leaving, some WeakTest.staying, some dead].map .ok := by decide +kernel
  have hupdatable : test.Updatable (edgeSlots true fourEdges) s.machine := by
    refine ⟨Engine.mover_unswayed _ _ _ _, WeakTest.readable_of_map hheld, fun _ _ _ _ _ => ⟨_, rfl⟩, ?_⟩
    intro slot _ _ target htarget
    obtain ⟨object, -, hmoved⟩ := WeakTest.forwarded_of_fate htarget
    obtain rfl := WeakTest.movedOnce_eq_some (Except.ok.inj hmoved)
    exact WeakTest.carries_arrived
  have hunload : (b.host.unloadClasses test.isAlive).run s.machine = (.ok (), s.machine) := rfl
  have hwalk : (b.host.classLoaderGraph .liveFiltered).run s.machine = (.ok fourEdges, s.machine) := rfl
  obtain ⟨stats, memory, hrun, -⟩ :=
    unloads_as_told (by decide) hunload hwalk (fun _ _ => rfl) hapart (.refl _ s.machine) hupdatable
  have hstats : (b.unloadClasses.run s).1 = .ok ⟨3, 1, 1, 1⟩ := by decide +kernel
  have hmemory : (b.unloadClasses.run s).2.machine.memory = memory := by rw [hrun]
  rw [hrun] at hstats
  obtain rfl := Except.ok.inj hstats
  refine ⟨hunload, hwalk, hapart, hupdatable, by decide +kernel, memory, hrun, ?_⟩
  rw [← hmemory]
  decide +kernel

/-- The host is told that an object is alive, but the codec has no bits for where it was moved to, and its edge is null.
And where a buffer cannot be allocated, nothing is cleared. -/
theorem alive_object_cut_off :
    let object : ObjectRef := ⟨0x10001000, by decide, by decide⟩
    let target : ObjectRef := ⟨0x10000000, by decide, by decide⟩
    let slot := Slot.narrow 0x10000010
    let based : Binding Unit Unit := { (loaderGraph [⟨true, slot⟩]).binding { compressedPointers := true } with
      codec := ⟨0x10000000, 3⟩
      engine := .mover (fun moved => if moved.address = 0x10001000 then some target else none) fun _ => false }
    let s : State Unit Unit := { machine := ⟨Memory.zero.store 0x10000010 4 0x200, ()⟩ }
    let r := based.unloadClasses.run s
    let edge : Slot := ⟨0x10000010⟩
    let huge : Binding Unit Unit :=
      { (loaderGraph [⟨true, edge⟩]).binding { rootBufferCapacity := EdgeBuffer.maxCapacity + 1 } with
        engine := .mover (fun _ => none) fun _ => false }
    let s' : State Unit Unit := { machine := ⟨Memory.zero.store 0x10000010 8 0x10001000, ()⟩ }
    based.engine.Unswayed [slot] s.machine ∧ huge.engine.Unswayed [edge] s'.machine ∧
      slot.load based.codec s.machine.memory = .ok (some object) ∧
      (based.weakTest .tracing).isAlive s.machine object = .ok true ∧ r.1 = .ok ⟨1, 0, 1, 0⟩ ∧
      slot.load based.codec r.2.machine.memory = .ok none ∧
      edge.load huge.codec s'.machine.memory = .ok (some object) ∧
      (huge.weakTest .tracing).isAlive s'.machine object = .ok false ∧
      huge.unloadClasses.faultOf s' = some (.panic .capacityOverflow) :=
  ⟨Engine.mover_unswayed _ _ _ _, Engine.mover_unswayed _ _ _ _, by decide +kernel⟩

end Safepoint.Binding
