import Safepoint.Proofs.Binding.Frames
import Safepoint.Proofs.Binding.Unloading
import Safepoint.Proofs.Simulated.References

/-!
# Weak references of a simulation

Between marking and sweeping the collector clears and links reference objects and brings weak slots up to date. All of
that returns. Nothing is forwarded meanwhile, and the weak slots stay null or hold objects of the heap.
-/
namespace Safepoint.Simulated

open Act (Meets)
open Heap (fieldSlot)

/-- Weak slots that do not overlap one another, nor the fields of reference objects. -/
structure Laid (heap : Heap) (weak : Slot → Prop) : Prop where
  separate : ∀ slot other, weak slot → weak other → slot.Separate other
  fields : ∀ reference, heap.IsReference reference → ∀ i < 2, ∀ slot, weak slot →
    (fieldSlot reference i).Separate slot

/-- Weak slots and the pending list lead to objects of the heap, of which none has moved. -/
structure Tidy (codec : PointerCodec) (weak : Slot → Prop) (m : SimMachine) : Prop where
  weak : ∀ slot, weak slot → slot.NullOrLive codec m.env.heap.Holds m.memory
  pending : ∀ object ∈ m.env.host.pending, m.env.heap.Holds object
  unmoved : ∀ object, m.env.heap.Holds object → (ForwardingWord.load object m.memory).isForwarded = false

/-- The machine without its memory, and without what the host keeps on record. -/
def bare (m : SimMachine) : SimMachine := { quiet m with memory := .zero, env.host.pending := none }

variable {codec : PointerCodec} {weak : Slot → Prop} {q m : SimMachine} {options : Options}

/-- What a cycle keeps between marking and sweeping. -/
structure Calm (codec : PointerCodec) (weak : Slot → Prop) (q m : SimMachine) : Prop where
  same : bare m = bare q
  tidy : Tidy codec weak m

theorem Calm.heap (h : Calm codec weak q m) : m.env.heap = q.env.heap := by
  have hsame : (bare m).env.heap = (bare q).env.heap := by rw [h.same]
  exact hsame

theorem Calm.collector (h : Calm codec weak q m) : m.env.collector = q.env.collector := by
  have hsame : (bare m).env.collector = (bare q).env.collector := by rw [h.same]
  exact hsame

theorem Calm.walks (h : Calm codec weak q m) : m.env.host.walks = q.env.host.walks := by
  have hsame : (bare m).env.host.walks = (bare q).env.host.walks := by rw [h.same]
  exact hsame

theorem Calm.of_quiet {m' : SimMachine} (h : Calm codec weak q m) (hquiet : quiet m' = quiet m) :
    Calm codec weak q m' := by
  have hbare : bare m' = bare m := by
    unfold bare
    rw [hquiet]
  have htidy : Tidy codec weak (quiet m) := ⟨h.tidy.weak, h.tidy.pending, h.tidy.unmoved⟩
  rw [← hquiet] at htidy
  exact ⟨hbare.trans h.same, htidy.weak, htidy.pending, htidy.unmoved⟩

theorem Calm.clear {slot : Slot} (h : Calm codec weak q m) (hlaid : Laid q.env.heap weak) (hslot : weak slot) :
    Calm codec weak q (WeakTest.cleared slot m) := by
  refine ⟨h.same, ?_, h.tidy.pending, ?_⟩
  · intro other hother
    exact (h.tidy.weak other hother).of_null_or_same
      (Slot.load_clear_of_separate codec m.memory (hlaid.separate slot other hslot hother))
  · intro object hobject
    exact ForwardingWord.isForwarded_clear slot (h.tidy.unmoved object hobject)

/-- Reference objects that lost their referents are handled, and all is still calm. -/
theorem calm_relieved (b : SimBinding) (hsound : m.env.heap.Sound) (hlaid : Laid m.env.heap weak)
    (htidy : Tidy codec weak m) : Calm codec weak m (relieved b m) := by
  have hbare : bare (relieved b m) = bare m := by
    unfold relieved
    cases lost b m <;> rfl
  have hheap : (relieved b m).env.heap = m.env.heap := heap_relieved b m
  have hlost : ∀ object ∈ lost b m, m.env.heap.Holds object := fun _ h => (isReference_of_lost h).holds
  refine ⟨hbare, ?_, ?_, ?_⟩
  · intro slot hslot
    rw [hheap]
    have hseparate : ∀ r ∈ lost b m, ∀ i < 2, (fieldSlot r i).Separate slot :=
      fun r hr i hi => hlaid.fields r (isReference_of_lost hr) i hi slot hslot
    obtain hsame | ⟨value, hvalue, hload⟩ := load_relieved_cases hsound hseparate
    · exact (htidy.weak slot hslot).of_null_or_same (.inr hsame)
    · refine ⟨value, hload, ?_⟩
      obtain rfl | rfl | ⟨next, hnext, rfl⟩ := value_of_relief hvalue
      · simp
      · exact htidy.pending
      · rintro _ ⟨⟩
        exact hlost next hnext
  · intro object hobject
    rw [hheap]
    rw [pending_relieved] at hobject
    cases hdead : lost b m with
    | nil =>
      rw [hdead] at hobject
      exact htidy.pending object hobject
    | cons head rest =>
      rw [hdead] at hobject
      cases hobject
      exact hlost object (by simp [hdead])
  · intro object hobject
    rw [hheap] at hobject
    obtain ⟨c, hc⟩ := Option.isSome_iff_exists.1 hobject
    rw [← htidy.unmoved object hobject, forwardingWord_load hsound hc, forwardingWord_load hsound hc, loadBits_relieved]
    intro r hr i hi
    obtain ⟨a, ha, hkind⟩ := isReference_of_lost hr
    exact hsound.field_apart_header ha (by simpa [hsound.reference r a ha hkind] using hi) hc

/-- The collector says of an object that has not moved that it stays. -/
theorem stays_of_unmoved (range : Option (Address × Address)) {object : ObjectRef}
    (hunmoved : (ForwardingWord.load object m.memory).isForwarded = false) :
    (engine range).forwarded m object = .ok none := by
  cases range with
  | none => rfl
  | some range =>
    change (if range.1 ≤ object.address ∧ object.address < range.2 then (ForwardingWord.load object m.memory).target
      else .ok none) = .ok none
    rw [ForwardingWord.target, hunmoved]
    split <;> rfl

section Slots

variable {range : Option (Address × Address)}

/-- The collector knows what the weak slots hold, whichever of them are cleared. -/
theorem clearable (hlaid : Laid q.env.heap weak) : WeakTest.Clearable (engine range) codec weak
    (· ∈ q.env.collector.marks) (Calm codec weak q) := by
  constructor
  · exact hlaid.separate
  · intro m hm slot hslot object hload
    obtain ⟨found, hfound, hholds⟩ := hm.tidy.weak slot hslot
    rw [hload] at hfound
    cases hfound
    have hunmoved := hm.tidy.unmoved object (hholds object rfl)
    have hlive : (engine range).isLive m object = true ↔ object ∈ q.env.collector.marks := by
      rw [← hm.collector]
      exact decide_eq_true_iff
    constructor
    · exact hlive
    · exact stays_of_unmoved range hunmoved
    · intro hcount
      change 0 < (if (engine range).isLive m object = true then 1 else 0) at hcount
      split at hcount
      · exact hlive.1 ‹_›
      · cases hcount
  · intro slot m hslot hm
    exact hm.clear hlaid hslot

theorem updateAll_meets (hlaid : Laid q.env.heap weak) {slots : List Slot} (hslots : ∀ slot ∈ slots, weak slot)
    (mode : WeakProcessing) (stats : WeakStats) : Meets (Calm codec weak q)
      (((simBinding options codec range).weakTest mode).updateAll stats slots) fun _ => Calm codec weak q := by
  intro m hm
  have hclear : WeakTest.Clearable ((simBinding options codec range).weakTest mode).engine
      ((simBinding options codec range).weakTest mode).codec weak (· ∈ q.env.collector.marks) (Calm codec weak q) :=
    clearable hlaid
  have hload : ∀ slot ∈ slots, ∃ found, slot.load codec m.memory = .ok found := by
    intro slot hslot
    obtain ⟨found, hfound, -⟩ := hm.tidy.weak slot (hslots slot hslot)
    exact ⟨found, hfound⟩
  obtain ⟨stats', m', hrun⟩ := hclear.returns hslots hm hload stats
  exact ⟨stats', m', hrun, (hclear.swept hslots hm hrun).1⟩

/-- What lies in the heap and has its mark is kept. -/
theorem keeps_marked (hrange : ∀ found ∈ range, found = (q.env.heap.start, q.env.heap.limit))
    (hsound : q.env.heap.Sound) (hm : Calm codec weak q m) {slot : Slot} (hslot : weak slot) {object : ObjectRef}
    (hload : slot.load codec m.memory = .ok (some object)) (hmark : object ∈ q.env.collector.marks)
    (mode : WeakProcessing) : ((simBinding options codec range).weakTest mode).Keeps m object := by
  obtain ⟨_, hfound, hholds⟩ := hm.tidy.weak slot hslot
  rw [hload] at hfound
  cases hfound
  have hobject := hholds object rfl
  have hlive : (engine range).isLive m object = true := by
    rw [← hm.collector] at hmark
    exact decide_eq_true hmark
  have hinside : q.env.heap.start ≤ object.address ∧ object.address < q.env.heap.limit := by
    rw [hm.heap] at hobject
    obtain ⟨a, ha⟩ := Option.isSome_iff_exists.1 hobject
    have hlower := hsound.lower object a ha
    have hupper := hsound.upper object a ha
    have hroom := hsound.room
    have hlimit : q.env.heap.limit.toNat = q.env.heap.start.toNat + 8 * heapWords := by
      apply toNat_add_of_lt
      change q.env.heap.start.toNat + 8 * heapWords < 2 ^ 64
      omega
    unfold Heap.endOf at hupper
    rw [UInt64.le_iff_toNat_le, UInt64.lt_iff_toNat_lt, hlimit]
    omega
  let test := (simBinding options codec range).weakTest mode
  have hin : test.inHeap object = true := by
    cases range with
    | none => rfl
    | some found =>
      cases hrange found rfl
      change (decide (q.env.heap.start ≤ object.address) && decide (object.address < q.env.heap.limit)) = true
      simp [hinside]
  have hstays : test.engine.forwarded m object = .ok none := stays_of_unmoved range (hm.tidy.unmoved object hobject)
  have hlive' : test.engine.isLive m object = true := hlive
  have hcount : 0 < test.engine.referenceCount m object := by
    change 0 < if (engine range).isLive m object = true then 1 else 0
    simp [hlive]
  refine ⟨hstays, fun _ => hin, ?_⟩
  change test.isAlive m object = .ok true
  unfold WeakTest.isAlive
  cases test.mode <;> simp [hstays, hlive', hin, hcount, bind, Except.bind, pure, Except.pure]

/-- Weak slots are brought up to date. -/
theorem run_updateAll (options : Options) (hrange : ∀ found ∈ range, found = (q.env.heap.start, q.env.heap.limit))
    (hsound : q.env.heap.Sound) (hlaid : Laid q.env.heap weak) {slots : List Slot} (hslots : ∀ slot ∈ slots, weak slot)
    (mode : WeakProcessing) (stats : WeakStats) (hm : Calm codec weak q m) :
    ∃ stats' m', (((simBinding options codec range).weakTest mode).updateAll stats slots).run m = (.ok stats', m') ∧
      Calm codec weak q m' ∧ m'.env = m.env ∧
      WeakTest.Updated codec (· ∈ q.env.collector.marks) slots m.memory m'.memory := by
  have hclear : WeakTest.Clearable ((simBinding options codec range).weakTest mode).engine
      ((simBinding options codec range).weakTest mode).codec weak (· ∈ q.env.collector.marks)
      (Calm codec weak q) := clearable hlaid
  obtain ⟨stats', m', hrun, hm'⟩ := updateAll_meets hlaid hslots mode stats m hm
  refine ⟨stats', m', hrun, hm', (hclear.swept hslots hm hrun).2.env, hclear.updated hslots ?_ hm hrun⟩
  intro m hm slot hslot object hload hmark
  exact keeps_marked hrange hsound hm hslot hload hmark mode

end Slots

/-- What a scan leaves alone besides the machine. -/
structure Aside (s s' : World) : Prop where
  registry : s'.registry = s.registry
  world : s'.world = s.world
  handles : s'.weakHandles.slots = s.weakHandles.slots
  unloading : s'.unloading = s.unloading

theorem scanSteps_aside (b : SimBinding) : b.ScanSteps Aside where
  refl _ := ⟨rfl, rfl, rfl, rfl⟩
  trans _ _ _ h h' := ⟨h'.registry.trans h.registry, h'.world.trans h.world, h'.handles.trans h.handles,
    h'.unloading.trans h.unloading⟩
  walks := by constructor <;> intro _ s <;> exact ⟨rfl, rfl, rfl, rfl⟩
  code _ _ := ⟨rfl, rfl, rfl, rfl⟩
  nursery _ := ⟨rfl, rfl, rfl, rfl⟩

section Phases

variable {range : Option (Address × Address)} {t : World}

/-- Weak storage is scanned, and nothing else happens. -/
theorem run_gatherStorage (codec : PointerCodec) (range : Option (Address × Address)) {s : World}
    (room : options.rootBufferCapacity ≤ EdgeBuffer.maxCapacity)
    (hnodup : (s.machine.env.host.slotsOf .weakProcessor).Nodup) :
    ∃ log, (Binding.gather [] ((simBinding options codec range).scanWeak (simBinding options codec range).packetSink
        .all)).run s = (.ok log, s) ∧ FlushLog.slots log = s.machine.env.host.slotsOf .weakProcessor :=
  Binding.run_gather_scanWeak (b := simBinding options codec range) room rfl hnodup

/-- The host asks which loaders are alive. It reads weak edges without the codec. -/
theorem run_askLoaders (options : Options) (range : Option (Address × Address))
    (hedges : ∀ slot ∈ Binding.edgeSlots true t.machine.env.host.loaderEdges, weak slot)
    (hlaid : Laid t.machine.env.heap weak) (hplain : ∀ slot ∈ Binding.edgeSlots true t.machine.env.host.loaderEdges,
      ∀ m, slot.load .identity m = slot.load codec m) (mode : WeakProcessing) {m : SimMachine}
    (hm : Calm codec weak t.machine m) :
    ∃ m', (host.unloadClasses ((simBinding options codec range).weakTest mode).isAlive).run m = (.ok (), m') ∧
      quiet m' = quiet m := by
  let test := (simBinding options codec range).weakTest mode
  have hclear : WeakTest.Clearable test.engine codec weak (· ∈ t.machine.env.collector.marks)
      (Calm codec weak t.machine) := clearable hlaid
  have hask : Meets (fun m' => quiet m' = quiet m) (host.unloadClasses test.isAlive)
      fun _ m' => quiet m' = quiet m := by
    apply unloadClasses_meets
    intro edge hedge hweak
    have hwalks : edge ∈ m.env.host.walks.loaders .allStrong := hedge
    rw [hm.walks] at hwalks
    have hslot : edge.slot ∈ Binding.edgeSlots true t.machine.env.host.loaderEdges :=
      List.mem_map_of_mem (List.mem_filter.2 ⟨hwalks, decide_eq_true hweak⟩)
    obtain ⟨found, hload, -⟩ := hm.tidy.weak edge.slot (hedges edge.slot hslot)
    refine ⟨found, (hplain edge.slot hslot m.memory).trans hload, ?_⟩
    rintro loader rfl m' hm'
    have hmemory : (quiet m').memory = (quiet m).memory := by rw [hm']
    have hload' : edge.slot.load codec m'.memory = .ok (some loader) := by
      change edge.slot.load codec (quiet m').memory = _
      rw [hmemory]
      exact hload
    have hknows := hclear.settled m' (hm.of_quiet hm') edge.slot (hedges edge.slot hslot) loader hload'
    obtain ⟨answer, hanswer, -⟩ := test.isAlive_spec hknows
    exact ⟨answer, hanswer⟩
  obtain ⟨_, m', hrun, hquiet⟩ := hask m rfl
  exact ⟨m', hrun, hquiet⟩

/-- The weak edges of the class-loader graph are scanned, and nothing else happens. -/
theorem run_gatherEdges (codec : PointerCodec) (range : Option (Address × Address)) {s : World}
    (room : options.rootBufferCapacity ≤ EdgeBuffer.maxCapacity)
    (hnodup : (s.machine.env.host.loaderEdges.map LoaderEdge.slot).Nodup) :
    ∃ log, (Binding.gather [] (Act.within ⟨fun p => ((p.1, p.2), ([] : FlushLog)), fun q _ => (q.1.1, q.1.2)⟩
        ((simBinding options codec range).scanLoaders Sink.discarding (simBinding options codec range).packetSink
          .liveFiltered))).run s = (.ok log, s) ∧
      FlushLog.slots log = Binding.edgeSlots true s.machine.env.host.loaderEdges :=
  Binding.run_gather_weakEdges (b := simBinding options codec range) room rfl hnodup

end Phases

end Safepoint.Simulated
