import Safepoint.Proofs.Simulated.Cycle

/-!
# Weak locations after a cycle

Weak storage, weak handles, weak edges of the class-loader graph and the referents of reference objects are treated by
three passes. They agree on the marks: a location keeps what was marked and loses what was not.
-/
namespace Safepoint.Simulated

open Heap (fieldSlot)

section Settled

variable {b : SimBinding} {s t : World} {slot : Slot} {reference : ObjectRef}

/-- What is apart from all that a cycle writes is as it was. -/
theorem Settled.loadBits (h : Settled b t s) (hweak : ∀ weak ∈ updatedSlots t.unloading t, weak.Apart slot)
    (hfields : ∀ reference ∈ lost b t.machine, ∀ i < 2, (fieldSlot reference i).Apart slot) :
    slot.loadBits s.machine.memory = slot.loadBits t.machine.memory :=
  (h.memory.apart slot hweak).trans (loadBits_relieved hfields)

/-- The reference objects left are those that had a mark and were not freed before. -/
theorem Settled.mem_references (h : Settled b t s) (hheap : b.engine.heapRange.isSome) :
    reference ∈ s.machine.env.heap.references ↔
      reference ∈ t.machine.env.heap.references ∧ reference ∈ t.machine.env.collector.marks := by
  rw [h.swept hheap, Heap.mem_references, Heap.mem_references]
  simp only [Heap.get?_sweep, Option.map_eq_some_iff]
  constructor
  · rintro ⟨_, ⟨a, ha, rfl⟩, hkind, hfreed⟩
    simp only [Bool.or_eq_false_iff, Bool.not_eq_false', decide_eq_true_eq] at hfreed
    exact ⟨⟨a, ha, hkind, hfreed.1⟩, hfreed.2⟩
  · rintro ⟨⟨a, ha, hkind, hfreed⟩, hmark⟩
    exact ⟨_, ⟨a, ha, rfl⟩, hkind, by simp [hfreed, hmark]⟩

theorem mem_lost : reference ∈ lost b t.machine ↔ b.engine.heapRange.isSome ∧
    reference ∈ t.machine.env.heap.references ∧ reference ∈ t.machine.env.collector.marks ∧
      ∃ referent, referent ∉ t.machine.env.collector.marks ∧
        (fieldSlot reference 0).load b.codec t.machine.memory = .ok (some referent) := by
  by_cases hheap : b.engine.heapRange.isSome
  · rw [lost, if_pos hheap, List.mem_filter, isLost, Bool.and_eq_true, decide_eq_true_eq]
    refine (and_congr_right fun _ => and_congr_right fun _ => ?_).trans (iff_and_self.2 fun _ => hheap)
    constructor
    · intro hlost
      split at hlost
      · rename_i referent hload
        exact ⟨referent, of_decide_eq_true hlost, hload⟩
      · cases hlost
    · rintro ⟨referent, hunmarked, hload⟩
      rw [hload]
      exact decide_eq_true hunmarked
  · rw [lost, if_neg hheap]
    simp [hheap]

variable (h : Settled b t s) (ht : Orderly b.codec t)
include h ht

/-- A referent that died is null. -/
theorem Settled.referent_of_lost (hlost : reference ∈ lost b t.machine) :
    (fieldSlot reference 0).load b.codec s.machine.memory = .ok none := by
  have hcleared : (fieldSlot reference 0).load b.codec (relieved b t.machine).memory = .ok none :=
    load_relieved ht.heap (List.mem_append_left _ (List.mem_map_of_mem hlost))
  obtain hnull | hsame := h.memory.others (fieldSlot reference 0) (fun weak hweak =>
    (ht.laid.fields reference (isReference_of_lost hlost) 0 (by omega) weak (updatedSlots_subset _ _ hweak)).symm)
  · exact hnull
  · exact hsame.trans hcleared

/-- A referent that did not die is as it was. -/
theorem Settled.referent_of_not_lost (hheap : b.engine.heapRange.isSome)
    (hreference : reference ∈ t.machine.env.heap.references) (hmark : reference ∈ t.machine.env.collector.marks)
    (hkept : reference ∉ lost b t.machine) :
    (fieldSlot reference 0).NullOrLive b.codec (· ∈ t.machine.env.collector.marks) t.machine.memory ∧
      (fieldSlot reference 0).load b.codec s.machine.memory =
        (fieldSlot reference 0).load b.codec t.machine.memory := by
  obtain ⟨a, ha, hkind⟩ := Heap.isReference_of_mem hreference
  have htwo : a.fields = 2 := ht.heap.reference reference a ha hkind
  obtain ⟨found, hfound, -⟩ := ht.fields reference a ha 0 (by simp [htwo])
  have hlive : (fieldSlot reference 0).NullOrLive b.codec (· ∈ t.machine.env.collector.marks) t.machine.memory := by
    refine ⟨found, hfound, ?_⟩
    rintro referent rfl
    by_contra hunmarked
    exact hkept (mem_lost.2 ⟨hheap, hreference, hmark, referent, hunmarked, hfound⟩)
  have hrelieved : (fieldSlot reference 0).load b.codec (relieved b t.machine).memory =
      (fieldSlot reference 0).load b.codec t.machine.memory := by
    refine Slot.load_congr (loadBits_relieved fun other hother i hi => ?_)
    obtain ⟨c, hc, hkind'⟩ := isReference_of_lost hother
    have htwo' : c.fields = 2 := ht.heap.reference other c hc hkind'
    have hne : other ≠ reference := by
      rintro rfl
      exact hkept hother
    exact ht.heap.fieldSlot_apart hc (by simpa [htwo'] using hi) ha (by simp [htwo]) (.inl hne)
  refine ⟨hlive, ?_⟩
  have hseparate : ∀ weak ∈ updatedSlots t.unloading t, weak.Separate (fieldSlot reference 0) :=
    fun weak hweak => (ht.laid.fields reference ⟨a, ha, hkind⟩ 0 (by omega) weak (updatedSlots_subset _ _ hweak)).symm
  exact (h.memory.spared _ hseparate (hlive.of_null_or_same (.inr hrelieved))).trans hrelieved

/-- Weak slots do not overlap the links of reference objects. -/
def LinksClear (s : World) : Prop :=
  ∀ reference, s.machine.env.heap.IsReference reference → ∀ slot ∈ weakSlots s, (fieldSlot reference 1).Apart slot

/-- A weak slot that held something marked holds it. -/
theorem Settled.held (hlinks : LinksClear t) (hslot : slot ∈ updatedSlots t.unloading t) {object : ObjectRef}
    (hmark : object ∈ t.machine.env.collector.marks) (hload : slot.load b.codec t.machine.memory = .ok (some object)) :
    slot.load b.codec s.machine.memory = .ok (some object) := by
  have hweak := updatedSlots_subset _ _ hslot
  have hapart : ∀ r ∈ lost b t.machine, ∀ i < 2, (fieldSlot r i).Apart slot := by
    intro r hr i hi
    have hreference := isReference_of_lost hr
    obtain rfl | rfl : i = 0 ∨ i = 1 := by omega
    · refine (ht.laid.fields r hreference 0 hi slot hweak).resolve_left ?_
      rintro rfl
      -- The referent of a reference object that lost it has no mark, and what this slot holds has one.
      obtain ⟨-, -, -, referent, hunmarked, hreferent⟩ := mem_lost.1 hr
      rw [hload] at hreferent
      cases hreferent
      exact hunmarked hmark
    · exact hlinks r hreference slot hweak
  have hrelieved : slot.load b.codec (relieved b t.machine).memory = .ok (some object) :=
    (Slot.load_congr (loadBits_relieved hapart)).trans hload
  have hlive : slot.NullOrLive b.codec (· ∈ t.machine.env.collector.marks) (relieved b t.machine).memory := by
    refine ⟨some object, hrelieved, ?_⟩
    rintro _ ⟨⟩
    exact hmark
  have hseparate : ∀ weak ∈ updatedSlots t.unloading t, weak.Separate slot :=
    fun weak hmem => ht.laid.separate weak slot (updatedSlots_subset _ _ hmem) hweak
  exact (h.memory.spared slot hseparate hlive).trans hrelieved

/-- The reference objects enqueued are linked. -/
theorem Settled.linked (hlinks : LinksClear t) {link : Slot × Option ObjectRef}
    (hlink : link ∈ links t.machine.env.host.pending (lost b t.machine)) :
    link.1.load b.codec s.machine.memory = .ok link.2 := by
  have hslot : link.1 ∈ (links t.machine.env.host.pending (lost b t.machine)).map Prod.fst :=
    List.mem_map_of_mem hlink
  rw [map_fst_links] at hslot
  obtain ⟨r, hr, hslot⟩ := List.mem_map.1 hslot
  have hsame := h.memory.apart link.1 (fun weak hweak => by
    rw [← hslot]
    exact (hlinks r (isReference_of_lost hr) weak (updatedSlots_subset _ _ hweak)).symm)
  exact (Slot.load_congr hsame).trans (load_relieved ht.heap (List.mem_append_right _ hlink))

/-- Of the reference objects left, those were enqueued whose referents were cleared. -/
theorem Settled.mem_lost_iff (hheap : b.engine.heapRange.isSome) :
    reference ∈ lost b t.machine ↔ reference ∈ s.machine.env.heap.references ∧ ∃ referent,
      (fieldSlot reference 0).load b.codec t.machine.memory = .ok (some referent) ∧
      (fieldSlot reference 0).load b.codec s.machine.memory = .ok none := by
  rw [h.mem_references hheap]
  constructor
  · intro hlost
    obtain ⟨-, hreference, hmark, referent, -, hload⟩ := mem_lost.1 hlost
    exact ⟨⟨hreference, hmark⟩, referent, hload, h.referent_of_lost ht hlost⟩
  · rintro ⟨⟨hreference, hmark⟩, referent, hload, hnull⟩
    by_contra hkept
    obtain ⟨-, hsame⟩ := h.referent_of_not_lost ht hheap hreference hmark hkept
    rw [hnull, hload] at hsame
    cases hsame

/-- The referent of a reference object that is left is null or has a mark, and is the old one if that has a mark. -/
theorem Settled.referent_left (hheap : b.engine.heapRange.isSome)
    (hleft : reference ∈ s.machine.env.heap.references) :
    (fieldSlot reference 0).NullOrLive b.codec (· ∈ t.machine.env.collector.marks) s.machine.memory ∧
      ∀ object ∈ t.machine.env.collector.marks,
        (fieldSlot reference 0).load b.codec t.machine.memory = .ok (some object) →
        (fieldSlot reference 0).load b.codec s.machine.memory = .ok (some object) := by
  obtain ⟨hreference, hmark⟩ := (h.mem_references hheap).1 hleft
  by_cases hlost : reference ∈ lost b t.machine
  · refine ⟨.of_null (h.referent_of_lost ht hlost), ?_⟩
    intro object hobject hload
    obtain ⟨-, -, -, referent, hunmarked, hreferent⟩ := mem_lost.1 hlost
    rw [hload] at hreferent
    cases hreferent
    exact absurd hobject hunmarked
  · obtain ⟨hlive, hsame⟩ := h.referent_of_not_lost ht hheap hreference hmark hlost
    exact ⟨hlive.of_null_or_same (.inr hsame), fun object _ hload => hsame.trans hload⟩

end Settled

section Cycle

variable {options : Options} {codec : PointerCodec} {turns : List Nat} {me : ThreadId} {s : World}

/-- Where a cycle from `s` to `s'` treats references as weak. -/
def weakLocations (b : SimBinding) (s s' : World) : List Slot :=
  updatedSlots b.options.classUnloading s ++ s'.machine.env.heap.references.map (fieldSlot · 0)

/-- After a cycle each weak location is null or holds a marked object, and those that held a marked object hold it. No
slot apart from weak locations and from the fields of the reference objects enqueued was written. These are, each once,
the reference objects left whose referents were cleared, and they are in front of the pending list. -/
theorem weak_locations_settle {layout : Layout} {b : SimBinding} (valid : layoutFacts.validate = .ok layout)
    (made : Binding.ofCodec options layout host
      (engine (some (s.machine.env.heap.start, s.machine.env.heap.limit))) codec = .ok b)
    (uncompressed : b.options.compressedPointers = false) (ready : Ready b turns me s) (clear : LinksClear s) :
    ∃ generation s' dead, (runCycle b turns me).run s = (.ok generation, s') ∧
      (∀ object, object ∈ s'.machine.env.collector.marks ↔
        Reachable b.codec s.machine ((rootReports b turns s).flatMap Prod.snd) object) ∧
      (∀ slot ∈ weakLocations b s s',
        slot.NullOrLive b.codec (· ∈ s'.machine.env.collector.marks) s'.machine.memory ∧
        ∀ object ∈ s'.machine.env.collector.marks, slot.load b.codec s.machine.memory = .ok (some object) →
          slot.load b.codec s'.machine.memory = .ok (some object)) ∧
      (∀ slot, (∀ weak ∈ weakLocations b s s', weak.Apart slot) →
        (∀ reference ∈ dead, (fieldSlot reference 1).Apart slot) →
        slot.loadBits s'.machine.memory = slot.loadBits s.machine.memory) ∧
      dead.Nodup ∧
      (∀ reference, reference ∈ dead ↔ reference ∈ s'.machine.env.heap.references ∧
        ∃ referent, (fieldSlot reference 0).load b.codec s.machine.memory = .ok (some referent) ∧
          (fieldSlot reference 0).load b.codec s'.machine.memory = .ok none) ∧
      (∀ link ∈ links s.machine.env.host.pending dead, link.1.load b.codec s'.machine.memory = .ok link.2) ∧
      s'.machine.env.host.pending = dead.head?.or s.machine.env.host.pending := by
  obtain rfl := ofCodec_eq valid made
  obtain ⟨-, -, -, -, t, -, -, -, -, hrun, hmarked⟩ := run_to_marks ready
  obtain ⟨generation, s', hfinish, h⟩ := hmarked.settles (by simp) uncompressed ready
  have ht : Orderly codec t := hmarked.orderly ready.toOrderly
  have hslots : updatedSlots t.unloading t = updatedSlots options.classUnloading s := hmarked.updatedSlots
  have hlinks : LinksClear t := by
    unfold LinksClear
    rw [hmarked.heap, weakSlots_congr hmarked.walks hmarked.handles]
    exact clear
  let dead := lost (simBinding options codec (some (s.machine.env.heap.start, s.machine.env.heap.limit))) t.machine
  refine ⟨generation, s', dead, hrun.trans hfinish, ?_, ?_, ?_, nodup_lost _ t.machine, ?_, ?_, ?_⟩
  · intro object
    rw [h.marks]
    exact hmarked.marks object
  · intro slot hslot
    change slot.NullOrLive codec _ _ ∧ ∀ object ∈ _, slot.load codec _ = _ → slot.load codec _ = _
    rw [← hmarked.memory, h.marks]
    obtain hslot | hslot := List.mem_append.1 hslot
    · change slot ∈ updatedSlots options.classUnloading s at hslot
      rw [← hslots] at hslot
      exact ⟨h.memory.updated slot hslot, fun object hmark hload => h.held ht hlinks hslot hmark hload⟩
    · obtain ⟨reference, hleft, rfl⟩ := List.mem_map.1 hslot
      exact h.referent_left ht rfl hleft
  · intro slot hweak hlink
    rw [← hmarked.memory]
    apply h.loadBits
    · intro weak hmem
      rw [hslots] at hmem
      exact hweak weak (List.mem_append_left _ hmem)
    · intro reference hlost i hi
      obtain rfl | rfl : i = 0 ∨ i = 1 := by omega
      · have hleft := ((h.mem_lost_iff ht rfl).1 hlost).1
        exact hweak _ (List.mem_append_right _ (List.mem_map_of_mem hleft))
      · exact hlink reference hlost
  · rw [← hmarked.memory]
    exact fun reference => h.mem_lost_iff ht rfl
  · rw [← hmarked.pending]
    intro link hlink
    exact h.linked ht hlinks hlink
  · rw [h.pending, pending_relieved, hmarked.pending]

end Cycle

/-- An object, and a reference object whose referent it is. -/
def weakGround : Ground :=
  ((Ground.allocateReference (some ringFirst)).run (allocated ⟨{ start := 0x10000 }, .zero⟩ 0)).2

def weakReference : ObjectRef := ⟨0x10010, by decide +kernel, by decide +kernel⟩

theorem weakGround_sound : weakGround.heap.Sound := by
  have hempty : Heap.Sound { start := 0x10000 } := Heap.Sound.empty (by decide)
  have hplain : ObjectKind.plain = .reference → (0 : UInt64) = 2 := by decide
  have hfirst := Ground.sound_allocate (g := ⟨{ start := 0x10000 }, .zero⟩) hempty hplain rfl (by decide +kernel)
  exact Ground.sound_allocateReference hfirst rfl (by decide +kernel)

/-- A root and a weak handle lead to the reference object, weak storage and a weak edge to its referent. -/
def weakWorld : World where
  machine.memory := (((weakGround.memory.store 0x3000 8 0x10010).store 0x4000 8 0x10000).store 0x5000 8
    0x10010).store 0x6000 8 0x10000
  machine.env.heap := weakGround.heap
  machine.env.other := { start := 0x7e0000000000 }
  machine.env.host :=
    { roots := [(.global .universe, ⟨0x3000⟩), (.weakProcessor, ⟨0x4000⟩)], loaderEdges := [⟨true, ⟨0x6000⟩⟩] }
  registry := { collectors := ({} : Std.ExtTreeMap ThreadId CollectorKind).insert ⟨"g"⟩ .controller }
  weakHandles := ({} : WeakHandles).register ⟨0x5000⟩

theorem weakWorld_orderly : Orderly .identity weakWorld :=
  .of_entries weakGround_sound (by decide +kernel) (by decide +kernel) (by decide +kernel) (by decide +kernel)
    (by decide +kernel) (by decide +kernel) (by decide +kernel) (by decide +kernel) fun _ _ _ => rfl

def weakBinding : SimBinding := simBinding {} .identity (weakGround.heap.start, weakGround.heap.limit)

/-- Whether a cycle may be run does not depend on the collector. -/
theorem weakWorld_ready (collector : Engine SimMutator Simulation) :
    Ready { weakBinding with engine := collector } [] ⟨"g"⟩ weakWorld := by
  have hreports : rootReports { weakBinding with engine := collector } [] weakWorld =
      rootReports weakBinding [] weakWorld := rfl
  refine { weakWorld_orderly with
    collector := ⟨.controller, by decide +kernel⟩
    running := rfl
    waits := by simp [Waits, weakWorld]
    generation := by decide
    epoch := by decide
    room := (by decide : weakBinding.options.rootBufferCapacity ≤ EdgeBuffer.maxCapacity)
    registry := by simp [Registry.Sound, weakWorld]
    distinct := ?_
    roots := ?_ }
  · rw [hreports]
    decide +kernel
  · rw [hreports]
    change ∀ report ∈ rootReports weakBinding [] weakWorld, ∀ slot ∈ report.2,
      slot.NullOrLive .identity weakWorld.machine.env.heap.Holds weakWorld.machine.memory
    decide +kernel

theorem linksClear_of_entries {s : World} (h : ∀ e ∈ s.machine.env.heap.objects.toList, e.2.kind = .reference →
    ∀ slot ∈ weakSlots s, (fieldSlot e.1 1).Apart slot) : LinksClear s := by
  rintro reference ⟨a, ha, hkind⟩
  exact h (reference, a) (Heap.mem_entries ha) hkind

theorem weakWorld_linksClear : LinksClear weakWorld := linksClear_of_entries (by decide +kernel)

/-- The weak handle holds the reference object, which was enqueued alone with its referent cleared. -/
theorem lost_referent_cleared :
    layoutFacts.validate = .ok simLayout ∧
      Binding.ofCodec {} simLayout host
        (engine (some (weakWorld.machine.env.heap.start, weakWorld.machine.env.heap.limit))) .identity =
          .ok weakBinding ∧
      weakBinding.options.compressedPointers = false ∧ Ready weakBinding [] ⟨"g"⟩ weakWorld ∧ LinksClear weakWorld ∧
      ∃ generation s', (runCycle weakBinding [] ⟨"g"⟩).run weakWorld = (.ok generation, s') ∧
        Slot.load ⟨0x5000⟩ .identity s'.machine.memory = .ok (some weakReference) ∧
        (fieldSlot weakReference 1).load .identity s'.machine.memory = .ok none ∧
        s'.machine.env.host.pending = some weakReference := by
  have made : Binding.ofCodec {} simLayout host
      (engine (some (weakWorld.machine.env.heap.start, weakWorld.machine.env.heap.limit))) .identity =
        .ok weakBinding := rfl
  refine ⟨validate_layoutFacts, made, rfl, weakWorld_ready _, weakWorld_linksClear, ?_⟩
  obtain ⟨generation, s', dead, hrun, -, hweak, -, hnodup, hdead, hlinks, hpending⟩ :=
    weak_locations_settle validate_layoutFacts made rfl (weakWorld_ready _) weakWorld_linksClear
  have hleft : ((runCycle weakBinding [] ⟨"g"⟩).run weakWorld).2.machine.env.heap.references = [weakReference] := by
    decide +kernel
  have hmarked : weakReference ∈ ((runCycle weakBinding [] ⟨"g"⟩).run weakWorld).2.machine.env.collector.marks := by
    decide +kernel
  have hcleared : (fieldSlot weakReference 0).load .identity
      ((runCycle weakBinding [] ⟨"g"⟩).run weakWorld).2.machine.memory = .ok none := by decide +kernel
  rw [hrun] at hleft hmarked hcleared
  have hone : dead = [weakReference] := by
    refine List.perm_singleton.1 ((List.perm_ext_iff_of_nodup hnodup (by simp)).2 fun reference => ?_)
    rw [hdead, hleft]
    constructor
    · exact And.left
    · intro hmem
      rw [List.mem_singleton.1 hmem]
      exact ⟨List.mem_singleton_self _, ringFirst, by decide +kernel, hcleared⟩
  subst hone
  have hhandle : (⟨0x5000⟩ : Slot) ∈ weakLocations weakBinding weakWorld s' :=
    List.mem_append_left _ (by decide +kernel)
  refine ⟨generation, s', hrun, (hweak _ hhandle).2 weakReference hmarked (by decide +kernel), ?_, hpending⟩
  exact hlinks (fieldSlot weakReference 1, none) (List.mem_singleton_self _)

/-- A weak handle lies on the link of the reference object. -/
def linkedWorld : World :=
  { weakWorld with
    machine.memory := weakWorld.machine.memory.store 0x10028 8 0x10010
    weakHandles := ({} : WeakHandles).register ⟨0x10028⟩ }

theorem linkedWorld_orderly : Orderly .identity linkedWorld :=
  .of_entries weakGround_sound (by decide +kernel) (by decide +kernel) (by decide +kernel) (by decide +kernel)
    (by decide +kernel) (by decide +kernel) (by decide +kernel) (by decide +kernel) fun _ _ _ => rfl

/-- A collector without a heap leaves the reference object its dead referent. A weak handle that lies on a link loses
its object though that is marked. -/
theorem dead_referent_left :
    (Binding.ofCodec {} simLayout host (engine none) .identity = .ok { weakBinding with engine := engine none } ∧
      Ready { weakBinding with engine := engine none } [] ⟨"g"⟩ weakWorld ∧ LinksClear weakWorld ∧
      ∃ s', (runCycle { weakBinding with engine := engine none } [] ⟨"g"⟩).run weakWorld = (.ok 1, s') ∧
        weakReference ∈ s'.machine.env.heap.references ∧
        (fieldSlot weakReference 0).load .identity s'.machine.memory = .ok (some ringFirst) ∧
        ringFirst ∉ s'.machine.env.collector.marks ∧ s'.machine.env.host.pending = none) ∧
    (Orderly .identity linkedWorld ∧
      ∃ s', (runCycle weakBinding [] ⟨"g"⟩).run linkedWorld = (.ok 1, s') ∧
        ⟨0x10028⟩ ∈ linkedWorld.weakHandles.slots ∧ weakReference ∈ s'.machine.env.collector.marks ∧
        Slot.load ⟨0x10028⟩ .identity linkedWorld.machine.memory = .ok (some weakReference) ∧
        Slot.load ⟨0x10028⟩ .identity s'.machine.memory = .ok none) ∧
    ((runCycle oversized [] ⟨"g"⟩).run loneWorld).1 = .error (.panic .capacityOverflow) ∧
    ((runCycle loneBinding [] ⟨"g"⟩).run busyWorld).1 = .error .stuck ∧
    ((runCycle loneBinding [] ⟨"g"⟩).run lastWorld).1 = .error (.panic .addOverflow) := by
  refine ⟨⟨rfl, weakWorld_ready _, weakWorld_linksClear, _, Act.run_eq_ok (by decide +kernel), ?_⟩,
    ⟨linkedWorld_orderly, _, Act.run_eq_ok (by decide +kernel), ?_⟩, ?_⟩
  · decide +kernel
  · decide +kernel
  · decide +kernel

end Safepoint.Simulated
