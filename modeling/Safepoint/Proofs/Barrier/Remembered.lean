import Safepoint.Proofs.Barrier.Calls
import Safepoint.Proofs.Barrier.Store

/-!
# Remembered objects

With the object barrier, a collector that remembers the objects it is told of has remembered, at the end of a run,
every object in which a reference may be new.
-/
namespace Safepoint

variable {μ ε : Type}

/-- A collector that remembers objects: one counts as unlogged until the hook after a store is called for it. That hook
remembers the object that was stored into, the hook after a copy that of the target, and none is forgotten. -/
structure Engine.RemembersObjects (engine : Engine μ ε) (posted : ε → List ObjectRef)
    (remembered : ε → ObjectRef → Prop) : Prop where
  unlogged : ∀ (m : Machine ε) (object : ObjectRef),
    engine.objectIsUnlogged m object = decide (object ∉ posted m.env)
  writePost : ∀ (w : Write) (a : Attached μ ε),
    let left := ((engine.writePost w).run a).2.machine
    left.memory = a.machine.memory ∧ posted left.env = posted a.machine.env ++ [w.source] ∧
      remembered left.env w.source ∧ ∀ object, remembered a.machine.env object → remembered left.env object
  copyPre : ∀ (c : BulkCopy) (a : Attached μ ε),
    let left := ((engine.copyPre c).run a).2.machine
    left.memory = a.machine.memory ∧ posted left.env = posted a.machine.env ∧
      ∀ object, remembered a.machine.env object → remembered left.env object
  copyPost : ∀ (c : BulkCopy) (a : Attached μ ε),
    let left := ((engine.copyPost c).run a).2.machine
    left.memory = a.machine.memory ∧ posted left.env = posted a.machine.env ∧
      (∀ object, c.target.object = some object → remembered left.env object) ∧
      ∀ object, remembered a.machine.env object → remembered left.env object

/-- Every object that owns a slot with a new reference is remembered. -/
structure Machine.Complete (posted : ε → List ObjectRef) (remembered : ε → ObjectRef → Prop)
    (owner : Slot → Option ObjectRef) (start : Memory) (m : Machine ε) : Prop where
  once : (posted m.env).Nodup
  told : ∀ object ∈ posted m.env, remembered m.env object
  edges : ∀ slot object, owner slot = some object → slot.loadBits m.memory ≠ slot.loadBits start →
    slot.loadBits m.memory ≠ 0 → remembered m.env object

variable {posted : ε → List ObjectRef} {remembered : ε → ObjectRef → Prop} {owner : Slot → Option ObjectRef}
  {start : Memory}

/-- A slot may stay as it is, become null, or get an owner that is remembered. -/
theorem Machine.Complete.step {m m' : Machine ε} (h : m.Complete posted remembered owner start)
    (honce : (posted m'.env).Nodup) (htold : ∀ object ∈ posted m'.env, remembered m'.env object)
    (hkept : ∀ object, remembered m.env object → remembered m'.env object)
    (hslots : ∀ slot object, owner slot = some object → remembered m'.env object ∨
      slot.loadBits m'.memory = slot.loadBits m.memory ∨ slot.loadBits m'.memory = 0) :
    m'.Complete posted remembered owner start := by
  refine ⟨honce, htold, ?_⟩
  intro slot object howner hchanged hnull
  obtain hremembered | hsame | hzero := hslots slot object howner
  · exact hremembered
  · rw [hsame] at hchanged hnull
    exact hkept object (h.edges slot object howner hchanged hnull)
  · exact absurd hzero hnull

namespace Barrier
variable {engine : Engine μ ε} {codec : PointerCodec} {d : Decorators} {bits : UInt64} {a : Attached μ ε}

/-- The hook after a store is asked for once for each object, and leaves the object remembered. -/
theorem told_writePost (hengine : engine.RemembersObjects posted remembered) (w : Write)
    (honce : (posted a.machine.env).Nodup) (htold : ∀ object ∈ posted a.machine.env, remembered a.machine.env object) :
    let left := ((writePost .object engine w).run a).2.machine
    left.memory = a.machine.memory ∧ (posted left.env).Nodup ∧
      (∀ object ∈ posted left.env, remembered left.env object) ∧ remembered left.env w.source ∧
      ∀ object, remembered a.machine.env object → remembered left.env object := by
  dsimp only
  rw [run_writePost_object, hengine.unlogged]
  split
  · rename_i hunlogged
    have hnew : w.source ∉ posted a.machine.env := of_decide_eq_true hunlogged
    obtain ⟨hmemory, hposted, hsource, hkept⟩ := hengine.writePost w a
    refine ⟨hmemory, ?_, ?_, hsource, hkept⟩
    · rw [hposted]
      exact nodup_snoc honce hnew
    · rw [hposted]
      intro object hobject
      obtain hobject | hobject := List.mem_append.1 hobject
      · exact hkept object (htold object hobject)
      · rw [List.mem_singleton.1 hobject]
        exact hsource
  · rename_i hlogged
    have hsource : w.source ∈ posted a.machine.env := by simpa using hlogged
    exact ⟨rfl, honce, htold, htold w.source hsource, fun _ h => h⟩

/-- A null makes no edge. -/
theorem complete_null {slot : Slot} (hbits : slot.bits codec none = .ok bits)
    (hapart : ∀ other, (owner other).isSome → other ≠ slot → slot.Apart other)
    (h : a.machine.Complete posted remembered owner start) :
    (written a slot bits).machine.Complete posted remembered owner start := by
  have hzero : bits = 0 := by
    rw [Slot.bits_none, Except.ok.injEq] at hbits
    exact hbits.symm
  apply h.step
  · exact h.once
  · exact h.told
  · exact fun _ hobject => hobject
  · intro other object hobject
    right
    by_cases hne : other = slot
    · right
      rw [hne, ← hzero]
      exact Slot.loadBits_storeBits hbits a.machine.memory
    · left
      exact Slot.loadBits_storeBits_of_apart (hapart other (by rw [hobject]; rfl) hne) bits _

/-- The hook after a store remembers whose slot was written. -/
theorem complete_stored (hengine : engine.RemembersObjects posted remembered) {source : ObjectRef} {slot : Slot}
    (howner : owner slot = some source) (hapart : ∀ other, (owner other).isSome → other ≠ slot → slot.Apart other)
    (target : Option ObjectRef) (h : a.machine.Complete posted remembered owner start) :
    ((writePost .object engine ⟨source, slot, target⟩).run (written a slot bits)).2.machine.Complete posted remembered
      owner start := by
  obtain ⟨hmemory, honce, htold, hsource, hkept⟩ :=
    told_writePost hengine ⟨source, slot, target⟩ (a := written a slot bits) h.once h.told
  apply h.step honce htold hkept
  intro other object hobject
  by_cases hne : other = slot
  · left
    rw [hne, howner, Option.some.injEq] at hobject
    rw [← hobject]
    exact hsource
  · right; left
    rw [hmemory]
    exact Slot.loadBits_storeBits_of_apart (hapart other (by rw [hobject]; rfl) hne) bits _

theorem complete_store (hengine : engine.RemembersObjects posted remembered) (hheap : d.contains .inHeap = true)
    {source : ObjectRef} {slot : Slot} {operand : Operand} (howner : owner slot = some source)
    (hcodec : ∀ narrow, codec.encode operand.object = .ok narrow → ∃ back, codec.decode narrow = .ok back)
    (hapart : ∀ other, (owner other).isSome → other ≠ slot → slot.Apart other)
    (h : a.machine.Complete posted remembered owner start) :
    ((store .object engine codec d source slot operand).run a).2.machine.Complete posted remembered owner start := by
  -- Between the write and the hook the slot may hold an edge of which nobody was told, so no part of the call keeps
  -- the invariant by itself: the cases follow the write, and each is taken to its end.
  have hrun := run_plainStore codec slot operand.object a
  rw [store_object hheap]
  cases hbits : slot.bits codec operand.object with
  | error cause =>
    rw [hbits] at hrun
    rw [Act.run_bind_error hrun]
    exact h
  | ok bits =>
    rw [hbits] at hrun
    rw [Act.run_bind_ok hrun]
    split
    · rename_i hnull
      rw [hnull] at hbits
      exact complete_null hbits hapart h
    · obtain ⟨target, htarget⟩ := Slot.decompress_bits hcodec hbits
      rw [htarget, Act.run_bind_ok (Act.run_check_ok target _)]
      exact complete_stored hengine howner hapart target h

theorem complete_copyPre (hengine : engine.RemembersObjects posted remembered) (c : BulkCopy)
    (h : a.machine.Complete posted remembered owner start) :
    ((copyPre .object engine c).run a).2.machine.Complete posted remembered owner start := by
  obtain ⟨hmemory, hposted, hkept⟩ := hengine.copyPre c a
  exact h.step (hposted ▸ h.once) (fun object hobject => hkept object (h.told object (hposted ▸ hobject))) hkept
    fun slot _ _ => .inr (.inl (congrArg slot.loadBits hmemory))

/-- The hook after a copy remembers whose slots were overwritten. -/
theorem complete_copied (hengine : engine.RemembersObjects posted remembered) {c : BulkCopy} {object : ObjectRef}
    (hobject : c.target.object = some object) (hwithin : c.target.Within (owner · = some object))
    (hapart : ∀ slot, (owner slot).isSome → ∀ other, (owner other).isSome → other ≠ slot → slot.Apart other)
    (h : a.machine.Complete posted remembered owner start) :
    ((copySlots c >>= fun _ => copyPost .object engine c).run a).2.machine.Complete posted remembered owner start := by
  obtain ⟨outcome, memory, hrun, hsame, hbroken⟩ := run_copySlots c a
  cases outcome with
  | error cause =>
    rw [Act.run_bind_error hrun, hbroken (by simp)]
    exact h
  | ok _ =>
    rw [Act.run_bind_ok hrun]
    let copied : Attached μ ε := { a with machine := { a.machine with memory } }
    obtain ⟨hmemory, hposted, hremembered, hkept⟩ := hengine.copyPost c copied
    apply h.step (hposted ▸ h.once) (fun other hother => hkept other (h.told other (hposted ▸ hother))) hkept
    intro slot other hother
    by_cases hne : other = object
    · left
      rw [hne]
      exact hremembered object hobject
    · -- A slot of another object lies apart from the whole target.
      have hslot : slot.loadBits memory = slot.loadBits a.machine.memory := by
        apply SlotRange.loadBits_of_sameOutside hsame
        intro i hi
        obtain ⟨element, helement, hi⟩ := hwithin i hi
        have hdistinct : slot ≠ element := by
          rintro rfl
          rw [hother, Option.some.injEq] at helement
          exact hne helement
        exact ⟨element, hi, hapart element (by rw [helement]; rfl) slot (by rw [hother]; rfl) hdistinct⟩
      exact .inr (.inl ((congrArg slot.loadBits hmemory).trans hslot))

theorem complete_copy (hengine : engine.RemembersObjects posted remembered) (hheap : d.contains .inHeap = true)
    {c : BulkCopy} {object : ObjectRef} (hobject : c.target.object = some object)
    (hwithin : c.target.Within (owner · = some object))
    (hapart : ∀ slot, (owner slot).isSome → ∀ other, (owner other).isSome → other ≠ slot → slot.Apart other)
    (h : a.machine.Complete posted remembered owner start) :
    ((copy .object engine d c).run a).2.machine.Complete posted remembered owner start := by
  rw [copy_eq .object hheap]
  cases d.contains .destUninitialized with
  | true => exact complete_copied hengine hobject hwithin hapart h
  | false =>
    have hpre := complete_copyPre hengine c h
    rw [if_neg Bool.false_ne_true]
    refine Act.keeps_bind (Machine.Complete posted remembered owner start ∘ Attached.machine) hpre fun _ a₁ hrun => ?_
    rw [hrun] at hpre
    exact complete_copied hengine hobject hwithin hapart hpre

end Barrier

/-- A store in the heap to a slot of its source, of a reference that the codec decodes if it encodes it, or a copy in
the heap over slots of one object, which its target names. -/
def HeapCall.Owned (codec : PointerCodec) (owner : Slot → Option ObjectRef) : HeapCall → Prop
  | .store _ _ d source slot operand => d.contains .inHeap = true ∧ owner slot = some source ∧
      ∀ narrow, codec.encode operand.object = .ok narrow → ∃ back, codec.decode narrow = .ok back
  | .copy _ d c => d.contains .inHeap = true ∧
      ∃ object, c.target.object = some object ∧ c.target.Within (owner · = some object)

/-- With the object barrier, the owner of every slot that holds another reference than at the start of a run is
remembered, and the collector is told of each object once. -/
theorem Binding.new_edges_remembered {b : Binding μ ε} {s : State μ ε} {calls : List HeapCall}
    (hbarrier : b.options.barrier = .object) (hengine : b.engine.RemembersObjects posted remembered)
    (hapart : ∀ slot, (owner slot).isSome → ∀ other, (owner other).isSome → other ≠ slot → slot.Apart other)
    (hstart : posted s.machine.env = []) (hregistered : ∀ call ∈ calls, s.registry.Attaches call.thread)
    (hcalls : ∀ call ∈ calls, call.Owned b.codec owner) :
    let after := (b.afterCalls s calls).machine
    (∀ slot object, owner slot = some object → slot.loadBits after.memory ≠ slot.loadBits s.machine.memory →
      slot.loadBits after.memory ≠ 0 → remembered after.env object) ∧
    (posted after.env).Nodup := by
  have hkept : (b.afterCalls s calls).machine.Complete posted remembered owner s.machine.memory := by
    apply afterCalls_keeps (Machine.Complete posted remembered owner s.machine.memory) hregistered
    · intro call hcall a h
      have howned := hcalls call hcall
      cases call with
      | store me tier d source slot operand =>
        obtain ⟨hheap, howner, hcodec⟩ := howned
        rw [HeapCall.attached, hbarrier]
        exact Barrier.complete_store hengine hheap howner hcodec (hapart slot (by rw [howner]; rfl)) h
      | copy me d c =>
        obtain ⟨hheap, object, hobject, hwithin⟩ := howned
        rw [HeapCall.attached, hbarrier]
        exact Barrier.complete_copy hengine hheap hobject hwithin hapart h
    · constructor
      · rw [hstart]
        exact List.nodup_nil
      · intro object hobject
        rw [hstart] at hobject
        cases hobject
      · intro slot object _ hchanged
        exact absurd rfl hchanged
  exact ⟨hkept.edges, hkept.once⟩

/-- The objects a collector was told of after stores, and those it remembers. -/
structure ObjectLog where
  posted : List ObjectRef
  remembered : List ObjectRef

/-- A collector that remembers objects and does nothing else. -/
def objectLogger : Engine Unit ObjectLog where
  bind _ := pure ()
  writePre _ := pure ()
  writePost w := Act.within Attached.machinePlace
    (modify fun m => { m with env := ⟨m.env.posted ++ [w.source], m.env.remembered ++ [w.source]⟩ })
  copyPre _ := pure ()
  copyPost c := Act.within Attached.machinePlace
    (modify fun m => { m with env := ⟨m.env.posted, m.env.remembered ++ c.target.object.toList⟩ })
  requestCollection _ := pure ()
  isLive _ _ := true
  objectIsUnlogged m object := object ∉ m.env.posted

theorem objectLogger_remembers :
    objectLogger.RemembersObjects ObjectLog.posted fun env object => object ∈ env.remembered where
  unlogged _ _ := rfl
  writePost _ _ := ⟨rfl, rfl, List.mem_append_right _ (List.mem_singleton_self _), fun _ => List.mem_append_left _⟩
  copyPre _ _ := ⟨rfl, rfl, fun _ => id⟩
  copyPost _ _ := ⟨rfl, rfl, fun _ hobject => List.mem_append_right _ (Option.mem_toList.2 hobject),
    fun _ => List.mem_append_left _⟩

/-- Two stores into one object, a copy to fresh slots of another, a constant null, and a store of what has no narrow
value. -/
theorem both_owners_remembered :
    let first : ObjectRef := ⟨0x1000, by decide, by decide⟩
    let second : ObjectRef := ⟨0x2000, by decide, by decide⟩
    let owner (slot : Slot) : Option ObjectRef :=
      if slot ∈ [⟨0x1008⟩, .narrow 0x1010] then some first
      else if slot ∈ [⟨0x2008⟩, ⟨0x2010⟩] then some second else none
    let calls : List HeapCall :=
      [.store ⟨"a"⟩ .interpreter ⟨5⟩ first ⟨0x1008⟩ (.value (some first)),
        .store ⟨"b"⟩ .optimizing .inHeap first (.narrow 0x1010) (.value (some second)),
        .copy ⟨"b"⟩ ⟨17⟩ ⟨⟨none, 0x1000, 2, false⟩, ⟨some second, 0x2008, 2, false⟩⟩,
        .store ⟨"a"⟩ .baseline .inHeap second ⟨0x2008⟩ .constNull,
        .store ⟨"a"⟩ .interpreter .inHeap first (.narrow 0x1010) (.value (some ⟨0x100, by decide, by decide⟩))]
    let after := ((Binding.forTwo { barrier := .object } ⟨0x800, 3⟩ objectLogger).afterCalls
      (Binding.registeredTwo ⟨.zero, ⟨[], []⟩⟩) calls).machine
    (∀ slot ∈ [⟨0x1008⟩, .narrow 0x1010, ⟨0x2010⟩], ∀ object, owner slot = some object →
      object ∈ after.env.remembered) ∧ after.env.posted.Nodup := by
  intro first second owner calls after
  have hapart : ∀ slot, (owner slot).isSome → ∀ other, (owner other).isSome → other ≠ slot → slot.Apart other := by
    let slots : List Slot := [⟨0x1008⟩, .narrow 0x1010] ++ [⟨0x2008⟩, ⟨0x2010⟩]
    have hslots (slot : Slot) (h : (owner slot).isSome) : slot ∈ slots := by
      dsimp only [owner] at h
      split at h
      · exact List.mem_append_left _ ‹_›
      · split at h
        · exact List.mem_append_right _ ‹_›
        · cases h
    have hlist : ∀ slot ∈ slots, ∀ other ∈ slots, other ≠ slot → slot.Apart other := by decide +kernel
    exact fun slot hslot other hother => hlist slot (hslots slot hslot) other (hslots other hother)
  have hwithin : (⟨some second, 0x2008, 2, false⟩ : SlotRange).Within (owner · = some second) := by
    intro i hi
    match i, hi with
    | 0, _ => exact ⟨⟨0x2008⟩, by decide +kernel, by decide +kernel⟩
    | 1, _ => exact ⟨⟨0x2010⟩, by decide +kernel, by decide +kernel⟩
  have hfirst : PointerCodec.Carries ⟨0x800, 3⟩ first := (PointerCodec.carries_iff (by decide)).2 (by decide)
  have hsecond : PointerCodec.Carries ⟨0x800, 3⟩ second := (PointerCodec.carries_iff (by decide)).2 (by decide)
  have hcalls : ∀ call ∈ calls, call.Owned ⟨0x800, 3⟩ owner := by
    simp only [calls, List.forall_mem_cons]
    refine ⟨⟨by decide, by decide +kernel, fun _ hencode => ⟨_, hfirst.decode_of_encode hencode⟩⟩,
      ⟨by decide, by decide +kernel, fun _ hencode => ⟨_, hsecond.decode_of_encode hencode⟩⟩,
      ⟨by decide, second, rfl, hwithin⟩, ⟨by decide, by decide +kernel, fun narrow hencode => ?_⟩,
      ⟨by decide, by decide +kernel, fun narrow hencode => ?_⟩, List.forall_mem_nil _⟩
    · cases hencode
      exact ⟨none, PointerCodec.decode_zero _⟩
    · cases hencode
  obtain ⟨hedges, honce⟩ := Binding.new_edges_remembered
    (b := Binding.forTwo { barrier := .object } ⟨0x800, 3⟩ objectLogger)
    (s := Binding.registeredTwo ⟨.zero, ⟨[], []⟩⟩) rfl objectLogger_remembers hapart rfl
    (fun call hcall => Binding.attaches_twoMutators _ (by revert call; decide +kernel)) hcalls
  have hnew : ∀ slot ∈ ([⟨0x1008⟩, .narrow 0x1010, ⟨0x2010⟩] : List Slot),
      slot.loadBits after.memory ≠ slot.loadBits .zero ∧ slot.loadBits after.memory ≠ 0 := by decide +kernel
  exact ⟨fun slot hslot object howner => hedges slot object howner (hnew slot hslot).1 (hnew slot hslot).2, honce⟩

end Safepoint
