import Safepoint.Proofs.Barrier.Calls
import Safepoint.Proofs.Barrier.Store

/-!
# Snapshots at the beginning

With the field barrier, a collector that logs what slots hold before they change knows at the end of a run what each of
them held at its start: the log has it, or the slot still does.
-/
namespace Safepoint

variable {μ ε : Type}

/-- Slots with what they held when they were logged, in the order in which they were logged. -/
abbrev FieldLog := List (Slot × UInt64)

namespace FieldLog

def slots (log : FieldLog) : List Slot := log.map Prod.fst

/-- Log a slot with what it holds now, unless it is in the log. -/
def note (m : Memory) (log : FieldLog) (slot : Slot) : FieldLog :=
  if slot ∈ log.slots then log else log ++ [(slot, slot.loadBits m)]

/-- The log makes up for what has changed in the slots of a family since the start. -/
structure Covers (family : Slot → Prop) (start m : Memory) (log : FieldLog) : Prop where
  once : log.slots.Nodup
  old : ∀ entry ∈ log, entry.2 = entry.1.loadBits start
  same : ∀ slot, family slot → slot ∉ log.slots → slot.loadBits m = slot.loadBits start

variable {family : Slot → Prop} {start m m' : Memory} {log : FieldLog} {slot : Slot}

theorem slots_append (log : FieldLog) (slot : Slot) (bits : UInt64) :
    slots (log ++ [(slot, bits)]) = log.slots ++ [slot] := List.map_append

theorem mem_slots_note {other : Slot} : other ∈ (note m log slot).slots ↔ other ∈ log.slots ∨ other = slot := by
  unfold note
  split
  · rename_i hlogged
    constructor
    · exact .inl
    · rintro (h | rfl)
      · exact h
      · exact hlogged
  · rw [slots_append, List.mem_append, List.mem_singleton]

theorem mem_slots_notes {visited : List Slot} {other : Slot} :
    other ∈ (visited.foldl (note m) log).slots ↔ other ∈ log.slots ∨ other ∈ visited := by
  induction visited generalizing log with
  | nil => simp
  | cons slot visited ih => rw [List.foldl_cons, ih, mem_slots_note, List.mem_cons, or_assoc]

namespace Covers

theorem empty (family : Slot → Prop) (m : Memory) : Covers family m m [] := by
  constructor
  · exact List.nodup_nil
  · intro entry hentry
    cases hentry
  · intro slot _ _
    rfl

/-- A slot that is not logged yet still holds what it held at the start. -/
theorem append (h : Covers family start m log) (hfamily : family slot) (hnew : slot ∉ log.slots) :
    Covers family start m (log ++ [(slot, slot.loadBits m)]) := by
  constructor
  · rw [slots_append]
    exact nodup_snoc h.once hnew
  · intro entry hentry
    obtain hentry | hentry := List.mem_append.1 hentry
    · exact h.old entry hentry
    · rw [List.mem_singleton.1 hentry]
      exact h.same slot hfamily hnew
  · intro other hother hunlogged
    rw [slots_append, List.mem_append, not_or] at hunlogged
    exact h.same other hother hunlogged.1

theorem note (h : Covers family start m log) (hfamily : family slot) : Covers family start m (note m log slot) := by
  unfold FieldLog.note
  split
  · exact h
  · rename_i hnew
    exact h.append hfamily hnew

theorem notes {visited : List Slot} (h : Covers family start m log) (hvisited : ∀ slot ∈ visited, family slot) :
    Covers family start m (visited.foldl (FieldLog.note m) log) := by
  induction visited generalizing log with
  | nil => exact h
  | cons slot visited ih =>
    have hnoted := h.note (hvisited slot (List.mem_cons_self ..))
    rw [List.foldl_cons]
    apply ih hnoted
    intro other hother
    exact hvisited other (List.mem_cons_of_mem _ hother)

/-- Only what is not logged has to stay. -/
theorem change (h : Covers family start m log)
    (hsame : ∀ slot, family slot → slot ∉ log.slots → slot.loadBits m' = slot.loadBits m) :
    Covers family start m' log := by
  refine ⟨h.once, h.old, ?_⟩
  intro slot hslot hnew
  rw [hsame slot hslot hnew, h.same slot hslot hnew]

end Covers
end FieldLog

/-- A collector that logs fields: one counts as unlogged until it is in the log. The hook before a store logs the slot
as it is then, and the hook before a copy those slots of the target that are not in the log, unless it faults on
the way. -/
structure Engine.LogsFields (engine : Engine μ ε) (log : ε → FieldLog) : Prop where
  unlogged : ∀ (m : Machine ε) (slot : Slot), engine.fieldIsUnlogged m slot = decide (slot ∉ (log m.env).slots)
  writePre : ∀ (w : Write) (a : Attached μ ε),
    ((engine.writePre w).run a).2.machine.memory = a.machine.memory ∧
    (log ((engine.writePre w).run a).2.machine.env =
        log a.machine.env ++ [(w.slot, w.slot.loadBits a.machine.memory)] ∨
      ((engine.writePre w).run a).1 ≠ .ok () ∧ log ((engine.writePre w).run a).2.machine.env = log a.machine.env)
  copyPre : ∀ (c : BulkCopy) (a : Attached μ ε) (slots : List Slot), c.target.slots = .ok slots →
    ((engine.copyPre c).run a).2.machine.memory = a.machine.memory ∧
    ∃ visited, visited <+: slots ∧
      log ((engine.copyPre c).run a).2.machine.env =
        visited.foldl (FieldLog.note a.machine.memory) (log a.machine.env) ∧
      (((engine.copyPre c).run a).1 = .ok () → visited = slots)
  copyPost : ∀ (c : BulkCopy) (a : Attached μ ε),
    ((engine.copyPost c).run a).2.machine.memory = a.machine.memory ∧
    log ((engine.copyPost c).run a).2.machine.env = log a.machine.env

/-- What is in the log of the collector makes up for what has changed in memory. -/
def Machine.Covered (log : ε → FieldLog) (family : Slot → Prop) (start : Memory) (m : Machine ε) : Prop :=
  FieldLog.Covers family start m.memory (log m.env)

namespace Barrier
variable {engine : Engine μ ε} {log : ε → FieldLog} {family : Slot → Prop} {start : Memory} {a : Attached μ ε}

/-- After the hook before a store the log has the slot. -/
theorem covers_writePre (hengine : engine.LogsFields log) {w : Write} (hslot : family w.slot)
    (h : a.machine.Covered log family start) :
    let left := (writePre .field engine w).run a
    left.2.machine.Covered log family start ∧
      (left.1 = .ok () → w.slot ∈ (log left.2.machine.env).slots) := by
  dsimp only
  rw [run_writePre_field, hengine.unlogged]
  split
  · rename_i hunlogged
    obtain ⟨hmemory, hlogged | ⟨hfault, hlog⟩⟩ := hengine.writePre w a
    · rw [Machine.Covered, hmemory, hlogged]
      constructor
      · exact h.append hslot (of_decide_eq_true hunlogged)
      · intro _
        rw [FieldLog.slots_append]
        exact List.mem_append_right _ (List.mem_singleton_self _)
    · rw [Machine.Covered, hmemory, hlog]
      constructor
      · exact h
      · intro hok
        exact absurd hok hfault
  · rename_i hlogged
    have hlogged : w.slot ∈ (log a.machine.env).slots := by simpa using hlogged
    exact ⟨h, fun _ => hlogged⟩

/-- A slot of the log may be written. -/
theorem covers_plainStore (codec : PointerCodec) {slot : Slot} (object : Option ObjectRef)
    (hapart : ∀ other, family other → other ≠ slot → slot.Apart other) (hlogged : slot ∈ (log a.machine.env).slots)
    (h : a.machine.Covered log family start) :
    let left := (Act.within Attached.machinePlace (plainStore codec slot object)).run a
    left.2.machine.Covered log family start := by
  dsimp only
  rw [run_plainStore]
  cases slot.bits codec object with
  | error cause => exact h
  | ok bits =>
    apply h.change
    intro other hother hnew
    have hne : other ≠ slot := by
      rintro rfl
      exact hnew hlogged
    exact Slot.loadBits_storeBits_of_apart (hapart other hother hne) bits _

theorem covers_store (hengine : engine.LogsFields log) {codec : PointerCodec} {d : Decorators}
    (hheap : d.contains .inHeap = true) (hkeep : d.contains .noKeepalive = false) {source : ObjectRef} {slot : Slot}
    (operand : Operand) (hslot : family slot) (hapart : ∀ other, family other → other ≠ slot → slot.Apart other)
    (h : a.machine.Covered log family start) :
    let left := (store .field engine codec d source slot operand).run a
    left.2.machine.Covered log family start := by
  rw [store_field hheap hkeep]
  -- Each part of the call keeps the invariant; the write does because the hook before it has logged the slot.
  obtain ⟨hpre, hlogged⟩ := covers_writePre hengine (w := ⟨source, slot, operand.object⟩) hslot h
  refine Act.keeps_bind (Machine.Covered log family start ∘ Attached.machine) hpre fun _ a₁ hrun => ?_
  rw [hrun] at hpre hlogged
  have hwritten := covers_plainStore codec operand.object hapart (hlogged rfl) hpre
  refine Act.keeps_bind (Machine.Covered log family start ∘ Attached.machine) hwritten fun stored a₂ hrun => ?_
  rw [hrun] at hwritten
  rw [Act.run_map, Act.run_check_state]
  exact hwritten

/-- After the hook before a copy, the log has the slots of the target. -/
theorem covers_copyPre (hengine : engine.LogsFields log) {c : BulkCopy} {slots : List Slot}
    (hslots : c.target.slots = .ok slots) (hfamily : ∀ slot ∈ slots, family slot)
    (h : a.machine.Covered log family start) :
    let left := (copyPre .field engine c).run a
    left.2.machine.Covered log family start ∧
      (left.1 = .ok () → ∀ slot ∈ slots, slot ∈ (log left.2.machine.env).slots) := by
  obtain ⟨hmemory, visited, hvisited, hlog, hall⟩ := hengine.copyPre c a slots hslots
  dsimp only [copyPre]
  rw [Machine.Covered, hmemory, hlog]
  constructor
  · apply h.notes
    intro slot hslot
    exact hfamily slot (hvisited.subset hslot)
  · intro hok slot hslot
    rw [hall hok, FieldLog.mem_slots_notes]
    exact .inr hslot

/-- A range may be written when the log has its slots. -/
theorem covers_copySlots {c : BulkCopy} (hfamily : c.target.Within family)
    (hapart : ∀ slot, family slot → ∀ other, family other → other ≠ slot → slot.Apart other)
    (hlogged : ∀ slot, (∃ i < c.target.count, c.target.Element i slot) → slot ∈ (log a.machine.env).slots)
    (h : a.machine.Covered log family start) :
    let left := (copySlots c).run a
    left.2.machine.Covered log family start := by
  obtain ⟨outcome, memory, hrun, hsame, -⟩ := run_copySlots c a
  dsimp only
  rw [hrun]
  apply h.change
  intro other hother hnew
  apply SlotRange.loadBits_of_sameOutside hsame
  intro i hi
  obtain ⟨slot, hslot, helement⟩ := hfamily i hi
  have hne : other ≠ slot := by
    rintro rfl
    exact hnew (hlogged other ⟨i, hi, helement⟩)
  exact ⟨slot, helement, hapart slot hslot other hother hne⟩

theorem covers_copyPost (hengine : engine.LogsFields log) (c : BulkCopy) (h : a.machine.Covered log family start) :
    ((copyPost .field engine c).run a).2.machine.Covered log family start := by
  obtain ⟨hmemory, hlog⟩ := hengine.copyPost c a
  dsimp only [copyPost]
  rw [Machine.Covered, hmemory, hlog]
  exact h

theorem covers_copy (hengine : engine.LogsFields log) {d : Decorators} (hheap : d.contains .inHeap = true)
    (hold : d.contains .destUninitialized = false) {c : BulkCopy} (hfamily : c.target.Within family)
    (hapart : ∀ slot, family slot → ∀ other, family other → other ≠ slot → slot.Apart other)
    (h : a.machine.Covered log family start) :
    let left := (copy .field engine d c).run a
    left.2.machine.Covered log family start := by
  obtain ⟨slots, hslots, hmember, helements⟩ := hfamily.slots
  obtain ⟨hpre, hlogged⟩ := covers_copyPre hengine hslots hmember h
  rw [copy_eq .field hheap, hold, if_neg Bool.false_ne_true]
  refine Act.keeps_bind (Machine.Covered log family start ∘ Attached.machine) hpre fun _ a₁ hrun => ?_
  rw [hrun] at hpre hlogged
  have hall : ∀ slot, (∃ i < c.target.count, c.target.Element i slot) → slot ∈ (log a₁.machine.env).slots := by
    rintro slot ⟨i, hi, helement⟩
    obtain ⟨found, hfound, helement'⟩ := helements i hi
    rw [helement.eq helement']
    exact hlogged rfl found hfound
  have hcopied := covers_copySlots hfamily hapart hall hpre
  refine Act.keeps_bind (Machine.Covered log family start ∘ Attached.machine) hcopied fun _ a₂ hrun => ?_
  rw [hrun] at hcopied
  exact covers_copyPost hengine c hcopied

end Barrier

/-- A store in the heap to a slot of the family that keeps the old value alive, or a copy in the heap over slots of the
family that hold something. -/
def HeapCall.Overwrites (family : Slot → Prop) : HeapCall → Prop
  | .store _ _ d _ slot _ => d.contains .inHeap = true ∧ d.contains .noKeepalive = false ∧ family slot
  | .copy _ d c => d.contains .inHeap = true ∧ d.contains .destUninitialized = false ∧ c.target.Within family

/-- With the field barrier, every slot of a family that differs from what it was at the start of a run is in the log,
once, with what it was. -/
theorem Binding.snapshot_at_the_beginning {b : Binding μ ε} {log : ε → FieldLog} {family : Slot → Prop}
    {s : State μ ε} {calls : List HeapCall} (hbarrier : b.options.barrier = .field)
    (hengine : b.engine.LogsFields log)
    (hfamily : ∀ slot, family slot → ∀ other, family other → other ≠ slot → slot.Apart other)
    (hstart : log s.machine.env = []) (hregistered : ∀ call ∈ calls, s.registry.Attaches call.thread)
    (hcalls : ∀ call ∈ calls, call.Overwrites family) :
    let after := (b.afterCalls s calls).machine
    (log after.env).slots.Nodup ∧
    (∀ slot bits, (slot, bits) ∈ log after.env → bits = slot.loadBits s.machine.memory) ∧
    ∀ slot, family slot → slot.loadBits after.memory ≠ slot.loadBits s.machine.memory →
      ∃ bits, (slot, bits) ∈ log after.env := by
  have hkept : (b.afterCalls s calls).machine.Covered log family s.machine.memory := by
    apply afterCalls_keeps (Machine.Covered log family s.machine.memory) hregistered
    · intro call hcall a h
      have hwrites := hcalls call hcall
      cases call with
      | store me tier d source slot operand =>
        obtain ⟨hheap, hkeep, hslot⟩ := hwrites
        rw [HeapCall.attached, hbarrier]
        exact Barrier.covers_store hengine hheap hkeep operand hslot (hfamily slot hslot) h
      | copy me d c =>
        obtain ⟨hheap, hold, hwithin⟩ := hwrites
        rw [HeapCall.attached, hbarrier]
        exact Barrier.covers_copy hengine hheap hold hwithin hfamily h
    · rw [Machine.Covered, hstart]
      exact .empty family _
  refine ⟨hkept.once, fun slot bits hentry => hkept.old _ hentry, ?_⟩
  intro slot hslot hchanged
  by_cases hlogged : slot ∈ (log (b.afterCalls s calls).machine.env).slots
  · obtain ⟨⟨_, bits⟩, hentry, rfl⟩ := List.mem_map.1 hlogged
    exact ⟨bits, hentry⟩
  · exact absurd (hkept.same slot hslot hlogged) hchanged

/-- A collector that keeps a log of fields and does nothing else. -/
def fieldLogger : Engine Unit FieldLog where
  bind _ := pure ()
  writePre w := Act.within Attached.machinePlace
    (modify fun m => { m with env := m.env ++ [(w.slot, w.slot.loadBits m.memory)] })
  writePost _ := pure ()
  copyPre c := do
    let slots ← Act.check c.target.slots
    Act.within Attached.machinePlace (modify fun m => { m with env := slots.foldl (FieldLog.note m.memory) m.env })
  copyPost _ := pure ()
  requestCollection _ := pure ()
  isLive _ _ := true
  fieldIsUnlogged m slot := slot ∉ m.env.slots

theorem fieldLogger_logs : fieldLogger.LogsFields id where
  unlogged _ _ := rfl
  writePre _ _ := ⟨rfl, .inl rfl⟩
  copyPre c a slots hslots := by
    have hrun : (fieldLogger.copyPre c).run a = (.ok (),
        { a with machine.env := slots.foldl (FieldLog.note a.machine.memory) a.machine.env }) := by
      change (Act.check c.target.slots >>= _).run a = _
      rw [hslots]
      rfl
    rw [hrun]
    exact ⟨rfl, slots, List.prefix_rfl, rfl, fun _ => rfl⟩
  copyPost _ _ := ⟨rfl, rfl⟩

/-- A wide and a narrow store, an overlapping copy, a constant null, and a store of what has no narrow value. -/
theorem overlapping_copy_logged :
    let slots : List Slot := [⟨0x1000⟩, ⟨0x1008⟩, ⟨0x1010⟩, .narrow 0x2000]
    let calls : List HeapCall :=
      [.store ⟨"a"⟩ .optimizing .inHeap ⟨0x20000, by decide, by decide⟩ ⟨0x1000⟩
          (.value (some ⟨0x20008, by decide, by decide⟩)),
        .store ⟨"b"⟩ .interpreter .inHeap ⟨0x20000, by decide, by decide⟩ (.narrow 0x2000)
          (.value (some ⟨0x20010, by decide, by decide⟩)),
        .copy ⟨"b"⟩ .inHeap ⟨⟨none, 0x1000, 2, false⟩, ⟨none, 0x1008, 2, false⟩⟩,
        .store ⟨"a"⟩ .baseline .inHeap ⟨0x20000, by decide, by decide⟩ ⟨0x1000⟩ .constNull,
        .store ⟨"a"⟩ .interpreter .inHeap ⟨0x20000, by decide, by decide⟩ (.narrow 0x2000)
          (.value (some ⟨0x8000, by decide, by decide⟩))]
    let start := (⟨0x1000⟩ : Slot).storeBits 0x20018 ((⟨0x1008⟩ : Slot).storeBits 0x20020 .zero)
    let after := ((Binding.forTwo { barrier := .field } ⟨0x10000, 3⟩ fieldLogger).afterCalls
      (Binding.registeredTwo ⟨start, []⟩) calls).machine
    (after.env.slots.Nodup ∧ ∀ slot bits, (slot, bits) ∈ after.env → bits = slot.loadBits start) ∧
      ∀ slot ∈ slots, ∃ bits, (slot, bits) ∈ after.env := by
  intro slots calls start after
  have hwithin : (⟨none, 0x1008, 2, false⟩ : SlotRange).Within (· ∈ slots) := by
    unfold SlotRange.Within
    decide +kernel
  have hcalls : ∀ call ∈ calls, call.Overwrites (· ∈ slots) := by
    simp only [calls, List.forall_mem_cons]
    exact ⟨⟨by decide, by decide, by decide⟩, ⟨by decide, by decide, by decide⟩, ⟨by decide, by decide, hwithin⟩,
      ⟨by decide, by decide, by decide⟩, ⟨by decide, by decide, by decide⟩, List.forall_mem_nil _⟩
  obtain ⟨honce, hold, hchanged⟩ := Binding.snapshot_at_the_beginning
    (b := Binding.forTwo { barrier := .field } ⟨0x10000, 3⟩ fieldLogger) (s := Binding.registeredTwo ⟨start, []⟩)
    rfl fieldLogger_logs (by decide +kernel) rfl
    (fun call hcall => Binding.attaches_twoMutators _ (by revert call; decide +kernel)) hcalls
  refine ⟨⟨honce, hold⟩, fun slot hslot => hchanged slot hslot ?_⟩
  revert slot
  decide +kernel

end Safepoint
