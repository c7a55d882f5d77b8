import Safepoint.Barrier.Store
import Safepoint.Proofs.Basic
import Safepoint.Proofs.Slot.Range

/-!
# The parts of a store and of a copy

What each part of a store in the heap does with the mutator at hand: the hook that is asked for, and the write itself,
which either puts the bits of the reference into the slot or breaks before it touches memory.
-/
namespace Safepoint.Barrier

variable {μ ε : Type} {engine : Engine μ ε} {codec : PointerCodec} {d : Decorators}

theorem elide_field (hheap : d.contains .inHeap = true) (operand : Operand) :
    BarrierKind.field.elide d operand = false := by
  simp [BarrierKind.elide, canElide, hheap, BarrierKind.skipConstNull]

theorem elide_object (hheap : d.contains .inHeap = true) (operand : Operand) :
    BarrierKind.object.elide d operand = (operand == .constNull) := by
  simp [BarrierKind.elide, canElide, hheap, BarrierKind.skipConstNull]

theorem run_writePre_field (w : Write) (a : Attached μ ε) : (writePre .field engine w).run a =
    if engine.fieldIsUnlogged a.machine w.slot then (engine.writePre w).run a else (.ok (), a) := by
  unfold writePre
  rw [Act.run_bind_ok (Act.run_get a)]
  split <;> rfl

theorem run_writePost_object (w : Write) (a : Attached μ ε) : (writePost .object engine w).run a =
    if engine.objectIsUnlogged a.machine w.source then (engine.writePost w).run a else (.ok (), a) := by
  unfold writePost
  rw [Act.run_bind_ok (Act.run_get a)]
  split <;> rfl

/-- What is left when `bits` are stored into a slot. -/
def written (a : Attached μ ε) (slot : Slot) (bits : UInt64) : Attached μ ε :=
  { a with machine := { a.machine with memory := slot.storeBits bits a.machine.memory } }

/-- The write of a store, with the mutator at hand. -/
theorem run_plainStore (codec : PointerCodec) (slot : Slot) (object : Option ObjectRef) (a : Attached μ ε) :
    (Act.within Attached.machinePlace (plainStore codec slot object)).run a =
      match slot.bits codec object with
      | .ok bits => (.ok ⟨bits, slot.isNarrow⟩, written a slot bits)
      | .error cause => (.error (.panic cause), a) := by
  rw [Act.run_within, plainStore, Act.run_update, rawStore]
  cases slot.bits codec object <;> rfl

/-- The field barrier sees every store in the heap, unless the old value need not be kept. -/
theorem store_field (hheap : d.contains .inHeap = true) (hkeep : d.contains .noKeepalive = false) (source : ObjectRef)
    (slot : Slot) (operand : Operand) :
    store .field engine codec d source slot operand =
      (writePre .field engine ⟨source, slot, operand.object⟩ >>= fun _ =>
        Act.within Attached.machinePlace (plainStore codec slot operand.object) >>= fun stored =>
          (fun _ => ()) <$> Act.check (stored.decompress codec)) := by
  unfold store
  simp only [elide_field hheap, hkeep, Bool.not_false, ↓reduceIte]
  rfl

/-- The object barrier passes over constant nulls, and sees other stores in the heap when they have happened. -/
theorem store_object (hheap : d.contains .inHeap = true) (source : ObjectRef) (slot : Slot) (operand : Operand) :
    store .object engine codec d source slot operand =
      (Act.within Attached.machinePlace (plainStore codec slot operand.object) >>= fun stored =>
        if operand = .constNull then pure ()
        else Act.check (stored.decompress codec) >>= fun object =>
          writePost .object engine ⟨source, slot, object⟩) := by
  unfold store
  simp only [elide_object hheap, beq_iff_eq]
  split
  · rfl
  · cases d.contains .noKeepalive <;> rfl

/-- The part of a copy between its hooks. -/
def copySlots (c : BulkCopy) : Act (Attached μ ε) Unit :=
  if c.source.isEmpty then pure () else Act.within Attached.machinePlace (Machine.poke (c.source.copy c.target))

/-- It changes the target and nothing else, and nothing at all if it breaks. -/
theorem run_copySlots (c : BulkCopy) (a : Attached μ ε) :
    ∃ outcome memory, (copySlots c).run a = (outcome, { a with machine := { a.machine with memory } }) ∧
      a.machine.memory.SameOutside memory c.target.start.toNat (c.target.count * c.target.stride) ∧
      (outcome ≠ .ok () → memory = a.machine.memory) := by
  have hsame := a.machine.memory.sameOutside_refl c.target.start.toNat (c.target.count * c.target.stride)
  unfold copySlots
  split
  · exact ⟨.ok (), a.machine.memory, rfl, hsame, fun _ => rfl⟩
  · rw [Act.run_within, Machine.poke, Act.run_update]
    cases hcopy : c.source.copy c.target (Attached.machinePlace.get a).memory with
    | error cause => exact ⟨.error (.panic cause), a.machine.memory, rfl, hsame, fun _ => rfl⟩
    | ok memory => exact ⟨.ok (), memory, rfl, SlotRange.sameOutside_copy hcopy, fun h => absurd rfl h⟩

/-- A copy in the heap. Its target is shown to the collector before, unless it is fresh, and after. -/
theorem copy_eq (kind : BarrierKind) (hheap : d.contains .inHeap = true) (c : BulkCopy) :
    copy kind engine d c =
      ((if d.contains .destUninitialized then pure () else copyPre kind engine c) >>= fun _ =>
        copySlots c >>= fun _ => copyPost kind engine c) := by
  unfold copy copySlots
  simp only [hheap, Bool.true_and, ↓reduceIte]
  cases d.contains .destUninitialized <;> cases c.source.isEmpty <;> rfl

end Safepoint.Barrier
