import Safepoint.Proofs.Binding.RootSplits
import Safepoint.Proofs.Slot

/-!
# Narrow slots of a binding

A binding with compressed references takes its codec from where the heap is. An object of the heap comes back from a
narrow slot if and only if that codec reaches it. Objects at the far end of a heap of more than 32 GiB are not reached,
and neither is any object of a high heap that begins at an odd address.
-/
namespace Safepoint.Binding

variable {μ ε : Type}

theorem codec_of_make {options : Options} {layout : Layout} {host : Host ε} {engine : Engine μ ε} {b : Binding μ ε}
    {start limit : Address} (hmake : make options layout host engine = .ok b)
    (hcompressed : options.compressedPointers = true) (hrange : engine.heapRange = some (start, limit)) :
    b.codec = .forHeapRange start limit := by
  rw [make, if_pos hcompressed, hrange] at hmake
  simp only [ofCodec] at hmake
  cases hvalid : options.validate with
  | error cause =>
    rw [hvalid] at hmake
    cases hmake
  | ok _ =>
    rw [hvalid] at hmake
    cases hmake
    rfl

/-- The codec for a heap encodes an object of the heap to a value other than null and decodes it back, and a binding
stores it in narrow slots and loads it again, if and only if it is within reach. -/
theorem heap_object_kept_iff_reached {start limit : Address} {object : ObjectRef} (hstart : start ≤ object.address)
    (hlimit : object.address < limit) :
    ((∃ narrow, (PointerCodec.forHeapRange start limit).encode (some object) = .ok narrow ∧ narrow ≠ 0 ∧
        (PointerCodec.forHeapRange start limit).decode narrow = .ok (some object)) ↔
      PointerCodec.Reaches start limit object) ∧
    ∀ {μ ε : Type} {options : Options} {layout : Layout} {host : Host ε} {engine : Engine μ ε} {b : Binding μ ε},
      make options layout host engine = .ok b → options.compressedPointers = true →
      engine.heapRange = some (start, limit) → ∀ (slot : Slot) (m : Memory), slot.isNarrow = true →
        ((∃ m', slot.store b.codec (some object) m = .ok m' ∧ slot.load b.codec m' = .ok (some object)) ↔
          PointerCodec.Reaches start limit object) := by
  have hcarried := PointerCodec.carries_forHeapRange hstart hlimit
  refine ⟨hcarried, fun hmake hcompressed hrange slot m hnarrow => ?_⟩
  rw [codec_of_make hmake hcompressed hrange]
  exact (Slot.store_load_iff hnarrow m).trans hcarried

/-- A collector that does nothing, with a heap. -/
def heapOnly (start limit : Address) : Engine Unit Unit :=
  { (twoThreads.binding {}).engine with heapRange := some (start, limit) }

/-- The last object of a heap that begins at 64 GiB. -/
theorem last_object_kept :
    let object : ObjectRef := ⟨0x13FFFFFFF8, by decide, by decide⟩
    let slot := Slot.narrow 0x2000
    (0x1000000000 ≤ object.address ∧ object.address < 0x1400000000) ∧
      (∃ narrow, (PointerCodec.forHeapRange 0x1000000000 0x1400000000).encode (some object) = .ok narrow ∧
        narrow ≠ 0 ∧ (PointerCodec.forHeapRange 0x1000000000 0x1400000000).decode narrow = .ok (some object)) ∧
      ∃ b, make { compressedPointers := true } (twoThreads.binding {}).layout twoThreads.host
          (heapOnly 0x1000000000 0x1400000000) = .ok b ∧
        ∃ m', slot.store b.codec (some object) .zero = .ok m' ∧ slot.load b.codec m' = .ok (some object) := by
  intro object slot
  have hheap : 0x1000000000 ≤ object.address ∧ object.address < 0x1400000000 := by decide
  have hreached : PointerCodec.Reaches 0x1000000000 0x1400000000 object := .inr (by decide)
  obtain ⟨hcodec, hslots⟩ := heap_object_kept_iff_reached hheap.1 hheap.2
  have hmake : make { compressedPointers := true } (twoThreads.binding {}).layout twoThreads.host
      (heapOnly 0x1000000000 0x1400000000) = .ok _ := rfl
  exact ⟨hheap, hcodec.2 hreached, _, hmake, (hslots hmake rfl rfl slot .zero (by decide)).2 hreached⟩

/-- In a heap of 64 GiB, an object more than 32 GiB from its start has no narrow value. In one that begins at an odd
address, what is encoded is not decoded. -/
theorem far_and_odd_objects_lost :
    (∃ object : ObjectRef, 0x3000000000 ≤ object.address ∧ object.address < 0x4000010000 ∧
      (PointerCodec.forHeapRange 0x3000000000 0x4000010000).encode (some object) =
        .error (.beyondNarrow object.address ⟨0x2FFFFFF000, 3⟩)) ∧
    ∃ object : ObjectRef, 0x200000004 ≤ object.address ∧ object.address < 0x900000000 ∧
      ∃ narrow, (PointerCodec.forHeapRange 0x200000004 0x900000000).encode (some object) = .ok narrow ∧
        (PointerCodec.forHeapRange 0x200000004 0x900000000).decode narrow = .error (.misaligned 0x200000004) :=
  ⟨⟨⟨0x4000000200, by decide, by decide⟩, by decide, by decide, rfl⟩,
    ⟨0x200000008, by decide, by decide⟩, by decide, by decide, _, rfl, rfl⟩

end Safepoint.Binding
