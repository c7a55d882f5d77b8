import Safepoint.Barrier.Store
import Safepoint.Proofs.Basic
import Safepoint.Proofs.Slot

/-!
# The two ways to store a reference

A reference is stored by the slot itself, or on the plain path of a barrier, which says what it wrote. The main
statement is that these are one store: they break at the same references and then leave memory alone, and otherwise they
leave the same memory, in which the slot holds what was written and every slot apart from it what it held before.
-/
namespace Safepoint

namespace Slot

variable {slot : Slot} {codec : PointerCodec} {object : Option ObjectRef} {bits : UInt64} {m m' : Memory}
  {stored : StoredValue}

/-- What a store of a reference makes of a memory, and what it leaves in a register. -/
structure Stored (slot : Slot) (codec : PointerCodec) (object : Option ObjectRef) (m : Memory) (stored : StoredValue)
    (m' : Memory) : Prop where
  /-- No byte is changed but those of the slot. -/
  outside : m.SameOutside m' slot.address.toNat slot.width
  /-- A slot that does not meet this one holds the same bits, and the same reference under any codec. -/
  spared : ∀ other : Slot, slot.Apart other → other.loadBits m' = other.loadBits m ∧
    ∀ codec', other.load codec' m' = other.load codec' m
  /-- The slot holds what is in the register. -/
  held : slot.loadBits m' = stored.bits ∧ stored.narrow = slot.isNarrow
  /-- Both are read alike. -/
  back : slot.load codec m' = stored.decompress codec
  /-- A full word gives back the reference, and 32 bits what is decoded from what it was encoded to. -/
  decoded : stored.decompress codec = if slot.isNarrow then codec.encode object >>= codec.decode else .ok object

theorem spared_of_outside (h : m.SameOutside m' slot.address.toNat slot.width) {other : Slot}
    (apart : slot.Apart other) : other.loadBits m' = other.loadBits m ∧
      ∀ codec, other.load codec m' = other.load codec m := by
  have hbits : other.loadBits m' = other.loadBits m := h.load fun a hle hlt => apart.not_covers ⟨hle, hlt⟩
  exact ⟨hbits, fun _ => load_congr hbits⟩

theorem stored_storeBits (h : slot.bits codec object = .ok bits) (m : Memory) :
    slot.Stored codec object m ⟨bits, slot.isNarrow⟩ (slot.storeBits bits m) where
  outside := m.sameOutside_store slot.address slot.width bits
  spared _ := spared_of_outside (m.sameOutside_store slot.address slot.width bits)
  held := ⟨loadBits_storeBits h m, rfl⟩
  back := load_storeBits_eq_decompress h m
  decoded := decompress_eq h

/-- A slot has no bits for a reference only if it is narrow, and its codec refuses the reference. -/
theorem bits_eq_error {cause : Panic} (h : slot.bits codec object = .error cause) :
    slot.isNarrow = true ∧ codec.encode object = .error cause := by
  unfold Slot.bits at h
  by_cases hnarrow : slot.isNarrow
  · rw [if_pos hnarrow] at h
    cases hencode : codec.encode object with
    | error other =>
      simp only [hencode, Except.map, Except.error.injEq] at h
      exact ⟨hnarrow, by rw [h]⟩
    | ok narrow => simp [hencode, Except.map] at h
  · simp [hnarrow] at h

/-- Stored either way, a reference is refused by the codec of a narrow slot and nothing is changed, or else the slot has
it in the same memory: no other byte is changed, whatever is read from the slots apart from this one is as it was, and
the slot gives back what is read from the register, which for a full word is the reference and for 32 bits what is
decoded from what it was encoded to. A slot that was cleared is null, and the slots apart from it are as they were. -/
theorem store_paths_agree {ε : Type} (slot : Slot) (codec : PointerCodec) (object : Option ObjectRef)
    (machine : Machine ε) :
    ((∃ cause, slot.isNarrow = true ∧ codec.encode object = .error cause ∧
        (Machine.poke (slot.store codec object)).run machine = (.error (.panic cause), machine) ∧
        (Barrier.plainStore codec slot object).run machine = (.error (.panic cause), machine)) ∨
      ∃ stored memory, slot.Stored codec object machine.memory stored memory ∧
        (Machine.poke (slot.store codec object)).run machine = (.ok (), { machine with memory }) ∧
        (Barrier.plainStore codec slot object).run machine = (.ok stored, { machine with memory })) ∧
    (∀ codec', slot.load codec' (slot.clear machine.memory) = .ok none) ∧
    machine.memory.SameOutside (slot.clear machine.memory) slot.address.toNat slot.width ∧
    ∀ other : Slot, slot.Apart other → other.loadBits (slot.clear machine.memory) = other.loadBits machine.memory ∧
      ∀ codec', other.load codec' (slot.clear machine.memory) = other.load codec' machine.memory := by
  have hclear : machine.memory.SameOutside (slot.clear machine.memory) slot.address.toNat slot.width :=
    machine.memory.sameOutside_store slot.address slot.width 0
  refine ⟨?_, fun codec' => load_clear slot codec' machine.memory, hclear, fun other => spared_of_outside hclear⟩
  rw [Machine.poke, Barrier.plainStore, Act.run_update, Act.run_update, store, rawStore]
  cases hbits : slot.bits codec object with
  | error cause =>
    obtain ⟨hnarrow, hencode⟩ := bits_eq_error hbits
    exact .inl ⟨cause, hnarrow, hencode, rfl, rfl⟩
  | ok bits =>
    exact .inr ⟨⟨bits, slot.isNarrow⟩, slot.storeBits bits machine.memory, stored_storeBits hbits _, rfl, rfl⟩

/-- An odd address, and a full word that begins right after the four bytes. -/
theorem neighbour_spared_by_narrow_store :
    let slot := Slot.narrow 0x10000001
    let other : Slot := ⟨0x10000005⟩
    let codec : PointerCodec := ⟨0x1000, 3⟩
    let object : ObjectRef := ⟨0x1010, by decide, by decide⟩
    let machine : Machine Unit := ⟨other.storeBits 0x2000 .zero, ()⟩
    slot.Apart other ∧ ∃ memory, (Machine.poke (slot.store codec (some object))).run machine = (.ok (), ⟨memory, ()⟩) ∧
      (Barrier.plainStore codec slot (some object)).run machine = (.ok ⟨2, true⟩, ⟨memory, ()⟩) ∧
      slot.load codec memory = .ok (some object) ∧ other.loadBits memory = 0x2000 := by
  intro slot other codec object machine
  have hapart : slot.Apart other := by decide
  obtain ⟨⟨cause, -, hrefused, -, -⟩ | ⟨stored, memory, hstored, hstore, hplain⟩, -⟩ :=
    store_paths_agree slot codec (some object) machine
  · have hencode : codec.encode (some object) = .ok 2 := by decide
    rw [hencode] at hrefused
    cases hrefused
  · have hregister : stored = ⟨2, true⟩ := by
      have hbits : slot.bits codec (some object) = .ok 2 := by decide
      rw [Barrier.plainStore, Act.run_update, rawStore, hbits] at hplain
      cases hplain
      decide
    refine ⟨hapart, memory, hstore, hregister ▸ hplain, ?_, ?_⟩
    · rw [hstored.back, hregister]
      decide
    · rw [(hstored.spared other hapart).1]
      exact loadBits_storeBits_of_lt (by decide) _

end Slot

end Safepoint
