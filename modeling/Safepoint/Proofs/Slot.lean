import Safepoint.Proofs.Codec
import Safepoint.Proofs.Memory
import Safepoint.Slot

/-!
# Slots in memory

A store changes the bytes of its slot and leaves the slots apart from it as they are. A narrow slot gives an object back
if the codec carries it.
-/
namespace Safepoint

namespace Slot

variable {slot other : Slot} {codec : PointerCodec} {object : Option ObjectRef} {bits : UInt64} {m m' : Memory}

theorem testBit_tag (word : UInt64) : word.toNat.testBit 63 = decide (2 ^ 63 ≤ word.toNat) := by
  have hword : word.toNat < 2 ^ 64 := word.toNat_lt
  rw [Nat.testBit_eq_decide_div_mod_eq, decide_eq_decide]
  omega

/-- The tag alone, or nothing. -/
theorem toNat_and_tag (word : UInt64) : (word &&& narrowTag).toNat = if 2 ^ 63 ≤ word.toNat then 2 ^ 63 else 0 := by
  refine Nat.eq_of_testBit_eq fun i => ?_
  rw [UInt64.toNat_and, Nat.testBit_and, show narrowTag.toNat = 2 ^ 63 from rfl]
  by_cases hi : i = 63
  · rw [hi, testBit_tag, Nat.testBit_two_pow_self, Bool.and_true]
    split
    · rename_i hhigh
      rw [Nat.testBit_two_pow_self, decide_eq_true hhigh]
    · rename_i hlow
      rw [Nat.zero_testBit, decide_eq_false hlow]
  · rw [Nat.testBit_two_pow_of_ne (Ne.symm hi), Bool.and_false]
    split
    · rw [Nat.testBit_two_pow_of_ne (Ne.symm hi)]
    · rw [Nat.zero_testBit]

theorem isNarrow_iff : slot.isNarrow = true ↔ 2 ^ 63 ≤ slot.raw.toNat := by
  rw [isNarrow, bne_iff_ne, ne_eq, ← UInt64.toNat_inj, toNat_and_tag]
  split <;> simp_all

theorem toNat_address : slot.address.toNat = slot.raw.toNat % 2 ^ 63 := by
  rw [address, UInt64.toNat_and, show (~~~narrowTag).toNat = 2 ^ 63 - 1 from rfl, Nat.and_two_pow_sub_one_eq_mod]

theorem address_lt (slot : Slot) : slot.address.toNat < 2 ^ 63 := by
  rw [toNat_address]
  exact Nat.mod_lt _ (by decide)

/-- The tag and the address make up the slot. -/
theorem toNat_raw (slot : Slot) : slot.raw.toNat = slot.address.toNat + if slot.isNarrow then 2 ^ 63 else 0 := by
  have hraw : slot.raw.toNat < 2 ^ 64 := slot.raw.toNat_lt
  rw [toNat_address]
  by_cases h : slot.isNarrow
  · have := isNarrow_iff.1 h
    rw [if_pos h]
    omega
  · have := mt isNarrow_iff.2 h
    rw [if_neg h]
    omega

/-- Slots of one width at one address are one slot. -/
theorem eq_of_address (hwidth : slot.isNarrow = other.isNarrow) (haddress : slot.address.toNat = other.address.toNat) :
    slot = other := by
  have hraw : slot.raw.toNat = other.raw.toNat := by rw [toNat_raw slot, toNat_raw other, hwidth, haddress]
  exact Slot.ext (UInt64.toNat_inj.1 hraw)

/-- The bytes of the two slots do not meet. -/
def Apart (slot other : Slot) : Prop :=
  slot.address.toNat + slot.width ≤ other.address.toNat ∨ other.address.toNat + other.width ≤ slot.address.toNat

theorem Apart.symm (h : slot.Apart other) : other.Apart slot := Or.symm h

theorem Apart.ne (h : slot.Apart other) : slot ≠ other := by
  rintro rfl
  unfold Apart width at h
  split at h <;> omega

instance (slot other : Slot) : Decidable (slot.Apart other) := inferInstanceAs (Decidable (_ ∨ _))

theorem loadBits_storeBits_of_apart (apart : slot.Apart other) (bits : UInt64) (m : Memory) :
    other.loadBits (slot.storeBits bits m) = other.loadBits m := by
  refine (Memory.sameOutside_store m slot.address slot.width bits).load fun a hle hlt => ?_
  unfold Apart at apart
  omega

/-- One slot, or two whose bytes do not meet. -/
def Separate (slot other : Slot) : Prop := slot = other ∨ slot.Apart other

instance (slot other : Slot) : Decidable (slot.Separate other) := inferInstanceAs (Decidable (_ ∨ _))

theorem Separate.symm (h : slot.Separate other) : other.Separate slot := h.imp Eq.symm Apart.symm

/-- The byte at `a` is one of the slot's. -/
def Covers (slot : Slot) (a : Nat) : Prop := slot.address.toNat ≤ a ∧ a < slot.address.toNat + slot.width

theorem width_le (slot : Slot) : slot.width ≤ 8 := by
  unfold width
  split <;> decide

theorem Apart.not_covers (h : slot.Apart other) {a : Nat} (ha : other.Covers a) : ¬slot.Covers a := by
  unfold Apart at h
  unfold Covers at *
  omega

theorem load_congr (h : slot.loadBits m' = slot.loadBits m) : slot.load codec m' = slot.load codec m := by
  unfold load
  rw [h]

/-- A slot has room for the bits of a reference. -/
theorem bits_fit (h : slot.bits codec object = .ok bits) : bits.toNat < 256 ^ slot.width := by
  by_cases hnarrow : slot.isNarrow
  · rw [width, if_pos hnarrow]
    rw [Slot.bits, if_pos hnarrow] at h
    cases hcode : codec.encode object with
    | error cause => simp [hcode, Except.map] at h
    | ok narrow =>
      simp only [hcode, Except.map, Except.ok.injEq] at h
      subst h
      rw [UInt32.toNat_toUInt64]
      exact narrow.toNat_lt
  · rw [width, if_neg hnarrow]
    exact bits.toNat_lt

theorem loadBits_storeBits_of_lt (h : bits.toNat < 256 ^ slot.width) (m : Memory) :
    slot.loadBits (slot.storeBits bits m) = bits := by
  rw [← UInt64.toNat_inj, loadBits, storeBits, Memory.load_store, Nat.mod_eq_of_lt h]

theorem loadBits_storeBits (h : slot.bits codec object = .ok bits) (m : Memory) :
    slot.loadBits (slot.storeBits bits m) = bits :=
  loadBits_storeBits_of_lt (bits_fit h) m

/-- What was stored into a slot is what a load of the slot decodes. -/
theorem load_storeBits_eq_decompress (h : slot.bits codec object = .ok bits) (m : Memory) :
    slot.load codec (slot.storeBits bits m) = (⟨bits, slot.isNarrow⟩ : StoredValue).decompress codec := by
  rw [load, loadBits_storeBits h]
  rfl

/-- A full word gives back any reference, whatever the codec. -/
theorem load_storeBits_of_wide (hwide : slot.isNarrow = false) (object : Option ObjectRef) (m : Memory) :
    slot.load codec (slot.storeBits (refBits object) m) = .ok object := by
  have hbits : slot.bits codec object = .ok (refBits object) := by simp [Slot.bits, hwide]
  rw [Slot.load, loadBits_storeBits hbits, Slot.reference, hwide]
  exact ObjectRef.ofBits_refBits object

theorem bits_none (slot : Slot) (codec : PointerCodec) : slot.bits codec none = .ok 0 := by
  unfold Slot.bits
  split <;> rfl

/-- Zeros are null, whatever the codec. -/
theorem load_of_zero (h : slot.loadBits m = 0) : slot.load codec m = .ok none := by
  unfold load
  rw [h]
  unfold reference
  split
  · exact PointerCodec.decode_zero codec
  · exact ObjectRef.ofBits_zero

theorem loadBits_clear (slot : Slot) (m : Memory) : slot.loadBits (slot.clear m) = 0 :=
  loadBits_storeBits (bits_none slot .identity) m

theorem load_clear (slot : Slot) (codec : PointerCodec) (m : Memory) : slot.load codec (slot.clear m) = .ok none :=
  load_of_zero (loadBits_clear slot m)

/-- What is read from a register is decoded from what the reference was encoded to. -/
theorem decompress_eq (h : slot.bits codec object = .ok bits) : (⟨bits, slot.isNarrow⟩ : StoredValue).decompress codec =
    if slot.isNarrow then codec.encode object >>= codec.decode else .ok object := by
  unfold Slot.bits at h
  unfold StoredValue.decompress
  dsimp only
  by_cases hnarrow : slot.isNarrow
  · rw [if_pos hnarrow] at h
    rw [if_pos hnarrow, if_pos hnarrow]
    cases hencode : codec.encode object with
    | error cause => simp [hencode, Except.map] at h
    | ok narrow =>
      simp only [hencode, Except.map, Except.ok.injEq] at h
      rw [← h, UInt32.toUInt32_toUInt64]
      rfl
  · rw [if_neg hnarrow, Except.ok.injEq] at h
    rw [if_neg hnarrow, if_neg hnarrow, ← h, ObjectRef.ofBits_refBits]

/-- A codec that decodes what it encodes for a reference reads what a store of that reference left in a register. -/
theorem decompress_bits (hcodec : ∀ narrow, codec.encode object = .ok narrow → ∃ back, codec.decode narrow = .ok back)
    (h : slot.bits codec object = .ok bits) :
    ∃ back, (⟨bits, slot.isNarrow⟩ : StoredValue).decompress codec = .ok back := by
  rw [decompress_eq h]
  by_cases hnarrow : slot.isNarrow
  · rw [if_pos hnarrow]
    cases hencode : codec.encode object with
    | error cause => simp [Slot.bits, hnarrow, hencode, Except.map] at h
    | ok narrow => exact hcodec narrow hencode
  · exact ⟨object, if_neg hnarrow⟩

/-- A narrow slot gives back the objects that its codec carries, and no others. -/
theorem store_load_iff {object : ObjectRef} (hnarrow : slot.isNarrow = true) (m : Memory) :
    (∃ m', slot.store codec (some object) m = .ok m' ∧ slot.load codec m' = .ok (some object)) ↔
      codec.Carries object := by
  have hbits : slot.bits codec (some object) = (codec.encode (some object)).map UInt32.toUInt64 := if_pos hnarrow
  constructor
  · rintro ⟨m', hstore, hload⟩
    cases hencode : codec.encode (some object) with
    | error cause => simp [store, hbits, hencode, Except.map] at hstore
    | ok narrow =>
      rw [hencode] at hbits
      have hread : slot.loadBits m' = narrow.toUInt64 := by
        rw [store, hbits] at hstore
        cases hstore
        exact loadBits_storeBits hbits m
      have hdecode : codec.decode narrow = .ok (some object) := by
        rw [load, reference, if_pos hnarrow, hread, UInt32.toUInt32_toUInt64] at hload
        exact hload
      refine ⟨narrow, hencode, fun hnull => ?_, hdecode⟩
      rw [hnull, PointerCodec.decode_zero] at hdecode
      cases hdecode
  · rintro ⟨narrow, hencode, -, hdecode⟩
    rw [hencode] at hbits
    refine ⟨slot.storeBits narrow.toUInt64 m, by rw [store, hbits]; rfl, ?_⟩
    rw [load, loadBits_storeBits hbits, reference, if_pos hnarrow, UInt32.toUInt32_toUInt64]
    exact hdecode

end Slot

namespace Memory

variable {m m₁ m₂ : Memory} {slots more : List Slot} {slot other : Slot}

/-- The two memories have the same bytes wherever none of the slots lies. -/
def SameApart (m : Memory) (slots : List Slot) (m' : Memory) : Prop :=
  ∀ a, (∀ slot ∈ slots, ¬slot.Covers a) → m'.byte a = m.byte a

theorem SameApart.refl (m : Memory) (slots : List Slot) : m.SameApart slots m := fun _ _ => rfl

theorem SameApart.trans (h : m.SameApart slots m₁) (h' : m₁.SameApart slots m₂) : m.SameApart slots m₂ :=
  fun a ha => (h' a ha).trans (h a ha)

theorem SameApart.mono (h : m.SameApart slots m₁) (hsub : slots ⊆ more) : m.SameApart more m₁ :=
  fun a ha => h a fun slot hslot => ha slot (hsub hslot)

theorem sameApart_storeBits (slot : Slot) (bits : UInt64) (m : Memory) : m.SameApart [slot] (slot.storeBits bits m) :=
  fun a ha => m.sameOutside_store slot.address slot.width bits a (ha slot (List.mem_singleton_self slot))

/-- A slot apart from those that were written has the bits it had. -/
theorem SameApart.loadBits (h : m.SameApart slots m₁) (hapart : ∀ slot ∈ slots, slot.Apart other) :
    other.loadBits m₁ = other.loadBits m :=
  congrArg Nat.toUInt64 (loadNat_congr fun a hle hlt => h a fun slot hslot => (hapart slot hslot).not_covers ⟨hle, hlt⟩)

/-- What the slots hold, and what lies outside of them, is all of a memory. -/
theorem SameApart.ext (h : m.SameApart slots m₁) (h' : m.SameApart slots m₂)
    (hbits : ∀ slot ∈ slots, slot.loadBits m₂ = slot.loadBits m₁) : m₂ = m₁ := by
  ext a
  by_cases ha : ∃ slot ∈ slots, slot.Covers a
  · obtain ⟨slot, hslot, hcovers⟩ := ha
    rw [byte_eq_of_load slot.width_le (hbits slot hslot) hcovers.1 hcovers.2]
  · have hnone : ∀ slot ∈ slots, ¬slot.Covers a := fun slot hslot hcovers => ha ⟨slot, hslot, hcovers⟩
    rw [h a hnone, h' a hnone]

end Memory

namespace Slot

variable {slot : Slot} {codec : PointerCodec} {bits : UInt64} {m : Memory}

theorem loadBits_lt (slot : Slot) (m : Memory) : (slot.loadBits m).toNat < 256 ^ slot.width := by
  rw [loadBits, Memory.toNat_load slot.width_le]
  exact m.loadNat_lt _ _

/-- Bits that are put back where they were leave the memory as it was. -/
theorem storeBits_loadBits (slot : Slot) (m : Memory) : slot.storeBits (slot.loadBits m) m = m := by
  refine (Memory.SameApart.refl m [slot]).ext (Memory.sameApart_storeBits slot _ m) fun other hother => ?_
  rw [List.mem_singleton.1 hother, loadBits_storeBits_of_lt (slot.loadBits_lt m)]

/-- A slot gives back what is stored in it, if its codec carries it or the slot is wide. -/
theorem bits_of_carries {object : ObjectRef} (h : slot.isNarrow = true → codec.Carries object) :
    ∃ bits, slot.bits codec (some object) = .ok bits ∧ slot.reference codec bits = .ok (some object) := by
  unfold Slot.bits reference
  by_cases hnarrow : slot.isNarrow
  · obtain ⟨narrow, hencode, -, hdecode⟩ := h hnarrow
    refine ⟨narrow.toUInt64, by rw [if_pos hnarrow, hencode]; rfl, ?_⟩
    rw [if_pos hnarrow, UInt32.toUInt32_toUInt64]
    exact hdecode
  · exact ⟨refBits (some object), if_neg hnarrow, by rw [if_neg hnarrow, ObjectRef.ofBits_refBits]⟩

end Slot

end Safepoint
