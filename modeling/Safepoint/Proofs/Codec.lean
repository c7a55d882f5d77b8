import Mathlib.Algebra.Ring.Nat
import Safepoint.Codec
import Safepoint.Proofs.Basic

/-!
# What a codec carries

A codec divides the addresses from its base on into units. It carries the objects that lie a whole number of units
above the base, but the base itself and what is too far away. What it carries it tells apart, and what it decodes it
encodes again to the same.
-/
namespace Safepoint

theorem ObjectRef.ofNonzero_eq_ok {address : Address} {object : ObjectRef} :
    ofNonzero address = .ok object ↔ object.address = address := by
  unfold ofNonzero
  split
  · rename_i hzero
    simp only [reduceCtorEq, false_iff]
    rintro rfl
    exact object.ne_zero hzero
  · split
    · rw [Except.ok.injEq, ObjectRef.ext_iff]
      exact eq_comm
    · rename_i hodd
      simp only [reduceCtorEq, false_iff]
      rintro rfl
      exact hodd object.aligned

theorem ObjectRef.aligned_toNat (object : ObjectRef) : object.address.toNat % 8 = 0 := by
  have h := congrArg UInt64.toNat object.aligned
  simpa using h

theorem ObjectRef.pos_toNat (object : ObjectRef) : 0 < object.address.toNat := by
  refine Nat.pos_of_ne_zero fun h => object.ne_zero ?_
  rw [← UInt64.toNat_inj]
  exact h

namespace PointerCodec
variable {codec : PointerCodec} {object : ObjectRef} {narrow : UInt32}

/-- A codec carries an object that it encodes to something other than null and decodes to itself. -/
def Carries (codec : PointerCodec) (object : ObjectRef) : Prop :=
  ∃ narrow, codec.encode (some object) = .ok narrow ∧ narrow ≠ 0 ∧ codec.decode narrow = .ok (some object)

theorem encode_some_eq_ok (hshift : codec.shift < 64) :
    codec.encode (some object) = .ok narrow ↔ codec.base.toNat ≤ object.address.toNat ∧
      narrow.toNat = (object.address.toNat - codec.base.toNat) / 2 ^ codec.shift := by
  have hnarrow : narrow.toNat < UInt32.size := narrow.toNat_lt
  simp only [encode, UInt64.lt_iff_toNat_lt, if_neg (Nat.not_le.2 hshift), Nat.shiftRight_eq_div_pow]
  split
  · rename_i hbelow
    simp only [reduceCtorEq, false_iff]
    omega
  · rename_i habove
    split
    · rename_i hfits
      rw [Except.ok.injEq, ← UInt32.toNat_inj, Nat.toUInt32_eq, UInt32.toNat_ofNat_of_lt' hfits]
      exact ⟨fun h => ⟨Nat.le_of_not_lt habove, h.symm⟩, fun h => h.2.symm⟩
    · rename_i hwide
      simp only [reduceCtorEq, false_iff]
      omega

theorem decode_eq_some (hshift : codec.shift < 64) (hnull : narrow ≠ 0)
    (hkept : narrow.toNat * 2 ^ codec.shift < 2 ^ 64) :
    codec.decode narrow = .ok (some object) ↔
      object.address.toNat = codec.base.toNat + narrow.toNat * 2 ^ codec.shift := by
  have hdistance : (narrow.toNat <<< codec.shift).toUInt64.toNat = narrow.toNat * 2 ^ codec.shift := by
    rw [Nat.shiftLeft_eq, Nat.toUInt64_eq]
    exact UInt64.toNat_ofNat_of_lt' hkept
  rw [← hdistance, ← addChecked_eq_ok]
  simp only [decode, if_neg hnull, if_neg (Nat.not_le.2 hshift), except_bind_eq_ok, pure, Except.pure, Except.ok.injEq,
    Option.some.injEq, ObjectRef.ofNonzero_eq_ok]
  simp

theorem Carries.decode_of_encode (h : codec.Carries object) (hencode : codec.encode (some object) = .ok narrow) :
    codec.decode narrow = .ok (some object) := by
  obtain ⟨narrow', hencode', -, hdecode⟩ := h
  rw [hencode, Except.ok.injEq] at hencode'
  rw [hencode']
  exact hdecode

/-- An object is carried if its distance from the base is a whole number of units, not zero and not too many. -/
theorem carries_iff (hshift : codec.shift < 64) :
    codec.Carries object ↔ codec.base.toNat + 2 ^ codec.shift ≤ object.address.toNat ∧
      object.address.toNat < codec.base.toNat + 2 ^ codec.shift * UInt32.size ∧
      2 ^ codec.shift ∣ object.address.toNat - codec.base.toNat := by
  have hunit : 0 < 2 ^ codec.shift := Nat.two_pow_pos _
  have hword : object.address.toNat < 2 ^ 64 := object.address.toNat_lt
  have hkept : (object.address.toNat - codec.base.toNat) / 2 ^ codec.shift * 2 ^ codec.shift < 2 ^ 64 :=
    Nat.lt_of_le_of_lt (Nat.div_mul_le_self _ _) (by omega)
  constructor
  · rintro ⟨narrow, hencode, hnull, hdecode⟩
    obtain ⟨hbase, hnarrow⟩ := (encode_some_eq_ok hshift).1 hencode
    rw [← hnarrow] at hkept
    have hback := (decode_eq_some hshift hnull hkept).1 hdecode
    have hpos : 0 < narrow.toNat := Nat.pos_of_ne_zero fun h => hnull (UInt32.toNat_inj.1 h)
    have hleast : 2 ^ codec.shift ≤ narrow.toNat * 2 ^ codec.shift := Nat.le_mul_of_pos_left _ hpos
    have hmost : narrow.toNat * 2 ^ codec.shift < UInt32.size * 2 ^ codec.shift :=
      Nat.mul_lt_mul_of_pos_right narrow.toNat_lt hunit
    rw [Nat.mul_comm UInt32.size] at hmost
    exact ⟨by omega, by omega, ⟨narrow.toNat, by rw [Nat.mul_comm]; omega⟩⟩
  · rintro ⟨hleast, hmost, count, hcount⟩
    rw [hcount, Nat.mul_div_cancel_left _ hunit, Nat.mul_comm] at hkept
    have hfits : count < UInt32.size := by
      refine Nat.lt_of_mul_lt_mul_left (a := 2 ^ codec.shift) ?_
      omega
    have hnarrow : count.toUInt32.toNat = count := UInt32.toNat_ofNat_of_lt' hfits
    have hpos : 0 < count := by
      refine Nat.pos_of_ne_zero fun h => ?_
      rw [h] at hcount
      omega
    have hnull : count.toUInt32 ≠ 0 := fun h => by
      rw [h] at hnarrow
      exact Nat.ne_of_lt hpos hnarrow
    refine ⟨count.toUInt32, (encode_some_eq_ok hshift).2 ⟨by omega, ?_⟩, hnull, (decode_eq_some hshift hnull ?_).2 ?_⟩
    · rw [hnarrow, hcount, Nat.mul_div_cancel_left _ hunit]
    · rw [hnarrow, Nat.mul_comm]
      exact hkept
    · rw [hnarrow, Nat.mul_comm]
      omega

/-- What the codec for a heap carries: all of a heap that ends by 32 GiB, and otherwise what is less than 32 GiB
above the base, if the base is aligned. -/
def Reaches (start limit : Address) (object : ObjectRef) : Prop :=
  limit.toNat ≤ 32 * gib ∨
    (start.toNat - 4096) % 8 = 0 ∧ object.address.toNat < start.toNat - 4096 + 32 * gib

theorem carries_forHeapRange {start limit : Address} (hstart : start ≤ object.address)
    (hlimit : object.address < limit) : (forHeapRange start limit).Carries object ↔ Reaches start limit object := by
  rw [UInt64.le_iff_toNat_le] at hstart
  rw [UInt64.lt_iff_toNat_lt] at hlimit
  have haligned := object.aligned_toNat
  have hpos := object.pos_toNat
  have hword : start.toNat < 2 ^ 64 := start.toNat_lt
  have hsize : UInt32.size = 0x100000000 := rfl
  have hgib : gib = 0x40000000 := rfl
  unfold forHeapRange Reaches
  split
  · rename_i hlow
    rw [carries_iff (by decide)]
    simp only [UInt64.toNat_zero, Nat.pow_zero, Nat.sub_zero]
    omega
  · split
    · rename_i hmid
      rw [carries_iff (by decide)]
      simp only [UInt64.toNat_zero, Nat.sub_zero]
      omega
    · rename_i hhigh
      have hbase : (start.toNat - 4096).toUInt64.toNat = start.toNat - 4096 :=
        UInt64.toNat_ofNat_of_lt' (Nat.lt_of_le_of_lt (Nat.sub_le ..) hword)
      rw [carries_iff (show 3 < 64 by decide)]
      simp only [hbase]
      omega

/-- What is below the base and what is too far above it is refused, each with a message of its own. -/
theorem encode_some_eq_error (hshift : codec.shift < 64) {cause : Panic} :
    codec.encode (some object) = .error cause ↔
      object.address < codec.base ∧ cause = .belowBase object.address codec.base ∨
      codec.base ≤ object.address ∧ UInt32.size ≤ (object.address.toNat - codec.base.toNat) >>> codec.shift ∧
        cause = .beyondNarrow object.address codec := by
  simp only [encode, if_neg (Nat.not_le.2 hshift)]
  split
  · rename_i hbelow
    simp only [hbelow, UInt64.not_le.2 hbelow, true_and, false_and, or_false, Except.error.injEq]
    exact eq_comm
  · rename_i habove
    split
    · rename_i hfits
      simp only [habove, Nat.not_le.2 hfits, false_and, and_false, or_self, reduceCtorEq]
    · rename_i hwide
      simp only [habove, UInt64.not_lt.1 habove, Nat.not_lt.1 hwide, true_and, false_and, false_or, Except.error.injEq]
      exact eq_comm

/-- What was encoded comes back if it lies a whole number of units above the base, and is not the base. -/
theorem decode_of_encode (hshift : codec.shift < 64) (h : codec.encode (some object) = .ok narrow) :
    codec.decode narrow = .ok (some object) ↔
      narrow ≠ 0 ∧ 2 ^ codec.shift ∣ object.address.toNat - codec.base.toNat := by
  obtain ⟨hbase, hnarrow⟩ := (encode_some_eq_ok hshift).1 h
  by_cases hnull : narrow = 0
  · simp [hnull]
  · -- The units that were counted are no more than the distance, so none of them is shifted out.
    have hunits : narrow.toNat * 2 ^ codec.shift ≤ object.address.toNat - codec.base.toNat := by
      rw [hnarrow]
      exact Nat.div_mul_le_self _ _
    have hword : object.address.toNat < 2 ^ 64 := object.address.toNat_lt
    rw [decode_eq_some hshift hnull (by omega), Nat.dvd_iff_div_mul_eq, ← hnarrow]
    constructor
    · intro haddress
      exact ⟨hnull, by omega⟩
    · rintro ⟨-, hdistance⟩
      omega

theorem encode_of_decode (hshift : codec.shift < 64) (hnull : narrow ≠ 0)
    (hkept : narrow.toNat * 2 ^ codec.shift < 2 ^ 64) (h : codec.decode narrow = .ok (some object)) :
    codec.encode (some object) = .ok narrow := by
  have haddress := (decode_eq_some hshift hnull hkept).1 h
  refine (encode_some_eq_ok hshift).2 ⟨by omega, ?_⟩
  rw [haddress, Nat.add_sub_cancel_left, Nat.mul_div_cancel _ (Nat.two_pow_pos _)]

/-- An object whose distance from the base, on either side, is a whole number of units. -/
def OnGrid (codec : PointerCodec) (object : ObjectRef) : Prop :=
  object.address.toNat % 2 ^ codec.shift = codec.base.toNat % 2 ^ codec.shift

theorem OnGrid.address_eq (hshift : codec.shift < 64) (h : codec.OnGrid object)
    (hencode : codec.encode (some object) = .ok narrow) :
    object.address.toNat = codec.base.toNat + narrow.toNat * 2 ^ codec.shift := by
  obtain ⟨hbase, hnarrow⟩ := (encode_some_eq_ok hshift).1 hencode
  have hunits : 2 ^ codec.shift ∣ object.address.toNat - codec.base.toNat :=
    Nat.dvd_of_mod_eq_zero (Nat.sub_mod_eq_zero_of_mod_eq h)
  rw [hnarrow, Nat.div_mul_cancel hunits]
  omega

/-- A codec refuses an object that is below its base or too far above, and gives back the others if they lie a whole
number of units above the base, but for the base itself. Among these it tells any two apart, and tells them from null;
and what it decodes with no bit shifted out, it encodes again to the same. -/
theorem encodes_faithfully (hshift : codec.shift < 64) :
    (∀ object : ObjectRef,
      ((∃ cause, codec.encode (some object) = .error cause) ↔ object.address < codec.base ∨
        2 ^ 32 - 1 < (object.address.toNat - codec.base.toNat) >>> codec.shift) ∧
      ∀ narrow, codec.encode (some object) = .ok narrow → (codec.decode narrow = .ok (some object) ↔
        narrow ≠ 0 ∧ 2 ^ codec.shift ∣ object.address.toNat - codec.base.toNat)) ∧
    (∀ object other : ObjectRef, codec.OnGrid object → codec.OnGrid other → ∀ narrow,
      codec.encode (some object) = .ok narrow → codec.encode (some other) = .ok narrow → object = other) ∧
    (∀ object : ObjectRef, codec.OnGrid object → object.address ≠ codec.base → codec.encode (some object) ≠ .ok 0) ∧
    ∀ (narrow : UInt32) (object : ObjectRef), narrow ≠ 0 → narrow.toNat * 2 ^ codec.shift < 2 ^ 64 →
      codec.decode narrow = .ok (some object) → codec.encode (some object) = .ok narrow := by
  have hsize : UInt32.size = 2 ^ 32 := rfl
  refine ⟨fun object => ⟨?_, fun narrow => decode_of_encode hshift⟩, ?_, ?_, fun narrow object hnull hkept =>
    encode_of_decode hshift hnull hkept⟩
  · constructor
    · rintro ⟨cause, hcause⟩
      obtain ⟨hbelow, -⟩ | ⟨-, hwide, -⟩ := (encode_some_eq_error hshift).1 hcause
      · exact .inl hbelow
      · exact .inr (by omega)
    · intro hrefused
      by_cases hbelow : object.address < codec.base
      · exact ⟨_, (encode_some_eq_error hshift).2 (.inl ⟨hbelow, rfl⟩)⟩
      · have hwide := hrefused.resolve_left hbelow
        exact ⟨_, (encode_some_eq_error hshift).2 (.inr ⟨UInt64.not_lt.1 hbelow, by omega, rfl⟩)⟩
  · intro object other hobject hother narrow hencode hencode'
    have haddress := (hobject.address_eq hshift hencode).trans (hother.address_eq hshift hencode').symm
    exact ObjectRef.ext (UInt64.toNat_inj.1 haddress)
  · intro object hobject hbase hencode
    have haddress := hobject.address_eq hshift hencode
    rw [UInt32.toNat_zero, Nat.zero_mul, Nat.add_zero] at haddress
    exact hbase (UInt64.toNat_inj.1 haddress)

/-- Units of sixteen bytes, and a base that is an object itself: what lies within a unit is lost, as is the base. -/
theorem sixteen_byte_units :
    let codec : PointerCodec := ⟨0x1000, 4⟩
    let base : ObjectRef := ⟨0x1000, by decide, by decide⟩
    let within : ObjectRef := ⟨0x1018, by decide, by decide⟩
    let next : ObjectRef := ⟨0x1020, by decide, by decide⟩
    codec.shift < 64 ∧ (∃ cause, codec.encode (some ⟨0xff8, by decide, by decide⟩) = .error cause) ∧
      (∃ cause, codec.encode (some ⟨0x1000001000, by decide, by decide⟩) = .error cause) ∧
      codec.encode (some base) = .ok 0 ∧ codec.decode 0 ≠ .ok (some base) ∧
      codec.encode (some within) = .ok 1 ∧ codec.decode 1 ≠ .ok (some within) ∧
      codec.OnGrid next ∧ codec.encode (some next) = .ok 2 ∧ codec.decode 2 = .ok (some next) ∧
      (∀ other, codec.OnGrid other → codec.encode (some other) = .ok 2 → other = next) := by
  intro codec base within next
  have hshift : codec.shift < 64 := by decide
  obtain ⟨hobject, hapart, -, hback⟩ := encodes_faithfully hshift
  have hbase : codec.encode (some base) = .ok 0 := by decide
  have hwithin : codec.encode (some within) = .ok 1 := by decide
  have hnext : codec.encode (some next) = .ok 2 := by decide
  have hgrid : codec.OnGrid next := by
    unfold OnGrid
    decide
  have hdecode : codec.decode 2 = .ok (some next) := ((hobject next).2 2 hnext).2 ⟨by decide, by decide⟩
  refine ⟨hshift, (hobject _).1.2 (.inl (by decide)), (hobject _).1.2 (.inr (by decide)), hbase, fun h => ?_,
    hwithin, fun h => ?_, hgrid, hback 2 next (by decide) (by decide) hdecode, hdecode, fun other hother hencode =>
    hapart other next hother hgrid 2 hencode hnext⟩
  · exact absurd rfl (((hobject base).2 0 hbase).1 h).1
  · exact absurd (((hobject within).2 1 hwithin).1 h).2 (by decide)

end PointerCodec
end Safepoint
