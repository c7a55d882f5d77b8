import Mathlib.Algebra.Ring.Nat
import Safepoint.Memory

/-!
# Loads and stores

A load sees the bytes it covers and no others. What is stored is loaded again, as far as the width reaches.
-/
namespace Safepoint.Memory

variable {m m' : Memory}

/-- The two memories have the same bytes outside the `width` bytes at `start`. -/
def SameOutside (m m' : Memory) (start width : Nat) : Prop :=
  ∀ a, ¬(start ≤ a ∧ a < start + width) → m'.byte a = m.byte a

theorem sameOutside_refl (m : Memory) (start width : Nat) : m.SameOutside m start width := fun _ _ => rfl

theorem sameOutside_store (m : Memory) (start : Address) (width : Nat) (word : UInt64) :
    m.SameOutside (m.store start width word) start.toNat width := fun a ha => by
  rw [byte_store, if_neg ha]

theorem sameOutside_copy (m : Memory) (source target : Address) (count : Nat) :
    m.SameOutside (m.copy source target count) target.toNat count := fun a ha => by
  rw [byte_copy, if_neg ha]

/-- Bytes that are the same one by one, wherever they lie, are loaded as the same number. -/
theorem loadNat_shift {start start' width : Nat} (h : ∀ i < width, m'.byte (start' + i) = m.byte (start + i)) :
    m'.loadNat start' width = m.loadNat start width := by
  induction width generalizing start start' with
  | zero => rfl
  | succ width ih =>
    have hfirst := h 0 (by omega)
    have hrest : m'.loadNat (start' + 1) width = m.loadNat (start + 1) width := by
      refine ih fun i hi => ?_
      have hnext := h (i + 1) (by omega)
      rwa [Nat.add_assoc start', Nat.add_assoc start, Nat.add_comm 1 i]
    rw [loadNat, loadNat, hrest]
    rw [Nat.add_zero, Nat.add_zero] at hfirst
    rw [hfirst]

theorem loadNat_congr {start width : Nat} (h : ∀ a, start ≤ a → a < start + width → m'.byte a = m.byte a) :
    m'.loadNat start width = m.loadNat start width :=
  loadNat_shift fun i hi => h (start + i) (by omega) (by omega)

/-- A word of the target of a copy is the word that lay as far into the source. -/
theorem load_copy {source target address origin : Address} {count width offset : Nat}
    (haddress : address.toNat = target.toNat + offset) (horigin : origin.toNat = source.toNat + offset)
    (hinside : offset + width ≤ count) (m : Memory) :
    (m.copy source target count).load address width = m.load origin width := by
  refine congrArg Nat.toUInt64 (loadNat_shift fun i hi => ?_)
  rw [byte_copy, if_pos (by omega), haddress, horigin]
  congr 1
  omega

theorem copy_zero (m : Memory) (source target : Address) : m.copy source target 0 = m := by
  ext a
  rw [byte_copy, if_neg (by omega)]

theorem SameOutside.load {start width : Nat} (h : m.SameOutside m' start width) {address : Address} {count : Nat}
    (apart : ∀ a, address.toNat ≤ a → a < address.toNat + count → ¬(start ≤ a ∧ a < start + width)) :
    m'.load address count = m.load address count :=
  congrArg Nat.toUInt64 (loadNat_congr fun a hle hlt => h a (apart a hle hlt))

theorem toNat_byteOf (word : UInt64) (i : Nat) : (byteOf word i).toNat = word.toNat / 256 ^ i % 256 := by
  rw [byteOf, Nat.toUInt8_eq, UInt8.toNat_ofNat', Nat.shiftRight_eq_div_pow, Nat.pow_mul]

/-- Bytes that are the digits of a number are loaded as that number. -/
theorem loadNat_digits {start width value : Nat}
    (h : ∀ i < width, (m.byte (start + i)).toNat = value / 256 ^ i % 256) :
    m.loadNat start width = value % 256 ^ width := by
  induction width generalizing start value with
  | zero => simp [loadNat, Nat.mod_one]
  | succ width ih =>
    have hfirst := h 0 (by omega)
    have hrest : m.loadNat (start + 1) width = value / 256 % 256 ^ width := by
      refine ih fun i hi => ?_
      rw [show start + 1 + i = start + (i + 1) by omega, h (i + 1) (by omega), Nat.div_div_eq_div_mul, Nat.pow_succ,
        Nat.mul_comm]
    rw [loadNat, hrest, Nat.pow_succ, Nat.mul_comm (256 ^ width), Nat.mod_mul]
    simpa using hfirst

theorem loadNat_lt (m : Memory) (start width : Nat) : m.loadNat start width < 256 ^ width := by
  induction width generalizing start with
  | zero => simp [loadNat]
  | succ width ih =>
    have hfirst : (m.byte start).toNat < 256 := (m.byte start).toNat_lt
    have hrest := ih (start + 1)
    rw [loadNat, Nat.pow_succ]
    omega

/-- The bytes of what is loaded are its digits. -/
theorem toNat_byte (m : Memory) {start width i : Nat} (hi : i < width) :
    (m.byte (start + i)).toNat = m.loadNat start width / 256 ^ i % 256 := by
  induction width generalizing start i with
  | zero => omega
  | succ width ih =>
    have hfirst : (m.byte start).toNat < 256 := (m.byte start).toNat_lt
    rw [loadNat]
    cases i with
    | zero =>
      rw [Nat.pow_zero, Nat.div_one, Nat.add_mul_mod_self_left, Nat.mod_eq_of_lt hfirst, Nat.add_zero]
    | succ i =>
      have hdiv : ((m.byte start).toNat + 256 * m.loadNat (start + 1) width) / 256 = m.loadNat (start + 1) width := by
        omega
      rw [Nat.pow_succ', ← Nat.div_div_eq_div_mul, hdiv, ← ih (by omega), Nat.add_right_comm, Nat.add_assoc]

/-- A word is loaded with all its bytes. -/
theorem toNat_load {width : Nat} (hwidth : width ≤ 8) (m : Memory) (start : Address) :
    (m.load start width).toNat = m.loadNat start.toNat width := by
  have hbound : m.loadNat start.toNat width < 256 ^ 8 :=
    Nat.lt_of_lt_of_le (m.loadNat_lt _ _) (Nat.pow_le_pow_right (by decide) hwidth)
  rw [load, Nat.toUInt64_eq]
  exact UInt64.toNat_ofNat_of_lt' hbound

/-- Memories from which the same word is loaded have the same bytes there. -/
theorem byte_eq_of_load {start : Address} {width a : Nat} (hwidth : width ≤ 8)
    (h : m'.load start width = m.load start width) (hle : start.toNat ≤ a) (hlt : a < start.toNat + width) :
    m'.byte a = m.byte a := by
  obtain ⟨i, rfl⟩ := Nat.exists_eq_add_of_le hle
  have hi : i < width := by omega
  have hnat := congrArg UInt64.toNat h
  rw [toNat_load hwidth, toNat_load hwidth] at hnat
  rw [← UInt8.toNat_inj, m'.toNat_byte hi, m.toNat_byte hi, hnat]

theorem load_zero (start : Address) (width : Nat) : zero.load start width = 0 := by
  have hload : zero.loadNat start.toNat width = 0 % 256 ^ width := loadNat_digits fun i _ => by simp
  rw [load, hload, Nat.zero_mod]
  rfl

theorem load_store (m : Memory) (start : Address) (width : Nat) (word : UInt64) :
    ((m.store start width word).load start width).toNat = word.toNat % 256 ^ width := by
  have hload : (m.store start width word).loadNat start.toNat width = word.toNat % 256 ^ width := by
    refine loadNat_digits fun i hi => ?_
    rw [byte_store, if_pos (by omega), Nat.add_sub_cancel_left, toNat_byteOf]
  rw [load, hload, Nat.toUInt64_eq]
  exact UInt64.toNat_ofNat_of_lt' (Nat.lt_of_le_of_lt (Nat.mod_le ..) word.toNat_lt)

/-- Aligned words are the same or do not meet. -/
theorem load_store_of_ne {start address : Address} (hstart : start.toNat % 8 = 0) (haddress : address.toNat % 8 = 0)
    (hne : address ≠ start) (m : Memory) (word : UInt64) :
    (m.store start 8 word).load address 8 = m.load address 8 := by
  have hne : address.toNat ≠ start.toNat := fun h => hne (UInt64.toNat_inj.1 h)
  exact (m.sameOutside_store start 8 word).load fun a hle hlt => by omega

end Safepoint.Memory
