import Safepoint.Proofs.Slot
import Safepoint.Slot.Range

/-!
# The slots of a range

The `i`-th slot of a range lies `i` strides after its start. A copy changes the bytes of the target's slots and no
others.
-/
namespace Safepoint

namespace Slot

theorem isNarrow_narrow (address : Address) : (narrow address).isNarrow = true := by
  refine isNarrow_iff.2 ?_
  rw [narrow, UInt64.toNat_or]
  exact Nat.right_le_or

theorem toNat_address_narrow (address : Address) : (narrow address).address.toNat = address.toNat % 2 ^ 63 := by
  rw [toNat_address, narrow, UInt64.toNat_or, show narrowTag.toNat = 2 ^ 63 from rfl, Nat.or_mod_two_pow, Nat.mod_self,
    Nat.or_zero]

theorem wide_of_lt {address : Address} (h : address.toNat < 2 ^ 63) : wide address = .ok ⟨address⟩ := by
  have hclear : (address &&& narrowTag).toNat = 0 := by
    rw [toNat_and_tag, if_neg (Nat.not_le.2 h)]
  rw [wide, if_pos (UInt64.toNat_inj.1 hclear)]

end Slot

namespace SlotCursor

variable {cursor : SlotCursor} {rest : Nat}

theorem toNat_stride (cursor : SlotCursor) : cursor.stride.toNat = if cursor.narrow then 4 else 8 := by
  unfold stride
  split <;> rfl

/-- The slot `i` strides ahead of the cursor. -/
def Ahead (cursor : SlotCursor) (i : Nat) (slot : Slot) : Prop :=
  slot.isNarrow = cursor.narrow ∧ slot.address.toNat = cursor.here.toNat + i * cursor.stride.toNat

/-- Below the tag, the cursor gives the slot where it is and moves on. -/
theorem next_of_lt (hrest : cursor.remaining = rest + 1) (hbelow : cursor.here.toNat < 2 ^ 63) :
    ∃ slot next, cursor.next = .ok (some (slot, next)) ∧ cursor.Ahead 0 slot ∧
      next.here.toNat = cursor.here.toNat + cursor.stride.toNat ∧ next.remaining = rest ∧
      next.narrow = cursor.narrow := by
  have hstride := cursor.toNat_stride
  have hmoved : (cursor.here + cursor.stride).toNat = cursor.here.toNat + cursor.stride.toNat := by
    have hword : wordLimit = 2 ^ 64 := rfl
    refine toNat_add_of_lt ?_
    split at hstride <;> omega
  have hnext : cursor.next = (if cursor.narrow then .ok (Slot.narrow cursor.here) else Slot.wide cursor.here) >>=
      fun slot => .ok (some (slot, ⟨cursor.here + cursor.stride, rest, cursor.narrow⟩)) := by
    unfold next
    rw [hrest]
    simp only [addChecked_eq_ok.2 hmoved]
    split <;> rfl
  let moved : SlotCursor := ⟨cursor.here + cursor.stride, rest, cursor.narrow⟩
  by_cases hnarrow : cursor.narrow
  · refine ⟨.narrow cursor.here, moved, hnext.trans (by rw [if_pos hnarrow]; rfl), ⟨?_, ?_⟩, hmoved, rfl, rfl⟩
    · rw [Slot.isNarrow_narrow, hnarrow]
    · rw [Slot.toNat_address_narrow, Nat.mod_eq_of_lt hbelow, Nat.zero_mul, Nat.add_zero]
  · refine ⟨⟨cursor.here⟩, moved, hnext.trans (by rw [if_neg hnarrow, Slot.wide_of_lt hbelow]; rfl), ⟨?_, ?_⟩,
      hmoved, rfl, rfl⟩
    · rw [Bool.eq_false_iff.2 hnarrow, ← Bool.not_eq_true, Slot.isNarrow_iff]
      exact Nat.not_le.2 hbelow
    · rw [Slot.toNat_address, Nat.mod_eq_of_lt hbelow, Nat.zero_mul, Nat.add_zero]

theorem take_of_lt (hbelow : ∀ i < cursor.remaining, cursor.here.toNat + i * cursor.stride.toNat < 2 ^ 63) :
    ∃ slots, cursor.take cursor.remaining = .ok slots ∧ slots.length = cursor.remaining ∧
      ∀ i (h : i < slots.length), cursor.Ahead i slots[i] := by
  generalize hrest : cursor.remaining = rest at *
  induction rest generalizing cursor with
  | zero => exact ⟨[], rfl, rfl, by simp⟩
  | succ rest ih =>
    obtain ⟨slot, next, hnext, hahead, hhere, hremaining, hnarrow⟩ :=
      next_of_lt hrest (by simpa using hbelow 0 (Nat.succ_pos _))
    have hstride : next.stride.toNat = cursor.stride.toNat := by rw [toNat_stride, toNat_stride, hnarrow]
    have hlater (i : Nat) : next.here.toNat + i * next.stride.toNat =
        cursor.here.toNat + (i + 1) * cursor.stride.toNat := by
      rw [hhere, hstride, Nat.succ_mul]
      omega
    obtain ⟨slots, htake, hlength, hslots⟩ := @ih next hremaining fun i hi => by
      rw [hlater]
      exact hbelow (i + 1) (Nat.succ_lt_succ hi)
    refine ⟨slot :: slots, ?_, by rw [List.length_cons, hlength], fun i hi => ?_⟩
    · rw [take]
      simp only [hnext, htake, bind, Except.bind, pure, Except.pure]
    · cases i with
      | zero => exact hahead
      | succ i =>
        obtain ⟨hwidth, haddress⟩ := hslots i (Nat.lt_of_succ_lt_succ hi)
        exact ⟨hwidth.trans hnarrow, haddress.trans (hlater i)⟩

end SlotCursor
namespace SlotRange

variable {range source target : SlotRange} {family : Slot → Prop} {slot : Slot} {m m' : Memory}

/-- The slot `i` strides after the start of the range, of the width of the range. -/
def Element (range : SlotRange) (i : Nat) (slot : Slot) : Prop :=
  slot.isNarrow = range.narrow ∧ slot.address.toNat = range.start.toNat + i * range.stride

instance (range : SlotRange) (i : Nat) (slot : Slot) : Decidable (range.Element i slot) :=
  inferInstanceAs (Decidable (_ ∧ _))

/-- All the slots of the range belong to the family. -/
def Within (range : SlotRange) (family : Slot → Prop) : Prop :=
  ∀ i < range.count, ∃ slot, family slot ∧ range.Element i slot

theorem Element.eq {i : Nat} {slot other : Slot} (h : range.Element i slot) (h' : range.Element i other) :
    slot = other := Slot.eq_of_address (h.1.trans h'.1.symm) (h.2.trans h'.2.symm)

theorem Element.width {i : Nat} (h : range.Element i slot) : slot.width = range.stride := by
  rw [Slot.width, stride, h.1]

theorem toNat_stride_cursor (range : SlotRange) : range.cursor.stride.toNat = range.stride :=
  range.cursor.toNat_stride

/-- A range below the tag gives its slots, one after the other. -/
theorem slots_of_lt (hbelow : ∀ i < range.count, range.start.toNat + i * range.stride < 2 ^ 63) :
    ∃ slots, range.slots = .ok slots ∧ slots.length = range.count ∧
      ∀ i (h : i < slots.length), range.Element i slots[i] := by
  have hcursor : ∀ i < range.cursor.remaining, range.cursor.here.toNat + i * range.cursor.stride.toNat < 2 ^ 63 := by
    rw [toNat_stride_cursor]
    exact hbelow
  obtain ⟨slots, htake, hlength, hslots⟩ := SlotCursor.take_of_lt hcursor
  refine ⟨slots, htake, hlength, fun i hi => ?_⟩
  obtain ⟨hwidth, haddress⟩ := hslots i hi
  rw [toNat_stride_cursor] at haddress
  exact ⟨hwidth, haddress⟩

/-- A range within a family gives slots of the family, and all of its own. -/
theorem Within.slots (h : range.Within family) : ∃ slots, range.slots = .ok slots ∧ (∀ slot ∈ slots, family slot) ∧
    ∀ i < range.count, ∃ slot ∈ slots, range.Element i slot := by
  have hbelow : ∀ i < range.count, range.start.toNat + i * range.stride < 2 ^ 63 := fun i hi => by
    obtain ⟨slot, -, -, haddress⟩ := h i hi
    exact haddress ▸ slot.address_lt
  obtain ⟨slots, hslots, hlength, helements⟩ := slots_of_lt hbelow
  refine ⟨slots, hslots, fun slot hslot => ?_, fun i hi => ?_⟩
  · obtain ⟨i, hi, rfl⟩ := List.mem_iff_getElem.1 hslot
    obtain ⟨found, hfamily, hfound⟩ := h i (hlength ▸ hi)
    rwa [(helements i hi).eq hfound]
  · have hi : i < slots.length := hlength.symm ▸ hi
    exact ⟨slots[i], List.getElem_mem hi, helements i hi⟩

/-- The range ends at the tag bit or below. -/
def EndsBelowTag (range : SlotRange) : Prop := range.start.toNat + range.count * range.stride ≤ 2 ^ 63

instance (range : SlotRange) : Decidable range.EndsBelowTag := inferInstanceAs (Decidable (_ ≤ _))

theorem EndsBelowTag.slots (h : range.EndsBelowTag) : ∃ slots, range.slots = .ok slots ∧
    slots.length = range.count ∧ ∀ i (h : i < slots.length), range.Element i slots[i] := by
  refine slots_of_lt fun i hi => ?_
  have hlast : (i + 1) * range.stride ≤ range.count * range.stride := Nat.mul_le_mul_right _ hi
  have hpos : 0 < range.stride := by
    unfold stride
    split <;> decide
  unfold EndsBelowTag at h
  rw [Nat.add_mul] at hlast
  omega

/-- The ranges have as many slots, of one width. -/
def SameShape (source target : SlotRange) : Prop := source.count = target.count ∧ source.narrow = target.narrow

instance (source target : SlotRange) : Decidable (source.SameShape target) := inferInstanceAs (Decidable (_ ∧ _))

theorem SameShape.stride (h : source.SameShape target) : source.stride = target.stride := by
  rw [SlotRange.stride, SlotRange.stride, h.2]

/-- Ranges of one shape are copied. -/
theorem SameShape.copy (h : source.SameShape target) (hbelow : source.EndsBelowTag) (m : Memory) :
    source.copy target m = .ok (m.copy source.start target.start (source.count * source.stride)) := by
  have hsize : source.count * source.stride < wordLimit := by
    have hword : wordLimit = 2 ^ 64 := rfl
    unfold EndsBelowTag at hbelow
    omega
  have hsource : source.bytes = .ok (source.count * source.stride) := if_pos hsize
  have htarget : target.bytes = .ok (source.count * source.stride) := by
    rw [h.1, h.stride] at hsize ⊢
    exact if_pos hsize
  simp [SlotRange.copy, hsource, htarget, h.2, bind, Except.bind, pure, Except.pure]

/-- Ranges of different sizes or widths are not copied. -/
theorem copy_eq_error (h : source.count * source.stride ≠ target.count * target.stride ∨ source.narrow ≠ target.narrow)
    (m : Memory) : ∃ cause, source.copy target m = .error cause := by
  by_cases hsource : source.count * source.stride < wordLimit
  · by_cases htarget : target.count * target.stride < wordLimit
    · by_cases hbytes : source.count * source.stride = target.count * target.stride
      · have hwidth := h.resolve_left fun hne => hne hbytes
        refine ⟨.unequalWidths source.narrow target.narrow, ?_⟩
        simp [copy, bytes, htarget, hbytes, hwidth, bind, Except.bind, throw, throwThe, MonadExceptOf.throw]
      · refine ⟨.unequalBytes (source.count * source.stride) (target.count * target.stride), ?_⟩
        simp [copy, bytes, hsource, htarget, hbytes, bind, Except.bind, throw, throwThe, MonadExceptOf.throw]
    · exact ⟨.multiplyOverflow, by simp [copy, bytes, hsource, htarget, bind, Except.bind]⟩
  · exact ⟨.multiplyOverflow, by simp [copy, bytes, hsource, bind, Except.bind]⟩

/-- A slot of the target has the bits that the slot of the source had. -/
theorem SameShape.loadBits_copy (h : source.SameShape target) {i : Nat} {origin : Slot} (hi : i < source.count)
    (horigin : source.Element i origin) (hslot : target.Element i slot) (m : Memory) :
    slot.loadBits (m.copy source.start target.start (source.count * source.stride)) = origin.loadBits m := by
  have hwidth : slot.width = source.stride := hslot.width.trans h.stride.symm
  have hlast : (i + 1) * source.stride ≤ source.count * source.stride := Nat.mul_le_mul_right _ hi
  rw [Nat.add_mul, Nat.one_mul] at hlast
  rw [Slot.loadBits, Slot.loadBits, horigin.width, hwidth]
  have haddress : slot.address.toNat = target.start.toNat + i * source.stride := by rw [hslot.2, h.stride]
  exact Memory.load_copy haddress horigin.2 hlast m

/-- What a copy changes lies in the target. -/
theorem sameOutside_copy (h : source.copy target m = .ok m') :
    m.SameOutside m' target.start.toNat (target.count * target.stride) := by
  unfold copy at h
  obtain ⟨sourceBytes, hsource, h⟩ := except_bind_eq_ok.1 h
  obtain ⟨targetBytes, htarget, h⟩ := except_bind_eq_ok.1 h
  have htarget : target.count * target.stride = targetBytes := by
    unfold bytes at htarget
    split at htarget <;> simp_all
  by_cases hbytes : sourceBytes = targetBytes
  · by_cases hwidth : source.narrow = target.narrow
    · simp only [hbytes, hwidth, ne_eq, not_true_eq_false, ↓reduceIte, pure, Except.pure, Except.ok.injEq] at h
      rw [← h, htarget]
      exact Memory.sameOutside_copy m source.start target.start targetBytes
    · simp [hbytes, hwidth, throw, throwThe, MonadExceptOf.throw, bind, Except.bind] at h
  · simp [hbytes, throw, throwThe, MonadExceptOf.throw, bind, Except.bind] at h

/-- What lies apart from each slot of a range keeps its bits when only the range changes. -/
theorem loadBits_of_sameOutside (h : m.SameOutside m' range.start.toNat (range.count * range.stride))
    (apart : ∀ i < range.count, ∃ other, range.Element i other ∧ other.Apart slot) :
    slot.loadBits m' = slot.loadBits m := by
  refine h.load fun a hle hlt hinside => ?_
  have hpos : 0 < range.stride := by
    unfold stride
    split <;> decide
  let i := (a - range.start.toNat) / range.stride
  have hi : i < range.count := (Nat.div_lt_iff_lt_mul hpos).2 (by omega)
  obtain ⟨other, helement, hother⟩ := apart i hi
  have hwidth := helement.width
  have haddress := helement.2
  have hfirst : i * range.stride ≤ a - range.start.toNat := Nat.div_mul_le_self ..
  have hlast : a - range.start.toNat < i * range.stride + range.stride := Nat.lt_div_mul_add hpos
  unfold Slot.Apart at hother
  change a < slot.address.toNat + slot.width at hlt
  omega

end SlotRange
end Safepoint
