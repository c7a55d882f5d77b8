import Safepoint.Proofs.Slot.Range

/-!
# The slots of a range tile its bytes

A cursor gives the slots of a range one after another and says at each how many are to come. The slots lie side by side,
so those given first cover the bytes from the start on. A cursor looks at the tag bit before it gives a wide slot, but
moves on without a look at it: a wide range that goes beyond the tag gives all its slots below, the last of which may
reach over, and breaks off at the next if there is one.
-/
namespace Safepoint

namespace SlotCursor

variable {cursor mid last : SlotCursor} {slot : Slot} {slots front back : List Slot} {n : Nat}

/-- The cursor gives the slots one after another, and then stands at `last`. -/
inductive Yields : SlotCursor → List Slot → SlotCursor → Prop
  | done (cursor : SlotCursor) : Yields cursor [] cursor
  | step {cursor mid last : SlotCursor} {slot : Slot} {slots : List Slot} (next : cursor.next = .ok (some (slot, mid)))
      (rest : Yields mid slots last) : Yields cursor (slot :: slots) last

/-- The next slot is found, and then the cursor moves on. -/
theorem next_eq_bind {rest : Nat} (h : cursor.remaining = rest + 1) : cursor.next =
    (if cursor.narrow then .ok (Slot.narrow cursor.here) else Slot.wide cursor.here) >>= fun slot =>
      addChecked cursor.here cursor.stride >>= fun here => .ok (some (slot, ⟨here, rest, cursor.narrow⟩)) := by
  unfold next
  rw [h]
  dsimp only
  split <;> rfl

theorem next_eq_none (h : cursor.remaining = 0) : cursor.next = .ok none := by
  unfold next
  rw [h]

/-- A slot that is given is one less to come. -/
theorem remaining_of_next (h : cursor.next = .ok (some (slot, mid))) : cursor.remaining = mid.remaining + 1 := by
  cases hrest : cursor.remaining with
  | zero =>
    rw [next_eq_none hrest] at h
    cases h
  | succ rest =>
    rw [next_eq_bind hrest] at h
    obtain ⟨found, -, h⟩ := except_bind_eq_ok.1 h
    obtain ⟨here, -, h⟩ := except_bind_eq_ok.1 h
    cases h
    rfl

/-- At the tag or beyond there is no wide slot. -/
theorem next_eq_error (hsome : cursor.remaining ≠ 0) (hwide : cursor.narrow = false)
    (hbeyond : 2 ^ 63 ≤ cursor.here.toNat) : cursor.next = .error .taggedAddress := by
  obtain ⟨rest, hrest⟩ := Nat.exists_eq_succ_of_ne_zero hsome
  have htagged : cursor.here &&& Slot.narrowTag ≠ 0 := by
    rw [ne_eq, ← UInt64.toNat_inj, Slot.toNat_and_tag, if_pos hbeyond]
    decide
  have hslot : Slot.wide cursor.here = .error .taggedAddress := if_neg htagged
  rw [next_eq_bind hrest, hwide, hslot]
  rfl

namespace Yields

theorem remaining (h : cursor.Yields slots last) : last.remaining + slots.length = cursor.remaining := by
  induction h with
  | done cursor => rfl
  | step next rest ih =>
    rw [remaining_of_next next, List.length_cons]
    omega

/-- The way to the last slot leads over those before it. -/
theorem split (h : cursor.Yields (front ++ back) last) : ∃ mid, cursor.Yields front mid ∧ mid.Yields back last := by
  induction front generalizing cursor with
  | nil => exact ⟨cursor, .done cursor, h⟩
  | cons slot front ih =>
    cases h with
    | step next rest =>
      obtain ⟨mid, hfront, hback⟩ := ih rest
      exact ⟨mid, .step next hfront, hback⟩

/-- What is taken at once is what was given, and then what is given from there. -/
theorem take (h : cursor.Yields slots last) (n : Nat) :
    cursor.take (slots.length + n) = (last.take n).map (slots ++ ·) := by
  induction h with
  | done cursor =>
    rw [List.length_nil, Nat.zero_add]
    cases cursor.take n <;> rfl
  | @step cursor mid last slot slots next rest ih =>
    have hlength : (slot :: slots).length + n = slots.length + n + 1 := by
      rw [List.length_cons]
      omega
    rw [hlength, SlotCursor.take]
    simp only [next, bind, Except.bind, ih]
    cases last.take n <;> rfl

end Yields

/-- Below the tag, a cursor gives slot after slot, each where it stands. -/
theorem yields_of_lt (hn : n ≤ cursor.remaining)
    (hbelow : ∀ i < n, cursor.here.toNat + i * cursor.stride.toNat < 2 ^ 63) :
    ∃ slots last, cursor.Yields slots last ∧ slots.length = n ∧ (∀ i (h : i < slots.length), cursor.Ahead i slots[i]) ∧
      last.here.toNat = cursor.here.toNat + n * cursor.stride.toNat ∧ last.narrow = cursor.narrow := by
  induction n generalizing cursor with
  | zero => exact ⟨[], cursor, .done cursor, rfl, by simp, by simp, rfl⟩
  | succ n ih =>
    obtain ⟨rest, hrest⟩ : ∃ rest, cursor.remaining = rest + 1 := Nat.exists_eq_succ_of_ne_zero (by omega)
    obtain ⟨slot, next, hnext, hahead, hhere, hremaining, hnarrow⟩ :=
      next_of_lt hrest (by simpa using hbelow 0 (Nat.succ_pos n))
    have hstride : next.stride.toNat = cursor.stride.toNat := by rw [toNat_stride, toNat_stride, hnarrow]
    have hlater (i : Nat) : next.here.toNat + i * next.stride.toNat =
        cursor.here.toNat + (i + 1) * cursor.stride.toNat := by
      rw [hhere, hstride, Nat.succ_mul]
      omega
    obtain ⟨slots, last, hyields, hlength, hslots, hlast, hwidth⟩ := @ih next (by omega) fun i hi => by
      rw [hlater]
      exact hbelow (i + 1) (Nat.succ_lt_succ hi)
    refine ⟨slot :: slots, last, .step hnext hyields, by rw [List.length_cons, hlength], fun i hi => ?_,
      hlast.trans (hlater n), hwidth.trans hnarrow⟩
    cases i with
    | zero => exact hahead
    | succ i =>
      obtain ⟨hnarrow', haddress⟩ := hslots i (Nat.lt_of_succ_lt_succ hi)
      exact ⟨hnarrow'.trans hnarrow, haddress.trans (hlater i)⟩

end SlotCursor

namespace SlotRange

variable {range : SlotRange} {slots : List Slot} {last : SlotCursor} {n : Nat}

theorem stride_pos (range : SlotRange) : 0 < range.stride := by
  unfold stride
  split <;> decide

/-- A later slot begins where an earlier one has ended, or further on. -/
theorem Element.apart {i j : Nat} {slot other : Slot} (h : range.Element i slot) (h' : range.Element j other)
    (hij : i < j) : slot.Apart other := by
  have hnext : (i + 1) * range.stride ≤ j * range.stride := Nat.mul_le_mul_right _ hij
  rw [Nat.add_mul, Nat.one_mul] at hnext
  left
  rw [h.2, h'.2, h.width]
  omega

/-- The byte `a` is in the slot `i` strides after the start if that is where the strides lead. -/
theorem Element.covers_iff {i : Nat} {slot : Slot} (h : range.Element i slot) (a : Nat) :
    slot.Covers a ↔ range.start.toNat ≤ a ∧ (a - range.start.toNat) / range.stride = i := by
  have hpos := range.stride_pos
  unfold Slot.Covers
  rw [h.2, h.width, Nat.div_eq_iff hpos]
  have hsucc : (i + 1) * range.stride = i * range.stride + range.stride := Nat.succ_mul ..
  omega

/-- The slots are the first of the range, in order. The cursor gives them and then stands at `last`, and says at each
how many are to come. No two of them share a byte, and together they cover the bytes from the start on. -/
structure Tiles (range : SlotRange) (slots : List Slot) (last : SlotCursor) : Prop where
  yields : range.cursor.Yields slots last
  element : ∀ i (h : i < slots.length), range.Element i slots[i]
  apart : slots.Pairwise Slot.Apart
  covers : ∀ a, (∃ slot ∈ slots, slot.Covers a) ↔
    range.start.toNat ≤ a ∧ a < range.start.toNat + slots.length * range.stride
  hints : ∀ k ≤ slots.length, ∃ mid, range.cursor.Yields (slots.take k) mid ∧
    mid.sizeHint = (range.count - k, some (range.count - k))

theorem tiles_of_elements (hyields : range.cursor.Yields slots last)
    (helement : ∀ i (h : i < slots.length), range.Element i slots[i]) : range.Tiles slots last where
  yields := hyields
  element := helement
  apart := by
    rw [List.pairwise_iff_getElem]
    intro i j hi hj hij
    exact (helement i hi).apart (helement j hj) hij
  covers a := by
    have hpos := range.stride_pos
    constructor
    · rintro ⟨slot, hslot, hcovers⟩
      obtain ⟨i, hi, rfl⟩ := List.mem_iff_getElem.1 hslot
      obtain ⟨hstart, hdiv⟩ := ((helement i hi).covers_iff a).1 hcovers
      have hlt := (Nat.div_lt_iff_lt_mul hpos).1 (hdiv ▸ hi)
      omega
    · rintro ⟨hstart, hend⟩
      have hi : (a - range.start.toNat) / range.stride < slots.length := (Nat.div_lt_iff_lt_mul hpos).2 (by omega)
      exact ⟨_, List.getElem_mem hi, ((helement _ hi).covers_iff a).2 ⟨hstart, rfl⟩⟩
  hints k hk := by
    rw [← List.take_append_drop k slots] at hyields
    obtain ⟨mid, hmid, -⟩ := hyields.split
    have hleft : mid.remaining + (slots.take k).length = range.count := hmid.remaining
    rw [List.length_take_of_le hk] at hleft
    have hremaining : mid.remaining = range.count - k := by omega
    exact ⟨mid, hmid, by rw [SlotCursor.sizeHint, hremaining]⟩

/-- As long as its slots begin below the tag, a range gives them. -/
theorem tiles_of_lt (hn : n ≤ range.count) (hbelow : ∀ i < n, range.start.toNat + i * range.stride < 2 ^ 63) :
    ∃ slots last, range.Tiles slots last ∧ slots.length = n ∧
      last.here.toNat = range.start.toNat + n * range.stride ∧ last.narrow = range.narrow := by
  have hcursor : ∀ i < n, range.cursor.here.toNat + i * range.cursor.stride.toNat < 2 ^ 63 := by
    rw [toNat_stride_cursor]
    exact hbelow
  obtain ⟨slots, last, hyields, hlength, helement, hlast, hnarrow⟩ := SlotCursor.yields_of_lt hn hcursor
  rw [toNat_stride_cursor] at hlast
  refine ⟨slots, last, tiles_of_elements hyields fun i hi => ?_, hlength, hlast, hnarrow⟩
  obtain ⟨hwidth, haddress⟩ := helement i hi
  rw [toNat_stride_cursor] at haddress
  exact ⟨hwidth, haddress⟩

namespace Tiles

theorem remaining (h : range.Tiles slots last) : last.remaining + slots.length = range.count := h.yields.remaining

/-- A range that has given as many slots as it has gives no more. -/
theorem next_of_length (h : range.Tiles slots last) (hlength : slots.length = range.count) : last.next = .ok none := by
  have hremaining := h.remaining
  exact SlotCursor.next_eq_none (by omega)

theorem slots_of_length (h : range.Tiles slots last) (hlength : slots.length = range.count) :
    range.slots = .ok slots := by
  have htake := h.yields.take 0
  rw [Nat.add_zero, hlength] at htake
  rw [SlotRange.slots, htake]
  simp [SlotCursor.take, Except.map]

/-- Where the next slot fails, so does an attempt at all of them. -/
theorem slots_of_error (h : range.Tiles slots last) (hlength : slots.length < range.count) {cause : Panic}
    (hnext : last.next = .error cause) : range.slots = .error cause := by
  obtain ⟨k, hk⟩ := Nat.exists_eq_add_of_lt hlength
  have htake := h.yields.take (k + 1)
  rw [SlotCursor.take, hnext] at htake
  rw [SlotRange.slots, hk, Nat.add_assoc, htake]
  rfl

end Tiles

/-- How many slots of a wide range begin below the tag. -/
def countBelowTag (range : SlotRange) : Nat := min range.count ((2 ^ 63 - range.start.toNat + 7) / 8)

theorem lt_countBelowTag_iff {i : Nat} (hi : i < range.count) :
    i < range.countBelowTag ↔ range.start.toNat + i * 8 < 2 ^ 63 := by
  unfold countBelowTag
  omega

/-- A range that ends at the tag or below gives all its slots, and then no more. They tile the bytes that the range has
for a copy. Of any other wide range those slots are given that begin below the tag, and in the same way; then no more if
these are all, and otherwise the next one fails. -/
theorem slots_tile_range (range : SlotRange) :
    (range.EndsBelowTag → ∃ slots last, range.Tiles slots last ∧ slots.length = range.count ∧ last.next = .ok none ∧
      range.slots = .ok slots ∧ ∃ size, range.bytes = .ok size ∧
        ∀ a, (∃ slot ∈ slots, slot.Covers a) ↔ range.start.toNat ≤ a ∧ a < range.start.toNat + size) ∧
    (¬range.EndsBelowTag → range.narrow = false → ∃ slots last, range.Tiles slots last ∧
      slots.length ≤ range.count ∧
      (∀ i < range.count, i < slots.length ↔ range.start.toNat + i * range.stride < 2 ^ 63) ∧
      (slots.length = range.count → last.next = .ok none ∧ range.slots = .ok slots) ∧
      (slots.length < range.count → last.next = .error .taggedAddress ∧ range.slots = .error .taggedAddress)) := by
  constructor
  · intro hends
    have hpos := range.stride_pos
    have hbelow : ∀ i < range.count, range.start.toNat + i * range.stride < 2 ^ 63 := fun i hi => by
      have hlast : (i + 1) * range.stride ≤ range.count * range.stride := Nat.mul_le_mul_right _ hi
      unfold EndsBelowTag at hends
      rw [Nat.add_mul] at hlast
      omega
    obtain ⟨slots, last, htiles, hlength, -, -⟩ := tiles_of_lt (Nat.le_refl range.count) hbelow
    have hsize : range.count * range.stride < wordLimit := by
      have hword : wordLimit = 2 ^ 64 := rfl
      unfold EndsBelowTag at hends
      omega
    refine ⟨slots, last, htiles, hlength, htiles.next_of_length hlength, htiles.slots_of_length hlength,
      range.count * range.stride, if_pos hsize, fun a => ?_⟩
    rw [htiles.covers, hlength]
  · intro hends hwide
    have hstride : range.stride = 8 := by rw [stride, hwide]; rfl
    have hcount : range.countBelowTag ≤ range.count := Nat.min_le_left ..
    obtain ⟨slots, last, htiles, hlength, hhere, hnarrow⟩ := tiles_of_lt hcount fun i hi => by
      rw [hstride]
      exact (lt_countBelowTag_iff (Nat.lt_of_lt_of_le hi hcount)).1 hi
    refine ⟨slots, last, htiles, hlength ▸ hcount, fun i hi => ?_,
      fun hall => ⟨htiles.next_of_length hall, htiles.slots_of_length hall⟩, fun hless => ?_⟩
    · rw [hlength, hstride]
      exact lt_countBelowTag_iff hi
    · have hremaining := htiles.remaining
      have hbeyond : ¬range.start.toNat + slots.length * 8 < 2 ^ 63 := by
        rw [← lt_countBelowTag_iff hless, hlength]
        exact Nat.lt_irrefl _
      have hnext : last.next = .error .taggedAddress := by
        refine SlotCursor.next_eq_error (by omega) (hnarrow.trans hwide) ?_
        rw [hhere, hstride, ← hlength]
        omega
      exact ⟨hnext, htiles.slots_of_error hless hnext⟩

/-- Three narrow slots side by side; and three wide ones of which the second reaches over the tag and the third begins
beyond it, so two are given. -/
theorem range_breaks_off_beyond_tag :
    (∃ slots last, (⟨none, 0x1000, 3, true⟩ : SlotRange).Tiles slots last ∧ slots.length = 3 ∧ last.next = .ok none ∧
      ∀ a, (∃ slot ∈ slots, slot.Covers a) ↔ 0x1000 ≤ a ∧ a < 0x100c) ∧
    ∃ slots last, (⟨none, 0x7ffffffffffffff4, 3, false⟩ : SlotRange).Tiles slots last ∧ slots.length = 2 ∧
      last.next = .error .taggedAddress := by
  constructor
  · obtain ⟨slots, last, htiles, hlength, hend, -⟩ := (slots_tile_range ⟨none, 0x1000, 3, true⟩).1 (by decide)
    refine ⟨slots, last, htiles, hlength, hend, fun a => ?_⟩
    rw [htiles.covers, hlength]
    rfl
  · obtain ⟨slots, last, htiles, hle, hbelow, -, herror⟩ :=
      (slots_tile_range ⟨none, 0x7ffffffffffffff4, 3, false⟩).2 (by decide) rfl
    have hsecond : 1 < slots.length := (hbelow 1 (by decide)).2 (by decide)
    have hthird : ¬2 < slots.length := mt (hbelow 2 (by decide)).1 (by decide)
    exact ⟨slots, last, htiles, by omega, (herror (by change _ < 3; omega)).1⟩

end SlotRange

end Safepoint
