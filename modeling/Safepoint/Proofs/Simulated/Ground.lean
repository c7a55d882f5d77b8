import Safepoint.Proofs.Simulated.References

/-!
# References on the ground

References lie in cells outside of the heap and in the fields of objects. An allocation writes to none of them, and a
store to one of them leaves the others as they are, so that what is stored is all that has to be looked at.
-/
namespace Safepoint.Simulated

open Heap (fieldSlot headerSlot isNarrow_of_lt address_of_lt width_of_lt)

namespace Heap

variable {heap after : Heap} {object : ObjectRef} {a : Allocation} {slot field : Slot} {i j : Nat}

/-- An object of the heap that was not freed. -/
def Unfreed (heap : Heap) (object : ObjectRef) : Prop := heap.isFreed object = false

instance (heap : Heap) : DecidablePred heap.Unfreed := fun _ => inferInstanceAs (Decidable (_ = _))

theorem unfreed_iff : heap.Unfreed object ↔ ∃ a, heap.get? object = some a ∧ a.freed = false := by
  unfold Unfreed isFreed
  cases heap.get? object <;> simp

theorem Unfreed.holds (h : heap.Unfreed object) : heap.Holds object := by
  obtain ⟨a, ha, -⟩ := unfreed_iff.1 h
  simp [Holds, ha]

theorem holds_iff : heap.Holds object ↔ ∃ a, heap.get? object = some a := Option.isSome_iff_exists

/-- A field of an object. -/
def IsField (heap : Heap) (slot : Slot) : Prop :=
  ∃ object a, heap.get? object = some a ∧ ∃ i < a.fields.toNat, slot = fieldSlot object i

/-- A slot outside of the heap, or a field of an object. -/
def Location (heap : Heap) (slot : Slot) : Prop :=
  slot.address.toNat + slot.width ≤ heap.start.toNat ∨ heap.start.toNat + 8 * heapWords ≤ slot.address.toNat ∨
    heap.IsField slot

/-- The slot of the `i`-th word. -/
def wordSlot (heap : Heap) (i : Nat) : Slot := ⟨heap.start + i.toUInt64 * 8⟩

/-- The word after the header of an object, where its kind is. -/
def kindSlot (object : ObjectRef) : Slot := ⟨object.address + 8⟩

namespace Alike

variable (h : heap.Alike after)
include h

theorem holds : after.Holds = heap.Holds := by
  funext object
  have hshape := congrArg Option.isSome (h.shape object)
  rw [Option.isSome_map, Option.isSome_map] at hshape
  unfold Holds
  rw [hshape]

theorem isField (hslot : heap.IsField slot) : after.IsField slot := by
  obtain ⟨object, a, ha, i, hi, rfl⟩ := hslot
  obtain ⟨c, hc, hfields, -⟩ := h.symm.old ha
  exact ⟨object, c, hc, i, by rwa [hfields], rfl⟩

theorem location (hslot : heap.Location slot) : after.Location slot := by
  unfold Location
  rw [h.start]
  exact hslot.imp_right (Or.imp_right h.isField)

theorem strongSlots (object : ObjectRef) : after.strongSlots object = heap.strongSlots object := by
  unfold Heap.strongSlots
  cases hafter : after.get? object with
  | none =>
    have hshape := h.shape object
    rw [hafter] at hshape
    rw [Option.map_eq_none_iff.1 hshape.symm]
  | some a =>
    obtain ⟨c, hc, hfields, hkind⟩ := h.old hafter
    obtain ⟨fields, kind, freed⟩ := a
    obtain ⟨_, _, _⟩ := c
    cases hfields
    cases hkind
    rw [hc]
    cases kind <;> rfl

end Alike

namespace Sound

variable (h : heap.Sound)
include h

theorem isField_of_strong {slots : List Slot} (hslots : heap.strongFields object = .ok slots) (hslot : slot ∈ slots) :
    heap.IsField slot := by
  rw [h.strongFields_eq] at hslots
  cases hslots
  obtain ⟨a, ha, i, hi, rfl⟩ := h.mem_strongSlots hslot
  exact ⟨object, a, ha, i, hi, rfl⟩

theorem field_wide (hslot : heap.IsField slot) : slot.isNarrow = false := by
  obtain ⟨object, a, ha, i, hi, rfl⟩ := hslot
  exact isNarrow_of_lt (h.fieldSlot_lt ha hi)

theorem field_separate (hslot : heap.IsField slot) (hfield : heap.IsField field) : slot.Separate field := by
  obtain ⟨object, a, ha, i, hi, rfl⟩ := hslot
  obtain ⟨other, c, hc, j, hj, rfl⟩ := hfield
  by_cases hsame : object = other ∧ i = j
  · obtain ⟨rfl, rfl⟩ := hsame
    exact .inl rfl
  · exact .inr (h.fieldSlot_apart ha hi hc hj (by tauto))

/-- Fields lie in the words that were handed out. -/
theorem field_bounds (hslot : heap.IsField slot) : slot.width = 8 ∧
    heap.start.toNat + 16 ≤ slot.address.toNat ∧ slot.address.toNat + 8 ≤ heap.start.toNat + 8 * heap.next.toNat ∧
    slot.address.toNat + 8 ≤ heap.start.toNat + 8 * heapWords := by
  obtain ⟨object, a, ha, i, hi, rfl⟩ := hslot
  have hlt := h.fieldSlot_lt ha hi
  have hlower := h.lower object a ha
  have hupper := h.upper object a ha
  have hused := h.used object a ha
  unfold endOf at hupper hused
  rw [width_of_lt hlt, address_of_lt hlt, h.toNat_fieldSlot ha hi]
  omega

theorem location_separate (hslot : heap.Location slot) (hfield : heap.IsField field) : slot.Separate field := by
  obtain ⟨hwidth, hlow, -, hhigh⟩ := h.field_bounds hfield
  unfold Slot.Separate Slot.Apart
  rw [hwidth]
  obtain hbelow | habove | hslot := hslot
  · exact .inr (.inl (by omega))
  · exact .inr (.inr (by omega))
  · have hseparate := h.field_separate hslot hfield
    unfold Slot.Separate Slot.Apart at hseparate
    rwa [hwidth] at hseparate

/-- Nothing that is stored in a location is taken for a header. -/
theorem location_apart_header (hslot : heap.Location slot) (hobject : heap.Holds object) :
    slot.Apart (headerSlot object) := by
  obtain ⟨c, hc⟩ := holds_iff.1 hobject
  have hlower := h.lower object c hc
  have hupper := h.upper object c hc
  have hroom := h.room
  unfold endOf at hupper
  have hlt : (headerSlot object).raw.toNat < 2 ^ 63 := by
    change object.address.toNat < 2 ^ 63
    omega
  obtain hbelow | habove | ⟨other, a, ha, i, hi, rfl⟩ := hslot
  · unfold Slot.Apart
    rw [address_of_lt hlt]
    change _ ≤ object.address.toNat ∨ _
    omega
  · unfold Slot.Apart
    rw [address_of_lt hlt, width_of_lt hlt]
    change _ ∨ object.address.toNat + 8 ≤ _
    omega
  · exact h.field_apart_header ha hi hc

theorem toNat_wordSlot (hi : i < heapWords) : (heap.wordSlot i).raw.toNat = heap.start.toNat + 8 * i := by
  have hroom := h.room
  unfold heapWords at hroom hi
  have hi64 : i.toUInt64.toNat = i := UInt64.toNat_ofNat_of_lt' (by change i < 2 ^ 64; omega)
  rw [wordSlot, UInt64.toNat_add, UInt64.toNat_mul, hi64]
  simp only [UInt64.reduceToNat]
  omega

theorem wordSlot_lt (hi : i < heapWords) : (heap.wordSlot i).raw.toNat < 2 ^ 63 := by
  have hroom := h.room
  rw [h.toNat_wordSlot hi]
  omega

theorem wordSlot_apart (hi : i < heapWords) (hj : j < heapWords) (hne : i ≠ j) :
    (heap.wordSlot i).Apart (heap.wordSlot j) := by
  have hlt := h.wordSlot_lt hi
  have hlt' := h.wordSlot_lt hj
  unfold Slot.Apart
  rw [address_of_lt hlt, address_of_lt hlt', width_of_lt hlt, width_of_lt hlt', h.toNat_wordSlot hi,
    h.toNat_wordSlot hj]
  omega

/-- Objects lie in words that were handed out. -/
theorem header_apart_word (hobject : heap.Holds object) (hi : i < heapWords) (hfree : heap.next.toNat ≤ i) :
    (headerSlot object).Apart (heap.wordSlot i) := by
  obtain ⟨c, hc⟩ := holds_iff.1 hobject
  have hused := h.used object c hc
  have hroom := h.address_lt hc
  unfold endOf at hused
  have hlt : (headerSlot object).raw.toNat < 2 ^ 63 := by
    change object.address.toNat < 2 ^ 63
    omega
  have hlt' := h.wordSlot_lt hi
  unfold Slot.Apart
  rw [address_of_lt hlt, address_of_lt hlt', width_of_lt hlt, h.toNat_wordSlot hi]
  change object.address.toNat + 8 ≤ _ ∨ _
  omega

/-- Words that were not handed out are no locations. -/
theorem location_apart_word (hslot : heap.Location slot) (hi : i < heapWords) (hfree : heap.next.toNat ≤ i) :
    slot.Apart (heap.wordSlot i) := by
  have hlt := h.wordSlot_lt hi
  unfold Slot.Apart
  rw [address_of_lt hlt, width_of_lt hlt, h.toNat_wordSlot hi]
  obtain hbelow | habove | hfield := hslot
  · omega
  · omega
  · obtain ⟨hwidth, -, hused, -⟩ := h.field_bounds hfield
    rw [hwidth]
    omega

end Sound

end Heap

/-- An object was placed in the first words that had not been handed out. -/
structure Ground.Placed (g : Ground) (fields : UInt64) (kind : ObjectKind) (object : ObjectRef) (g' : Ground) :
    Prop where
  grows : g.heap.Grows fields kind g'.heap
  address : object.address = g.heap.start + g.heap.next * 8
  start : g'.heap.start = g.heap.start
  next : g'.heap.next.toNat = g.heap.next.toNat + 2 + fields.toNat
  room : g'.heap.next.toNat ≤ heapWords
  objects : ∀ other, g'.heap.get? other = if object = other then some ⟨fields, kind, false⟩ else g.heap.get? other
  memory : g'.memory = g.memory.store (object.address + 8) 8 kind.tag

/-- An allocation that returns has placed an object. -/
theorem Ground.placed_allocate {g g' : Ground} {fields : UInt64} {kind : ObjectKind} {object : ObjectRef}
    (hrun : (allocate fields kind).run g = (.ok object, g')) : g.Placed fields kind object g' := by
  have hgrows := grows_allocate hrun (by simp)
  cases hwords : Heap.wordsFor fields with
  | error cause => simp [allocate, Act.run_bind, hwords] at hrun
  | ok words =>
    cases hafter : addChecked g.heap.next words with
    | error cause => simp [allocate, Act.run_bind, hwords, hafter] at hrun
    | ok after =>
      by_cases hfull : heapWords < after.toNat
      · simp [allocate, Act.run_bind, hwords, hafter, hfull] at hrun
      · cases hobject : ObjectRef.ofNonzero (g.heap.start + g.heap.next * 8) with
        | error cause => simp [allocate, Act.run_bind, hwords, hafter, hfull, hobject] at hrun
        | ok found =>
          have hsize : words.toNat = 2 + fields.toNat := addChecked_eq_ok.1 hwords
          have hsum : after.toNat = g.heap.next.toNat + words.toNat := addChecked_eq_ok.1 hafter
          have hnext : (g.heap.next + words).toNat = g.heap.next.toNat + words.toNat := by
            apply toNat_add_of_lt
            rw [← hsum]
            exact after.toNat_lt
          have hall : (allocate fields kind).run g = (.ok found,
              { heap := { g.heap with
                  next := g.heap.next + words
                  objects := g.heap.objects.insert found ⟨fields, kind, false⟩ }
                memory := g.memory.store (g.heap.start + g.heap.next * 8 + 8) 8 kind.tag }) := by
            simp [allocate, Act.run_bind, hwords, hafter, hfull, hobject, Except.map]
          rw [hall] at hrun
          cases hrun
          have haddress := ObjectRef.ofNonzero_eq_ok.1 hobject
          refine ⟨hgrows, haddress, rfl, ?_, ?_, ?_, ?_⟩
          · change (g.heap.next + words).toNat = _
            omega
          · change (g.heap.next + words).toNat ≤ heapWords
            omega
          · exact fun other => Heap.get?_insert { g.heap with next := g.heap.next + words } object _ other
          · rw [haddress]

/-- The slots that references are looked for in are cells and fields. -/
def Ground.Tracks (g : Ground) (cells : List Slot) (slot : Slot) : Prop := slot ∈ cells ∨ g.heap.IsField slot

/-- References lie apart from one another, and lead to objects of the heap. None of these has moved, and the words that
were not handed out are zero. -/
structure Ground.Furnished (g : Ground) (codec : PointerCodec) (cells : List Slot) : Prop where
  heap : g.heap.Sound
  placed : ∀ slot ∈ cells, g.heap.Location slot
  separate : ∀ slot ∈ cells, ∀ other ∈ cells, slot.Separate other
  values : ∀ slot, g.Tracks cells slot → slot.NullOrLive codec g.heap.Holds g.memory
  unmoved : ∀ object, g.heap.Holds object → (ForwardingWord.load object g.memory).isForwarded = false
  blank : ∀ i < heapWords, g.heap.next.toNat ≤ i → (g.heap.wordSlot i).loadBits g.memory = 0

/-- Neither a root nor a strong field of an object that was not freed leads to a freed object. -/
structure Ground.Closed (g : Ground) (codec : PointerCodec) (roots : List Slot) : Prop where
  roots : ∀ slot ∈ roots, slot.NullOrLive codec g.heap.Unfreed g.memory
  fields : ∀ object, g.heap.Unfreed object → ∀ slots, g.heap.strongFields object = .ok slots → ∀ slot ∈ slots,
    slot.NullOrLive codec g.heap.Unfreed g.memory

namespace Ground

variable {g g' : Ground} {codec : PointerCodec} {cells roots more : List Slot} {slot other : Slot}

theorem Closed.mono (h : g.Closed codec roots) (hroots : more ⊆ roots) : g.Closed codec more :=
  ⟨fun slot hslot => h.roots slot (hroots hslot), h.fields⟩

namespace Furnished

variable (h : g.Furnished codec cells)
include h

theorem location (hslot : g.Tracks cells slot) : g.heap.Location slot := by
  obtain hcell | hfield := hslot
  · exact h.placed slot hcell
  · exact .inr (.inr hfield)

theorem tracked_separate (hslot : g.Tracks cells slot) (hother : g.Tracks cells other) : slot.Separate other := by
  obtain hcell | hfield := hslot
  · obtain hcell' | hfield' := hother
    · exact h.separate slot hcell other hcell'
    · exact h.heap.location_separate (h.placed slot hcell) hfield'
  · exact (h.heap.location_separate (h.location hother) hfield).symm

theorem mono (hcells : more ⊆ cells) : g.Furnished codec more where
  heap := h.heap
  placed slot hslot := h.placed slot (hcells hslot)
  separate slot hslot other hother := h.separate slot (hcells hslot) other (hcells hother)
  values slot hslot := h.values slot (hslot.imp_left (@hcells slot))
  unmoved := h.unmoved
  blank := h.blank

/-- What was changed in locations only has to be looked at in those that are tracked. -/
theorem changed (halike : g.heap.Alike g'.heap)
    (hframe : ∀ slot, (∀ location, g.heap.Location location → location.Apart slot) →
      slot.loadBits g'.memory = slot.loadBits g.memory)
    (hvalues : ∀ slot, g.Tracks cells slot → slot.NullOrLive codec g.heap.Holds g'.memory) :
    g'.Furnished codec cells := by
  constructor
  · exact halike.sound h.heap
  · exact fun slot hslot => halike.location (h.placed slot hslot)
  · exact h.separate
  · intro slot hslot
    rw [halike.holds]
    exact hvalues slot (hslot.imp_right halike.symm.isField)
  · intro object hobject
    rw [halike.holds] at hobject
    obtain ⟨c, hc⟩ := Heap.holds_iff.1 hobject
    rw [← h.unmoved object hobject, forwardingWord_load h.heap hc, forwardingWord_load h.heap hc]
    rw [hframe _ fun location hlocation => h.heap.location_apart_header hlocation hobject]
  · intro i hi hfree
    rw [halike.next] at hfree
    have hword : g'.heap.wordSlot i = g.heap.wordSlot i := by rw [Heap.wordSlot, halike.start, Heap.wordSlot]
    rw [hword, hframe _ fun location hlocation => h.heap.location_apart_word hlocation hi hfree]
    exact h.blank i hi hfree

/-- A slot is added that is null or leads to an object of the heap. -/
theorem cons (hslot : g.heap.Location slot) (hseparate : ∀ other ∈ cells, slot.Separate other)
    (hvalue : slot.NullOrLive codec g.heap.Holds g.memory) : g.Furnished codec (slot :: cells) := by
  constructor
  · exact h.heap
  · exact List.forall_mem_cons.2 ⟨hslot, h.placed⟩
  · refine List.forall_mem_cons.2 ⟨List.forall_mem_cons.2 ⟨.inl rfl, hseparate⟩, ?_⟩
    intro other hother
    exact List.forall_mem_cons.2 ⟨(hseparate other hother).symm, h.separate other hother⟩
  · rintro other (hcell | hfield)
    · obtain rfl | hcell := List.mem_cons.1 hcell
      · exact hvalue
      · exact h.values other (.inl hcell)
    · exact h.values other (.inr hfield)
  · exact h.unmoved
  · exact h.blank

section Store

variable {value : Option ObjectRef} (hslot : g.heap.Location slot) (hseparate : ∀ other ∈ cells, slot.Separate other)
  (hwide : slot.isNarrow = false)
include hslot hseparate

theorem separate_tracked (hother : g.Tracks cells other) : slot.Separate other := by
  obtain hcell | hfield := hother
  · exact hseparate other hcell
  · exact h.heap.location_separate hslot hfield

include hwide

/-- A reference to an object of the heap is stored, in a slot that may be new. -/
theorem store (hvalue : ∀ object ∈ value, g.heap.Holds object) :
    Furnished { g with memory := slot.storeBits (refBits value) g.memory } codec (slot :: cells) := by
  have hkept : Furnished { g with memory := slot.storeBits (refBits value) g.memory } codec cells := by
    refine h.changed (.refl g.heap) ?_ ?_
    · intro other hother
      exact Slot.loadBits_storeBits_of_apart (hother slot hslot) _ g.memory
    · intro other hother
      exact (h.values other hother).storeBits (h.separate_tracked hslot hseparate hother) hwide hvalue
  exact hkept.cons hslot hseparate ⟨value, Slot.load_storeBits_of_wide hwide value g.memory, hvalue⟩

/-- A reference to an object that was not freed is stored, in a slot that may be new. -/
theorem closed_store (hclosed : g.Closed codec roots) (hroots : roots ⊆ cells)
    (hvalue : ∀ object ∈ value, g.heap.Unfreed object) :
    Closed { g with memory := slot.storeBits (refBits value) g.memory } codec (slot :: roots) := by
  constructor
  · refine List.forall_mem_cons.2 ⟨⟨value, Slot.load_storeBits_of_wide hwide value g.memory, hvalue⟩, ?_⟩
    intro root hroot
    exact (hclosed.roots root hroot).storeBits (hseparate root (hroots hroot)) hwide hvalue
  · intro object hobject slots hslots field hfield
    change g.heap.strongFields object = .ok slots at hslots
    have hseparate := h.heap.location_separate hslot (h.heap.isField_of_strong hslots hfield)
    exact (hclosed.fields object hobject slots hslots field hfield).storeBits hseparate hwide hvalue

end Store

end Furnished

namespace Placed

variable {fields : UInt64} {kind : ObjectKind} {object other : ObjectRef} (h : g.Placed fields kind object g')
  (hsound : g.heap.Sound)
include h

theorem room_left : g.heap.next.toNat + 2 + fields.toNat ≤ heapWords := by
  have hroom := h.room
  have hnext := h.next
  omega

theorem header_eq : headerSlot object = g.heap.wordSlot g.heap.next.toNat := by
  rw [headerSlot, h.address, Heap.wordSlot]
  simp

theorem wordSlot_eq (i : Nat) : g'.heap.wordSlot i = g.heap.wordSlot i := by
  rw [Heap.wordSlot, h.start, Heap.wordSlot]

theorem isField_cases (hslot : g'.heap.IsField slot) :
    g.heap.IsField slot ∨ ∃ i < fields.toNat, slot = fieldSlot object i := by
  obtain ⟨other, c, hc, i, hi, rfl⟩ := hslot
  rw [h.objects] at hc
  split at hc
  · rename_i hsame
    cases hc
    subst hsame
    exact .inr ⟨i, hi, rfl⟩
  · exact .inl ⟨other, c, hc, i, hi, rfl⟩

include hsound

theorem toNat_address : object.address.toNat = g.heap.start.toNat + 8 * g.heap.next.toNat := by
  have hroom := h.room_left
  rw [← hsound.toNat_wordSlot (i := g.heap.next.toNat) (by omega), ← h.header_eq]
  rfl

theorem kind_eq : Heap.kindSlot object = g.heap.wordSlot (g.heap.next.toNat + 1) := by
  have hroom := h.room_left
  have haddress := h.toNat_address hsound
  have hlt := hsound.wordSlot_lt (i := g.heap.next.toNat + 1) (by omega)
  have hword := hsound.toNat_wordSlot (i := g.heap.next.toNat + 1) (by omega)
  refine Slot.ext (UInt64.toNat_inj.1 ?_)
  change (object.address + 8).toNat = _
  rw [toNat_add_of_lt, hword, haddress]
  · simp only [UInt64.reduceToNat]
    omega
  · change object.address.toNat + 8 < 2 ^ 64
    omega

/-- There was no object in the words that the new one takes. -/
theorem kept {c : Allocation} (hc : g.heap.get? other = some c) : g'.heap.get? other = some c := by
  rw [h.objects, if_neg]
  · exact hc
  · rintro rfl
    have hused := hsound.used object c hc
    have haddress := h.toNat_address hsound
    unfold Heap.endOf at hused
    omega

theorem holds (hother : g.heap.Holds other) : g'.heap.Holds other := by
  obtain ⟨c, hc⟩ := Heap.holds_iff.1 hother
  exact Heap.holds_iff.2 ⟨c, h.kept hsound hc⟩

theorem unfreed (hother : g.heap.Unfreed other) : g'.heap.Unfreed other := by
  obtain ⟨c, hc, hfreed⟩ := Heap.unfreed_iff.1 hother
  exact Heap.unfreed_iff.2 ⟨c, h.kept hsound hc, hfreed⟩

/-- Only the kind of the object is written. -/
theorem loadBits (hapart : (g.heap.wordSlot (g.heap.next.toNat + 1)).Apart slot) :
    slot.loadBits g'.memory = slot.loadBits g.memory := by
  have hroom := h.room_left
  have hlt := hsound.wordSlot_lt (i := g.heap.next.toNat + 1) (by omega)
  rw [← h.kind_eq hsound] at hlt hapart
  have haddress : (Heap.kindSlot object).address = object.address + 8 := UInt64.toNat_inj.1 (address_of_lt hlt)
  have hstore : g'.memory = (Heap.kindSlot object).storeBits kind.tag g.memory := by
    rw [h.memory, Slot.storeBits, haddress, width_of_lt hlt]
  rw [hstore]
  exact Slot.loadBits_storeBits_of_apart hapart _ g.memory

theorem load_location (hslot : g.heap.Location slot) : slot.load codec g'.memory = slot.load codec g.memory := by
  have hroom := h.room_left
  have hapart := hsound.location_apart_word hslot (i := g.heap.next.toNat + 1) (by omega) (by omega)
  exact Slot.load_congr (h.loadBits hsound hapart.symm)

theorem nullOrLive {live : ObjectRef → Prop} (hslot : g.heap.Location slot)
    (hlive : slot.NullOrLive codec live g.memory) : slot.NullOrLive codec live g'.memory :=
  hlive.of_null_or_same (.inr (h.load_location hsound hslot))

variable (hkind : kind = .reference → fields = 2)
include hkind

theorem sound : g'.heap.Sound := hsound.grows hkind h.grows

theorem field_eq {i : Nat} (hi : i < fields.toNat) :
    fieldSlot object i = g.heap.wordSlot (g.heap.next.toNat + 2 + i) := by
  have hroom := h.room_left
  have hget : g'.heap.get? object = some ⟨fields, kind, false⟩ := by rw [h.objects, if_pos rfl]
  refine Slot.ext (UInt64.toNat_inj.1 ?_)
  rw [(h.sound hsound hkind).toNat_fieldSlot hget hi, hsound.toNat_wordSlot (by omega), h.toNat_address hsound]
  omega

end Placed

section Allocate

variable {fields : UInt64} {kind : ObjectKind} {object : ObjectRef} (h : g.Furnished codec cells)
  (hplaced : g.Placed fields kind object g')
include h hplaced

/-- A word that was not handed out, and is not the kind of the new object, is still zero. -/
theorem Furnished.still_blank {i : Nat} (hi : i < heapWords) (hfree : g.heap.next.toNat ≤ i)
    (hne : i ≠ g.heap.next.toNat + 1) : (g.heap.wordSlot i).loadBits g'.memory = 0 := by
  have hroom := hplaced.room_left
  have hapart := h.heap.wordSlot_apart (i := g.heap.next.toNat + 1) (j := i) (by omega) hi (Ne.symm hne)
  rw [hplaced.loadBits h.heap hapart]
  exact h.blank i hi hfree

variable (hkind : kind = .reference → fields = 2)
include hkind

/-- The fields of a new object are null. -/
theorem Furnished.fresh {i : Nat} (hi : i < fields.toNat) : (fieldSlot object i).load codec g'.memory = .ok none := by
  have hroom := hplaced.room_left
  apply Slot.load_of_zero
  rw [hplaced.field_eq h.heap hkind hi]
  exact h.still_blank hplaced (by omega) (by omega) (by omega)

/-- An object is placed behind all others. -/
theorem Furnished.allocate : g'.Furnished codec cells := by
  have hroom := hplaced.room_left
  constructor
  · exact hplaced.sound h.heap hkind
  · intro slot hslot
    unfold Heap.Location
    rw [hplaced.start]
    refine (h.placed slot hslot).imp_right (Or.imp_right ?_)
    rintro ⟨other, c, hc, i, hi, rfl⟩
    exact ⟨other, c, hplaced.kept h.heap hc, i, hi, rfl⟩
  · exact h.separate
  · have hold (slot : Slot) (hslot : g.Tracks cells slot) : slot.NullOrLive codec g'.heap.Holds g'.memory :=
      hplaced.nullOrLive h.heap (h.location hslot) ((h.values slot hslot).mono fun _ => hplaced.holds h.heap)
    rintro slot (hcell | hfield)
    · exact hold slot (.inl hcell)
    · obtain hfield | ⟨i, hi, rfl⟩ := hplaced.isField_cases hfield
      · exact hold slot (.inr hfield)
      · exact .of_null (h.fresh hplaced hkind hi)
  · intro other hother
    obtain ⟨c, hc⟩ := Heap.holds_iff.1 hother
    rw [forwardingWord_load (hplaced.sound h.heap hkind) hc]
    rw [hplaced.objects] at hc
    split at hc
    · rename_i hsame
      subst hsame
      rw [hplaced.header_eq, h.still_blank hplaced (by omega) (Nat.le_refl _) (by omega)]
      rfl
    · have hholds : g.heap.Holds other := Heap.holds_iff.2 ⟨c, hc⟩
      have hapart := h.heap.header_apart_word hholds (i := g.heap.next.toNat + 1) (by omega) (by omega)
      rw [hplaced.loadBits h.heap hapart.symm, ← forwardingWord_load h.heap hc]
      exact h.unmoved other hholds
  · intro i hi hfree
    have hnext := hplaced.next
    rw [hplaced.wordSlot_eq]
    exact h.still_blank hplaced hi (by omega) (by omega)

/-- A new object leads nowhere. -/
theorem Furnished.closed_allocate (hclosed : g.Closed codec roots) (hroots : roots ⊆ cells) :
    g'.Closed codec roots := by
  constructor
  · intro root hroot
    have hlive := (hclosed.roots root hroot).mono fun _ => hplaced.unfreed h.heap
    exact hplaced.nullOrLive h.heap (h.placed root (hroots hroot)) hlive
  · intro other hother slots hslots slot hslot
    by_cases hsame : object = other
    · subst hsame
      rw [(hplaced.sound h.heap hkind).strongFields_eq] at hslots
      cases hslots
      obtain ⟨a, ha, i, hi, rfl⟩ := (hplaced.sound h.heap hkind).mem_strongSlots hslot
      rw [hplaced.objects, if_pos rfl] at ha
      cases ha
      exact .of_null (h.fresh hplaced hkind hi)
    · have hget : g'.heap.get? other = g.heap.get? other := by rw [hplaced.objects, if_neg hsame]
      have hstrong : g.heap.strongFields other = .ok slots := by
        rw [← hslots]
        unfold Heap.strongFields
        rw [hget]
      have hold : g.heap.Unfreed other := by
        unfold Heap.Unfreed Heap.isFreed at hother ⊢
        rw [← hget]
        exact hother
      have hlive := (hclosed.fields other hold slots hstrong slot hslot).mono fun _ => hplaced.unfreed h.heap
      exact hplaced.nullOrLive h.heap (h.location (.inr (h.heap.isField_of_strong hstrong hslot))) hlive

end Allocate

/-- An allocation of a reference object that returns has placed it and stored its referent. -/
theorem placed_allocateReference {referent : Option ObjectRef} {object : ObjectRef} (hsound : g.heap.Sound)
    (hrun : (allocateReference referent).run g = (.ok object, g')) :
    ∃ placed, g.Placed 2 .reference object placed ∧
      g' = { placed with memory := (fieldSlot object 0).storeBits (refBits referent) placed.memory } := by
  obtain ⟨found, placed, halloc, hrest⟩ := Act.run_bind_eq_ok.1 hrun
  obtain ⟨_, stored, hstore, hreturn⟩ := Act.run_bind_eq_ok.1 hrest
  cases hreturn
  have hplaced := placed_allocate halloc
  have hsound' := hplaced.sound hsound fun _ => rfl
  have hget : placed.heap.get? object = some ⟨2, .reference, false⟩ := by rw [hplaced.objects, if_pos rfl]
  have hfield : Slot.ofField object referentOffset false = .ok (fieldSlot object 0) :=
    hsound'.ofField_eq hget (i := 0) (by decide)
  have hwide : (fieldSlot object 0).isNarrow = false :=
    hsound'.field_wide ⟨object, _, hget, 0, by decide, rfl⟩
  have hmemory : (fieldSlot object 0).store .identity referent placed.memory =
      .ok ((fieldSlot object 0).storeBits (refBits referent) placed.memory) := by
    simp [Slot.store, Slot.bits, hwide, Except.map]
  refine ⟨placed, hplaced, ?_⟩
  simp only [Act.run_update, hfield, hmemory, bind, Except.bind, pure, Except.pure, Prod.mk.injEq] at hstore
  exact hstore.2.symm

end Ground

end Safepoint.Simulated
