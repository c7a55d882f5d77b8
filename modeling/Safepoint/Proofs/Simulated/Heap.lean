import Mathlib.Algebra.Order.BigOperators.Group.List
import Mathlib.Algebra.Order.Ring.Nat
import Safepoint.Proofs.Basic
import Safepoint.Proofs.Binding.State
import Safepoint.Proofs.Slot
import Safepoint.Simulated.Heap

/-!
# The heap of a simulation

Objects lie in the heap one beside the other, and so do their fields. There are no more strong fields than fields.
-/
namespace Safepoint.Simulated

namespace Heap

variable {heap : Heap} {object : ObjectRef} {a : Allocation}

/-- The address after an object. -/
def endOf (object : ObjectRef) (a : Allocation) : Nat := object.address.toNat + 8 * (2 + a.fields.toNat)

/-- Objects lie in the heap, below the words that were not handed out, and apart from one another. -/
structure Sound (heap : Heap) : Prop where
  room : heap.start.toNat + 8 * heapWords ≤ 2 ^ 63
  lower : ∀ object a, heap.get? object = some a → heap.start.toNat ≤ object.address.toNat
  upper : ∀ object a, heap.get? object = some a → endOf object a ≤ heap.start.toNat + 8 * heapWords
  used : ∀ object a, heap.get? object = some a → endOf object a ≤ heap.start.toNat + 8 * heap.next.toNat
  apart : ∀ object a other c, heap.get? object = some a → heap.get? other = some c → object ≠ other →
    endOf object a ≤ other.address.toNat ∨ endOf other c ≤ object.address.toNat
  reference : ∀ object a, heap.get? object = some a → a.kind = .reference → a.fields = 2

theorem Sound.empty {start : Address} (h : start.toNat + 8 * heapWords ≤ 2 ^ 63) : Sound { start } := by
  have hnone : ∀ object, ({ start } : Heap).get? object = none := by simp [get?]
  constructor
  · exact h
  all_goals simp [hnone]

theorem Sound.address_lt (h : heap.Sound) (ha : heap.get? object = some a) : object.address.toNat + 16 ≤ 2 ^ 63 := by
  have hupper := h.upper object a ha
  have hroom := h.room
  unfold endOf at hupper
  omega

theorem mem_entries (ha : heap.get? object = some a) : (object, a) ∈ heap.objects.toList :=
  Std.ExtTreeMap.mem_toList_iff_getElem?_eq_some.2 ha

/-- The slot of the `i`-th field. -/
def fieldSlot (object : ObjectRef) (i : Nat) : Slot := ⟨object.address + (16 + i.toUInt64 * 8)⟩

/-- The word before the kind of an object, where a collector would leave where the object went. -/
def headerSlot (object : ObjectRef) : Slot := ⟨object.address⟩

theorem isNarrow_of_lt {slot : Slot} (h : slot.raw.toNat < 2 ^ 63) : slot.isNarrow = false := by
  cases hnarrow : slot.isNarrow with
  | false => rfl
  | true =>
    have hhigh := Slot.isNarrow_iff.1 hnarrow
    omega

theorem address_of_lt {slot : Slot} (h : slot.raw.toNat < 2 ^ 63) : slot.address.toNat = slot.raw.toNat := by
  rw [Slot.toNat_address, Nat.mod_eq_of_lt h]

theorem width_of_lt {slot : Slot} (h : slot.raw.toNat < 2 ^ 63) : slot.width = 8 := by
  rw [Slot.width, isNarrow_of_lt h]
  rfl

section Fields

variable (h : heap.Sound) (ha : heap.get? object = some a) {i : Nat} (hi : i < a.fields.toNat)
include h ha hi

theorem Sound.toNat_offset : (16 + i.toUInt64 * 8).toNat = 16 + 8 * i := by
  have hupper := h.upper object a ha
  have hroom := h.room
  unfold endOf at hupper
  have hi64 : i.toUInt64.toNat = i := UInt64.toNat_ofNat_of_lt' (Nat.lt_trans hi a.fields.toNat_lt)
  rw [UInt64.toNat_add, UInt64.toNat_mul, hi64]
  simp only [UInt64.reduceToNat]
  omega

theorem Sound.toNat_fieldSlot : (fieldSlot object i).raw.toNat = object.address.toNat + 16 + 8 * i := by
  have hupper := h.upper object a ha
  have hroom := h.room
  have hoffset := h.toNat_offset ha hi
  unfold endOf at hupper
  rw [fieldSlot, UInt64.toNat_add, hoffset]
  omega

theorem Sound.fieldSlot_lt : (fieldSlot object i).raw.toNat < 2 ^ 63 := by
  have hupper := h.upper object a ha
  have hroom := h.room
  rw [h.toNat_fieldSlot ha hi]
  unfold endOf at hupper
  omega

theorem Sound.ofField_eq : Slot.ofField object (16 + i.toUInt64 * 8) false = .ok (fieldSlot object i) := by
  have hraw := h.toNat_fieldSlot ha hi
  have hlt := h.fieldSlot_lt ha hi
  have hoffset := h.toNat_offset ha hi
  have hfield : object.field (16 + i.toUInt64 * 8) = .ok (object.address + (16 + i.toUInt64 * 8)) := by
    rw [ObjectRef.field, addChecked_eq_ok, hoffset, ← Nat.add_assoc]
    exact hraw
  have htag : (object.address + (16 + i.toUInt64 * 8)) &&& Slot.narrowTag = 0 := by
    have hnarrow := isNarrow_of_lt hlt
    simpa [Slot.isNarrow, fieldSlot] using hnarrow
  rw [Slot.ofField, hfield]
  change Slot.wide _ = _
  rw [Slot.wide, if_pos htag]
  rfl

/-- A field lies apart from the headers of all objects. -/
theorem Sound.field_apart_header {other : ObjectRef} {c : Allocation} (hc : heap.get? other = some c) :
    (fieldSlot object i).Apart (headerSlot other) := by
  have hlt := h.fieldSlot_lt ha hi
  have hlt' : (headerSlot other).raw.toNat < 2 ^ 63 := by
    have hother := h.address_lt hc
    change other.address.toNat < 2 ^ 63
    omega
  unfold Slot.Apart
  rw [address_of_lt hlt, address_of_lt hlt', width_of_lt hlt, width_of_lt hlt', h.toNat_fieldSlot ha hi]
  change _ ≤ other.address.toNat ∨ other.address.toNat + 8 ≤ _
  by_cases hsame : object = other
  · subst hsame
    omega
  · have hupper := h.apart object a other c ha hc hsame
    unfold endOf at hupper
    omega

/-- Two fields lie apart from each other. -/
theorem Sound.fieldSlot_apart {other : ObjectRef} {c : Allocation} (hc : heap.get? other = some c) {j : Nat}
    (hj : j < c.fields.toNat) (hne : object ≠ other ∨ i ≠ j) : (fieldSlot object i).Apart (fieldSlot other j) := by
  have hlt := h.fieldSlot_lt ha hi
  have hlt' := h.fieldSlot_lt hc hj
  unfold Slot.Apart
  rw [address_of_lt hlt, address_of_lt hlt', width_of_lt hlt, width_of_lt hlt', h.toNat_fieldSlot ha hi,
    h.toNat_fieldSlot hc hj]
  by_cases hsame : object = other
  · subst hsame
    have hfields := hne.resolve_left (by simp)
    omega
  · have hupper := h.apart object a other c ha hc hsame
    unfold endOf at hupper
    omega

end Fields

theorem mem_references : object ∈ heap.references ↔ ∃ a, heap.get? object = some a ∧ a.kind = .reference ∧
    a.freed = false := by
  unfold references unfreed
  simp only [List.mem_map, List.mem_filter, decide_eq_true_eq, Bool.not_eq_true', Prod.exists, exists_and_right,
    exists_eq_right, Std.ExtTreeMap.mem_toList_iff_getElem?_eq_some]
  constructor
  · rintro ⟨a, ⟨ha, hfreed⟩, hkind⟩
    exact ⟨a, ha, hkind, hfreed⟩
  · rintro ⟨a, ha, hkind, hfreed⟩
    exact ⟨a, ⟨ha, hfreed⟩, hkind⟩

theorem nodup_references (heap : Heap) : heap.references.Nodup := by
  have hkeys : (heap.objects.toList.map Prod.fst).Nodup := by
    rw [Std.ExtTreeMap.map_fst_toList_eq_keys]
    exact Std.ExtTreeMap.nodup_keys
  exact hkeys.sublist ((List.filter_sublist.trans List.filter_sublist).map _)

/-- The strong fields of an object, which are none if it is not of this heap. -/
def strongSlots (heap : Heap) (object : ObjectRef) : List Slot :=
  match heap.get? object with
  | none => []
  | some ⟨_, .reference, _⟩ => [fieldSlot object 1]
  | some ⟨fields, .plain, _⟩ => (List.range fields.toNat).map (fieldSlot object)

theorem mapM_eq_ok {α β ε : Type} {f : α → Except ε β} {g : α → β} {as : List α} (h : ∀ a ∈ as, f a = .ok (g a)) :
    as.mapM f = .ok (as.map g) := by
  induction as with
  | nil => rfl
  | cons a as ih =>
    have hrest := ih fun other hother => h other (List.mem_cons_of_mem _ hother)
    rw [List.mapM_cons, h a (List.mem_cons_self ..), hrest]
    rfl

theorem Sound.strongFields_eq (h : heap.Sound) (object : ObjectRef) :
    heap.strongFields object = .ok (heap.strongSlots object) := by
  unfold strongFields strongSlots
  cases hget : heap.get? object with
  | none => rfl
  | some a =>
    obtain ⟨fields, kind, freed⟩ := a
    cases kind with
    | reference =>
      have htwo : fields = 2 := h.reference object _ hget rfl
      have hfield : Slot.ofField object (16 + (1 : Nat).toUInt64 * 8) false = .ok (fieldSlot object 1) :=
        h.ofField_eq hget (by simp [htwo])
      change (do return [← Slot.ofField object (16 + (1 : Nat).toUInt64 * 8) false]) = _
      rw [hfield]
      rfl
    | plain =>
      apply mapM_eq_ok
      intro i hi
      exact h.ofField_eq hget (List.mem_range.1 hi)

theorem Sound.mem_strongSlots (h : heap.Sound) {slot : Slot} (hslot : slot ∈ heap.strongSlots object) :
    ∃ a, heap.get? object = some a ∧ ∃ i < a.fields.toNat, slot = fieldSlot object i := by
  unfold strongSlots at hslot
  cases hget : heap.get? object with
  | none => simp [hget] at hslot
  | some a =>
    refine ⟨a, rfl, ?_⟩
    obtain ⟨fields, kind, freed⟩ := a
    cases kind with
    | reference =>
      have htwo : fields = 2 := h.reference object _ hget rfl
      simp only [hget, List.mem_singleton] at hslot
      exact ⟨1, by simp [htwo], hslot⟩
    | plain =>
      simp only [hget, List.mem_map, List.mem_range] at hslot
      obtain ⟨i, hi, rfl⟩ := hslot
      exact ⟨i, hi, rfl⟩

/-- The fields of an object, counted. -/
def fieldsOf (heap : Heap) (object : ObjectRef) : Nat := ((heap.get? object).map fun a => a.fields.toNat).getD 0

theorem Sound.length_strongSlots (h : heap.Sound) (object : ObjectRef) :
    (heap.strongSlots object).length ≤ heap.fieldsOf object := by
  unfold strongSlots fieldsOf
  cases hget : heap.get? object with
  | none => simp
  | some a =>
    obtain ⟨fields, kind, freed⟩ := a
    cases kind with
    | reference =>
      have htwo : fields = 2 := h.reference object _ hget rfl
      simp [htwo]
    | plain => simp

/-- A sum over some of the things counted is at most the sum over all. -/
theorem sum_le_of_subset {α : Type} {some all : List α} (hnodup : some.Nodup) (hsub : some ⊆ all) (count : α → Nat) :
    (some.map count).sum ≤ (all.map count).sum := by
  obtain ⟨between, hperm, hsublist⟩ := List.subperm_of_subset hnodup hsub
  rw [← (hperm.map count).sum_eq]
  exact (hsublist.map count).sum_le_sum fun _ _ => Nat.zero_le _

/-- What counts for nothing may be left out of a sum. -/
theorem sum_filter {α : Type} {keep : α → Bool} {count : α → Nat} (h : ∀ a, keep a = false → count a = 0)
    (as : List α) : ((as.filter keep).map count).sum = (as.map count).sum := by
  induction as with
  | nil => rfl
  | cons a as ih =>
    cases hkeep : keep a with
    | true => simp [hkeep, ih]
    | false => simp [hkeep, ih, h a hkeep]

theorem foldl_add_eq {α : Type} (count : α → Nat) (as : List α) (n : Nat) :
    as.foldl (fun n a => n + count a) n = n + (as.map count).sum := by
  induction as generalizing n with
  | nil => simp
  | cons a as ih => simp [ih, Nat.add_assoc]

theorem fieldCount_eq (heap : Heap) : heap.fieldCount = (heap.objects.keys.map heap.fieldsOf).sum := by
  rw [fieldCount, values_eq, foldl_add_eq, Nat.zero_add, List.map_map, ← Std.ExtTreeMap.map_fst_toList_eq_keys,
    List.map_map]
  refine congrArg List.sum (List.map_congr_left fun e he => ?_)
  have hget : heap.get? e.1 = some e.2 := Std.ExtTreeMap.mem_toList_iff_getElem?_eq_some.1 he
  simp [fieldsOf, hget]

/-- Distinct objects have no more strong fields than there are fields. -/
theorem Sound.sum_strongSlots (h : heap.Sound) {objects : List ObjectRef} (hnodup : objects.Nodup) :
    (objects.map fun object => (heap.strongSlots object).length).sum ≤ heap.fieldCount := by
  have hzero : ∀ object, decide (object ∈ heap.objects) = false → heap.fieldsOf object = 0 := by
    intro object hout
    have hnone : heap.get? object = none := Std.ExtTreeMap.getElem?_eq_none (of_decide_eq_false hout)
    simp [fieldsOf, hnone]
  have hsub : objects.filter (fun object => decide (object ∈ heap.objects)) ⊆ heap.objects.keys := by
    intro object hobject
    rw [Std.ExtTreeMap.mem_keys]
    exact of_decide_eq_true (List.mem_filter.1 hobject).2
  calc (objects.map fun object => (heap.strongSlots object).length).sum
      ≤ (objects.map heap.fieldsOf).sum := List.sum_le_sum fun object _ => h.length_strongSlots object
    _ = ((objects.filter fun object => decide (object ∈ heap.objects)).map heap.fieldsOf).sum :=
        (sum_filter hzero objects).symm
    _ ≤ (heap.objects.keys.map heap.fieldsOf).sum := sum_le_of_subset (hnodup.filter _) hsub _
    _ = heap.fieldCount := (fieldCount_eq heap).symm

/-- A sweep frees what is not live, and nothing else is changed. -/
theorem get?_sweep (heap : Heap) (isLive : ObjectRef → Bool) (object : ObjectRef) :
    (heap.sweep isLive).2.get? object =
      (heap.get? object).map fun a => { a with freed := a.freed || !isLive object } := by
  simp [sweep, get?]

/-- The heaps differ in nothing but what was freed. -/
structure Alike (heap after : Heap) : Prop where
  start : after.start = heap.start
  next : after.next = heap.next
  shape : ∀ object, (after.get? object).map (fun a => (a.fields, a.kind)) =
    (heap.get? object).map fun a => (a.fields, a.kind)

namespace Alike

variable {after : Heap}

theorem refl (heap : Heap) : heap.Alike heap := ⟨rfl, rfl, fun _ => rfl⟩

theorem sweep (heap : Heap) (isLive : ObjectRef → Bool) : heap.Alike (heap.sweep isLive).2 := by
  refine ⟨rfl, rfl, fun object => ?_⟩
  rw [get?_sweep, Option.map_map]
  rfl

theorem symm (h : heap.Alike after) : after.Alike heap :=
  ⟨h.start.symm, h.next.symm, fun object => (h.shape object).symm⟩

theorem old (h : heap.Alike after) (ha : after.get? object = some a) :
    ∃ c, heap.get? object = some c ∧ c.fields = a.fields ∧ c.kind = a.kind := by
  have hshape := h.shape object
  rw [ha, Option.map_some] at hshape
  obtain ⟨c, hc, hpair⟩ := Option.map_eq_some_iff.1 hshape.symm
  exact ⟨c, hc, congrArg Prod.fst hpair, congrArg Prod.snd hpair⟩

theorem sound (h : heap.Alike after) (hsound : heap.Sound) : after.Sound := by
  constructor
  · rw [h.start]
    exact hsound.room
  · intro object a ha
    obtain ⟨c, hc, -, -⟩ := h.old ha
    rw [h.start]
    exact hsound.lower object c hc
  · intro object a ha
    obtain ⟨c, hc, hfields, -⟩ := h.old ha
    rw [h.start, endOf, ← hfields]
    exact hsound.upper object c hc
  · intro object a ha
    obtain ⟨c, hc, hfields, -⟩ := h.old ha
    rw [h.start, h.next, endOf, ← hfields]
    exact hsound.used object c hc
  · intro object a other d ha hd hne
    obtain ⟨c, hc, hfields, -⟩ := h.old ha
    obtain ⟨c', hc', hfields', -⟩ := h.old hd
    rw [endOf, endOf, ← hfields, ← hfields']
    exact hsound.apart object c other c' hc hc' hne
  · intro object a ha hkind
    obtain ⟨c, hc, hfields, hsame⟩ := h.old ha
    rw [← hfields]
    exact hsound.reference object c hc (hsame.trans hkind)

end Alike

/-- More words handed out leave the objects where they are. -/
theorem Sound.advance (h : heap.Sound) {next : UInt64} (hnext : heap.next.toNat ≤ next.toNat) :
    Sound { heap with next } := by
  constructor
  · exact h.room
  · exact h.lower
  · exact h.upper
  · intro object a ha
    have hused := h.used object a ha
    change endOf object a ≤ heap.start.toNat + 8 * next.toNat
    omega
  · exact h.apart
  · exact h.reference

theorem get?_insert (heap : Heap) (new : ObjectRef) (a : Allocation) (object : ObjectRef) :
    ({ heap with objects := heap.objects.insert new a } : Heap).get? object =
      if new = object then some a else heap.get? object := by
  simp only [get?, Std.ExtTreeMap.getElem?_insert, Std.LawfulEqCmp.compare_eq_iff_eq]

/-- A new object lies behind all others. -/
theorem Sound.insert (h : heap.Sound) (next : UInt64)
    (hbehind : object.address.toNat = heap.start.toNat + 8 * next.toNat)
    (hold : ∀ other c, heap.get? other = some c → endOf other c ≤ heap.start.toNat + 8 * next.toNat)
    (hnext : next.toNat + 2 + a.fields.toNat = heap.next.toNat) (hroom : heap.next.toNat ≤ heapWords)
    (hkind : a.kind = .reference → a.fields = 2) : Sound { heap with objects := heap.objects.insert object a } := by
  have hnew : endOf object a = heap.start.toNat + 8 * heap.next.toNat := by
    unfold endOf
    omega
  constructor
  · exact h.room
  · intro other c hc
    rw [get?_insert] at hc
    split at hc
    · rename_i hsame
      rw [← hsame, hbehind]
      exact Nat.le_add_right ..
    · exact h.lower other c hc
  · intro other c hc
    rw [get?_insert] at hc
    split at hc
    · rename_i hsame
      cases hc
      rw [← hsame, hnew]
      change _ ≤ heap.start.toNat + 8 * heapWords
      omega
    · exact h.upper other c hc
  · intro other c hc
    rw [get?_insert] at hc
    split at hc
    · rename_i hsame
      cases hc
      rw [← hsame, hnew]
    · exact h.used other c hc
  · intro other c another d hc hd hne
    rw [get?_insert] at hc hd
    split at hc
    · rename_i hsame
      split at hd
      · rename_i hsame'
        exact absurd (hsame.symm.trans hsame') hne
      · right
        have hlow := hold another d hd
        rw [← hsame, hbehind]
        exact hlow
    · split at hd
      · rename_i hsame
        left
        have hlow := hold other c hc
        rw [← hsame, hbehind]
        exact hlow
      · exact h.apart other c another d hc hd hne
  · intro other c hc hreference
    rw [get?_insert] at hc
    split at hc
    · cases hc
      exact hkind hreference
    · exact h.reference other c hc hreference

end Heap

/-- All an allocation can do to the heap, unless the words asked for ran over the last address. -/
inductive Heap.Grows (heap : Heap) (fields : UInt64) (kind : ObjectKind) : Heap → Prop
  | same : Grows heap fields kind heap
  /-- Words are handed out, and there is no object in them. -/
  | taken {words : UInt64} (sum : (heap.next + words).toNat = heap.next.toNat + words.toNat) :
      Grows heap fields kind { heap with next := heap.next + words }
  | placed {words : UInt64} {object : ObjectRef} (sum : (heap.next + words).toNat = heap.next.toNat + words.toNat)
      (size : words.toNat = 2 + fields.toNat) (room : (heap.next + words).toNat ≤ heapWords)
      (place : object.address = heap.start + heap.next * 8) :
      Grows heap fields kind
        { heap with next := heap.next + words, objects := heap.objects.insert object ⟨fields, kind, false⟩ }

theorem Ground.grows_allocate {g g' : Ground} {fields : UInt64} {kind : ObjectKind} {outcome : Except Fault ObjectRef}
    (hrun : (allocate fields kind).run g = (outcome, g')) (hover : outcome ≠ .error (.panic .addOverflow)) :
    g.heap.Grows fields kind g'.heap := by
  cases hwords : Heap.wordsFor fields with
  | error cause =>
    have hsame : (allocate fields kind).run g = (.error (.panic cause), g) := by
      simp [allocate, Act.run_bind, hwords]
    rw [hsame] at hrun
    cases hrun
    exact .same
  | ok words =>
    cases hafter : addChecked g.heap.next words with
    | error cause =>
      have hcause : cause = .addOverflow := by
        unfold addChecked at hafter
        split at hafter
        · cases hafter
        · cases hafter
          rfl
      have hpanic : ((allocate fields kind).run g).1 = .error (.panic cause) := by
        simp [allocate, Act.run_bind, hwords, hafter]
      rw [hrun, hcause] at hpanic
      exact absurd hpanic hover
    | ok after =>
      have hsum : after.toNat = g.heap.next.toNat + words.toNat := addChecked_eq_ok.1 hafter
      have hnext : (g.heap.next + words).toNat = g.heap.next.toNat + words.toNat := by
        apply toNat_add_of_lt
        rw [← hsum]
        exact after.toNat_lt
      by_cases hfull : heapWords < after.toNat
      · have hheap : ((allocate fields kind).run g).2.heap = { g.heap with next := g.heap.next + words } := by
          simp [allocate, Act.run_bind, hwords, hafter, hfull]
        rw [hrun] at hheap
        rw [hheap]
        exact .taken hnext
      cases hobject : ObjectRef.ofNonzero (g.heap.start + g.heap.next * 8) with
      | error cause =>
        have hheap : ((allocate fields kind).run g).2.heap = { g.heap with next := g.heap.next + words } := by
          simp [allocate, Act.run_bind, hwords, hafter, hfull, hobject]
        rw [hrun] at hheap
        rw [hheap]
        exact .taken hnext
      | ok object =>
        have hheap : ((allocate fields kind).run g).2.heap =
            { g.heap with
              next := g.heap.next + words
              objects := g.heap.objects.insert object ⟨fields, kind, false⟩ } := by
          simp [allocate, Act.run_bind, hwords, hafter, hfull, hobject]
        rw [hrun] at hheap
        rw [hheap]
        exact .placed hnext (addChecked_eq_ok.1 hwords) (by omega) (ObjectRef.ofNonzero_eq_ok.1 hobject)

/-- An allocation keeps the heap sound. -/
theorem Heap.Sound.grows {heap after : Heap} (h : heap.Sound) {fields : UInt64} {kind : ObjectKind}
    (hkind : kind = .reference → fields = 2) (hgrows : heap.Grows fields kind after) : after.Sound := by
  cases hgrows with
  | same => exact h
  | taken sum => exact h.advance (by omega)
  | @placed words object sum size room place =>
    have hadvanced : Heap.Sound { heap with next := heap.next + words } := h.advance (by omega)
    refine hadvanced.insert heap.next ?_ h.used ?_ room hkind
    · have hroom := h.room
      rw [place, UInt64.toNat_add, UInt64.toNat_mul]
      simp only [UInt64.reduceToNat]
      unfold heapWords at room hroom
      omega
    · change heap.next.toNat + 2 + fields.toNat = (heap.next + words).toNat
      omega

theorem Ground.sound_allocate {g g' : Ground} (h : g.heap.Sound) {fields : UInt64} {kind : ObjectKind}
    (hkind : kind = .reference → fields = 2) {outcome : Except Fault ObjectRef}
    (hrun : (allocate fields kind).run g = (outcome, g')) (hover : outcome ≠ .error (.panic .addOverflow)) :
    g'.heap.Sound :=
  h.grows hkind (grows_allocate hrun hover)

theorem Ground.sound_allocateReference {g g' : Ground} (h : g.heap.Sound) {referent : Option ObjectRef}
    {outcome : Except Fault ObjectRef} (hrun : (allocateReference referent).run g = (outcome, g'))
    (hover : outcome ≠ .error (.panic .addOverflow)) : g'.heap.Sound := by
  cases hfirst : (allocate 2 .reference).run g with
  | mk found g₁ =>
    cases found with
    | error cause =>
      have hall : (allocateReference referent).run g = (.error cause, g₁) := Act.run_bind_error hfirst
      rw [hall] at hrun
      cases hrun
      exact sound_allocate h (fun _ => rfl) hfirst hover
    | ok object =>
      have hstore : Act.Moves Eq Ground.heap (do
          Act.update fun g => do
            let slot ← Slot.ofField object referentOffset false
            return ((), { g with memory := ← slot.store .identity referent g.memory })
          return object) := by
        have htrans : ∀ x y z : Heap, x = y → y = z → x = z := fun _ _ _ => Eq.trans
        apply Act.Moves.bind htrans
        · apply Act.Moves.update (fun _ => rfl)
          intro g _ g' hf
          obtain ⟨slot, -, hslot⟩ := except_bind_eq_ok.1 hf
          obtain ⟨memory, -, hmemory⟩ := except_bind_eq_ok.1 hslot
          cases hmemory
          rfl
        · intro _
          exact .unmoved (fun _ => rfl) fun _ => rfl
      have hheap : ((allocateReference referent).run g).2.heap = g₁.heap := by
        rw [allocateReference, Act.run_bind_ok hfirst]
        exact (hstore g₁).symm
      rw [hrun] at hheap
      rw [hheap]
      exact sound_allocate h (fun _ => rfl) hfirst (by simp)

end Safepoint.Simulated
