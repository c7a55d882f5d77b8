import Safepoint.Proofs.Simulated.Heap
import Safepoint.Proofs.Simulated.Stop
import Safepoint.Proofs.Weak.Update

/-!
# Reference objects whose referents died

Once the marks are made, a collector clears the referents that died and links their reference objects in front of the
pending list. What it writes is read back afterwards, for no two of the fields it writes meet.
-/
namespace Safepoint

namespace ForwardingWord

variable {object : ObjectRef} {m m' : Memory}

/-- An object has moved if the last byte of its header says so. -/
theorem isForwarded_load : (load object m).isForwarded = true ↔ m.byte (object.address.toNat + 7) ≠ 0 := by
  have hlow (a : Nat) : (m.byte a).toNat < 256 := (m.byte a).toNat_lt
  have hword : (load object m).raw.toNat / 2 ^ 56 = (m.byte (object.address.toNat + 7)).toNat := by
    have hload : (load object m).raw.toNat = m.loadNat object.address.toNat 8 % 2 ^ 64 := by
      simp [load, Memory.load]
    have h0 := hlow object.address.toNat
    have h1 := hlow (object.address.toNat + 1)
    have h2 := hlow (object.address.toNat + 2)
    have h3 := hlow (object.address.toNat + 3)
    have h4 := hlow (object.address.toNat + 4)
    have h5 := hlow (object.address.toNat + 5)
    have h6 := hlow (object.address.toNat + 6)
    have h7 := hlow (object.address.toNat + 7)
    rw [hload]
    simp only [Memory.loadNat, Nat.add_assoc, Nat.reduceAdd]
    omega
  rw [isForwarded, bne_iff_ne, ne_eq, ne_eq, ← UInt64.toNat_inj, ← UInt8.toNat_inj, ← hword, UInt64.toNat_shiftRight,
    Nat.shiftRight_eq_div_pow]
  rfl

/-- Zeros make no header say that its object has moved. -/
theorem isForwarded_clear (slot : Slot) (h : (load object m).isForwarded = false) :
    (load object (slot.clear m)).isForwarded = false := by
  rw [← Bool.not_eq_true, isForwarded_load] at h ⊢
  rw [Slot.clear, Slot.storeBits, Memory.byte_store]
  split
  · simp [Memory.byteOf]
  · exact h

end ForwardingWord

namespace Simulated

open Heap (fieldSlot headerSlot isNarrow_of_lt address_of_lt width_of_lt)

variable {codec : PointerCodec} {options : Options} {q m : SimMachine}

/-- The header of an object of the heap is a slot like any other. -/
theorem forwardingWord_load {heap : Heap} {object : ObjectRef} (hsound : heap.Sound) {a : Allocation}
    (ha : heap.get? object = some a) (memory : Memory) :
    ForwardingWord.load object memory = ⟨(headerSlot object).loadBits memory⟩ := by
  have hlt : (headerSlot object).raw.toNat < 2 ^ 63 := by
    have hroom := hsound.address_lt ha
    change object.address.toNat < 2 ^ 63
    omega
  have haddress : (headerSlot object).address = object.address := UInt64.toNat_inj.1 (address_of_lt hlt)
  rw [Slot.loadBits, haddress, width_of_lt hlt]
  rfl

/-- An object of the heap, freed or not. -/
def Heap.Holds (heap : Heap) (object : ObjectRef) : Prop := (heap.get? object).isSome

instance (heap : Heap) : DecidablePred heap.Holds := fun _ => inferInstanceAs (Decidable (_ = true))

/-- A reference object of the heap. -/
def Heap.IsReference (heap : Heap) (object : ObjectRef) : Prop :=
  ∃ a, heap.get? object = some a ∧ a.kind = .reference

theorem Heap.IsReference.holds {heap : Heap} {object : ObjectRef} (h : heap.IsReference object) :
    heap.Holds object := by
  obtain ⟨a, ha, -⟩ := h
  simp [Holds, ha]

section Fields

variable (hsound : q.env.heap.Sound) {reference : ObjectRef} (hreference : q.env.heap.IsReference reference) {i : Nat}
  (hi : i < 2)
include hsound hreference

section
include hi

theorem ofField_reference :
    Slot.ofField reference (16 + i.toUInt64 * 8) false = .ok (fieldSlot reference i) := by
  obtain ⟨a, ha, hkind⟩ := hreference
  apply hsound.ofField_eq ha
  simpa [hsound.reference reference a ha hkind] using hi

theorem isNarrow_fieldSlot : (fieldSlot reference i).isNarrow = false := by
  obtain ⟨a, ha, hkind⟩ := hreference
  apply isNarrow_of_lt
  apply hsound.fieldSlot_lt ha
  simpa [hsound.reference reference a ha hkind] using hi

/-- A reference written into a field. -/
theorem run_storeField (codec : PointerCodec) {value : Option ObjectRef} {f : Memory → Except Panic Memory}
    (hf : ∀ memory, f memory = (fieldSlot reference i).store codec value memory) (m : SimMachine) :
    (Machine.poke f).run m =
      (.ok (), { m with memory := (fieldSlot reference i).storeBits (refBits value) m.memory }) := by
  have hwide := isNarrow_fieldSlot hsound hreference hi
  simp [Machine.poke, hf, Slot.store, Slot.bits, hwide, Except.map]

end

section

variable {range : Option (Address × Address)} (huncompressed : options.compressedPointers = false)
include huncompressed

theorem referentSlot_eq :
    (simBinding options codec range).referenceFields.referentSlot reference = .ok (fieldSlot reference 0) := by
  have hfield := ofField_reference hsound hreference (i := 0) (by omega)
  rw [← huncompressed] at hfield
  exact hfield

theorem discoveredSlot_eq :
    (simBinding options codec range).referenceFields.discoveredSlot reference = .ok (fieldSlot reference 1) := by
  have hfield := ofField_reference hsound hreference (i := 1) (by omega)
  rw [← huncompressed] at hfield
  exact hfield

end

end Fields

/-- A choice that is made for each of a list is made for all of it. -/
theorem filterM_eq_ok {α ε : Type} {choose : α → Except ε Bool} {chosen : α → Bool} {as : List α}
    (h : ∀ a ∈ as, choose a = .ok (chosen a)) : as.filterM choose = .ok (as.filter chosen) := by
  have haux (acc : List α) : as.filterAuxM choose acc = .ok ((as.filter chosen).reverse ++ acc) := by
    induction as generalizing acc with
    | nil => rfl
    | cons a as ih =>
      have hrest := ih fun other hother => h other (List.mem_cons_of_mem _ hother)
      rw [List.filterAuxM, h a (List.mem_cons_self ..)]
      cases hchosen : chosen a with
      | false => simpa [hchosen, bind, Except.bind] using hrest acc
      | true => simpa [hchosen, bind, Except.bind] using hrest (a :: acc)
  simp [List.filterM, haux, bind, Except.bind, pure, Except.pure]

theorem Heap.isReference_of_mem {heap : Heap} {reference : ObjectRef} (h : reference ∈ heap.references) :
    heap.IsReference reference := by
  obtain ⟨a, ha, hkind, -⟩ := mem_references.1 h
  exact ⟨a, ha, hkind⟩

/-- A reference object that has a mark, with a referent that has none. -/
def isLost (codec : PointerCodec) (m : SimMachine) (reference : ObjectRef) : Bool :=
  reference ∈ m.env.collector.marks &&
    match (fieldSlot reference 0).load codec m.memory with
    | .ok (some referent) => referent ∉ m.env.collector.marks
    | _ => false

/-- The reference objects that lost their referents. A collector without a heap knows of none. -/
def lost (b : SimBinding) (m : SimMachine) : List ObjectRef :=
  if b.engine.heapRange.isSome then m.env.heap.references.filter (isLost b.codec m) else []

theorem lost_sublist (b : SimBinding) (m : SimMachine) : (lost b m).Sublist m.env.heap.references := by
  unfold lost
  split
  · exact List.filter_sublist
  · exact List.nil_sublist _

theorem isReference_of_lost {b : SimBinding} {reference : ObjectRef} (h : reference ∈ lost b m) :
    m.env.heap.IsReference reference := Heap.isReference_of_mem ((lost_sublist b m).subset h)

/-- The reference objects that lost their referents are found if all referents can be read. -/
theorem deadReferences_eq (range : Option (Address × Address)) (huncompressed : options.compressedPointers = false)
    (hsound : m.env.heap.Sound)
    (hreferents : ∀ r, m.env.heap.IsReference r → ∃ found, (fieldSlot r 0).load codec m.memory = .ok found) :
    deadReferences (simBinding options codec range) m = .ok (lost (simBinding options codec range) m) := by
  cases range with
  | none => rfl
  | some range =>
    apply filterM_eq_ok
    intro r hr
    have hreference := Heap.isReference_of_mem hr
    obtain ⟨found, hfound⟩ := hreferents r hreference
    have hget : (simBinding options codec (some range)).referenceFields.getReferent r m.memory = .ok found := by
      rw [ReferenceFields.getReferent, referentSlot_eq hsound hreference huncompressed]
      exact hfound
    have hlive (object : ObjectRef) : (simBinding options codec (some range)).engine.isLive m object =
        decide (object ∈ m.env.collector.marks) := rfl
    change isDeadReference _ m r = .ok (isLost codec m r)
    unfold isDeadReference isLost
    rw [hget, hfound, hlive]
    by_cases hmark : r ∈ m.env.collector.marks
    · cases found with
      | none => simp [hmark, bind, Except.bind, pure, Except.pure]
      | some referent => simp [hmark, hlive, bind, Except.bind, pure, Except.pure]
    · simp [hmark, pure, Except.pure]

section Written

variable {codec : PointerCodec} {writes : List (Slot × Option ObjectRef)} {slot : Slot}

/-- References written one after another, each into a full word. -/
def written (writes : List (Slot × Option ObjectRef)) (memory : Memory) : Memory :=
  writes.foldl (fun memory write => write.1.storeBits (refBits write.2) memory) memory

theorem written_append (writes more : List (Slot × Option ObjectRef)) (memory : Memory) :
    written (writes ++ more) memory = written more (written writes memory) := List.foldl_append ..

theorem loadBits_written (hapart : ∀ write ∈ writes, write.1.Apart slot) (memory : Memory) :
    slot.loadBits (written writes memory) = slot.loadBits memory := by
  induction writes generalizing memory with
  | nil => rfl
  | cons write writes ih =>
    have hrest := ih (fun other hother => hapart other (List.mem_cons_of_mem _ hother))
      (write.1.storeBits (refBits write.2) memory)
    exact hrest.trans (Slot.loadBits_storeBits_of_apart (hapart write (List.mem_cons_self ..)) _ memory)

/-- What was written is read, if no two of the writes meet. -/
theorem load_written {value : Option ObjectRef} (hapart : writes.Pairwise fun write other => write.1.Apart other.1)
    (hmem : (slot, value) ∈ writes) (hwide : slot.isNarrow = false) (memory : Memory) :
    slot.load codec (written writes memory) = .ok value := by
  induction writes generalizing memory with
  | nil => cases hmem
  | cons write writes ih =>
    obtain ⟨hfirst, hrest⟩ := List.pairwise_cons.1 hapart
    obtain rfl | hmem := List.mem_cons.1 hmem
    · have hsame : slot.loadBits (written writes (slot.storeBits (refBits value) memory)) =
          slot.loadBits (slot.storeBits (refBits value) memory) :=
        loadBits_written (fun other hother => (hfirst other hother).symm) _
      exact (Slot.load_congr hsame).trans (Slot.load_storeBits_of_wide hwide value memory)
    · exact ih hrest hmem _

end Written

/-- The referents of reference objects, to be cleared. -/
def referents (references : List ObjectRef) : List (Slot × Option ObjectRef) :=
  references.map fun reference => (fieldSlot reference 0, none)

/-- Links between reference objects, from each to the next. -/
def joins : List ObjectRef → List (Slot × Option ObjectRef)
  | first :: next :: rest => (fieldSlot first 1, some next) :: joins (next :: rest)
  | _ => []

/-- The links of reference objects, each to the next, and the last to `tail`. -/
def links (tail : Option ObjectRef) : List ObjectRef → List (Slot × Option ObjectRef)
  | [] => []
  | [last] => [(fieldSlot last 1, tail)]
  | first :: next :: rest => (fieldSlot first 1, some next) :: links tail (next :: rest)

theorem links_cons (tail : Option ObjectRef) (head : ObjectRef) (rest : List ObjectRef) :
    links tail (head :: rest) = joins (head :: rest) ++ [(fieldSlot (rest.getLastD head) 1, tail)] := by
  induction rest generalizing head with
  | nil => rfl
  | cons next rest ih =>
    have hlast : (next :: rest).getLastD head = rest.getLastD next := by cases rest <;> rfl
    rw [links, joins, ih, hlast]
    rfl

theorem map_fst_links (tail : Option ObjectRef) (references : List ObjectRef) :
    (links tail references).map Prod.fst = references.map (fieldSlot · 1) := by
  fun_induction links tail references with
  | case1 => rfl
  | case2 last => rfl
  | case3 first next rest ih =>
    rw [List.map_cons, ih]
    rfl

/-- A link leads to another of the references or to the tail. -/
theorem value_of_links {tail : Option ObjectRef} {references : List ObjectRef} {slot : Slot} {value : Option ObjectRef}
    (h : (slot, value) ∈ links tail references) : value = tail ∨ ∃ next ∈ references, value = some next := by
  fun_induction links tail references with
  | case1 => cases h
  | case2 last =>
    rw [List.mem_singleton] at h
    exact .inl (congrArg Prod.snd h)
  | case3 first next rest ih =>
    obtain h | h := List.mem_cons.1 h
    · exact .inr ⟨next, by simp, congrArg Prod.snd h⟩
    · obtain htail | ⟨other, hother, hvalue⟩ := ih h
      · exact .inl htail
      · exact .inr ⟨other, List.mem_cons_of_mem _ hother, hvalue⟩

/-- The machine with reference objects in front of the pending list. -/
def enqueued (references : List ObjectRef) (m : SimMachine) : SimMachine :=
  match references with
  | [] => m
  | head :: _ =>
    { memory := written (links m.env.host.pending references) m.memory
      env := { m.env with host :=
        { m.env.host with pending := some head, finalizerRuns := m.env.host.finalizerRuns + 1 } } }

/-- The machine with the referents that died cleared and their reference objects enqueued. -/
def relieved (b : SimBinding) (m : SimMachine) : SimMachine :=
  enqueued (lost b m) { m with memory := written (referents (lost b m)) m.memory }

/-- All that is written about references. -/
def relief (b : SimBinding) (m : SimMachine) : List (Slot × Option ObjectRef) :=
  referents (lost b m) ++ links m.env.host.pending (lost b m)

theorem memory_relieved (b : SimBinding) (m : SimMachine) :
    (relieved b m).memory = written (relief b m) m.memory := by
  rw [relief, written_append, relieved]
  cases lost b m <;> rfl

theorem heap_relieved (b : SimBinding) (m : SimMachine) : (relieved b m).env.heap = m.env.heap := by
  rw [relieved]
  cases lost b m <;> rfl

theorem pending_relieved (b : SimBinding) (m : SimMachine) :
    (relieved b m).env.host.pending = (lost b m).head?.or m.env.host.pending := by
  rw [relieved]
  cases lost b m <;> rfl

section Relief

variable {b : SimBinding} {codec : PointerCodec} {m : SimMachine} {slot : Slot}

/-- Referents and links are what is written. -/
theorem map_fst_relief (b : SimBinding) (m : SimMachine) : (relief b m).map Prod.fst =
    (lost b m).map (fieldSlot · 0) ++ (lost b m).map (fieldSlot · 1) := by
  rw [relief, List.map_append, map_fst_links, referents, List.map_map]
  rfl

theorem slot_of_relief {write : Slot × Option ObjectRef} (h : write ∈ relief b m) :
    ∃ reference ∈ lost b m, ∃ i < 2, write.1 = fieldSlot reference i := by
  have hslot : write.1 ∈ (relief b m).map Prod.fst := List.mem_map_of_mem h
  rw [map_fst_relief, List.mem_append, List.mem_map, List.mem_map] at hslot
  obtain ⟨reference, hreference, hslot⟩ | ⟨reference, hreference, hslot⟩ := hslot
  · exact ⟨reference, hreference, 0, by omega, hslot.symm⟩
  · exact ⟨reference, hreference, 1, by omega, hslot.symm⟩

/-- A referent is cleared, a link leads to another reference object that lost its referent or to the old list. -/
theorem value_of_relief {value : Option ObjectRef} (h : (slot, value) ∈ relief b m) :
    value = none ∨ value = m.env.host.pending ∨ ∃ next ∈ lost b m, value = some next := by
  rw [relief, List.mem_append] at h
  obtain h | h := h
  · obtain ⟨_, -, hwrite⟩ := List.mem_map.1 h
    exact .inl (congrArg Prod.snd hwrite).symm
  · exact .inr (value_of_links h)

theorem nodup_lost (b : SimBinding) (m : SimMachine) : (lost b m).Nodup :=
  (Heap.nodup_references m.env.heap).sublist (lost_sublist b m)

variable (hsound : m.env.heap.Sound)
include hsound

theorem relief_apart : (relief b m).Pairwise fun write other => write.1.Apart other.1 := by
  have hfields {r r' : ObjectRef} (hr : r ∈ lost b m) (hr' : r' ∈ lost b m) {i j : Nat} (hi : i < 2)
      (hj : j < 2) (hne : r ≠ r' ∨ i ≠ j) : (fieldSlot r i).Apart (fieldSlot r' j) := by
    obtain ⟨a, ha, hkind⟩ := isReference_of_lost hr
    obtain ⟨c, hc, hkind'⟩ := isReference_of_lost hr'
    have htwo : a.fields = 2 := hsound.reference r a ha hkind
    have htwo' : c.fields = 2 := hsound.reference r' c hc hkind'
    exact hsound.fieldSlot_apart ha (by simpa [htwo] using hi) hc (by simpa [htwo'] using hj) hne
  have hone {i : Nat} (hi : i < 2) : ((lost b m).map (fieldSlot · i)).Pairwise Slot.Apart := by
    rw [List.pairwise_map]
    refine (nodup_lost b m).imp_of_mem ?_
    intro r r' hr hr' hne
    exact hfields hr hr' hi hi (.inl hne)
  have hslots : ((relief b m).map Prod.fst).Pairwise Slot.Apart := by
    rw [map_fst_relief]
    refine List.pairwise_append.2 ⟨hone (by omega), hone (by omega), ?_⟩
    intro slot hslot other hother
    obtain ⟨r, hr, rfl⟩ := List.mem_map.1 hslot
    obtain ⟨r', hr', rfl⟩ := List.mem_map.1 hother
    exact hfields hr hr' (by omega) (by omega) (.inr (by omega))
  exact List.pairwise_map.1 hslots

/-- What was written about references is read. -/
theorem load_relieved {value : Option ObjectRef} (h : (slot, value) ∈ relief b m) :
    slot.load codec (relieved b m).memory = .ok value := by
  obtain ⟨r, hr, i, hi, hslot⟩ := slot_of_relief h
  change slot = fieldSlot r i at hslot
  have hwide : slot.isNarrow = false := by
    rw [hslot]
    exact isNarrow_fieldSlot hsound (isReference_of_lost hr) hi
  rw [memory_relieved]
  exact load_written (relief_apart hsound) h hwide m.memory

omit hsound in
theorem loadBits_relieved (hapart : ∀ reference ∈ lost b m, ∀ i < 2, (fieldSlot reference i).Apart slot) :
    slot.loadBits (relieved b m).memory = slot.loadBits m.memory := by
  rw [memory_relieved]
  apply loadBits_written
  intro write hwrite
  obtain ⟨r, hr, i, hi, hslot⟩ := slot_of_relief hwrite
  rw [hslot]
  exact hapart r hr i hi

/-- A slot is as it was unless it is a referent that was cleared or a link. -/
theorem load_relieved_cases
    (hseparate : ∀ reference ∈ lost b m, ∀ i < 2, (fieldSlot reference i).Separate slot) :
    slot.load codec (relieved b m).memory = slot.load codec m.memory ∨
      ∃ value, (slot, value) ∈ relief b m ∧ slot.load codec (relieved b m).memory = .ok value := by
  by_cases hwritten : ∃ value, (slot, value) ∈ relief b m
  · obtain ⟨value, hvalue⟩ := hwritten
    exact .inr ⟨value, hvalue, load_relieved hsound hvalue⟩
  · left
    apply Slot.load_congr
    apply loadBits_relieved
    intro r hr i hi
    refine (hseparate r hr i hi).resolve_left ?_
    rintro rfl
    have hmem : fieldSlot r i ∈ (relief b m).map Prod.fst := by
      rw [map_fst_relief, List.mem_append]
      obtain rfl | rfl : i = 0 ∨ i = 1 := by omega
      · exact .inl (List.mem_map_of_mem hr)
      · exact .inr (List.mem_map_of_mem hr)
    obtain ⟨⟨_, value⟩, hwrite, rfl⟩ := List.mem_map.1 hmem
    exact hwritten ⟨value, hwrite⟩

end Relief

section Runs

variable {options : Options} {codec : PointerCodec} {range : Option (Address × Address)} {m : SimMachine}
  (huncompressed : options.compressedPointers = false) (hsound : m.env.heap.Sound) {references : List ObjectRef}
  (hreferences : ∀ r ∈ references, m.env.heap.IsReference r)
include huncompressed hsound hreferences

theorem run_clearReferents : (references.forM fun reference =>
      Machine.poke ((simBinding options codec range).referenceFields.clearReferent reference)).run m =
    (.ok (), { m with memory := written (referents references) m.memory }) := by
  induction references generalizing m with
  | nil => rfl
  | cons reference references ih =>
    have hreference := hreferences reference (List.mem_cons_self ..)
    have hclear : (Machine.poke ((simBinding options codec range).referenceFields.clearReferent reference)).run m =
        (.ok (), { m with memory := (fieldSlot reference 0).storeBits (refBits none) m.memory }) := by
      apply run_storeField hsound hreference (by omega) codec
      intro memory
      rw [ReferenceFields.clearReferent, ReferenceFields.setReferent, referentSlot_eq hsound hreference huncompressed]
      rfl
    rw [List.forM_eq_forM, List.forM_cons, Act.run_bind_ok hclear]
    exact ih hsound fun r hr => hreferences r (List.mem_cons_of_mem _ hr)

omit hreferences in
theorem run_setDiscovered (codec : PointerCodec) (range : Option (Address × Address)) {reference : ObjectRef}
    (hreference : m.env.heap.IsReference reference)
    (next : Option ObjectRef) :
    (Machine.poke ((simBinding options codec range).referenceFields.setDiscovered reference next)).run m =
      (.ok (), { m with memory := (fieldSlot reference 1).storeBits (refBits next) m.memory }) := by
  apply run_storeField hsound hreference (by omega) codec
  intro memory
  rw [ReferenceFields.setDiscovered, discoveredSlot_eq hsound hreference huncompressed]
  rfl

theorem run_link : ((simBinding options codec range).referenceFields.link references).run m =
    (.ok (), { m with memory := written (joins references) m.memory }) := by
  induction references generalizing m with
  | nil => rfl
  | cons first rest ih =>
    cases rest with
    | nil => rfl
    | cons next rest =>
      have hfirst := run_setDiscovered huncompressed hsound codec range
        (hreferences first (List.mem_cons_self ..)) (some next)
      rw [ReferenceFields.link, Act.run_bind_ok hfirst]
      exact ih hsound fun r hr => hreferences r (List.mem_cons_of_mem _ hr)

/-- Reference objects are enqueued. -/
theorem run_enqueue : ((simBinding options codec range).referenceFields.enqueue host references).run m =
    (.ok references.length, enqueued references m) := by
  cases references with
  | nil => rfl
  | cons head rest =>
    let linked : SimMachine := { m with memory := written (joins (head :: rest)) m.memory }
    let swapped : SimMachine := { linked with env.host.pending := some head }
    have hlink : ((simBinding options codec range).referenceFields.link (head :: rest)).run m = (.ok (), linked) :=
      run_link huncompressed hsound hreferences
    have hswap : (host.swapPending (some head)).run linked = (.ok m.env.host.pending, swapped) := rfl
    have htail : (Machine.poke ((simBinding options codec range).referenceFields.setDiscovered (rest.getLastD head)
        m.env.host.pending)).run swapped = (.ok (), { swapped with
          memory := (fieldSlot (rest.getLastD head) 1).storeBits (refBits m.env.host.pending) linked.memory }) :=
      run_setDiscovered (m := swapped) huncompressed hsound codec range (hreferences _ (List.getLastD_mem_cons ..))
        m.env.host.pending
    rw [ReferenceFields.enqueue, Act.run_bind_ok hlink, Act.run_bind_ok hswap, Act.run_bind_ok htail, enqueued,
      links_cons, written_append]
    rfl

end Runs

end Simulated

end Safepoint
