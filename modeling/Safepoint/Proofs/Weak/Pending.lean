import Mathlib.Data.List.Basic
import Safepoint.Proofs.Simulated.Stop
import Safepoint.Proofs.Slot.Range

/-!
# The pending list

References are put in front of the list that the host keeps. What leads from one reference to the next is its discovered
field, so a list of them is a trail through memory, and two trails that meet make one. Each batch is one trail from its
first reference to its last, and the last is then led to the old head.
-/
namespace Safepoint

namespace Slot

theorem isNarrow_of_wide {address : Address} {slot : Slot} (h : wide address = .ok slot) : slot.isNarrow = false := by
  unfold wide at h
  split at h
  · rename_i htag
    cases h
    simp [isNarrow, htag]
  · cases h

/-- The fields of objects are narrow if pointers are compressed. -/
theorem isNarrow_ofField {object : ObjectRef} {offset : UInt64} {compressed : Bool} {slot : Slot}
    (h : ofField object offset compressed = .ok slot) : slot.isNarrow = compressed := by
  obtain ⟨address, -, h⟩ := except_bind_eq_ok.1 h
  cases compressed with
  | true =>
    cases h
    exact isNarrow_narrow address
  | false => exact isNarrow_of_wide h

end Slot

namespace ReferenceFields

variable {fields : ReferenceFields} {m m' : Memory} {reference last : ObjectRef} {start middle stop : Option ObjectRef}
  {references others : List ObjectRef} {slots : List Slot} {slot : Slot}

/-- From `start` on, the discovered fields lead through the references, in this order, and on to `stop`. -/
def Trail (fields : ReferenceFields) (m : Memory) : Option ObjectRef → List ObjectRef → Option ObjectRef → Prop
  | start, [], stop => start = stop
  | start, reference :: rest, stop =>
    start = some reference ∧ ∃ next, fields.getDiscovered reference m = .ok next ∧ Trail fields m next rest stop

/-- The discovered fields, of those references that have one. -/
def discoveredSlots (fields : ReferenceFields) (references : List ObjectRef) : List Slot :=
  references.filterMap fun reference => (fields.discoveredSlot reference).toOption

/-- References that can all be on one list: their discovered fields do not meet, and can hold any of them. -/
structure Linkable (fields : ReferenceFields) (references : List ObjectRef) : Prop where
  field : ∀ reference ∈ references, ∃ slot, fields.discoveredSlot reference = .ok slot
  apart : (fields.discoveredSlots references).Pairwise Slot.Apart
  carried : fields.compressed = true → ∀ reference ∈ references, fields.codec.Carries reference

theorem mem_discoveredSlots :
    slot ∈ fields.discoveredSlots references ↔ ∃ reference ∈ references, fields.discoveredSlot reference = .ok slot := by
  simp only [discoveredSlots, List.mem_filterMap]
  refine exists_congr fun reference => and_congr_right fun _ => ?_
  cases fields.discoveredSlot reference <;> simp [Except.toOption]

theorem discoveredSlots_append (references others : List ObjectRef) :
    fields.discoveredSlots (references ++ others) = fields.discoveredSlots references ++ fields.discoveredSlots others :=
  List.filterMap_append

theorem discoveredSlots_singleton (h : fields.discoveredSlot reference = .ok slot) :
    fields.discoveredSlots [reference] = [slot] := by simp [discoveredSlots, h, Except.toOption]

namespace Linkable

theorem append_right (h : fields.Linkable (references ++ others)) : fields.Linkable others where
  field reference hreference := h.field reference (List.mem_append_right _ hreference)
  apart := by
    have hapart := h.apart
    rw [discoveredSlots_append] at hapart
    exact (List.pairwise_append.1 hapart).2.1
  carried hcompressed reference hreference := h.carried hcompressed reference (List.mem_append_right _ hreference)

theorem append_left (h : fields.Linkable (references ++ others)) : fields.Linkable references where
  field reference hreference := h.field reference (List.mem_append_left _ hreference)
  apart := by
    have hapart := h.apart
    rw [discoveredSlots_append] at hapart
    exact (List.pairwise_append.1 hapart).1
  carried hcompressed reference hreference := h.carried hcompressed reference (List.mem_append_left _ hreference)

theorem apart_of_append (h : fields.Linkable (references ++ others)) {other : Slot}
    (hslot : slot ∈ fields.discoveredSlots references) (hother : other ∈ fields.discoveredSlots others) :
    slot.Apart other := by
  have hapart := h.apart
  rw [discoveredSlots_append] at hapart
  exact (List.pairwise_append.1 hapart).2.2 slot hslot other hother

end Linkable

/-- A link stays as it is when only fields apart from it are written. -/
theorem getDiscovered_of_sameApart (hsame : m.SameApart slots m')
    (hapart : ∀ slot, fields.discoveredSlot reference = .ok slot → ∀ other ∈ slots, other.Apart slot) :
    fields.getDiscovered reference m' = fields.getDiscovered reference m := by
  unfold getDiscovered
  cases hslot : fields.discoveredSlot reference with
  | error cause => rfl
  | ok slot => exact Slot.load_congr (hsame.loadBits (hapart slot hslot))

/-- A link that is written is read back, and no other byte is written. -/
theorem setDiscovered_spec (hslot : fields.discoveredSlot reference = .ok slot) {next : Option ObjectRef}
    (hnext : fields.compressed = true → ∀ object ∈ next, fields.codec.Carries object) (m : Memory) :
    ∃ m', fields.setDiscovered reference next m = .ok m' ∧ m.SameApart [slot] m' ∧
      fields.getDiscovered reference m' = .ok next := by
  have hnarrow : slot.isNarrow = fields.compressed := Slot.isNarrow_ofField hslot
  obtain ⟨bits, hbits, hback⟩ : ∃ bits, slot.bits fields.codec next = .ok bits ∧
      slot.reference fields.codec bits = .ok next := by
    cases next with
    | none =>
      refine ⟨0, slot.bits_none fields.codec, ?_⟩
      unfold Slot.reference
      split
      · exact PointerCodec.decode_zero _
      · exact ObjectRef.ofBits_zero
    | some object => exact Slot.bits_of_carries fun h => hnext (hnarrow ▸ h) object rfl
  refine ⟨slot.storeBits bits m, ?_, Memory.sameApart_storeBits slot bits m, ?_⟩
  · rw [setDiscovered, hslot]
    change slot.store fields.codec next m = _
    rw [Slot.store, hbits]
    rfl
  · rw [getDiscovered, hslot]
    change slot.load fields.codec _ = _
    rw [Slot.load, Slot.loadBits_storeBits hbits, hback]

namespace Trail

theorem append (h : fields.Trail m start references middle) (hothers : fields.Trail m middle others stop) :
    fields.Trail m start (references ++ others) stop := by
  induction references generalizing start with
  | nil =>
    cases h
    exact hothers
  | cons reference rest ih =>
    obtain ⟨rfl, next, hnext, hrest⟩ := h
    exact ⟨rfl, next, hnext, ih hrest⟩

theorem singleton (h : fields.getDiscovered reference m = .ok stop) :
    fields.Trail m (some reference) [reference] stop := ⟨rfl, stop, h, rfl⟩

theorem start_eq (h : fields.Trail m start references stop) : start = references.head?.or stop := by
  cases references with
  | nil => exact h
  | cons reference rest => exact h.1

/-- A trail that ends is the only one from where it starts. -/
theorem unique (h : fields.Trail m start references none) (hothers : fields.Trail m start others none) :
    others = references := by
  induction references generalizing start others with
  | nil =>
    cases h
    cases others with
    | nil => rfl
    | cons other others => cases hothers.1
  | cons reference rest ih =>
    obtain ⟨rfl, next, hnext, hrest⟩ := h
    cases others with
    | nil => cases hothers
    | cons other others =>
      obtain ⟨⟨⟩, next', hnext', hothers⟩ := hothers
      rw [hnext] at hnext'
      cases hnext'
      rw [ih hrest hothers]

/-- A trail stays as it is when only fields apart from its own are written. -/
theorem frame (h : fields.Trail m start references stop) (hsame : m.SameApart slots m')
    (hapart : ∀ slot ∈ fields.discoveredSlots references, ∀ other ∈ slots, other.Apart slot) :
    fields.Trail m' start references stop := by
  induction references generalizing start with
  | nil => exact h
  | cons reference rest ih =>
    obtain ⟨rfl, next, hnext, hrest⟩ := h
    refine ⟨rfl, next, ?_, ih hrest fun slot hslot => ?_⟩
    · rw [← hnext]
      refine getDiscovered_of_sameApart hsame fun slot hslot => hapart slot ?_
      exact mem_discoveredSlots.2 ⟨reference, List.mem_cons_self .., hslot⟩
    · obtain ⟨other, hother, hslot⟩ := mem_discoveredSlots.1 hslot
      exact hapart slot (mem_discoveredSlots.2 ⟨other, List.mem_cons_of_mem _ hother, hslot⟩)

end Trail

section Runs

variable {ε ρ : Type}

/-- A reference is led to whatever comes first behind it. -/
theorem link_cons (reference last : ObjectRef) (init : List ObjectRef) :
    (fields.link (reference :: (init ++ [last])) : Act (Machine ε) Unit) =
      Machine.poke (fields.setDiscovered reference (init ++ [last]).head?) >>= fun _ => fields.link (init ++ [last]) := by
  cases init <;> rfl

theorem run_setDiscovered {next : Option ObjectRef} {m : Machine ε} {memory : Memory}
    (h : fields.setDiscovered reference next m.memory = .ok memory) :
    (Machine.poke (fields.setDiscovered reference next)).run m = (.ok (), { m with memory }) := by
  simp [Machine.poke, h, Except.map]

/-- The links make a trail from the first reference to the last, and leave the field of the last as it was. -/
theorem run_link {init : List ObjectRef} (h : fields.Linkable (init ++ [last])) (m : Machine ε) :
    ∃ memory, (fields.link (init ++ [last])).run m = (.ok (), { m with memory }) ∧
      m.memory.SameApart (fields.discoveredSlots init) memory ∧
      fields.Trail memory (init ++ [last]).head? init (some last) := by
  induction init generalizing m with
  | nil => exact ⟨m.memory, rfl, fun _ _ => rfl, rfl⟩
  | cons reference init ih =>
    have hfirst : fields.Linkable ([reference] ++ (init ++ [last])) := h
    obtain ⟨slot, hslot⟩ := h.field reference (List.mem_cons_self ..)
    have hslots := discoveredSlots_singleton hslot
    have hnext : fields.compressed = true → ∀ object ∈ (init ++ [last]).head?, fields.codec.Carries object :=
      fun hcompressed object hobject =>
        h.carried hcompressed object (List.mem_cons_of_mem _ (List.mem_of_head? hobject))
    obtain ⟨memory₁, hset, hsame₁, hget⟩ := setDiscovered_spec hslot hnext m.memory
    obtain ⟨memory, hrun, hsame, htrail⟩ := ih hfirst.append_right { m with memory := memory₁ }
    have hinit : ∀ other ∈ fields.discoveredSlots init, other.Apart slot := fun other hother =>
      (hfirst.apart_of_append (hslots ▸ List.mem_singleton_self slot)
        (by rw [discoveredSlots_append]; exact List.mem_append_left _ hother)).symm
    refine ⟨memory, ?_, ?_, rfl, _, ?_, htrail⟩
    · rw [List.cons_append, link_cons, Act.run_bind_ok (run_setDiscovered hset)]
      exact hrun
    · have hcons : fields.discoveredSlots (reference :: init) = [slot] ++ fields.discoveredSlots init := by
        rw [← hslots, ← discoveredSlots_append]
        rfl
      rw [hcons]
      exact (hsame₁.mono (List.subset_append_left ..)).trans (hsame.mono (List.subset_append_right ..))
    · refine (getDiscovered_of_sameApart hsame fun other hother => ?_).trans hget
      rw [hslot] at hother
      cases hother
      exact hinit

end Runs
end ReferenceFields

/-- What is told apart in the state of a host that keeps a pending list: its head, how many runs of the finalizer were
asked for, and all the rest. -/
structure PendingView (ε ρ : Type) where
  head : ε → Option ObjectRef
  runs : ε → Nat
  rest : ε → ρ

/-- The host installs a new head and gives the old one back. It takes note of each run of the finalizer that is asked
for. Memory is not its business. -/
structure Host.KeepsPending {ε ρ : Type} (host : Host ε) (view : PendingView ε ρ) : Prop where
  swap : ∀ new (m : Machine ε), ∃ env, (host.swapPending new).run m = (.ok (view.head m.env), { m with env }) ∧
    view.head env = new ∧ view.runs env = view.runs m.env ∧ view.rest env = view.rest m.env
  schedule : ∀ m : Machine ε, ∃ env, host.scheduleFinalizer.run m = (.ok (), { m with env }) ∧
    view.head env = view.head m.env ∧ view.runs env = view.runs m.env + 1 ∧ view.rest env = view.rest m.env

namespace ReferenceFields

variable {fields : ReferenceFields} {ε ρ : Type} {host : Host ε} {view : PendingView ε ρ} {batch list : List ObjectRef}
  {m m' : Machine ε}

/-- What the host keeps is a list of these references. -/
def Pending (fields : ReferenceFields) (view : PendingView ε ρ) (m : Machine ε) (list : List ObjectRef) : Prop :=
  fields.Trail m.memory (view.head m.env) list none

/-- The machine has a batch in front of the list that it had, and is otherwise the same. -/
structure Prepended (fields : ReferenceFields) (view : PendingView ε ρ) (batch list : List ObjectRef)
    (m m' : Machine ε) : Prop where
  pending : fields.Pending view m' (batch ++ list)
  memory : m.memory.SameApart (fields.discoveredSlots batch) m'.memory
  runs : view.runs m'.env = view.runs m.env + if batch = [] then 0 else 1
  rest : view.rest m'.env = view.rest m.env
  unchanged : batch = [] → m' = m

/-- A batch that is not empty is linked, becomes the head of the list, and is led on to the old head. -/
theorem enqueue_snoc (host : Host ε) (init : List ObjectRef) (last : ObjectRef) :
    fields.enqueue host (init ++ [last]) = (do
      fields.link (init ++ [last])
      let old ← host.swapPending (init ++ [last]).head?
      Machine.poke (fields.setDiscovered last old)
      host.scheduleFinalizer
      return (init ++ [last]).length) := by
  cases init with
  | nil => rfl
  | cons head init =>
    rw [List.cons_append, enqueue, List.getLastD_concat]
    rfl

theorem run_enqueue (hkeeps : host.KeepsPending view) (hlinkable : fields.Linkable (batch ++ list))
    (hlist : fields.Pending view m list) :
    ∃ m', (fields.enqueue host batch).run m = (.ok batch.length, m') ∧ fields.Prepended view batch list m m' := by
  obtain rfl | ⟨init, last, rfl⟩ := batch.eq_nil_or_concat'
  · exact ⟨m, rfl, hlist, fun _ _ => rfl, rfl, rfl, fun _ => rfl⟩
  have hbatch : fields.Linkable (init ++ [last]) := hlinkable.append_left
  obtain ⟨slot, hslot⟩ := hbatch.field last (by simp)
  have hslots := discoveredSlots_singleton hslot
  obtain ⟨memory₁, hlink, hsame₁, htrail⟩ := run_link hbatch m
  obtain ⟨env₁, hswap, hhead₁, hruns₁, hrest₁⟩ := hkeeps.swap (init ++ [last]).head? { m with memory := memory₁ }
  -- The old head is on the list, so the codec carries it.
  have hold : fields.compressed = true → ∀ object ∈ view.head m.env, fields.codec.Carries object := by
    intro hcompressed object hobject
    refine hlinkable.carried hcompressed object (List.mem_append_right _ (List.mem_of_head? ?_))
    rw [hlist.start_eq, Option.or_none] at hobject
    exact hobject
  obtain ⟨memory₂, hset, hsame₂, hget⟩ := setDiscovered_spec hslot hold memory₁
  obtain ⟨env₂, hschedule, hhead₂, hruns₂, hrest₂⟩ := hkeeps.schedule ⟨memory₂, env₁⟩
  have hsame : m.memory.SameApart (fields.discoveredSlots (init ++ [last])) memory₂ := by
    rw [discoveredSlots_append, hslots]
    exact (hsame₁.mono (List.subset_append_left ..)).trans (hsame₂.mono (List.subset_append_right ..))
  refine ⟨⟨memory₂, env₂⟩, ?_, ?_, hsame, ?_, hrest₂.trans hrest₁, by simp⟩
  · rw [enqueue_snoc, Act.run_bind_ok hlink, Act.run_bind_ok hswap, Act.run_bind_ok (run_setDiscovered hset),
      Act.run_bind_ok hschedule]
    rfl
  · have hinit : fields.Trail memory₂ (init ++ [last]).head? init (some last) := by
      refine htrail.frame hsame₂ fun other hother written hwritten => ?_
      rw [List.mem_singleton.1 hwritten]
      exact (hbatch.apart_of_append hother (hslots ▸ List.mem_singleton_self slot)).symm
    have htail : fields.Trail memory₂ (view.head m.env) list none :=
      hlist.frame hsame fun other hother written hwritten => hlinkable.apart_of_append hwritten hother
    change fields.Trail memory₂ (view.head env₂) (init ++ [last] ++ list) none
    rw [hhead₂, hhead₁, List.append_assoc]
    exact hinit.append ((Trail.singleton hget).append htail)
  · change view.runs env₂ = _
    rw [hruns₂, hruns₁, if_neg (by simp)]

end ReferenceFields

namespace Binding

variable {μ ε ρ : Type} {b : Binding μ ε} {view : PendingView ε ρ} {list batch : List ObjectRef}
  {before : List (List ObjectRef)} {s : State μ ε}

/-- The pending list after these batches, of which the last one is in front. -/
def grown (list : List ObjectRef) (before : List (List ObjectRef)) : List ObjectRef :=
  before.foldl (fun list batch => batch ++ list) list

theorem run_enqueueReferences (hkeeps : b.host.KeepsPending view)
    (hlinkable : b.referenceFields.Linkable (batch ++ list)) (hlist : b.referenceFields.Pending view s.machine list) :
    ∃ machine, (b.enqueueReferences batch).run s = (.ok batch.length, { s with machine }) ∧
      b.referenceFields.Prepended view batch list s.machine machine := by
  obtain ⟨machine, hrun, hprepended⟩ := ReferenceFields.run_enqueue hkeeps hlinkable hlist
  refine ⟨machine, ?_, hprepended⟩
  exact Act.run_within_eq_ok.2 ⟨machine, hrun, rfl⟩

theorem grown_eq_append (list : List ObjectRef) (before : List (List ObjectRef)) :
    ∃ front, grown list before = front ++ list := by
  induction before generalizing list with
  | nil => exact ⟨[], rfl⟩
  | cons batch before ih =>
    obtain ⟨front, hfront⟩ := ih (batch ++ list)
    exact ⟨front ++ batch, hfront.trans (List.append_assoc ..).symm⟩

/-- Each batch returns its length and makes the list longer. -/
theorem run_enqueueBatches (hkeeps : b.host.KeepsPending view)
    (hlinkable : b.referenceFields.Linkable (grown list before))
    (hlist : b.referenceFields.Pending view s.machine list) :
    ∃ s₁, (before.mapM b.enqueueReferences).run s = (.ok (before.map List.length), s₁) ∧
      b.referenceFields.Pending view s₁.machine (grown list before) := by
  induction before generalizing list s with
  | nil => exact ⟨s, rfl, hlist⟩
  | cons batch before ih =>
    have hfirst : b.referenceFields.Linkable (batch ++ list) := by
      obtain ⟨front, hfront⟩ := grown_eq_append (batch ++ list) before
      change b.referenceFields.Linkable (grown (batch ++ list) before) at hlinkable
      rw [hfront] at hlinkable
      exact hlinkable.append_right
    obtain ⟨machine, hrun, hprepended⟩ := run_enqueueReferences hkeeps hfirst hlist
    obtain ⟨s₁, hrest, hpending⟩ := ih hlinkable (s := { s with machine }) hprepended.pending
    refine ⟨s₁, ?_, hpending⟩
    rw [List.mapM_cons, Act.run_bind_ok hrun, Act.run_bind_ok hrest]
    rfl

/-- After any batches, the next one comes in front of the list as it then is. References are on one list if their
discovered fields do not meet, which keeps each of them from being on it twice. -/
theorem batches_come_in_front (hkeeps : b.host.KeepsPending view)
    (hlinkable : b.referenceFields.Linkable (batch ++ grown list before))
    (hlist : b.referenceFields.Pending view s.machine list) :
    ∃ s₁ s₂, (before.mapM b.enqueueReferences).run s = (.ok (before.map List.length), s₁) ∧
      (b.enqueueReferences batch).run s₁ = (.ok batch.length, s₂) ∧
      b.referenceFields.Pending view s₁.machine (grown list before) ∧
      b.referenceFields.Prepended view batch (grown list before) s₁.machine s₂.machine ∧
      s₂ = { s₁ with machine := s₂.machine } := by
  obtain ⟨s₁, hbefore, hpending⟩ := run_enqueueBatches hkeeps hlinkable.append_right hlist
  obtain ⟨machine, hrun, hprepended⟩ := run_enqueueReferences hkeeps hlinkable hpending
  exact ⟨s₁, { s₁ with machine }, hbefore, hrun, hpending, hprepended, rfl⟩

end Binding

namespace Simulated

/-- The host of a simulation, apart from its pending list and the finalizer. -/
def pendingView : PendingView Simulation Simulation where
  head env := env.host.pending
  runs env := env.host.finalizerRuns
  rest env := { env with host := { env.host with pending := none, finalizerRuns := 0 } }

theorem host_keepsPending : host.KeepsPending pendingView where
  swap new m := ⟨{ m.env with host.pending := new }, rfl, rfl, rfl, rfl⟩
  schedule m := ⟨{ m.env with host.finalizerRuns := m.env.host.finalizerRuns + 1 }, rfl, rfl, rfl, rfl⟩

/-- Three reference objects with narrow fields, on a codec that has a base. -/
def queued : List ObjectRef :=
  [⟨0x10004000, by decide, by decide⟩, ⟨0x10004020, by decide, by decide⟩, ⟨0x10004040, by decide, by decide⟩]

/-- Two references, then none, then a third one. -/
theorem third_reference_in_front :
    let b := simBinding { compressedPointers := true } ⟨0x10000000, 3⟩ none
    let s : World := { machine := ⟨.zero, { heap := ⟨0x10004000, 0, {}⟩, other := ⟨0x20000000, 0, {}⟩ }⟩ }
    let batch := queued.take 1
    let before := [queued.drop 1, []]
    b.host.KeepsPending pendingView ∧ b.referenceFields.Linkable (batch ++ Binding.grown [] before) ∧
      b.referenceFields.Pending pendingView s.machine [] ∧
      ∃ s₁ s₂, (before.mapM b.enqueueReferences).run s = (.ok [2, 0], s₁) ∧
        (b.enqueueReferences batch).run s₁ = (.ok 1, s₂) ∧
        b.referenceFields.Pending pendingView s₁.machine (queued.drop 1) ∧
        b.referenceFields.Prepended pendingView batch (queued.drop 1) s₁.machine s₂.machine ∧
        s₂ = { s₁ with machine := s₂.machine } := by
  intro b s batch before
  have hlinkable : b.referenceFields.Linkable queued := by
    refine ⟨?_, by decide +kernel, fun _ object hobject => (PointerCodec.carries_iff (by decide)).2 ?_⟩
    · simp only [queued, List.forall_mem_cons, List.not_mem_nil, false_implies, implies_true, and_true]
      exact ⟨⟨_, rfl⟩, ⟨_, rfl⟩, ⟨_, rfl⟩⟩
    · revert object
      decide +kernel
  have hpending : b.referenceFields.Pending pendingView s.machine [] := rfl
  exact ⟨host_keepsPending, hlinkable, hpending, Binding.batches_come_in_front host_keepsPending hlinkable hpending⟩

end Simulated

end Safepoint
