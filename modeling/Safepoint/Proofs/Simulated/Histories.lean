import Mathlib.Logic.Relation
import Safepoint.Proofs.Simulated.Edits

/-!
# Dangling pointers over a history

Mutators allocate, store references and edit roots, and now and then a cycle runs. None of it makes a dangling pointer
as long as no cycle links a reference object to a pending list whose first object it frees. A cycle does that to a
pending list that nothing leads to any more.
-/
namespace Safepoint.Simulated

open Heap (fieldSlot)

variable {options : Options} {codec : PointerCodec} {range : Option (Address × Address)} {b : SimBinding}
  {me : ThreadId} {s s' : World}

/-- A reference that a mutator has at hand: null, or to an object that can be reached or was not freed. -/
def AtHand (b : SimBinding) (s : World) (value : Option ObjectRef) : Prop :=
  ∀ object ∈ value, Reached b s object ∨ s.machine.env.heap.Unfreed object

theorem AtHand.unfreed {value : Option ObjectRef} (h : AtHand b s value) (nothing : NoDangling b s) :
    ∀ object ∈ value, s.machine.env.heap.Unfreed object :=
  fun object hobject => (h object hobject).elim nothing.unfreed id

/-- What happens to a world: a mutator's operation that returns, or a cycle that keeps what it links to. -/
inductive Step (b : SimBinding) (s s' : World) : Prop where
  | allocate {fields : UInt64} {object : ObjectRef}
      (hrun : (Binding.onMachine (Act.within groundPlace (Ground.allocate fields .plain))).run s = (.ok object, s'))
  | allocateReference {referent : Option ObjectRef} {object : ObjectRef} (hreferent : AtHand b s referent)
      (hrun : (Binding.onMachine (Act.within groundPlace (Ground.allocateReference referent))).run s =
        (.ok object, s'))
  | store {me : ThreadId} {tier : Tier} {d : Decorators} {source : ObjectRef} {slot : Slot} {operand : Operand}
      (hslot : (groundPlace.get s.machine).Tracks (cells b s) slot) (hwide : slot.isNarrow = false)
      (hvalue : AtHand b s operand.object)
      (hrun : (b.storeReference me tier d source slot operand).run s = (.ok (), s'))
  | setCell {cell : Slot} {value : Option ObjectRef} (hcell : cell ∈ cells b s) (hwide : cell.isNarrow = false)
      (hvalue : AtHand b s value)
      (hrun : (Binding.onMachine (Machine.poke (cell.store .identity value))).run s = (.ok (), s'))
  | addRoot {root : NewRoot} {value : Option ObjectRef} {cell : Slot}
      (hfresh : IsFresh b s s.machine.env.host.freshCell) (hvalue : AtHand b s value)
      (hrun : (Binding.onMachine (addRoot root value)).run s = (.ok cell, s'))
  | cycle {turns : List Nat} {me : ThreadId} {generation : UInt64} (can : CanCycle b turns me s)
      (kept : PendingKept b s)
      (hrun : (runCycle b turns me).run s = (.ok generation, s'))

section Histories

variable (uncompressed : options.compressedPointers = false) (sane : Sane (simBinding options codec range) s)
  (nothing : NoDangling (simBinding options codec range) s)
include uncompressed sane nothing

/-- No step makes a dangling pointer. -/
theorem Step.keeps (step : Step (simBinding options codec range) s s') :
    Sane (simBinding options codec range) s' ∧ NoDangling (simBinding options codec range) s' := by
  cases step with
  | allocate hrun => exact sane.allocate nothing hrun
  | allocateReference hreferent hrun => exact sane.allocateReference nothing (hreferent.unfreed nothing) hrun
  | store hslot hwide hvalue hrun => exact sane.store nothing hslot hwide (hvalue.unfreed nothing) hrun
  | setCell hcell hwide hvalue hrun =>
    obtain ⟨m, hmachine, rfl⟩ := Act.run_within_eq_ok.1 hrun
    cases (run_poke hwide _ s.machine).symm.trans hmachine
    exact sane.overwritten nothing (.inl hcell) hwide (hvalue.unfreed nothing) rfl rfl (.machine s _)
  | addRoot hfresh hvalue hrun => exact sane.addRoot nothing hfresh (hvalue.unfreed nothing) hrun
  | cycle can kept hrun =>
    obtain ⟨_, _, hleaves, sane', hnothing, -⟩ := cycle_leaves uncompressed sane nothing can
    cases hrun.symm.trans hleaves
    exact ⟨sane', hnothing kept⟩

/-- No history makes a dangling pointer. -/
theorem keeps_history (history : Relation.ReflTransGen (Step (simBinding options codec range)) s s') :
    Sane (simBinding options codec range) s' ∧ NoDangling (simBinding options codec range) s' := by
  induction history with
  | refl => exact ⟨sane, nothing⟩
  | tail _ step ih => exact step.keeps uncompressed ih.1 ih.2

end Histories

/-- Where nothing dangles, a cycle of a simulation without narrow references comes to its end, and nothing dangles then
if and only if it keeps what it links to, where no weak slot lies on a link. So nothing dangles after any history of
allocations, of stores and edits of roots with references that mutators have at hand, and of cycles that keep what they
link to. -/
theorem nothing_dangles_while_pending_kept {layout : Layout} (valid : layoutFacts.validate = .ok layout)
    (made : Binding.ofCodec options layout host (engine range) codec = .ok b)
    (uncompressed : options.compressedPointers = false) (sane : Sane b s) (nothing : NoDangling b s) :
    (∀ turns me, CanCycle b turns me s →
      ∃ generation s', (runCycle b turns me).run s = (.ok generation, s') ∧ Sane b s' ∧
        (PendingKept b s → NoDangling b s') ∧ (LinksClear s → NoDangling b s' → PendingKept b s)) ∧
    ∀ s', Relation.ReflTransGen (Step b) s s' → Sane b s' ∧ NoDangling b s' := by
  obtain rfl := ofCodec_eq valid made
  exact ⟨fun turns me can => cycle_leaves uncompressed sane nothing can,
    fun s' history => keeps_history uncompressed sane nothing history⟩

/-- A simulation begins with an empty heap and without roots. -/
def freshWorld (start other : Address) (registry : Registry SimMutator) : World :=
  { machine := ⟨.zero, { heap := { start }, other := { start := other } }⟩, registry }

theorem cells_freshWorld (start other : Address) (registry : Registry SimMutator) :
    cells b (freshWorld start other registry) = [] := by
  have hown (job : RootJob) :
      b.ownSlots (freshWorld start other registry).machine.env.host.walks registry job = [] := by
    cases job with
    | mutator id => rfl
    | category category =>
      cases category with
      | threadStacks => exact List.flatMap_eq_nil_iff.2 fun _ _ => rfl
      | classLoaderGraph =>
        rw [Binding.ownSlots]
        cases b.options.classUnloading <;> rfl
      | _ => rfl
  have htables : (freshWorld start other registry).codeTable.slots ++
      b.waiting (freshWorld start other registry).tables = [] := by
    unfold Binding.waiting
    split <;> rfl
  have hroots : rootCells b (freshWorld start other registry) = [] := by
    rw [rootCells, Binding.rootSlots, htables, List.append_nil]
    exact List.flatMap_eq_nil_iff.2 fun job _ => hown job
  rw [cells, hroots]
  rfl

/-- It is in order then, and nothing dangles. -/
theorem freshWorld_sane {start other : Address} {registry : Registry SimMutator}
    (hstart : start.toNat + 8 * heapWords ≤ 2 ^ 63)
    (hrange : ∀ found ∈ b.engine.heapRange, found = (start, Heap.limit { start }))
    (room : b.options.rootBufferCapacity ≤ EdgeBuffer.maxCapacity) (hregistry : registry.Sound) :
    Sane b (freshWorld start other registry) ∧ NoDangling b (freshWorld start other registry) := by
  have hcells := cells_freshWorld (b := b) start other registry
  have hroots : rootCells b (freshWorld start other registry) = [] := (List.append_eq_nil_iff.1 hcells).1
  have hnone (object : ObjectRef) : (freshWorld start other registry).machine.env.heap.get? object = none :=
    Std.ExtTreeMap.getElem?_empty
  have hfield (slot : Slot) : ¬(freshWorld start other registry).machine.env.heap.IsField slot := by
    rintro ⟨object, a, ha, -⟩
    rw [hnone] at ha
    cases ha
  have hholds (object : ObjectRef) : ¬(freshWorld start other registry).machine.env.heap.Holds object := by
    simp [Heap.Holds, hnone]
  constructor
  · constructor
    · rw [hcells]
      refine ⟨.empty hstart, by simp, by simp, ?_, fun object h => absurd h (hholds object), ?_⟩
      · rintro slot (hslot | hslot)
        · cases hslot
        · exact absurd hslot (hfield slot)
      · exact fun i _ _ => Memory.load_zero _ _
    · exact hrange
    · simp [freshWorld]
    · exact ⟨List.nodup_nil, List.nodup_nil, by simp [freshWorld, Binding.edgeSlots]⟩
    · rfl
    · exact room
    · exact hregistry
    · exact .empty
  · constructor
    · rw [hroots]
      simp
    · intro object hobject
      exact absurd hobject.holds (hholds object)

/-- The heap of the worlds below is empty at first. One collector thread is there. -/
def firstWorld : World :=
  freshWorld 0x20000 0x7e0000000000
    { collectors := ({} : Std.ExtTreeMap ThreadId CollectorKind).insert ⟨"g"⟩ .controller }

def firstBinding : SimBinding :=
  simBinding {} .identity (firstWorld.machine.env.heap.start, firstWorld.machine.env.heap.limit)

theorem firstWorld_sane : Sane firstBinding firstWorld ∧ NoDangling firstBinding firstWorld :=
  freshWorld_sane (by decide) (by simp [firstBinding, firstWorld, freshWorld, simBinding, engine]) (by decide)
    (by simp [Registry.Sound])

def allocatePlain : Act World ObjectRef := Binding.onMachine (Act.within groundPlace (Ground.allocate 0 .plain))

def allocateFor (referent : ObjectRef) : Act World ObjectRef :=
  Binding.onMachine (Act.within groundPlace (Ground.allocateReference (some referent)))

def rootFor (object : ObjectRef) : Act World Slot :=
  Binding.onMachine (addRoot (.table (.global .universe)) (some object))

/-- Give a referent and its reference object to the heap, and let a root lead to that. -/
def rooted (referent reference : ObjectRef) (s : World) : World :=
  ((rootFor reference).run ((allocateFor referent).run (allocatePlain.run s).2).2).2

theorem rooted_history {s₁ s₂ : World} {referent reference : ObjectRef} {cell : Slot}
    (hplain : allocatePlain.run s = (.ok referent, s₁)) (hreferent : s₁.machine.env.heap.Unfreed referent)
    (hreference : (allocateFor referent).run s₁ = (.ok reference, s₂))
    (hfound : s₂.machine.env.heap.Unfreed reference) (hfresh : IsFresh b s₂ s₂.machine.env.host.freshCell)
    (hroot : (rootFor reference).run s₂ = (.ok cell, s')) : Relation.ReflTransGen (Step b) s s' := by
  have hat {s : World} {object : ObjectRef} (h : s.machine.env.heap.Unfreed object) : AtHand b s (some object) := by
    rintro _ ⟨⟩
    exact .inr h
  have hfirst : Relation.ReflTransGen (Step b) s s₂ :=
    .tail (.single (.allocate hplain)) (.allocateReference (hat hreferent) hreference)
  exact hfirst.tail (.addRoot hfresh (hat hfound) hroot)

def firstReferent : ObjectRef := ⟨0x20000, by decide +kernel, by decide +kernel⟩

def firstReference : ObjectRef := ⟨0x20010, by decide +kernel, by decide +kernel⟩

/-- Nothing leads to the referent. -/
def rootedWorld : World := rooted firstReferent firstReference firstWorld

theorem rootedWorld_history : Relation.ReflTransGen (Step firstBinding) firstWorld rootedWorld :=
  rooted_history (Act.run_eq_ok (a := firstReferent) (by decide +kernel)) (by decide +kernel)
    (Act.run_eq_ok (a := firstReference) (by decide +kernel)) (by decide +kernel)
    ⟨by decide +kernel, by decide +kernel, by decide +kernel⟩ (Act.run_eq_ok (a := ⟨0x10000000⟩) (by decide +kernel))

/-- A stop has to wait for nobody. -/
theorem waits_of_nobody {r : HostSide} (h : r.parking.attached.toList = []) : Waits r := by
  intro thread hthread
  rw [← Std.ExtTreeSet.mem_toList, h] at hthread
  cases hthread

theorem rootedWorld_canCycle : CanCycle firstBinding [] ⟨"g"⟩ rootedWorld where
  collector := ⟨.controller, by decide +kernel⟩
  waits := waits_of_nobody (by decide +kernel)
  generation := by decide +kernel
  epoch := by decide +kernel
  distinct := by decide +kernel

theorem rootedWorld_pendingKept : PendingKept firstBinding rootedWorld := by
  have hnone : rootedWorld.machine.env.host.pending = none := by decide +kernel
  intro _ _ object hobject
  rw [hnone] at hobject
  cases hobject

/-- A cycle clears the referent and enqueues the reference object. Nothing dangles. -/
theorem enqueued_reference_kept :
    layoutFacts.validate = .ok simLayout ∧
      Binding.ofCodec {} simLayout host
        (engine (some (firstWorld.machine.env.heap.start, firstWorld.machine.env.heap.limit))) .identity =
          .ok firstBinding ∧
      firstBinding.options.compressedPointers = false ∧ Sane firstBinding rootedWorld ∧
      NoDangling firstBinding rootedWorld ∧
      ∃ s', (runCycle firstBinding [] ⟨"g"⟩).run rootedWorld = (.ok 1, s') ∧ NoDangling firstBinding s' ∧
        s'.machine.env.host.pending = some firstReference ∧ ¬s'.machine.env.heap.Unfreed firstReferent := by
  have made : Binding.ofCodec {} simLayout host
      (engine (some (firstWorld.machine.env.heap.start, firstWorld.machine.env.heap.limit))) .identity =
        .ok firstBinding := rfl
  obtain ⟨sane₀, nothing₀⟩ := firstWorld_sane
  obtain ⟨-, hhistory⟩ := nothing_dangles_while_pending_kept validate_layoutFacts made rfl sane₀ nothing₀
  obtain ⟨sane, nothing⟩ := hhistory rootedWorld rootedWorld_history
  refine ⟨validate_layoutFacts, made, rfl, sane, nothing, ?_⟩
  obtain ⟨hcycle, -⟩ := nothing_dangles_while_pending_kept validate_layoutFacts made rfl sane nothing
  obtain ⟨generation, s', hrun, -, hkept, -⟩ := hcycle [] ⟨"g"⟩ rootedWorld_canCycle
  have hfacts : ((runCycle firstBinding [] ⟨"g"⟩).run rootedWorld).1 = .ok 1 ∧
      ((runCycle firstBinding [] ⟨"g"⟩).run rootedWorld).2.machine.env.host.pending = some firstReference ∧
      ¬((runCycle firstBinding [] ⟨"g"⟩).run rootedWorld).2.machine.env.heap.Unfreed firstReferent := by
    decide +kernel
  rw [hrun] at hfacts
  obtain ⟨hgeneration, hpending, hfreed⟩ := hfacts
  cases hgeneration
  exact ⟨s', hrun, hkept rootedWorld_pendingKept, hpending, hfreed⟩

def secondReferent : ObjectRef := ⟨0x20030, by decide +kernel, by decide +kernel⟩

def secondReference : ObjectRef := ⟨0x20040, by decide +kernel, by decide +kernel⟩

/-- What is left when a cycle has enqueued the reference object and its root was cleared. -/
def droppedWorld : World :=
  ((Binding.onMachine (Machine.poke (Slot.store ⟨0x10000000⟩ .identity none))).run
    ((runCycle firstBinding [] ⟨"g"⟩).run rootedWorld).2).2

theorem droppedWorld_history : Relation.ReflTransGen (Step firstBinding) firstWorld droppedWorld := by
  have hcycle : Step firstBinding rootedWorld ((runCycle firstBinding [] ⟨"g"⟩).run rootedWorld).2 :=
    .cycle rootedWorld_canCycle rootedWorld_pendingKept (Act.run_eq_ok (a := 1) (by decide +kernel))
  have hcell : (⟨0x10000000⟩ : Slot) ∈
      cells firstBinding ((runCycle firstBinding [] ⟨"g"⟩).run rootedWorld).2 := by decide +kernel
  have hclear : Step firstBinding ((runCycle firstBinding [] ⟨"g"⟩).run rootedWorld).2 droppedWorld :=
    .setCell hcell (by decide) (fun _ h => by cases h) (Act.run_eq_ok (a := ()) (by decide +kernel))
  exact (rootedWorld_history.tail hcycle).tail hclear

/-- A root leads to a second reference object, whose referent nothing leads to either. Nothing leads to the first. -/
def danglingWorld : World := rooted secondReferent secondReference droppedWorld

theorem danglingWorld_history : Relation.ReflTransGen (Step firstBinding) firstWorld danglingWorld :=
  droppedWorld_history.trans <| rooted_history
    (Act.run_eq_ok (a := secondReferent) (by decide +kernel)) (by decide +kernel)
    (Act.run_eq_ok (a := secondReference) (by decide +kernel)) (by decide +kernel)
    ⟨by decide +kernel, by decide +kernel, by decide +kernel⟩ (Act.run_eq_ok (a := ⟨0x10000008⟩) (by decide +kernel))

/-- The first reference object is pending, and no root. The next cycle links the second to it, and frees it. -/
theorem pending_object_freed :
    Relation.ReflTransGen (Step firstBinding) firstWorld danglingWorld ∧ Sane firstBinding danglingWorld ∧
      NoDangling firstBinding danglingWorld ∧ CanCycle firstBinding [] ⟨"g"⟩ danglingWorld ∧
      ∃ s', (runCycle firstBinding [] ⟨"g"⟩).run danglingWorld = (.ok 2, s') ∧
        (fieldSlot secondReference 1).load .identity s'.machine.memory = .ok (some firstReference) ∧
        ¬s'.machine.env.heap.Unfreed firstReference ∧ ¬NoDangling firstBinding s' := by
  obtain ⟨sane₀, nothing₀⟩ := firstWorld_sane
  obtain ⟨sane, nothing⟩ := keeps_history rfl sane₀ nothing₀ danglingWorld_history
  have can : CanCycle firstBinding [] ⟨"g"⟩ danglingWorld :=
    { collector := ⟨.controller, by decide +kernel⟩
      waits := waits_of_nobody (by decide +kernel)
      generation := by decide +kernel
      epoch := by decide +kernel
      distinct := by decide +kernel }
  obtain ⟨s', hrun⟩ : ∃ s', (runCycle firstBinding [] ⟨"g"⟩).run danglingWorld = (.ok 2, s') :=
    ⟨_, Act.run_eq_ok (by decide +kernel)⟩
  have hfacts : (fieldSlot secondReference 1).load .identity
        ((runCycle firstBinding [] ⟨"g"⟩).run danglingWorld).2.machine.memory = .ok (some firstReference) ∧
      ¬((runCycle firstBinding [] ⟨"g"⟩).run danglingWorld).2.machine.env.heap.Unfreed firstReference ∧
      ((runCycle firstBinding [] ⟨"g"⟩).run danglingWorld).2.machine.env.heap.Unfreed secondReference ∧
      ((runCycle firstBinding [] ⟨"g"⟩).run danglingWorld).2.machine.env.heap.strongFields secondReference =
        .ok [fieldSlot secondReference 1] := by
    decide +kernel
  rw [hrun] at hfacts
  obtain ⟨hload, hfreed, hleft, hfields⟩ := hfacts
  refine ⟨danglingWorld_history, sane, nothing, can, s', hrun, hload, hfreed, ?_⟩
  intro nothing'
  obtain ⟨found, hfound, hall⟩ := nothing'.fields secondReference hleft _ hfields _ (List.mem_singleton_self _)
  cases hload.symm.trans hfound
  exact hfreed (hall firstReference rfl)

end Safepoint.Simulated
