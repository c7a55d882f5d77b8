import Safepoint.Proofs.Weak.Fates

/-!
# Weak slots that are updated more than once

Where no object moves twice, a slot that was brought up to date stays as it is. So it does not matter in which order
slots are updated and whether some of them come again, and a second update does nothing.
-/
namespace Safepoint

/-- A collector that knows what is live, and leaves word of a move in the header of the object that was moved. -/
def Engine.plain (live : ObjectRef → Bool) : Engine Unit Unit where
  bind _ := pure ()
  writePre _ := pure ()
  writePost _ := pure ()
  copyPre _ := pure ()
  copyPost _ := pure ()
  requestCollection _ := pure ()
  isLive _ object := live object

/-- One that knows what was moved, too, and leaves nothing in memory. -/
def Engine.mover (moved : ObjectRef → Option ObjectRef) (live : ObjectRef → Bool) : Engine Unit Unit :=
  { Engine.plain live with forwarded := fun _ object => .ok (moved object) }

theorem Engine.mover_unswayed (moved : ObjectRef → Option ObjectRef) (live : ObjectRef → Bool) (slots : List Slot)
    (m : Machine Unit) : (mover moved live).Unswayed slots m := fun _ _ => ⟨fun _ => rfl, fun _ => rfl, fun _ => rfl⟩

namespace WeakTest

variable {μ ε : Type} {test : WeakTest μ ε} {m : Machine ε} {slots : List Slot}

/-- An object came to stay at `target`: it does not move on, it is alive, and the codec carries it. -/
structure Landed (test : WeakTest μ ε) (m : Machine ε) (target : ObjectRef) : Prop where
  stays : test.engine.forwarded m target = .ok none
  alive : test.isAlive m target = .ok true
  carried : test.codec.Carries target

/-- Objects that were moved have landed. -/
def Lands (test : WeakTest μ ε) (m : Machine ε) : Prop :=
  ∀ object target, test.engine.forwarded m object = .ok (some target) → test.Landed m target

theorem forwarded_of_fate {found : Option ObjectRef} {target : ObjectRef} (h : test.fate m found = .forwarded target) :
    ∃ object, found = some object ∧ test.engine.forwarded m object = .ok (some target) := by
  cases found with
  | none => cases h
  | some object =>
    by_cases hout : test.Outside object
    · rw [fate_of_outside hout] at h
      cases h
    · simp only [fate, if_neg hout] at h
      split at h
      · rename_i moved hmoved
        cases h
        exact ⟨object, rfl, hmoved⟩
      · split at h <;> cases h

theorem Lands.carried (h : test.Lands m) {slot : Slot} {target : ObjectRef}
    (htarget : test.outcome m slot = .forwarded target) : test.codec.Carries target := by
  obtain ⟨object, -, hmoved⟩ := forwarded_of_fate htarget
  exact (h object target hmoved).carried

/-- What a fate leaves in a slot gives no cause to write it again. -/
theorem Lands.atRest (h : test.Lands m)
    (hanswers : ∀ slot ∈ slots, ∀ object, slot.load test.codec m.memory = .ok (some object) → test.Answers m object) :
    test.AtRest slots m := by
  intro slot hslot found hload
  cases hfate : test.fate m found with
  | empty => exact ⟨rfl, by simp [WeakOutcome.leaves]⟩
  | cleared => exact ⟨rfl, by simp [WeakOutcome.leaves]⟩
  | kept =>
    refine ⟨by rw [WeakOutcome.leaves, hfate]; rfl, ?_⟩
    rintro object rfl
    exact hanswers slot hslot object hload
  | forwarded target =>
    obtain ⟨object, -, hmoved⟩ := forwarded_of_fate hfate
    have hlanded := h object target hmoved
    refine ⟨writes_of_stays hlanded.stays hlanded.alive, ?_⟩
    rintro _ ⟨⟩ -
    exact ⟨none, hlanded.stays⟩

/-- An update of slots of which none has to be written. -/
theorem run_updateAll_of_rest (h : ∀ slot ∈ slots, ∃ outcome : WeakOutcome, outcome.writes = false ∧
      (test.updateSlot slot).run m = (.ok outcome, m)) (stats : WeakStats) :
    ∃ stats', (test.updateAll stats slots).run m = (.ok stats', m) ∧ stats'.forwarded = stats.forwarded ∧
      stats'.cleared = stats.cleared := by
  induction slots generalizing stats with
  | nil => exact ⟨stats, rfl, rfl, rfl⟩
  | cons slot slots ih =>
    obtain ⟨outcome, hwrites, hfirst⟩ := h slot (List.mem_cons_self ..)
    obtain ⟨stats', hrun, hforwarded, hcleared⟩ :=
      ih (fun other hother => h other (List.mem_cons_of_mem _ hother)) (stats.record outcome)
    refine ⟨stats', ?_, ?_⟩
    · rw [updateAll_cons, Act.run_bind_ok hfirst]
      exact hrun
    · rw [hforwarded, hcleared]
      cases outcome with
      | empty => exact ⟨rfl, rfl⟩
      | kept => exact ⟨rfl, rfl⟩
      | forwarded target => cases hwrites
      | cleared => cases hwrites

/-- Slots that are null or hold objects, of which any two are the same or do not meet, and a collector that does not
look into them, with objects that moved at most once, to where they are alive and can be stored: one memory comes of an
update of these slots in any order and however often each of them occurs, and another update changes no byte of it, and
neither redirects nor clears a slot. -/
theorem updates_settle (hunswayed : test.engine.Unswayed slots m) (hlands : test.Lands m)
    (hreadable : ∀ slot ∈ slots, ∃ found, slot.load test.codec m.memory = .ok found)
    (hanswers : ∀ slot ∈ slots, ∀ object, slot.load test.codec m.memory = .ok (some object) → test.Answers m object)
    (hseparate : ∀ slot ∈ slots, ∀ other ∈ slots, slot.Separate other) :
    ∃ memory, ∀ others : List Slot, (∀ slot, slot ∈ others ↔ slot ∈ slots) →
      (∃ stats, (test.updateAll {} others).run m = (.ok stats, { m with memory })) ∧
      ∃ stats, (test.updateAll {} others).run { m with memory } = (.ok stats, { m with memory }) ∧
        stats.forwarded = 0 ∧ stats.cleared = 0 := by
  have hall : test.Updatable slots m := ⟨hunswayed, hreadable, hanswers, fun _ _ _ _ => hlands.carried⟩
  have hrest : test.AtRest slots m := hlands.atRest hanswers
  obtain ⟨-, memory, -, hsettles, -⟩ :=
    hall.run_updateAll (List.pairwise_of_forall_mem_list hseparate) (.inr hrest)
  refine ⟨memory, fun others hothers => ?_⟩
  have hsub : others ⊆ slots := fun slot hslot => (hothers slot).1 hslot
  have hothers' := hall.mono hsub
  have hrest' : test.AtRest others m := fun slot hslot => hrest slot (hsub hslot)
  have hpairwise : others.Pairwise Slot.Separate := List.pairwise_of_forall_mem_list fun slot hslot other hother =>
    hseparate slot (hsub hslot) other (hsub hother)
  obtain ⟨stats, memory', hrun, hsettles', -⟩ := hothers'.run_updateAll hpairwise (.inr hrest')
  obtain rfl : memory' = memory := hsettles.unique (hsettles'.congr fun slot => (hothers slot).symm)
  exact ⟨⟨stats, hrun⟩, run_updateAll_of_rest (fun slot hslot => (hsettles'.again hothers' hrest' hslot).1) {}⟩

def staying : ObjectRef := ⟨0x10001000, by decide, by decide⟩

def leaving : ObjectRef := ⟨0x10001800, by decide, by decide⟩

def arrived : ObjectRef := ⟨0x10002000, by decide, by decide⟩

def movedOnce (object : ObjectRef) : Option ObjectRef := if object = leaving then some arrived else none

theorem movedOnce_eq_some {object target : ObjectRef} (h : movedOnce object = some target) : target = arrived := by
  unfold movedOnce at h
  split at h
  · exact (Option.some.inj h).symm
  · cases h

theorem carries_arrived : PointerCodec.identity.Carries arrived :=
  ⟨0x10002000, by decide +kernel, by decide, by decide +kernel⟩

/-- A narrow slot that has to follow its object, a slot whose object stays, and one whose object is dead. -/
def threeSlots : List Slot := [.narrow 0x10000010, ⟨0x10000018⟩, ⟨0x10000020⟩]

def threeHeld : Memory :=
  ((Memory.zero.store 0x10000010 4 0x10001800).store 0x10000018 8 0x10001000).store 0x10000020 8 0x10003000

/-- The narrow slot follows its object, also where all three slots come once more in the opposite order. -/
theorem moved_object_followed_once :
    let test : WeakTest Unit Unit := ⟨.mover movedOnce fun object => object = staying ∨ object = arrived, .identity,
      .tracing⟩
    let m : Machine Unit := ⟨threeHeld, ()⟩
    let again := threeSlots ++ threeSlots.reverse
    test.engine.Unswayed threeSlots m ∧ test.Lands m ∧
      (∀ slot ∈ threeSlots, ∃ found, slot.load .identity threeHeld = .ok found) ∧
      (∀ slot ∈ threeSlots, ∀ object, slot.load .identity threeHeld = .ok (some object) → test.Answers m object) ∧
      (∀ slot ∈ threeSlots, ∀ other ∈ threeSlots, slot.Separate other) ∧
      ∃ memory, (Slot.narrow 0x10000010).load .identity memory = .ok (some arrived) ∧
        (∃ stats, (test.updateAll {} again).run m = (.ok stats, { m with memory })) ∧
        ∃ stats, (test.updateAll {} again).run { m with memory } = (.ok stats, { m with memory }) ∧
          stats.forwarded = 0 ∧ stats.cleared = 0 := by
  intro test m again
  have hunswayed : test.engine.Unswayed threeSlots m := Engine.mover_unswayed _ _ _ _
  have hlands : test.Lands m := by
    intro object target hmoved
    obtain rfl := movedOnce_eq_some (Except.ok.inj hmoved)
    exact ⟨by decide +kernel, by decide +kernel, carries_arrived⟩
  have hheld : threeSlots.map (fun slot => slot.load .identity threeHeld) =
      [some leaving, some staying, some ⟨0x10003000, by decide, by decide⟩].map .ok := by decide +kernel
  have hreadable := readable_of_map hheld
  have hanswers : ∀ slot ∈ threeSlots, ∀ object, slot.load .identity threeHeld = .ok (some object) →
      test.Answers m object := fun _ _ _ _ _ => ⟨_, rfl⟩
  have hseparate : ∀ slot ∈ threeSlots, ∀ other ∈ threeSlots, slot.Separate other := by decide +kernel
  obtain ⟨memory, hall⟩ := updates_settle hunswayed hlands hreadable hanswers hseparate
  obtain ⟨⟨stats, hfirst⟩, hsecond⟩ := hall again (by simp [again])
  have hmemory : ((test.updateAll {} again).run m).2.memory = memory := by rw [hfirst]
  refine ⟨hunswayed, hlands, hreadable, hanswers, hseparate, memory, ?_, ⟨stats, hfirst⟩, hsecond⟩
  rw [← hmemory]
  decide +kernel

/-- The first slot is the upper half of the header of an object that the second one holds. What it holds is taken for
word of a move until it is cleared. So the order of the two matters. -/
theorem slot_in_header_updated_first :
    let codec : PointerCodec := ⟨0, 3⟩
    let test : WeakTest Unit Unit := ⟨.plain fun object => object.address ∈ [0x10001000, 0x10002000], codec, .tracing⟩
    let header : Slot := .narrow 0x10001004
    let other : Slot := ⟨0x10000010⟩
    let m : Machine Unit :=
      ⟨(Memory.zero.store staying.address 8 0x0200000010002000).store other.address 8 0x10001000, ()⟩
    let first := (test.updateAll {} [header, other]).run m
    let last := (test.updateAll {} [other, header]).run m
    test.Lands m ∧ header.Apart other ∧
      header.load codec m.memory = .ok (some ⟨0x10000000, by decide, by decide⟩) ∧
      other.load codec m.memory = .ok (some staying) ∧
      first.1 = .ok ⟨2, 1, 0, 1⟩ ∧ last.1 = .ok ⟨2, 0, 1, 1⟩ ∧
      other.load codec first.2.memory = .ok (some staying) ∧
      other.load codec last.2.memory = .ok (some arrived) ∧ first.2.memory ≠ last.2.memory := by
  intro codec test header other m first last
  have hstays : other.load codec first.2.memory = .ok (some staying) := by decide +kernel
  have hfollows : other.load codec last.2.memory = .ok (some arrived) := by decide +kernel
  have hlands : test.Lands m := by
    intro object target hmoved
    have hmoved : (ForwardingWord.load object m.memory).target = .ok (some target) := hmoved
    by_cases hstaying : object = staying
    · have hword : (ForwardingWord.load staying m.memory).target = .ok (some arrived) := by decide +kernel
      rw [hstaying, hword] at hmoved
      cases hmoved
      exact ⟨by decide +kernel, by decide +kernel, 0x2000400, by decide +kernel, by decide, by decide +kernel⟩
    · -- No other word has anything in its top byte.
      have hunmoved : (ForwardingWord.load object m.memory).isForwarded = false := by
        unfold ForwardingWord.load
        by_cases hother : object.address = other.address
        · rw [hother]
          decide +kernel
        · have hheader : object.address ≠ staying.address := fun h => hstaying (ObjectRef.ext h)
          rw [Memory.load_store_of_ne (by decide) object.aligned_toNat hother,
            Memory.load_store_of_ne (by decide) object.aligned_toNat hheader, Memory.load_zero]
          rfl
      rw [ForwardingWord.target, hunmoved] at hmoved
      cases hmoved
  refine ⟨hlands, by decide, by decide +kernel, by decide +kernel, by decide +kernel, by decide +kernel, hstays,
    hfollows, fun hsame => ?_⟩
  rw [hsame, hfollows] at hstays
  exact absurd hstays (by decide)

end WeakTest

end Safepoint
