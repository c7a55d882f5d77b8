import Mathlib.Data.List.Induction
import Safepoint.Proofs.Basic
import Safepoint.Proofs.Slot
import Safepoint.Weak.Update

/-!
# The fates of weak slots

What becomes of a weak slot follows from what it holds and from what the collector says of that. Where the collector
does not look into the slots it is asked about, an update brings each of them to its own end, and the order does not
matter.
-/
namespace Safepoint

variable {μ ε : Type}

namespace WeakOutcome

/-- What a slot with this fate holds in the end. Before, it held `found`. -/
def leaves (found : Option ObjectRef) : WeakOutcome → Option ObjectRef
  | .empty | .cleared => none
  | .kept => found
  | .forwarded target => some target

/-- The bits of a slot with this fate, which had the bits `before`. -/
def bits (codec : PointerCodec) (slot : Slot) (before : UInt64) : WeakOutcome → UInt64
  | .empty | .kept => before
  | .forwarded target => (slot.bits codec (some target)).toOption.getD before
  | .cleared => 0

/-- The slot has to be written. -/
def writes : WeakOutcome → Bool
  | .empty | .kept => false
  | .forwarded _ | .cleared => true

def isForwarded : WeakOutcome → Bool
  | .forwarded _ => true
  | _ => false

variable {outcome : WeakOutcome} {codec : PointerCodec} {slot : Slot} {before : UInt64}

theorem bits_of_not_writes (h : outcome.writes = false) : outcome.bits codec slot before = before := by
  cases outcome with
  | empty => rfl
  | kept => rfl
  | forwarded target => cases h
  | cleared => cases h

theorem bits_fit (h : before.toNat < 256 ^ slot.width) :
    (outcome.bits codec slot before).toNat < 256 ^ slot.width := by
  cases outcome with
  | empty => exact h
  | kept => exact h
  | cleared => exact Nat.pow_pos (by decide)
  | forwarded target =>
    cases hbits : slot.bits codec (some target) with
    | error cause => simpa [bits, hbits, Except.toOption] using h
    | ok found => simpa [bits, hbits, Except.toOption] using Slot.bits_fit hbits

/-- A slot with the bits of its fate holds what its fate leaves. -/
theorem reference_bits {found : Option ObjectRef} (hfound : slot.reference codec before = .ok found)
    (hempty : outcome = .empty → found = none)
    (hcarried : ∀ target, outcome = .forwarded target → slot.isNarrow = true → codec.Carries target) :
    slot.reference codec (outcome.bits codec slot before) = .ok (outcome.leaves found) := by
  cases outcome with
  | empty =>
    rw [bits, hfound, hempty rfl]
    rfl
  | kept => exact hfound
  | cleared =>
    unfold bits Slot.reference
    split
    · exact PointerCodec.decode_zero codec
    · exact ObjectRef.ofBits_zero
  | forwarded target =>
    obtain ⟨stored, hstored, hback⟩ := Slot.bits_of_carries (hcarried target rfl)
    simp only [bits, hstored, Except.toOption, Option.getD_some]
    exact hback

end WeakOutcome

namespace WeakStats

/-- The numbers of a list of fates. -/
structure Counts (stats : WeakStats) (outcomes : List WeakOutcome) : Prop where
  visited : stats.visited = outcomes.length
  kept : stats.kept = outcomes.countP (· = .kept)
  forwarded : stats.forwarded = outcomes.countP WeakOutcome.isForwarded
  cleared : stats.cleared = outcomes.countP (· = .cleared)

theorem Counts.nil : Counts {} [] := ⟨rfl, rfl, rfl, rfl⟩

theorem Counts.record {stats : WeakStats} {outcomes : List WeakOutcome} (h : stats.Counts outcomes)
    (outcome : WeakOutcome) : (stats.record outcome).Counts (outcomes ++ [outcome]) := by
  obtain ⟨hvisited, hkept, hforwarded, hcleared⟩ := h
  cases outcome <;>
    exact ⟨by simp [WeakStats.record, hvisited], by simp [WeakStats.record, hkept],
      by simp [WeakStats.record, hforwarded, WeakOutcome.isForwarded], by simp [WeakStats.record, hcleared]⟩

end WeakStats

namespace Engine

/-- The collector answers on the one machine as on the other. -/
structure Agrees (engine : Engine μ ε) (m m' : Machine ε) : Prop where
  forwarded : ∀ object, engine.forwarded m' object = engine.forwarded m object
  isLive : ∀ object, engine.isLive m' object = engine.isLive m object
  referenceCount : ∀ object, engine.referenceCount m' object = engine.referenceCount m object

/-- The collector gives the same answers whatever the slots hold. -/
def Unswayed (engine : Engine μ ε) (slots : List Slot) (m : Machine ε) : Prop :=
  ∀ memory, m.memory.SameApart slots memory → engine.Agrees m { m with memory }

theorem Agrees.refl (engine : Engine μ ε) (m : Machine ε) : engine.Agrees m m :=
  ⟨fun _ => rfl, fun _ => rfl, fun _ => rfl⟩

theorem Unswayed.mono {engine : Engine μ ε} {slots more : List Slot} {m : Machine ε} (h : engine.Unswayed more m)
    (hsub : slots ⊆ more) : engine.Unswayed slots m := fun memory hmemory => h memory (hmemory.mono hsub)

end Engine

namespace WeakTest

section Fate

variable (test : WeakTest μ ε) (m : Machine ε)

/-- Where references are counted, what is not in the heap is not asked about. -/
def Outside (object : ObjectRef) : Prop := test.mode = .referenceCounting ∧ test.inHeap object = false

instance (object : ObjectRef) : Decidable (test.Outside object) := inferInstanceAs (Decidable (_ ∧ _))

/-- What the mode asks of an object that stays where it is. -/
def counts (object : ObjectRef) : Bool :=
  match test.mode with
  | .tracing => test.engine.isLive m object
  | .referenceCounting => 0 < test.engine.referenceCount m object

/-- What is to become of a slot that holds `found`. -/
def fate : Option ObjectRef → WeakOutcome
  | none => .empty
  | some object =>
    if test.Outside object then .cleared
    else match test.engine.forwarded m object with
      | .ok (some target) => .forwarded target
      | _ => if test.counts m object then .kept else .cleared

/-- What is to become of a slot. -/
def outcome (slot : Slot) : WeakOutcome := test.fate m (slot.load test.codec m.memory).toOption.join

/-- The collector can say whether the object was moved, if it is asked. -/
def Answers (object : ObjectRef) : Prop := ¬test.Outside object → ∃ target, test.engine.forwarded m object = .ok target

end Fate

variable {test : WeakTest μ ε} {m m' : Machine ε} {slot : Slot} {slots more : List Slot} {found : Option ObjectRef}
  {object : ObjectRef}

theorem fate_eq_empty : test.fate m found = .empty ↔ found = none := by
  cases found with
  | none => simp [fate]
  | some object =>
    simp only [fate, reduceCtorEq, iff_false]
    split
    · simp
    · split
      · simp
      · split <;> simp

theorem fate_of_outside (h : test.Outside object) : test.fate m (some object) = .cleared := by
  rw [fate, if_pos h]

theorem fate_of_moved {target : ObjectRef} (h : ¬test.Outside object)
    (htarget : test.engine.forwarded m object = .ok (some target)) :
    test.fate m (some object) = .forwarded target := by
  simp [fate, h, htarget]

theorem fate_of_stays (h : ¬test.Outside object) (hstays : test.engine.forwarded m object = .ok none) :
    test.fate m (some object) = if test.counts m object then .kept else .cleared := by
  simp [fate, h, hstays]

theorem fate_congr (h : test.engine.Agrees m m') (found : Option ObjectRef) :
    test.fate m' found = test.fate m found := by
  cases found with
  | none => rfl
  | some object =>
    have hcounts : test.counts m' object = test.counts m object := by
      unfold counts
      rw [h.isLive, h.referenceCount]
    simp only [fate, h.forwarded, hcounts]

theorem Answers.congr (h : test.engine.Agrees m m') (hanswers : test.Answers m object) : test.Answers m' object := by
  intro hinside
  rw [h.forwarded]
  exact hanswers hinside

theorem outcome_of_load (h : slot.load test.codec m.memory = .ok found) : test.outcome m slot = test.fate m found := by
  rw [outcome, h]
  rfl

theorem isAlive_congr (h : test.engine.Agrees m m') (object : ObjectRef) :
    test.isAlive m' object = test.isAlive m object := by
  unfold isAlive
  rw [h.forwarded, h.isLive, h.referenceCount]

/-- The test finds dead what has to be cleared, and nothing else. -/
theorem isAlive_eq (h : test.Answers m object) :
    test.isAlive m object = .ok (decide (test.fate m (some object) ≠ .cleared)) := by
  by_cases hout : test.Outside object
  · simp [isAlive, hout.1, hout.2, fate_of_outside hout, pure, Except.pure]
  · have hasked : test.isAlive m object = (test.engine.forwarded m object).map
        fun target => target.isSome || test.counts m object := by
      unfold isAlive counts
      cases hmode : test.mode with
      | tracing =>
        cases test.engine.forwarded m object with
        | error cause => rfl
        | ok target => cases target <;> rfl
      | referenceCounting =>
        have hinside : test.inHeap object = true := by simpa [Outside, hmode] using hout
        rw [hinside]
        cases test.engine.forwarded m object with
        | error cause => rfl
        | ok target => cases target <;> rfl
    obtain ⟨target, htarget⟩ := h hout
    rw [hasked, htarget]
    cases target with
    | some target => simp [fate_of_moved hout htarget, Except.map]
    | none =>
      rw [fate_of_stays hout htarget]
      cases test.counts m object <;> rfl

/-- Of a dead object nothing is left, and of one that is alive, the place where it is now. -/
theorem leaves_eq (h : test.Answers m object) :
    test.isAlive m object = .ok false ∧ (test.fate m (some object)).leaves (some object) = none ∨
      ∃ target, test.engine.forwarded m object = .ok target ∧ test.isAlive m object = .ok true ∧
        (test.fate m (some object)).leaves (some object) = some (target.getD object) := by
  rw [isAlive_eq h]
  by_cases hout : test.Outside object
  · left
    simp [fate_of_outside hout, WeakOutcome.leaves]
  · obtain ⟨target, htarget⟩ := h hout
    cases target with
    | some target =>
      right
      exact ⟨some target, htarget, by simp [fate_of_moved hout htarget], by rw [fate_of_moved hout htarget]; rfl⟩
    | none =>
      rw [fate_of_stays hout htarget]
      cases hcounts : test.counts m object with
      | false =>
        left
        simp [WeakOutcome.leaves]
      | true =>
        right
        exact ⟨none, htarget, by simp, rfl⟩

/-- An object that is alive where it is leaves its slot alone. -/
theorem writes_of_stays (hstays : test.engine.forwarded m object = .ok none)
    (halive : test.isAlive m object = .ok true) : (test.fate m (some object)).writes = false := by
  rw [isAlive_eq fun _ => ⟨none, hstays⟩] at halive
  have hspared : test.fate m (some object) ≠ .cleared := of_decide_eq_true (Except.ok.inj halive)
  have hinside : ¬test.Outside object := fun hout => hspared (fate_of_outside hout)
  rw [fate_of_stays hinside hstays] at hspared ⊢
  cases hcounts : test.counts m object with
  | true => rfl
  | false => simp [hcounts] at hspared

/-- Do what a fate demands. -/
def meet (test : WeakTest μ ε) (slot : Slot) (outcome : WeakOutcome) : Act (Machine ε) WeakOutcome := do
  match outcome with
  | .empty | .kept => return outcome
  | .forwarded target =>
    Machine.poke (slot.store test.codec (some target))
    return outcome
  | .cleared =>
    Machine.poke fun m => .ok (slot.clear m)
    return outcome

/-- An update of a slot that can be read, and whose object the collector can be asked about. -/
theorem run_updateSlot_eq_meet (hload : slot.load test.codec m.memory = .ok found)
    (hanswers : ∀ object ∈ found, test.Answers m object) :
    (test.updateSlot slot).run m = (test.meet slot (test.fate m found)).run m := by
  have hpeek : (Machine.peek (slot.load test.codec)).run m = (.ok found, m) := by
    simp [Machine.peek, hload]
  unfold updateSlot
  rw [Act.run_bind_ok hpeek]
  cases found with
  | none => rfl
  | some object =>
    have hanswer := hanswers object rfl
    by_cases hout : test.Outside object
    · have hguard : test.mode = .referenceCounting ∧ (!test.inHeap object) = true := by simp [hout.1, hout.2]
      simp only [hguard, and_self, if_true, fate_of_outside hout]
      rfl
    · have hguard : ¬(test.mode = .referenceCounting ∧ (!test.inHeap object) = true) := by
        simpa [Outside] using hout
      obtain ⟨target, htarget⟩ := hanswer hout
      have hask : (Act.read fun m => test.engine.forwarded m object).run m = (.ok target, m) := by
        simp [htarget]
      simp only [hguard, if_false]
      rw [Act.run_bind_ok hask]
      cases target with
      | some target =>
        rw [fate_of_moved hout htarget]
        rfl
      | none =>
        have hlook : (Act.read fun m => test.isAlive m object).run m =
            (.ok (decide (test.fate m (some object) ≠ .cleared)), m) := by
          simp [isAlive_eq hanswer]
        dsimp only
        rw [Act.run_bind_ok hlook, fate_of_stays hout htarget]
        cases test.counts m object <;> rfl

/-- The slot takes the bits of its fate. -/
theorem run_meet {outcome : WeakOutcome}
    (hcarried : ∀ target, outcome = .forwarded target → slot.isNarrow = true → test.codec.Carries target) :
    (test.meet slot outcome).run m = (.ok outcome, { m with
      memory := slot.storeBits (outcome.bits test.codec slot (slot.loadBits m.memory)) m.memory }) := by
  have hsame : slot.storeBits (slot.loadBits m.memory) m.memory = m.memory := slot.storeBits_loadBits m.memory
  cases outcome with
  | empty =>
    rw [WeakOutcome.bits, hsame]
    rfl
  | kept =>
    rw [WeakOutcome.bits, hsame]
    rfl
  | cleared => rfl
  | forwarded target =>
    obtain ⟨stored, hstored, -⟩ := Slot.bits_of_carries (hcarried target rfl)
    have hpoke : (Machine.poke (slot.store test.codec (some target))).run m =
        (.ok (), { m with memory := slot.storeBits stored m.memory }) := by
      simp [Machine.poke, Slot.store, hstored, Except.map]
    simp only [WeakOutcome.bits, hstored, Except.toOption, Option.getD_some]
    exact Act.run_bind_ok hpoke

/-- A slot that does not have to be written is left alone. -/
theorem run_updateSlot_of_rest (hload : slot.load test.codec m.memory = .ok found)
    (hanswers : ∀ object ∈ found, test.Answers m object) (hrest : (test.fate m found).writes = false) :
    (test.updateSlot slot).run m = (.ok (test.fate m found), m) := by
  have hcarried : ∀ target, test.fate m found = .forwarded target → slot.isNarrow = true →
      test.codec.Carries target := by
    intro target htarget
    rw [htarget] at hrest
    cases hrest
  rw [run_updateSlot_eq_meet hload hanswers, run_meet hcarried, WeakOutcome.bits_of_not_writes hrest,
    slot.storeBits_loadBits]

theorem updateAll_cons (stats : WeakStats) (slot : Slot) (slots : List Slot) : test.updateAll stats (slot :: slots) =
    test.updateSlot slot >>= fun outcome => test.updateAll (stats.record outcome) slots := by
  simp only [updateAll, List.foldlM_cons, bind_assoc, pure_bind]

theorem updateAll_concat (stats : WeakStats) (slots : List Slot) (slot : Slot) :
    test.updateAll stats (slots ++ [slot]) = test.updateAll stats slots >>= fun stats =>
      test.updateSlot slot >>= fun outcome => pure (stats.record outcome) := by
  simp [updateAll]

/-- Slots can be read if all of them were. -/
theorem readable_of_map {codec : PointerCodec} {memory : Memory} {founds : List (Option ObjectRef)}
    (h : slots.map (fun slot => slot.load codec memory) = founds.map .ok) :
    ∀ slot ∈ slots, ∃ found, slot.load codec memory = .ok found := by
  intro slot hslot
  have hmem : slot.load codec memory ∈ slots.map fun slot => slot.load codec memory := List.mem_map_of_mem hslot
  rw [h] at hmem
  obtain ⟨found, -, hfound⟩ := List.mem_map.1 hmem
  exact ⟨found, hfound.symm⟩

/-- What an update relies on: the collector answers, and does not look into the slots for it; each slot is null or
holds an object; and where the object of a narrow slot was moved to, the codec carries. -/
structure Updatable (test : WeakTest μ ε) (slots : List Slot) (m : Machine ε) : Prop where
  unswayed : test.engine.Unswayed slots m
  readable : ∀ slot ∈ slots, ∃ found, slot.load test.codec m.memory = .ok found
  answers : ∀ slot ∈ slots, ∀ object, slot.load test.codec m.memory = .ok (some object) → test.Answers m object
  carried : ∀ slot ∈ slots, slot.isNarrow = true → ∀ target, test.outcome m slot = .forwarded target →
    test.codec.Carries target

theorem Updatable.mono (h : test.Updatable more m) (hsub : slots ⊆ more) : test.Updatable slots m :=
  ⟨h.unswayed.mono hsub, fun slot hslot => h.readable slot (hsub hslot), fun slot hslot => h.answers slot (hsub hslot),
    fun slot hslot => h.carried slot (hsub hslot)⟩

/-- The bits with which a slot ends up. -/
def bitsLeft (test : WeakTest μ ε) (m : Machine ε) (slot : Slot) : UInt64 :=
  (test.outcome m slot).bits test.codec slot (slot.loadBits m.memory)

/-- Each of the slots has met its fate, and nothing lies changed outside of them. -/
structure Settles (test : WeakTest μ ε) (slots : List Slot) (m : Machine ε) (memory : Memory) : Prop where
  inside : ∀ slot ∈ slots, slot.loadBits memory = test.bitsLeft m slot
  outside : m.memory.SameApart slots memory

/-- Slots that stay as they are once they have met their fates: what was left in them is not moved, and not dead. -/
def AtRest (test : WeakTest μ ε) (slots : List Slot) (m : Machine ε) : Prop :=
  ∀ slot ∈ slots, ∀ found, slot.load test.codec m.memory = .ok found →
    (test.fate m ((test.fate m found).leaves found)).writes = false ∧
      ∀ object ∈ (test.fate m found).leaves found, test.Answers m object

namespace Settles

variable {memory memory' : Memory}

theorem nil : test.Settles [] m m.memory := ⟨by simp, .refl _ _⟩

/-- The order of the slots, and how often each of them occurs, makes no difference. -/
theorem congr (h : test.Settles slots m memory) (hmem : ∀ slot, slot ∈ more ↔ slot ∈ slots) :
    test.Settles more m memory :=
  ⟨fun slot hslot => h.inside slot ((hmem slot).1 hslot), h.outside.mono fun slot hslot => (hmem slot).2 hslot⟩

/-- There is one memory in which all have met their fates. -/
theorem unique (h : test.Settles slots m memory) (h' : test.Settles slots m memory') : memory' = memory :=
  h.outside.ext h'.outside fun slot hslot => (h'.inside slot hslot).trans (h.inside slot hslot).symm

/-- What the slots hold in the end. -/
theorem load (h : test.Settles slots m memory) (hupdatable : test.Updatable slots m) (hslot : slot ∈ slots)
    (hload : slot.load test.codec m.memory = .ok found) :
    slot.load test.codec memory = .ok ((test.fate m found).leaves found) := by
  have hcarried := hupdatable.carried slot hslot
  rw [outcome_of_load hload] at hcarried
  rw [Slot.load, h.inside slot hslot, bitsLeft, outcome_of_load hload]
  exact WeakOutcome.reference_bits hload fate_eq_empty.1 fun target htarget hnarrow => hcarried hnarrow target htarget

/-- Bytes that are in no slot that had to be written are as they were. -/
theorem spared (h : test.Settles slots m memory) :
    m.memory.SameApart (slots.filter fun slot => (test.outcome m slot).writes) memory := by
  intro a ha
  by_cases hcovered : ∃ slot ∈ slots, slot.Covers a
  · obtain ⟨slot, hslot, hcovers⟩ := hcovered
    have hkept : (test.outcome m slot).writes = false := by
      cases hwrites : (test.outcome m slot).writes with
      | false => rfl
      | true => exact absurd hcovers (ha slot (List.mem_filter.2 ⟨hslot, hwrites⟩))
    have hbits : slot.loadBits memory = slot.loadBits m.memory :=
      (h.inside slot hslot).trans (WeakOutcome.bits_of_not_writes hkept)
    exact Memory.byte_eq_of_load slot.width_le hbits hcovers.1 hcovers.2
  · exact h.outside a fun slot hslot hcovers => hcovered ⟨slot, hslot, hcovers⟩

/-- The slot that comes next meets its fate. -/
theorem next (h : test.Settles slots m memory) (hupdatable : test.Updatable (slots ++ [slot]) m)
    (hapart : ∀ other ∈ slots, other.Apart slot) :
    ∃ memory', (test.updateSlot slot).run { m with memory } = (.ok (test.outcome m slot), { m with memory := memory' }) ∧
      test.Settles (slots ++ [slot]) m memory' := by
  have hslot : slot ∈ slots ++ [slot] := List.mem_append_right _ (List.mem_singleton_self slot)
  have hagrees : test.engine.Agrees m { m with memory } :=
    hupdatable.unswayed memory (h.outside.mono (List.subset_append_left ..))
  obtain ⟨found, hload⟩ := hupdatable.readable slot hslot
  have hbits : slot.loadBits memory = slot.loadBits m.memory := h.outside.loadBits hapart
  have hfate : test.fate { m with memory } found = test.outcome m slot := by
    rw [fate_congr hagrees, outcome_of_load hload]
  have hanswers : ∀ object ∈ found, test.Answers { m with memory } object := by
    rintro object rfl
    exact (hupdatable.answers slot hslot object hload).congr hagrees
  refine ⟨slot.storeBits (test.bitsLeft m slot) memory, ?_, ?_, ?_⟩
  · rw [run_updateSlot_eq_meet (m := { m with memory }) ((Slot.load_congr hbits).trans hload) hanswers, hfate,
      run_meet fun target htarget hnarrow => hupdatable.carried slot hslot hnarrow target htarget, bitsLeft, ← hbits]
  · intro other hother
    obtain hother | hother := List.mem_append.1 hother
    · rw [Slot.loadBits_storeBits_of_apart (hapart other hother).symm]
      exact h.inside other hother
    · rw [List.mem_singleton.1 hother]
      exact Slot.loadBits_storeBits_of_lt (WeakOutcome.bits_fit (slot.loadBits_lt _)) memory
  · exact (h.outside.mono (List.subset_append_left ..)).trans
      ((Memory.sameApart_storeBits slot _ memory).mono (List.subset_append_right ..))

/-- A slot that comes again is left alone. -/
theorem again (h : test.Settles slots m memory) (hupdatable : test.Updatable slots m) (hrest : test.AtRest slots m)
    (hslot : slot ∈ slots) :
    (∃ outcome, outcome.writes = false ∧
      (test.updateSlot slot).run { m with memory } = (.ok outcome, { m with memory })) ∧
      test.Settles (slots ++ [slot]) m memory := by
  have hagrees : test.engine.Agrees m { m with memory } := hupdatable.unswayed memory h.outside
  obtain ⟨found, hload⟩ := hupdatable.readable slot hslot
  obtain ⟨hwrites, hanswers⟩ := hrest slot hslot found hload
  rw [← fate_congr hagrees] at hwrites
  have hupdate := run_updateSlot_of_rest (m := { m with memory }) (h.load hupdatable hslot hload)
    (fun object hobject => (hanswers object hobject).congr hagrees) hwrites
  exact ⟨⟨_, hwrites, hupdate⟩, h.congr (by simp [hslot])⟩

end Settles

/-- Slots that do not meet all meet their fates. Those that come again have to be at rest by then. -/
theorem Updatable.run_updateAll (h : test.Updatable slots m) (hseparate : slots.Pairwise Slot.Separate)
    (hrest : slots.Nodup ∨ test.AtRest slots m) :
    ∃ stats memory, (test.updateAll {} slots).run m = (.ok stats, { m with memory }) ∧ test.Settles slots m memory ∧
      (slots.Nodup → stats.Counts (slots.map (test.outcome m))) := by
  induction slots using List.reverseRecOn with
  | nil => exact ⟨{}, m.memory, rfl, .nil, fun _ => .nil⟩
  | append_singleton slots slot ih =>
    have hsub : slots ⊆ slots ++ [slot] := List.subset_append_left ..
    have hbefore := h.mono hsub
    obtain ⟨hslots, -, hnew⟩ := List.pairwise_append.1 hseparate
    have hrest' : slots.Nodup ∨ test.AtRest slots m :=
      hrest.imp (fun hnodup => (List.nodup_append.1 hnodup).1) fun hrest other hother => hrest other (hsub hother)
    obtain ⟨stats, memory, hrun, hsettles, hcounts⟩ := ih hbefore hslots hrest'
    rw [updateAll_concat, Act.run_bind_ok hrun]
    by_cases hagain : slot ∈ slots
    · have hdouble : ¬(slots ++ [slot]).Nodup := fun hnodup =>
        (List.nodup_append.1 hnodup).2.2 slot hagain slot (List.mem_singleton_self slot) rfl
      obtain ⟨⟨outcome, -, hupdate⟩, hsettles'⟩ :=
        hsettles.again hbefore (fun other hother => hrest.resolve_left hdouble other (hsub hother)) hagain
      exact ⟨_, memory, Act.run_bind_ok hupdate, hsettles', fun hnodup => absurd hnodup hdouble⟩
    · have hapart : ∀ other ∈ slots, other.Apart slot := by
        intro other hother
        obtain rfl | hapart := hnew other hother slot (List.mem_singleton_self slot)
        · exact absurd hother hagain
        · exact hapart
      obtain ⟨memory', hupdate, hsettles'⟩ := hsettles.next h hapart
      refine ⟨_, memory', Act.run_bind_ok hupdate, hsettles', fun hnodup => ?_⟩
      rw [List.map_append]
      exact (hcounts (List.nodup_append.1 hnodup).1).record _

/-- What an update of slots comes to. -/
structure Updates (test : WeakTest μ ε) (slots : List Slot) (m : Machine ε) (stats : WeakStats) (memory : Memory) :
    Prop where
  /-- A slot that held `found` holds what its fate leaves. -/
  left : ∀ slot ∈ slots, ∀ found, slot.load test.codec m.memory = .ok found →
    slot.load test.codec memory = .ok ((test.fate m found).leaves found)
  /-- Only slots that are redirected or cleared are written, and nothing outside of them. -/
  spared : m.memory.SameApart (slots.filter fun slot => (test.outcome m slot).writes) memory
  /-- The statistics are those of the fates. -/
  counts : stats.Counts (slots.map (test.outcome m))

/-- Slots whose bytes do not meet are each brought up to date. -/
theorem Updatable.updates (h : test.Updatable slots m) (hapart : slots.Pairwise Slot.Apart) :
    ∃ stats memory, (test.updateAll {} slots).run m = (.ok stats, { m with memory }) ∧
      test.Updates slots m stats memory := by
  have hnodup : slots.Nodup := hapart.imp Slot.Apart.ne
  obtain ⟨stats, memory, hrun, hsettles, hcounts⟩ := h.run_updateAll (hapart.imp .inr) (.inl hnodup)
  have hleft : ∀ slot ∈ slots, ∀ found, slot.load test.codec m.memory = .ok found →
      slot.load test.codec memory = .ok ((test.fate m found).leaves found) :=
    fun slot hslot found hload => hsettles.load h hslot hload
  exact ⟨stats, memory, hrun, hleft, hsettles.spared, hcounts hnodup⟩

end WeakTest

end Safepoint
