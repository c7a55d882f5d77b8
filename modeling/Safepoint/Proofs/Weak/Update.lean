import Safepoint.Proofs.Weak.Fates

/-!
# Weak slots brought up to date

Where nothing was moved, an update clears slots and does nothing else. Afterwards each of the slots is null or holds a
live object.
-/
namespace Safepoint

namespace Slot

variable {slot other : Slot} {codec : PointerCodec} {m : Memory} {live : ObjectRef → Prop}

theorem load_clear_of_apart (h : slot.Apart other) : other.load codec (slot.clear m) = other.load codec m :=
  load_congr (loadBits_storeBits_of_apart h 0 m)

theorem load_clear_of_separate (codec : PointerCodec) (m : Memory) (h : slot.Separate other) :
    other.load codec (slot.clear m) = .ok none ∨ other.load codec (slot.clear m) = other.load codec m := by
  obtain rfl | hapart := h
  · left
    exact load_clear slot codec m
  · right
    exact load_clear_of_apart hapart

/-- The slot is null or holds a live object. -/
def NullOrLive (codec : PointerCodec) (live : ObjectRef → Prop) (m : Memory) (slot : Slot) : Prop :=
  ∃ found, slot.load codec m = .ok found ∧ ∀ object ∈ found, live object

instance (codec : PointerCodec) (live : ObjectRef → Prop) [DecidablePred live] (m : Memory) (slot : Slot) :
    Decidable (slot.NullOrLive codec live m) :=
  match h : slot.load codec m with
  | .ok found => decidable_of_iff (∀ object ∈ found, live object) (by simp [NullOrLive, h])
  | .error _ => isFalse (by simp [NullOrLive, h])

theorem NullOrLive.of_null (h : slot.load codec m = .ok none) : slot.NullOrLive codec live m :=
  ⟨none, h, by simp⟩

theorem NullOrLive.of_null_or_same {m' : Memory} (h : slot.NullOrLive codec live m)
    (hload : slot.load codec m' = .ok none ∨ slot.load codec m' = slot.load codec m) :
    slot.NullOrLive codec live m' := by
  obtain hnull | hsame := hload
  · exact .of_null hnull
  · unfold NullOrLive
    rw [hsame]
    exact h

theorem NullOrLive.mono {live' : ObjectRef → Prop} (h : slot.NullOrLive codec live m)
    (hlive : ∀ object, live object → live' object) : slot.NullOrLive codec live' m := by
  obtain ⟨found, hfound, hall⟩ := h
  exact ⟨found, hfound, fun object hobject => hlive object (hall object hobject)⟩

/-- A live object that is stored leaves the slot null or with a live object. -/
theorem NullOrLive.storeBits {value : Option ObjectRef} (h : other.NullOrLive codec live m)
    (hseparate : slot.Separate other) (hwide : slot.isNarrow = false) (hvalue : ∀ object ∈ value, live object) :
    other.NullOrLive codec live (slot.storeBits (refBits value) m) := by
  obtain rfl | hapart := hseparate
  · exact ⟨value, load_storeBits_of_wide hwide value m, hvalue⟩
  · exact h.of_null_or_same (.inr (load_congr (loadBits_storeBits_of_apart hapart _ m)))

end Slot

/-- What a collector that moves nothing says of an object. -/
structure Engine.Knows {μ ε : Type} (engine : Engine μ ε) (live : ObjectRef → Prop) (m : Machine ε)
    (object : ObjectRef) : Prop where
  isLive : engine.isLive m object = true ↔ live object
  stays : engine.forwarded m object = .ok none
  counted : 0 < engine.referenceCount m object → live object

/-- A collector knows what the weak slots hold. -/
def Engine.Settled {μ ε : Type} (engine : Engine μ ε) (codec : PointerCodec) (weak : Slot → Prop)
    (live : ObjectRef → Prop) (m : Machine ε) : Prop :=
  ∀ slot, weak slot → ∀ object, slot.load codec m.memory = .ok (some object) → engine.Knows live m object

namespace WeakTest

variable {μ ε : Type} {test : WeakTest μ ε} {live : ObjectRef → Prop} {m m' : Machine ε} {slot : Slot}
  {slots : List Slot}

def cleared (slot : Slot) (m : Machine ε) : Machine ε := { m with memory := slot.clear m.memory }

/-- Of an object that it knows, the test keeps what is live or clears it. -/
theorem fate_of_knows {object : ObjectRef} (h : test.engine.Knows live m object) :
    test.fate m (some object) = .kept ∧ live object ∨ test.fate m (some object) = .cleared := by
  by_cases hout : test.Outside object
  · exact .inr (fate_of_outside hout)
  · rw [fate_of_stays hout h.stays]
    cases hcounts : test.counts m object with
    | false => exact .inr rfl
    | true =>
      refine .inl ⟨rfl, ?_⟩
      unfold counts at hcounts
      split at hcounts
      · exact h.isLive.1 hcounts
      · exact h.counted (of_decide_eq_true hcounts)

theorem isAlive_spec (test : WeakTest μ ε) {object : ObjectRef} (h : test.engine.Knows live m object) :
    ∃ alive, test.isAlive m object = .ok alive ∧ (alive = true → live object) := by
  refine ⟨_, isAlive_eq fun _ => ⟨none, h.stays⟩, fun halive => ?_⟩
  obtain ⟨-, hlive⟩ | hcleared := fate_of_knows h
  · exact hlive
  · exact absurd hcleared (of_decide_eq_true halive)

/-- A slot is left alone if what it holds is live. -/
theorem run_updateSlot {found : Option ObjectRef} (hload : slot.load test.codec m.memory = .ok found)
    (hknown : ∀ object ∈ found, test.engine.Knows live m object) :
    ∃ outcome m', (test.updateSlot slot).run m = (.ok outcome, m') ∧
      (m' = m ∧ (∀ object ∈ found, live object) ∨ m' = cleared slot m) := by
  have hanswers : ∀ object ∈ found, test.Answers m object :=
    fun object hobject _ => ⟨none, (hknown object hobject).stays⟩
  cases found with
  | none => exact ⟨.empty, m, run_updateSlot_of_rest hload hanswers rfl, .inl ⟨rfl, by simp⟩⟩
  | some object =>
    obtain ⟨hkept, hlive⟩ | hcleared := fate_of_knows (hknown object rfl)
    · have hrest : (test.fate m (some object)).writes = false := by rw [hkept]; rfl
      exact ⟨_, m, run_updateSlot_of_rest hload hanswers hrest, .inl ⟨rfl, by simpa using hlive⟩⟩
    · have hrun := run_updateSlot_eq_meet hload hanswers
      rw [hcleared] at hrun
      exact ⟨_, _, hrun, .inr rfl⟩

theorem load_of_updateSlot {outcome : WeakOutcome} (h : (test.updateSlot slot).run m = (.ok outcome, m')) :
    ∃ found, slot.load test.codec m.memory = .ok found := by
  unfold updateSlot at h
  obtain ⟨found, s₁, hpeek, -⟩ := Act.run_bind_eq_ok.1 h
  cases hload : slot.load test.codec m.memory with
  | error cause => simp [Machine.peek, hload] at hpeek
  | ok found => exact ⟨found, rfl⟩

/-- What an update of slots does: some of them are cleared, and those that are left hold live objects. -/
structure Swept (codec : PointerCodec) (live : ObjectRef → Prop) (slots : List Slot) (m m' : Machine ε) : Prop where
  env : m'.env = m.env
  others : ∀ other, (∀ slot ∈ slots, slot.Separate other) →
    other.load codec m'.memory = .ok none ∨ other.load codec m'.memory = other.load codec m.memory
  updated : ∀ slot ∈ slots, slot.NullOrLive codec live m'.memory

theorem Swept.nil {codec : PointerCodec} : Swept codec live [] m m :=
  ⟨rfl, fun _ _ => .inr rfl, by simp⟩

theorem Swept.trans {codec : PointerCodec} {more : List Slot} {m₁ : Machine ε} (h : Swept codec live slots m m₁)
    (h' : Swept codec live more m₁ m') (hseparate : ∀ slot ∈ slots, ∀ other ∈ more, other.Separate slot) :
    Swept codec live (slots ++ more) m m' := by
  constructor
  · exact h'.env.trans h.env
  · intro other hother
    have hfirst := h.others other (fun slot hslot => hother slot (List.mem_append_left _ hslot))
    have hrest := h'.others other (fun slot hslot => hother slot (List.mem_append_right _ hslot))
    obtain hnull | hsame := hrest
    · left
      exact hnull
    · rw [hsame]
      exact hfirst
  · intro slot hslot
    obtain hslot | hslot := List.mem_append.1 hslot
    · have hload := h'.others slot (hseparate slot hslot)
      exact (h.updated slot hslot).of_null_or_same hload
    · exact h'.updated slot hslot

theorem swept_one {codec : PointerCodec} {found : Option ObjectRef} (hload : slot.load codec m.memory = .ok found)
    (h : m' = m ∧ (∀ object ∈ found, live object) ∨ m' = cleared slot m) : Swept codec live [slot] m m' := by
  obtain ⟨rfl, hlive⟩ | rfl := h
  · refine ⟨rfl, fun _ _ => .inr rfl, ?_⟩
    intro other hother
    rw [List.mem_singleton.1 hother]
    exact ⟨found, hload, hlive⟩
  · constructor
    · rfl
    · intro other hother
      exact Slot.load_clear_of_separate codec m.memory (hother slot (List.mem_singleton_self slot))
    · intro other hother
      rw [List.mem_singleton.1 hother]
      exact .of_null (Slot.load_clear slot codec m.memory)

/-- Slots that may be cleared, on machines that are `steady`, while a collector is asked about what they hold. -/
structure Clearable (engine : Engine μ ε) (codec : PointerCodec) (weak : Slot → Prop) (live : ObjectRef → Prop)
    (steady : Machine ε → Prop) : Prop where
  separate : ∀ slot other, weak slot → weak other → slot.Separate other
  settled : ∀ m, steady m → engine.Settled codec weak live m
  kept : ∀ slot m, weak slot → steady m → steady (cleared slot m)

variable {weak : Slot → Prop} {steady : Machine ε → Prop}

theorem Clearable.step (h : Clearable test.engine test.codec weak live steady) (hslot : weak slot) (hm : steady m)
    {found : Option ObjectRef} (hm' : m' = m ∧ (∀ object ∈ found, live object) ∨ m' = cleared slot m) : steady m' := by
  obtain ⟨rfl, -⟩ | rfl := hm'
  · exact hm
  · exact h.kept slot m hslot hm

/-- An update that returns has done its work. -/
theorem Clearable.swept (h : Clearable test.engine test.codec weak live steady) (hweak : ∀ slot ∈ slots, weak slot)
    (hm : steady m) {stats stats' : WeakStats} (hrun : (test.updateAll stats slots).run m = (.ok stats', m')) :
    steady m' ∧ Swept test.codec live slots m m' := by
  induction slots generalizing m stats with
  | nil =>
    obtain ⟨-, rfl⟩ : _ ∧ m = m' := by simpa [updateAll] using hrun
    exact ⟨hm, .nil⟩
  | cons slot slots ih =>
    have hslot := hweak slot (List.mem_cons_self ..)
    have hslots : ∀ other ∈ slots, weak other := fun other hother => hweak other (List.mem_cons_of_mem _ hother)
    rw [updateAll_cons] at hrun
    obtain ⟨outcome, m₁, hfirst, hrest⟩ := Act.run_bind_eq_ok.1 hrun
    obtain ⟨found, hload⟩ := load_of_updateSlot hfirst
    have hknown : ∀ object ∈ found, test.engine.Knows live m object := by
      rintro object rfl
      exact h.settled m hm slot hslot object hload
    obtain ⟨outcome', m₁', hfirst', hm₁⟩ := run_updateSlot hload hknown
    rw [hfirst] at hfirst'
    cases hfirst'
    obtain ⟨hm', hswept⟩ := ih hslots (h.step hslot hm hm₁) hrest
    refine ⟨hm', (swept_one hload hm₁).trans hswept ?_⟩
    intro first hfirst other hother
    rw [List.mem_singleton.1 hfirst]
    exact h.separate other slot (hslots other hother) hslot

/-- An update of slots that can all be read returns. -/
theorem Clearable.returns (h : Clearable test.engine test.codec weak live steady) (hweak : ∀ slot ∈ slots, weak slot)
    (hm : steady m) (hload : ∀ slot ∈ slots, ∃ found, slot.load test.codec m.memory = .ok found) (stats : WeakStats) :
    ∃ stats' m', (test.updateAll stats slots).run m = (.ok stats', m') := by
  induction slots generalizing m stats with
  | nil => exact ⟨stats, m, rfl⟩
  | cons slot slots ih =>
    have hslot := hweak slot (List.mem_cons_self ..)
    have hslots : ∀ other ∈ slots, weak other := fun other hother => hweak other (List.mem_cons_of_mem _ hother)
    obtain ⟨found, hfound⟩ := hload slot (List.mem_cons_self ..)
    have hknown : ∀ object ∈ found, test.engine.Knows live m object := by
      rintro object rfl
      exact h.settled m hm slot hslot object hfound
    obtain ⟨outcome, m₁, hfirst, hm₁⟩ := run_updateSlot hfound hknown
    have hload₁ : ∀ other ∈ slots, ∃ found, other.load test.codec m₁.memory = .ok found := by
      intro other hother
      have hsame := (swept_one hfound hm₁).others other
        (by simpa using h.separate slot other hslot (hslots other hother))
      obtain hnull | hsame := hsame
      · exact ⟨none, hnull⟩
      · rw [hsame]
        exact hload other (List.mem_cons_of_mem _ hother)
    obtain ⟨stats', m', hrest⟩ := ih hslots (h.step hslot hm hm₁) hload₁ (stats.record outcome)
    refine ⟨stats', m', ?_⟩
    rw [updateAll_cons, Act.run_bind_ok hfirst]
    exact hrest

/-- The test has nothing against the object, which stays where it is. -/
structure Keeps (test : WeakTest μ ε) (m : Machine ε) (object : ObjectRef) : Prop where
  stays : test.engine.forwarded m object = .ok none
  inside : test.mode = .referenceCounting → test.inHeap object = true
  alive : test.isAlive m object = .ok true

/-- A slot that is null or holds an object to be kept is not written. -/
theorem run_updateSlot_of_keeps {found : Option ObjectRef} (hload : slot.load test.codec m.memory = .ok found)
    (hkeeps : ∀ object ∈ found, test.Keeps m object) : ∃ outcome, (test.updateSlot slot).run m = (.ok outcome, m) := by
  refine ⟨_, run_updateSlot_of_rest hload (fun object hobject _ => ⟨none, (hkeeps object hobject).stays⟩) ?_⟩
  cases found with
  | none => rfl
  | some object => exact writes_of_stays (hkeeps object rfl).stays (hkeeps object rfl).alive

/-- Slots were brought up to date, and nothing else was: what is apart from them is as it was, and so is every slot
that was null or held a live object. -/
structure Updated (codec : PointerCodec) (live : ObjectRef → Prop) (slots : List Slot) (m m' : Memory) : Prop where
  bytes : ∀ a, m'.byte a = m.byte a ∨ m'.byte a = 0
  apart : ∀ other, (∀ slot ∈ slots, slot.Apart other) → other.loadBits m' = other.loadBits m
  others : ∀ other, (∀ slot ∈ slots, slot.Separate other) →
    other.load codec m' = .ok none ∨ other.load codec m' = other.load codec m
  spared : ∀ other, (∀ slot ∈ slots, slot.Separate other) → other.NullOrLive codec live m →
    other.load codec m' = other.load codec m
  updated : ∀ slot ∈ slots, slot.NullOrLive codec live m'

namespace Updated
variable {codec : PointerCodec} {n n' n₁ : Memory}

theorem nil : Updated codec live [] n n :=
  ⟨fun _ => .inl rfl, fun _ _ => rfl, fun _ _ => .inr rfl, fun _ _ _ => rfl, by simp⟩

theorem trans {more : List Slot} (h : Updated codec live slots n n₁) (h' : Updated codec live more n₁ n')
    (hseparate : ∀ slot ∈ slots, ∀ other ∈ more, other.Separate slot) : Updated codec live (slots ++ more) n n' := by
  have hleft {P : Slot → Prop} (hall : ∀ slot ∈ slots ++ more, P slot) : ∀ slot ∈ slots, P slot :=
    fun slot hslot => hall slot (List.mem_append_left _ hslot)
  have hright {P : Slot → Prop} (hall : ∀ slot ∈ slots ++ more, P slot) : ∀ slot ∈ more, P slot :=
    fun slot hslot => hall slot (List.mem_append_right _ hslot)
  constructor
  · intro a
    obtain hsame | hzero := h'.bytes a
    · rw [hsame]
      exact h.bytes a
    · exact .inr hzero
  · intro other hother
    exact (h'.apart other (hright hother)).trans (h.apart other (hleft hother))
  · intro other hother
    obtain hnull | hsame := h'.others other (hright hother)
    · exact .inl hnull
    · rw [hsame]
      exact h.others other (hleft hother)
  · intro other hother hlive
    have hfirst := h.spared other (hleft hother) hlive
    have hlive₁ : other.NullOrLive codec live n₁ := hlive.of_null_or_same (.inr hfirst)
    exact (h'.spared other (hright hother) hlive₁).trans hfirst
  · intro slot hslot
    obtain hslot | hslot := List.mem_append.1 hslot
    · exact (h.updated slot hslot).of_null_or_same (h'.others slot (hseparate slot hslot))
    · exact h'.updated slot hslot

/-- A slot was cleared that held a dead object. -/
theorem clear {object : ObjectRef} (hload : slot.load codec n = .ok (some object)) (hdead : ¬live object) :
    Updated codec live [slot] n (slot.clear n) := by
  constructor
  · intro a
    rw [Slot.clear, Slot.storeBits, Memory.byte_store]
    split
    · right
      simp [Memory.byteOf]
    · exact .inl rfl
  · intro other hother
    exact Slot.loadBits_storeBits_of_apart (hother slot (List.mem_singleton_self slot)) 0 n
  · intro other hother
    exact Slot.load_clear_of_separate codec n (hother slot (List.mem_singleton_self slot))
  · intro other hother hlive
    obtain rfl | hapart := hother slot (List.mem_singleton_self slot)
    · obtain ⟨found, hfound, hall⟩ := hlive
      rw [hload] at hfound
      cases hfound
      exact absurd (hall object rfl) hdead
    · exact Slot.load_clear_of_apart hapart
  · intro other hother
    rw [List.mem_singleton.1 hother]
    exact .of_null (Slot.load_clear slot codec n)

/-- A slot that holds nothing dead was left alone. -/
theorem kept (h : slot.NullOrLive codec live n) : Updated codec live [slot] n n := by
  refine ⟨fun _ => .inl rfl, fun _ _ => rfl, fun _ _ => .inr rfl, fun _ _ _ => rfl, ?_⟩
  intro other hother
  rw [List.mem_singleton.1 hother]
  exact h

end Updated

/-- An update that returns has done its work and no more, if the test has nothing against live objects. -/
theorem Clearable.updated (h : Clearable test.engine test.codec weak live steady) (hweak : ∀ slot ∈ slots, weak slot)
    (hkeeps : ∀ m, steady m → ∀ slot, weak slot → ∀ object, slot.load test.codec m.memory = .ok (some object) →
      live object → test.Keeps m object) (hm : steady m) {stats stats' : WeakStats}
    (hrun : (test.updateAll stats slots).run m = (.ok stats', m')) :
    Updated test.codec live slots m.memory m'.memory := by
  induction slots generalizing m stats with
  | nil =>
    obtain ⟨-, rfl⟩ : _ ∧ m = m' := by simpa [updateAll] using hrun
    exact .nil
  | cons slot slots ih =>
    have hslot := hweak slot (List.mem_cons_self ..)
    have hslots : ∀ other ∈ slots, weak other := fun other hother => hweak other (List.mem_cons_of_mem _ hother)
    rw [updateAll_cons] at hrun
    obtain ⟨outcome, m₁, hfirst, hrest⟩ := Act.run_bind_eq_ok.1 hrun
    obtain ⟨found, hload⟩ := load_of_updateSlot hfirst
    have hknown : ∀ object ∈ found, test.engine.Knows live m object := by
      rintro object rfl
      exact h.settled m hm slot hslot object hload
    obtain ⟨_, m₁', hfirst', hm₁⟩ := run_updateSlot hload hknown
    rw [hfirst] at hfirst'
    cases hfirst'
    have hone : Updated test.codec live [slot] m.memory m₁.memory := by
      obtain ⟨rfl, hlive⟩ | rfl := id hm₁
      · exact .kept ⟨found, hload, hlive⟩
      · -- A slot whose object is live is not cleared either.
        by_cases hdead : ∃ object ∈ found, ¬live object
        · obtain ⟨object, rfl, hdead⟩ := hdead
          exact .clear hload hdead
        · have hlive : ∀ object ∈ found, live object :=
            fun object hobject => Classical.not_not.1 fun h => hdead ⟨object, hobject, h⟩
          have hall : ∀ object ∈ found, test.Keeps m object := by
            rintro object rfl
            exact hkeeps m hm slot hslot object hload (hlive object rfl)
          obtain ⟨_, hsame⟩ := run_updateSlot_of_keeps hload hall
          rw [hfirst] at hsame
          have hmemory : slot.clear m.memory = m.memory := congrArg (fun p => p.2.memory) hsame
          change Updated test.codec live [slot] m.memory (slot.clear m.memory)
          rw [hmemory]
          exact .kept ⟨found, hload, hlive⟩
    have hothers := ih hslots (h.step hslot hm hm₁) hrest
    refine hone.trans hothers ?_
    intro first hfirst other hother
    rw [List.mem_singleton.1 hfirst]
    exact h.separate other slot (hslots other hother) hslot

end WeakTest

end Safepoint
