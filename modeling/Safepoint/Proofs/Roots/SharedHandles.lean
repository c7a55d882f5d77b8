import Safepoint.Proofs.Interleaving
import Safepoint.Proofs.Roots.WeakHandles

/-!
# Weak handles under many threads

To register a slot and to forget one each take two sections, one for the slots that are registered and one for the
nursery. The two are kept in step as long as nobody forgets a slot while a registration of it is between its sections.
A registration that is overtaken like this puts into the nursery a slot that is not registered, and the next taking of
the nursery hands it out.
-/
namespace Safepoint

/-- What a thread does next in its call on a table of weak handles. -/
inductive HandleStage where
  | registering (slot : Slot)
  | pushing (slot : Slot)
  | unregistering (slot : Slot)
  | erasing (slot : Slot)
  | taking
  deriving DecidableEq

namespace HandleStage

def ofCall : HandleCall → HandleStage
  | .register slot => .registering slot
  | .unregister slot => .unregistering slot
  | .take => .taking

/-- One section, under one lock, and what is left of the call. -/
def carryOut (handles : WeakHandles) : HandleStage → WeakHandles × Option HandleStage
  | registering slot =>
    let (new, handles) := handles.insertRegistered slot
    (handles, if new then some (.pushing slot) else none)
  | pushing slot => (handles.pushNursery slot, none)
  | unregistering slot =>
    let (known, handles) := handles.eraseRegistered slot
    (handles, if known then some (.erasing slot) else none)
  | erasing slot => (handles.eraseNursery slot, none)
  | taking => (handles.takeNursery.2, none)

end HandleStage

/-- A table of weak handles, and where each thread stands in its call on it. -/
abbrev SharedHandles := Shared WeakHandles HandleStage

namespace SharedHandles

open Shared HandleStage

/-- No lock is kept from one section to the next, so no section has to wait for long. -/
def sections : Sections HandleCall HandleStage WeakHandles where
  enter _ := .ofCall
  next handles stage := some (stage.carryOut handles)

/-- A thread takes the slot off those that are registered while a registration of it is between its sections. -/
def Overtakes (slot : Slot) (s : SharedHandles) (m : Move HandleCall) : Prop :=
  ∃ thread other, m = .go thread ∧ s.stages thread = some (.unregistering slot) ∧
    s.stages other = some (.pushing slot)

/-- Nobody who forgets the slot has still to clear the nursery of it. -/
def Cleared (slot : Slot) (s : SharedHandles) : Prop := ∀ thread, s.stages thread ≠ some (.erasing slot)

variable {handles : WeakHandles} {s s' : SharedHandles} {slot other : Slot} {thread thread' : ThreadId}
  {stage : HandleStage} {rest : Option HandleStage}

section Sections

theorem next_registering : sections.next handles (.registering slot) =
    some ({ handles with registered := handles.registered.insert slot },
      if slot ∈ handles.registered then none else some (.pushing slot)) := by
  by_cases h : slot ∈ handles.registered <;> simp [sections, carryOut, WeakHandles.insertRegistered, h]

theorem next_pushing : sections.next handles (.pushing slot) = some (handles.pushNursery slot, none) := rfl

theorem next_unregistering : sections.next handles (.unregistering slot) =
    some ({ handles with registered := handles.registered.erase slot },
      if slot ∈ handles.registered then some (.erasing slot) else none) := by
  by_cases h : slot ∈ handles.registered <;> simp [sections, carryOut, WeakHandles.eraseRegistered, h]

theorem next_erasing : sections.next handles (.erasing slot) = some (handles.eraseNursery slot, none) := rfl

theorem next_taking : sections.next handles .taking = some (handles.takeNursery.2, none) := rfl

/-- A call is the call of the table if nobody comes between its sections. -/
theorem leaves (handles : WeakHandles) (call : HandleCall) :
    sections.Leaves handles (sections.enter handles call) (call.after handles) := by
  cases call with
  | register slot =>
    by_cases h : slot ∈ handles.registered
    · refine .last (next_registering.trans ?_)
      simp [h, HandleCall.after, WeakHandles.register, WeakHandles.insertRegistered]
    · refine .more (next_registering.trans (by rw [if_neg h])) (.last (next_pushing.trans ?_))
      simp [h, HandleCall.after, WeakHandles.register, WeakHandles.insertRegistered]
  | unregister slot =>
    by_cases h : slot ∈ handles.registered
    · refine .more (next_unregistering.trans (by rw [if_pos h])) (.last (next_erasing.trans ?_))
      simp [h, HandleCall.after, WeakHandles.unregister, WeakHandles.eraseRegistered]
    · refine .last (next_unregistering.trans ?_)
      simp [h, HandleCall.after, WeakHandles.unregister, WeakHandles.eraseRegistered]
  | take => exact .last next_taking

theorem run_call (call : HandleCall) (h : s.stages thread = none) :
    ∃ n, run sections (.call thread call :: List.replicate n (.go thread)) s =
      some { s with value := call.after s.value } := run_alone (leaves s.value call) h

end Sections

/-- One slot whose registrations are not overtaken. Whoever is between the sections of one is alone there, and the slot
is registered. Unless the nursery is still to be cleared of the slot, it has it only if it is registered, and no more
than once, whoever is about to put it there counted in. -/
structure Guarded (slot : Slot) (s : SharedHandles) : Prop where
  pushed : ∀ thread, s.stages thread = some (.pushing slot) → slot ∈ s.value.registered
  single : ∀ thread thread', s.stages thread = some (.pushing slot) → s.stages thread' = some (.pushing slot) →
    thread = thread'
  kept : Cleared slot s → slot ∈ s.value.nursery → slot ∈ s.value.registered
  once : Cleared slot s → s.value.nursery.count slot ≤ 1
  absent : Cleared slot s → ∀ thread, s.stages thread = some (.pushing slot) → slot ∉ s.value.nursery

namespace Guarded

theorem fresh (slot : Slot) : Guarded slot ⟨{}, fun _ => none⟩ where
  pushed _ h := by cases h
  single _ _ h := by cases h
  kept _ h := by simp at h
  once _ := by simp
  absent _ _ h := by cases h

/-- A move after which nobody is about to put the slot into the nursery who was not before. -/
theorem settle (h : Guarded slot s) (hregistered : slot ∈ handles.registered ↔ slot ∈ s.value.registered)
    (hpushing : rest ≠ some (.pushing slot))
    (hnursery : Cleared slot (s.assign thread handles rest) → slot ∉ handles.nursery ∨
      Cleared slot s ∧ handles.nursery.count slot = s.value.nursery.count slot) :
    Guarded slot (s.assign thread handles rest) := by
  have hstage {other : ThreadId} (hother : (s.assign thread handles rest).stages other = some (.pushing slot)) :
      s.stages other = some (.pushing slot) := by
    obtain ⟨-, hrest⟩ | ⟨-, hother⟩ := assign_eq_some.1 hother
    · exact absurd hrest hpushing
    · exact hother
  have hcount (hin : slot ∈ handles.nursery) (heq : handles.nursery.count slot = s.value.nursery.count slot) :
      slot ∈ s.value.nursery := List.count_pos_iff.1 (heq ▸ List.count_pos_iff.2 hin)
  refine
    { pushed := fun other hother => hregistered.2 (h.pushed other (hstage hother))
      single := fun other other' hother hother' => h.single other other' (hstage hother) (hstage hother')
      kept := fun hc hin => ?_
      once := fun hc => ?_
      absent := fun hc other hother hin => ?_ }
  · obtain hnone | ⟨hc, heq⟩ := hnursery hc
    · exact absurd hin hnone
    · exact hregistered.2 (h.kept hc (hcount hin heq))
  · obtain hnone | ⟨hc, heq⟩ := hnursery hc
    · simp [List.count_eq_zero.2 hnone]
    · exact heq ▸ h.once hc
  · obtain hnone | ⟨hc, heq⟩ := hnursery hc
    · exact hnone hin
    · exact h.absent hc other (hstage hother) (hcount hin heq)

theorem cleared_of_assign (h : Cleared slot (s.assign thread handles rest))
    (hbefore : s.stages thread ≠ some (.erasing slot)) : Cleared slot s := by
  intro other hother
  refine h other (assign_eq_some.2 (.inr ⟨?_, hother⟩))
  rintro rfl
  exact hbefore hother

/-- A move that has nothing to do with the slot. -/
theorem aside (h : Guarded slot s) (hregistered : slot ∈ handles.registered ↔ slot ∈ s.value.registered)
    (hpushing : rest ≠ some (.pushing slot)) (hbefore : s.stages thread ≠ some (.erasing slot))
    (hcount : handles.nursery.count slot = s.value.nursery.count slot) :
    Guarded slot (s.assign thread handles rest) :=
  h.settle hregistered hpushing fun hc => .inr ⟨cleared_of_assign hc hbefore, hcount⟩

/-- The slot is registered, and a thread is about to put it into the nursery. -/
theorem register (h : Guarded slot s) (hstage : s.stages thread = some (.registering slot))
    (hnew : slot ∉ s.value.registered) :
    Guarded slot (s.assign thread { s.value with registered := s.value.registered.insert slot }
      (some (.pushing slot))) := by
  have hself : slot ∈ s.value.registered.insert slot := WeakHandles.mem_insert.2 (.inl rfl)
  have honly {other : ThreadId} (hother : (s.assign thread { s.value with
      registered := s.value.registered.insert slot } (some (.pushing slot))).stages other = some (.pushing slot)) :
      other = thread := by
    obtain ⟨heq, -⟩ | ⟨-, hother⟩ := assign_eq_some.1 hother
    · exact heq
    · exact absurd (h.pushed other hother) hnew
  have hbefore : s.stages thread ≠ some (.erasing slot) := by simp [hstage]
  exact
    { pushed := fun _ _ => hself
      single := fun _ _ hother hother' => (honly hother).trans (honly hother').symm
      kept := fun _ _ => hself
      once := fun hc => h.once (cleared_of_assign hc hbefore)
      absent := fun hc _ _ hin => hnew (h.kept (cleared_of_assign hc hbefore) hin) }

/-- The slot is in the nursery, and nobody else is about to put it there. -/
theorem push (h : Guarded slot s) (hstage : s.stages thread = some (.pushing slot)) :
    Guarded slot (s.assign thread (s.value.pushNursery slot) none) := by
  have hnobody {other : ThreadId} :
      (s.assign thread (s.value.pushNursery slot) none).stages other ≠ some (.pushing slot) := by
    intro hother
    obtain ⟨-, hnone⟩ | ⟨hne, hother⟩ := assign_eq_some.1 hother
    · cases hnone
    · exact hne (h.single other thread hother hstage)
  have hbefore : s.stages thread ≠ some (.erasing slot) := by simp [hstage]
  refine
    { pushed := fun _ hother => absurd hother hnobody
      single := fun _ _ hother => absurd hother hnobody
      kept := fun _ _ => h.pushed thread hstage
      once := fun hc => ?_
      absent := fun _ _ hother => absurd hother hnobody }
  have hnone := List.count_eq_zero.2 (h.absent (cleared_of_assign hc hbefore) thread hstage)
  simp [WeakHandles.pushNursery, hnone]

/-- The slot is no longer registered, and the nursery is to be cleared of it. -/
theorem unregister (hnobody : ∀ other, s.stages other ≠ some (.pushing slot)) :
    Guarded slot (s.assign thread handles (some (.erasing slot))) := by
  have hnobody {other : ThreadId} :
      (s.assign thread handles (some (.erasing slot))).stages other ≠ some (.pushing slot) := by
    intro hother
    obtain ⟨-, hrest⟩ | ⟨-, hother⟩ := assign_eq_some.1 hother
    · cases hrest
    · exact hnobody other hother
  have hdirty : ¬Cleared slot (s.assign thread handles (some (.erasing slot))) :=
    fun hc => hc thread (assign_eq_some.2 (.inl ⟨rfl, rfl⟩))
  exact
    { pushed := fun _ hother => absurd hother hnobody
      single := fun _ _ hother => absurd hother hnobody
      kept := fun hc => absurd hc hdirty
      once := fun hc => absurd hc hdirty
      absent := fun hc => absurd hc hdirty }

/-- What a thread does next in a call. -/
theorem go (h : Guarded slot s) (hstage : s.stages thread = some stage)
    (hmay : ¬Overtakes slot s (.go thread)) (hnext : sections.next s.value stage = some (handles, rest)) :
    Guarded slot (s.assign thread handles rest) := by
  cases stage with
  | registering other =>
    rw [next_registering, Option.some.injEq, Prod.mk.injEq] at hnext
    obtain ⟨rfl, rfl⟩ := hnext
    by_cases hnew : other ∈ s.value.registered
    · rw [if_pos hnew]
      refine h.aside ?_ (by simp) (by simp [hstage]) rfl
      rw [WeakHandles.mem_insert, or_iff_right_iff_imp]
      rintro rfl
      exact hnew
    · rw [if_neg hnew]
      by_cases heq : other = slot
      · subst heq
        exact h.register hstage hnew
      · refine h.aside ?_ (by simpa using heq) (by simp [hstage]) rfl
        rw [WeakHandles.mem_insert, or_iff_right heq]
  | pushing other =>
    rw [next_pushing, Option.some.injEq, Prod.mk.injEq] at hnext
    obtain ⟨rfl, rfl⟩ := hnext
    by_cases heq : other = slot
    · subst heq
      exact h.push hstage
    · exact h.aside .rfl (by simp) (by simp [hstage]) (by simp [WeakHandles.pushNursery, heq])
  | unregistering other =>
    rw [next_unregistering, Option.some.injEq, Prod.mk.injEq] at hnext
    obtain ⟨rfl, rfl⟩ := hnext
    by_cases heq : other = slot
    · subst heq
      by_cases hknown : other ∈ s.value.registered
      · rw [if_pos hknown]
        exact unregister fun other' hother => hmay ⟨thread, other', rfl, hstage, hother⟩
      · rw [if_neg hknown]
        exact h.aside (by simp [hknown]) (by simp) (by simp [hstage]) rfl
    · refine h.aside (by simp [heq]) ?_ (by simp [hstage]) rfl
      split <;> simp
  | erasing other =>
    rw [next_erasing, Option.some.injEq, Prod.mk.injEq] at hnext
    obtain ⟨rfl, rfl⟩ := hnext
    by_cases heq : other = slot
    · subst heq
      exact h.settle .rfl (by simp) fun _ => .inl (by simp [WeakHandles.eraseNursery])
    · refine h.aside .rfl (by simp) (by simpa [hstage] using heq) ?_
      exact List.count_filter (by simpa using Ne.symm heq)
  | taking =>
    rw [next_taking, Option.some.injEq, Prod.mk.injEq] at hnext
    obtain ⟨rfl, rfl⟩ := hnext
    exact h.settle .rfl (by simp) fun _ => .inl (by simp [WeakHandles.takeNursery])

theorem move {m : Move HandleCall} (h : Guarded slot s) (hmay : ¬Overtakes slot s m)
    (hmove : s.move sections m = some s') : Guarded slot s' := by
  obtain ⟨thread, call, rfl, hthread, rfl⟩ | ⟨thread, stage, handles, rest, rfl, hstage, hnext, rfl⟩ :=
    move_cases hmove
  · refine h.aside .rfl ?_ (by simp [hthread]) rfl
    cases call <;> simp [sections, ofCall]
  · exact h.go hstage hmay hnext

theorem of_reached (h : Reached sections (fun s m => ¬Overtakes slot s m) {} s) : Guarded slot s :=
  h.keeps (fresh slot) fun _ _ _ hguarded hmay hmove => hguarded.move hmay hmove

end Guarded

/-- A thread forgets the slot while another is between the sections of registering it. -/
theorem stale_of_overtaken {later : ThreadId} (hfirst : s.stages thread = some (.pushing slot))
    (hlater : s.stages later = some (.unregistering slot)) (hknown : slot ∈ s.value.registered) :
    ∃ s', run sections [.go later, .go later, .go thread] s = some s' ∧ slot ∈ s'.value.nursery ∧
      slot ∉ s'.value.registered ∧
      ∀ other, s'.stages other = if other = thread ∨ other = later then none else s.stages other := by
  have hne : thread ≠ later := by
    rintro rfl
    cases hlater.symm.trans hfirst
  let erased : SharedHandles :=
    s.assign later { s.value with registered := s.value.registered.erase slot } (some (.erasing slot))
  let forgotten : SharedHandles := erased.assign later (erased.value.eraseNursery slot) none
  have herase : s.move sections (.go later) = some erased :=
    move_go hlater (next_unregistering.trans (by rw [if_pos hknown]))
  have hforget : erased.move sections (.go later) = some forgotten :=
    move_go (by rw [stages_assign, if_pos rfl]) next_erasing
  have hpush : forgotten.move sections (.go thread) =
      some (forgotten.assign thread (forgotten.value.pushNursery slot) none) :=
    move_go (by rw [stages_assign, if_neg hne, stages_assign, if_neg hne, hfirst]) next_pushing
  refine ⟨_, by rw [run_cons_of_move herase, run_cons_of_move hforget, run_cons_of_move hpush, run_nil], ?_, ?_, ?_⟩
  · exact List.mem_append_right _ (List.mem_singleton_self slot)
  · exact fun hin => (WeakHandles.mem_erase.1 hin).1 rfl
  · intro other
    simp only [stages_assign, forgotten, erased]
    by_cases hthread : other = thread <;> by_cases hother : other = later <;> simp [hthread, hother]

/-- Nobody is about to take a slot off those that are registered. -/
def isMild (s : SharedHandles) : Move HandleCall → Bool
  | .call .. => true
  | .go thread => match s.stages thread with
    | some (.unregistering _) => false
    | _ => true

theorem not_overtakes_of_mild {m : Move HandleCall} (h : isMild s m = true) : ¬Overtakes slot s m := by
  rintro ⟨thread, -, rfl, hlater, -⟩
  simp [isMild, hlater] at h

/-- Calls of any threads in any order: as long as nobody takes a slot off those that are registered while a registration
of it is between its sections, what is in the nursery is registered and is there once, unless the nursery is still to be
cleared of it. In particular this holds when no call is in progress. A registration that is overtaken leaves in the
nursery, and so to the next one who takes it, a slot that is not registered. -/
theorem nursery_registered_unless_overtaken (slot : Slot) :
    (∀ s : SharedHandles, Reached sections (fun s m => ¬Overtakes slot s m) {} s → Cleared slot s →
      slot ∈ s.value.nursery → slot ∈ s.value.registered ∧ s.value.nursery.count slot = 1) ∧
    ∀ (s : SharedHandles) (thread later : ThreadId), s.stages thread = some (.pushing slot) →
      s.stages later = some (.unregistering slot) → slot ∈ s.value.registered →
      ∃ s', run sections [.go later, .go later, .go thread] s = some s' ∧ slot ∈ s'.value.takeNursery.1 ∧
        slot ∉ s'.value.registered ∧
        ∀ other, s'.stages other = if other = thread ∨ other = later then none else s.stages other := by
  refine ⟨fun s hreached hcleared hin => ?_, fun s thread later => stale_of_overtaken⟩
  have hguarded := Guarded.of_reached hreached
  exact ⟨hguarded.kept hcleared hin, Nat.le_antisymm (hguarded.once hcleared) (List.count_pos_iff.2 hin)⟩

/-- A thread is between the sections of registering a slot when another is about to forget it. If the first goes on, the
nursery has the slot once, and it is registered; if the other does, the nursery has it in the end, and it is not. -/
theorem two_ends_of_race :
    let a : ThreadId := ⟨"a"⟩
    let b : ThreadId := ⟨"b"⟩
    let slot : Slot := ⟨0x1000⟩
    let race : List (Move HandleCall) := [.call a (.register slot), .go a, .call b (.unregister slot)]
    (∃ s, run sections (race ++ [.go a]) ⟨{}, fun _ => none⟩ = some s ∧ s.value.nursery.count slot = 1 ∧
      slot ∈ s.value.registered) ∧
    ∃ s, run sections (race ++ [.go b, .go b, .go a]) ⟨{}, fun _ => none⟩ = some s ∧
      slot ∈ s.value.takeNursery.1 ∧ slot ∉ s.value.registered := by
  intro a b slot race
  constructor
  · have hrun : (runIf sections isMild (race ++ [.go a]) ⟨{}, fun _ => none⟩).map
        (fun s => (s.stages a, s.stages b, s.value.nursery)) = some (none, some (.unregistering slot), [slot]) := by
      decide +kernel
    obtain ⟨s, hmoves, hs⟩ := Option.map_eq_some_iff.1 hrun
    simp only [Prod.mk.injEq] at hs
    obtain ⟨ha, hb, hnursery⟩ := hs
    have hcleared : Cleared slot s := by
      intro thread hstage
      have hthread : thread ∈ [a, a, b, a] := moved_of_run (run_of_runIf hmoves) hstage
      obtain rfl | rfl : thread = a ∨ thread = b := by
        simp only [List.mem_cons, List.not_mem_nil] at hthread
        tauto
      · cases ha.symm.trans hstage
      · cases hb.symm.trans hstage
    obtain ⟨hknown, honce⟩ := (nursery_registered_unless_overtaken slot).1 s
      (.of_runIf (fun _ _ => not_overtakes_of_mild) hmoves) hcleared (by simp [hnursery])
    exact ⟨s, run_of_runIf hmoves, honce, hknown⟩
  · have hrun : (run sections race ⟨{}, fun _ => none⟩).map
        (fun s => (s.stages a, s.stages b, decide (slot ∈ s.value.registered))) =
        some (some (.pushing slot), some (.unregistering slot), true) := by decide +kernel
    obtain ⟨s, hmoves, hs⟩ := Option.map_eq_some_iff.1 hrun
    simp only [Prod.mk.injEq, decide_eq_true_eq] at hs
    obtain ⟨s', hrest, hin, hforgotten, -⟩ :=
      (nursery_registered_unless_overtaken slot).2 s a b hs.1 hs.2.1 hs.2.2
    exact ⟨s', by rw [run_append, hmoves]; exact hrest, hin, hforgotten⟩

/-- A slot is registered by one thread and, after the first section of that, forgotten by another. When both calls are
over, the nursery has the slot, which is not registered; and once it is registered again, the nursery has it twice. -/
theorem forgotten_slot_in_nursery :
    let a : ThreadId := ⟨"a"⟩
    let b : ThreadId := ⟨"b"⟩
    let slot : Slot := ⟨0x1000⟩
    let race : List (Move HandleCall) :=
      [.call a (.register slot), .go a, .call b (.unregister slot), .go b, .go b, .go a]
    (∃ s, run sections race ⟨{}, fun _ => none⟩ = some s ∧ s.Idle ∧ s.value.takeNursery.1 = [slot] ∧
      s.value.slots = []) ∧
    ∃ s, run sections (race ++ [.call a (.register slot), .go a, .go a]) ⟨{}, fun _ => none⟩ = some s ∧ s.Idle ∧
      s.value.takeNursery.1 = [slot, slot] ∧ s.value.slots = [slot] := by
  intro a b slot race
  have hfinds (moves : List (Move HandleCall)) (found : List Slot × List Slot)
      (hrun : (run sections moves ⟨{}, fun _ => none⟩).map (fun s => (moves.all fun m => (s.stages m.thread).isNone,
        s.value.takeNursery.1, s.value.slots)) = some (true, found)) :
      ∃ s, run sections moves ⟨{}, fun _ => none⟩ = some s ∧ s.Idle ∧ s.value.takeNursery.1 = found.1 ∧
        s.value.slots = found.2 := by
    obtain ⟨s, hmoves, hs⟩ := Option.map_eq_some_iff.1 hrun
    obtain ⟨hmoved, rfl⟩ := Prod.mk.inj hs
    exact ⟨s, hmoves, idle_of_run hmoves hmoved, rfl, rfl⟩
  exact ⟨hfinds race ([slot], []) (by decide +kernel), hfinds _ ([slot, slot], [slot]) (by decide +kernel)⟩

end SharedHandles

end Safepoint
