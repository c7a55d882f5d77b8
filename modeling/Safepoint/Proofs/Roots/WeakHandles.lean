import Safepoint.Proofs.Basic
import Safepoint.Roots.WeakHandles

/-!
# Weak handles by their history

What a table of weak handles holds is told by the calls that were made on it. A registration takes effect if it finds
its slot unregistered. A slot is registered if a registration of it was not undone since; and it waits in the nursery if
the last registration of it that took effect is neither undone nor handed out. So a registration is handed out once, by
the next taking of the nursery, unless it is undone before.
-/
namespace Safepoint

theorem WeakHandles.mem_insert {slots : Std.ExtTreeSet Slot} {slot other : Slot} :
    other ∈ slots.insert slot ↔ slot = other ∨ other ∈ slots := by
  rw [Std.ExtTreeSet.mem_insert, Std.LawfulEqCmp.compare_eq_iff_eq]

theorem WeakHandles.mem_erase {slots : Std.ExtTreeSet Slot} {slot other : Slot} :
    other ∈ slots.erase slot ↔ slot ≠ other ∧ other ∈ slots := by
  rw [Std.ExtTreeSet.mem_erase, ne_eq, Std.LawfulEqCmp.compare_eq_iff_eq]

/-- A call on a table of weak handles. -/
inductive HandleCall where
  | register (slot : Slot)
  | unregister (slot : Slot)
  | take
  deriving DecidableEq

namespace HandleCall

/-- What a call leaves. -/
def after (handles : WeakHandles) : HandleCall → WeakHandles
  | register slot => handles.register slot
  | unregister slot => (handles.unregister slot).2
  | take => handles.takeNursery.2

/-- What calls leave of a fresh table, one after another. -/
def run (calls : List HandleCall) : WeakHandles := calls.foldl after {}

/-- The slot was registered, and not forgotten since. -/
def Registered (slot : Slot) : List HandleCall → Prop :=
  Since (fun _ call => call = .register slot) (· = .unregister slot)

/-- The call with the number `i` is a registration that finds its slot unregistered. -/
def Begins (i : Nat) (slot : Slot) (earlier : List HandleCall) (call : HandleCall) : Prop :=
  earlier.length = i ∧ call = .register slot ∧ ¬Registered slot earlier

/-- The call with the number `i` registered the slot, which was not registered. -/
def Effective (i : Nat) (slot : Slot) : List HandleCall → Prop := Since (Begins i slot) fun _ => False

/-- The last registration of the slot that took effect is the call with the number `i`. -/
def Latest (i : Nat) (slot : Slot) (calls : List HandleCall) : Prop :=
  Effective i slot calls ∧ ∀ j, Effective j slot calls → j ≤ i

/-- The slot is registered, and the nursery was not taken since the last registration of it that took effect. -/
def Waits (i : Nat) (slot : Slot) (calls : List HandleCall) : Prop :=
  Registered slot calls ∧ Latest i slot calls ∧ Since (Begins i slot) (· = .take) calls

/-- The call with the number `j` takes the nursery, in which it finds the slot, which was last registered by the call
with the number `i`. -/
def HandedOut (i j : Nat) (slot : Slot) (calls : List HandleCall) : Prop :=
  ∃ earlier later, calls = earlier ++ .take :: later ∧ earlier.length = j ∧ Latest i slot earlier ∧
    slot ∈ (run earlier).takeNursery.1

variable {calls : List HandleCall} {call : HandleCall} {slot other : Slot} {i j : Nat}

theorem run_concat (calls : List HandleCall) (call : HandleCall) : run (calls ++ [call]) = call.after (run calls) :=
  List.foldl_append ..

theorem registered_concat : Registered slot (calls ++ [call]) ↔
    call = .register slot ∨ Registered slot calls ∧ call ≠ .unregister slot := since_concat

theorem effective_concat : Effective i slot (calls ++ [call]) ↔
    Begins i slot calls call ∨ Effective i slot calls := by
  rw [Effective, since_concat, not_false_iff, and_true]

theorem Effective.lt (h : Effective i slot calls) : i < calls.length := by
  obtain ⟨earlier, _, later, rfl, ⟨rfl, -⟩, -⟩ := h
  simp

/-- The call with the number `i` registered the slot, and this was not undone since. -/
def InForce (i : Nat) (slot : Slot) : List HandleCall → Prop := Since (Begins i slot) (· = .unregister slot)

theorem InForce.effective (h : InForce i slot calls) : Effective i slot calls :=
  h.mono (fun _ _ => id) fun _ => False.elim

/-- Behind a slot that is registered there is one registration that took effect. -/
theorem registered_iff : Registered slot calls ↔ ∃ i, InForce i slot calls := by
  induction calls using List.reverseRecOn with
  | nil => exact ⟨fun h => absurd h not_since_nil, fun ⟨_, h⟩ => absurd h not_since_nil⟩
  | append_singleton calls call ih =>
    simp only [InForce, since_concat, registered_concat]
    constructor
    · rintro (hcall | ⟨hknown, hkeep⟩)
      · by_cases hknown : Registered slot calls
        · obtain ⟨i, hi⟩ := ih.1 hknown
          exact ⟨i, .inr ⟨hi, by simp [hcall]⟩⟩
        · exact ⟨calls.length, .inl ⟨rfl, hcall, hknown⟩⟩
      · obtain ⟨i, hi⟩ := ih.1 hknown
        exact ⟨i, .inr ⟨hi, hkeep⟩⟩
    · rintro ⟨i, ⟨-, hcall, -⟩ | ⟨hi, hkeep⟩⟩
      · exact .inl hcall
      · exact .inr ⟨ih.2 ⟨i, hi⟩, hkeep⟩

/-- No registration takes effect while one is in force. -/
theorem InForce.latest (h : InForce i slot calls) (hj : Effective j slot calls) : j ≤ i := by
  induction calls using List.reverseRecOn with
  | nil => exact absurd h not_since_nil
  | append_singleton calls call ih =>
    rw [InForce, since_concat] at h
    rw [effective_concat] at hj
    obtain ⟨rfl, -⟩ | ⟨hi, -⟩ := h
    · obtain ⟨rfl, -⟩ | hj := hj
      · exact Nat.le_refl _
      · exact Nat.le_of_lt hj.lt
    · obtain ⟨-, -, hunknown⟩ | hj := hj
      · exact absurd (registered_iff.2 ⟨i, hi⟩) hunknown
      · exact ih hi hj

theorem inForce_iff : InForce i slot calls ↔ Registered slot calls ∧ Latest i slot calls := by
  constructor
  · intro h
    exact ⟨registered_iff.2 ⟨i, h⟩, h.effective, fun j hj => h.latest hj⟩
  · rintro ⟨hknown, heffective, hlast⟩
    obtain ⟨j, hj⟩ := registered_iff.1 hknown
    obtain rfl : j = i := Nat.le_antisymm (hlast j hj.effective) (hj.latest heffective)
    exact hj

theorem waits_iff : Waits i slot calls ↔
    Since (Begins i slot) (fun call => call = .unregister slot ∨ call = .take) calls := by
  rw [since_or, Waits, ← and_assoc, ← inForce_iff]
  rfl

theorem waits_concat : Waits i slot (calls ++ [call]) ↔
    Begins i slot calls call ∨ Waits i slot calls ∧ call ≠ .unregister slot ∧ call ≠ .take := by
  rw [waits_iff, since_concat, waits_iff, not_or]

theorem Waits.lt (h : Waits i slot calls) : i < calls.length := h.2.1.1.lt

theorem Waits.unique (h : Waits i slot calls) (h' : Waits j slot calls) : i = j :=
  Nat.le_antisymm (h'.2.1.2 i h.2.1.1) (h.2.1.2 j h'.2.1.1)

/-- The table holds what its history tells: the slots that are registered, and those that wait, in the order of the
registrations that took effect. -/
structure Recorded (calls : List HandleCall) (handles : WeakHandles) : Prop where
  registered : ∀ slot, slot ∈ handles.registered ↔ Registered slot calls
  nursery : ∃ waiting : List (Nat × Slot), waiting.Pairwise (fun a b => a.1 < b.1) ∧
    (∀ i slot, (i, slot) ∈ waiting ↔ Waits i slot calls) ∧ handles.nursery = waiting.map Prod.snd

namespace Recorded

variable {handles : WeakHandles}

theorem fresh : Recorded [] {} where
  registered slot := by simp [Registered, not_since_nil]
  nursery := ⟨[], .nil, fun i slot => by simp [waits_iff, not_since_nil], rfl⟩

theorem mem_nursery (h : Recorded calls handles) : slot ∈ handles.nursery ↔ ∃ i, Waits i slot calls := by
  obtain ⟨waiting, -, hwaiting, hnursery⟩ := h.nursery
  rw [hnursery, List.mem_map]
  constructor
  · rintro ⟨⟨i, other⟩, hmem, rfl⟩
    exact ⟨i, (hwaiting i other).1 hmem⟩
  · rintro ⟨i, hi⟩
    exact ⟨(i, slot), (hwaiting i slot).2 hi, rfl⟩

theorem nodup_nursery (h : Recorded calls handles) : handles.nursery.Nodup := by
  obtain ⟨waiting, hsorted, hwaiting, hnursery⟩ := h.nursery
  rw [hnursery, List.Nodup, List.pairwise_map]
  refine hsorted.imp_of_mem fun {a b} ha hb hlt heq => Nat.ne_of_lt hlt ?_
  exact ((hwaiting a.1 a.2).1 ha).unique ((hwaiting b.1 a.2).1 (heq ▸ hb))

theorem register (h : Recorded calls handles) (slot : Slot) :
    Recorded (calls ++ [.register slot]) (handles.register slot) := by
  obtain ⟨waiting, hsorted, hwaiting, hnursery⟩ := h.nursery
  have hregistered (other : Slot) : other ∈ handles.registered.insert slot ↔
      Registered other (calls ++ [.register slot]) := by
    rw [WeakHandles.mem_insert, h.registered, registered_concat]
    simp
  by_cases hknown : slot ∈ handles.registered
  · have hregister : handles.register slot = { handles with registered := handles.registered.insert slot } := by
      simp [WeakHandles.register, WeakHandles.insertRegistered, hknown]
    rw [hregister]
    refine ⟨hregistered, waiting, hsorted, fun i other => ?_, hnursery⟩
    rw [hwaiting, waits_concat]
    constructor
    · exact fun hwaits => .inr ⟨hwaits, by simp⟩
    · rintro (⟨-, hcall, hunknown⟩ | ⟨hwaits, -⟩)
      · cases hcall
        exact absurd ((h.registered slot).1 hknown) hunknown
      · exact hwaits
  · have hregister : handles.register slot =
        ⟨handles.registered.insert slot, handles.nursery ++ [slot]⟩ := by
      simp [WeakHandles.register, WeakHandles.insertRegistered, WeakHandles.pushNursery, hknown]
    rw [hregister]
    refine ⟨hregistered, waiting ++ [(calls.length, slot)], ?_, fun i other => ?_, by simp [hnursery]⟩
    · refine List.pairwise_append.2 ⟨hsorted, List.pairwise_singleton .., fun a ha b hb => ?_⟩
      rw [List.mem_singleton.1 hb]
      exact ((hwaiting a.1 a.2).1 ha).lt
    · rw [List.mem_append, List.mem_singleton, Prod.mk.injEq, hwaiting, waits_concat]
      constructor
      · rintro (hwaits | ⟨rfl, rfl⟩)
        · exact .inr ⟨hwaits, by simp⟩
        · exact .inl ⟨rfl, rfl, mt (h.registered other).2 hknown⟩
      · rintro (⟨rfl, hcall, -⟩ | ⟨hwaits, -⟩)
        · cases hcall
          exact .inr ⟨rfl, rfl⟩
        · exact .inl hwaits

theorem unregister (h : Recorded calls handles) (slot : Slot) :
    Recorded (calls ++ [.unregister slot]) (handles.unregister slot).2 := by
  obtain ⟨waiting, hsorted, hwaiting, hnursery⟩ := h.nursery
  have hregistered (other : Slot) : other ∈ handles.registered.erase slot ↔
      Registered other (calls ++ [.unregister slot]) := by
    rw [WeakHandles.mem_erase, h.registered, registered_concat]
    simp [and_comm, eq_comm]
  have hwaiting' (i : Nat) (other : Slot) : Waits i other (calls ++ [.unregister slot]) ↔
      Waits i other calls ∧ other ≠ slot := by
    rw [waits_concat]
    simp [Begins, eq_comm]
  by_cases hknown : slot ∈ handles.registered
  · have hunregister : (handles.unregister slot).2 =
        ⟨handles.registered.erase slot, handles.nursery.filter (· ≠ slot)⟩ := by
      simp [WeakHandles.unregister, WeakHandles.eraseRegistered, WeakHandles.eraseNursery, hknown]
    rw [hunregister]
    refine ⟨hregistered, waiting.filter (·.2 ≠ slot), hsorted.filter _, fun i other => ?_, ?_⟩
    · rw [List.mem_filter, hwaiting, hwaiting', decide_eq_true_eq]
    · rw [hnursery, List.filter_map]
      rfl
  · have hunregister : (handles.unregister slot).2 = { handles with registered := handles.registered.erase slot } := by
      simp [WeakHandles.unregister, WeakHandles.eraseRegistered, hknown]
    rw [hunregister]
    refine ⟨hregistered, waiting, hsorted, fun i other => ?_, hnursery⟩
    rw [hwaiting, hwaiting', iff_self_and]
    rintro hwaits rfl
    exact hknown ((h.registered other).2 hwaits.1)

theorem take (h : Recorded calls handles) : Recorded (calls ++ [.take]) handles.takeNursery.2 where
  registered slot := by
    change slot ∈ handles.registered ↔ _
    rw [registered_concat]
    simpa using h.registered slot
  nursery := ⟨[], .nil, fun i slot => by simp [waits_concat, Begins], rfl⟩

theorem of_run (calls : List HandleCall) : Recorded calls (run calls) := by
  induction calls using List.reverseRecOn with
  | nil => exact .fresh
  | append_singleton calls call ih =>
    rw [run_concat]
    cases call with
    | register slot => exact ih.register slot
    | unregister slot => exact ih.unregister slot
    | take => exact ih.take

end Recorded

theorem raw_lt_of_compare {a b : Slot} (h : compare a b = .lt) : a.raw < b.raw := by
  change compareOfLessAndEq a.raw b.raw = .lt at h
  exact compareOfLessAndEq_eq_lt.1 h

/-- A registration that is handed out waited until then. -/
theorem HandedOut.waits (h : HandedOut i j slot calls) :
    ∃ earlier later, calls = earlier ++ .take :: later ∧ earlier.length = j ∧ Waits i slot earlier := by
  obtain ⟨earlier, later, hcalls, hlength, hlatest, hmem⟩ := h
  obtain ⟨k, hk⟩ := (Recorded.of_run earlier).mem_nursery.1 hmem
  obtain rfl : k = i := Nat.le_antisymm (hlatest.2 k hk.2.1.1) (hk.2.1.2 i hlatest.1)
  exact ⟨earlier, later, hcalls, hlength, hk⟩

/-- What was handed out does not wait after that. -/
theorem not_waits_of_taken {earlier later : List HandleCall} (h : i < earlier.length) :
    ¬Waits i slot (earlier ++ .take :: later) := by
  intro hwaits
  rw [waits_iff, since_append] at hwaits
  obtain ⟨-, hnone⟩ | ⟨middle, _, rest, -, ⟨hlength, -⟩, -⟩ := hwaits
  · exact hnone .take (by simp) (.inr rfl)
  · rw [List.length_append] at hlength
    omega

theorem handed_out_once {j' : Nat} (h : HandedOut i j slot calls) (h' : HandedOut i j' slot calls) : j = j' := by
  -- Of two takings the second is after the first, which leaves nothing of what it found.
  have hfirst {k k' : Nat} (hk : HandedOut i k slot calls) (hk' : HandedOut i k' slot calls) : ¬k < k' := by
    intro hlt
    obtain ⟨earlier, later, hcalls, rfl, hwaits⟩ := hk.waits
    obtain ⟨earlier', later', hcalls', rfl, hwaits'⟩ := hk'.waits
    rw [hcalls, List.append_eq_append_iff] at hcalls'
    obtain ⟨middle, rfl, hmiddle⟩ | ⟨middle, rfl, -⟩ := hcalls'
    · obtain ⟨rfl, -⟩ | ⟨rest, rfl, -⟩ := List.cons_eq_append_iff.1 hmiddle
      · simp at hlt
      · exact not_waits_of_taken hwaits.lt hwaits'
    · rw [List.length_append] at hlt
      omega
  exact Nat.le_antisymm (Nat.not_lt.1 (hfirst h' h)) (Nat.not_lt.1 (hfirst h h'))

/-- Until the nursery is taken, a registration waits unless it is undone. -/
theorem waits_of_untouched {earlier between : List HandleCall} (hnew : ¬Registered slot earlier)
    (hkept : .unregister slot ∉ between) (huntaken : .take ∉ between) :
    Waits earlier.length slot (earlier ++ .register slot :: between) := by
  refine waits_iff.2 ⟨earlier, _, between, rfl, ⟨rfl, rfl, hnew⟩, fun other hother => ?_⟩
  rintro (rfl | rfl)
  · exact hkept hother
  · exact huntaken hother

/-- Whatever is called on a fresh table: the slots that are registered are listed in ascending order, and the nursery
has, in the order of their registrations and each once, those whose last registration that took effect waits. Taking the
nursery gives this list and empties it, and to forget a slot tells whether it was registered. A registration that took
effect is handed out by one taking of the nursery at most, and by the next one if it is not undone before. -/
theorem handles_follow_history (calls : List HandleCall) :
    ((run calls).slots.Pairwise (·.raw < ·.raw) ∧ ∀ slot, slot ∈ (run calls).slots ↔ Registered slot calls) ∧
    ((run calls).nursery.Nodup ∧ ∃ waiting : List (Nat × Slot), waiting.Pairwise (fun a b => a.1 < b.1) ∧
      (∀ i slot, (i, slot) ∈ waiting ↔ Waits i slot calls) ∧ (run calls).nursery = waiting.map Prod.snd) ∧
    ((run calls).takeNursery.1 = (run calls).nursery ∧ (run (calls ++ [.take])).nursery = [] ∧
      (run (calls ++ [.take])).slots = (run calls).slots) ∧
    (∀ slot, ((run calls).unregister slot).1 = true ↔ Registered slot calls) ∧
    (∀ i j j' slot, HandedOut i j slot calls → HandedOut i j' slot calls → j = j') ∧
    ∀ earlier between later slot, calls = earlier ++ .register slot :: between ++ .take :: later →
      ¬Registered slot earlier → .unregister slot ∉ between → .take ∉ between →
      HandedOut earlier.length (earlier ++ .register slot :: between).length slot calls := by
  have hrecorded := Recorded.of_run calls
  refine ⟨⟨Std.ExtTreeSet.ordered_toList.imp raw_lt_of_compare, fun slot => ?_⟩,
    ⟨hrecorded.nodup_nursery, hrecorded.nursery⟩, ⟨rfl, ?_, ?_⟩, fun slot => ?_, fun i j j' slot => handed_out_once,
    fun earlier between later slot hcalls hnew hkept huntaken => ?_⟩
  · rw [WeakHandles.slots, Std.ExtTreeSet.mem_toList, hrecorded.registered]
  · rw [run_concat]
    rfl
  · rw [run_concat]
    rfl
  · rw [← hrecorded.registered]
    exact decide_eq_true_iff
  · have hwaits := waits_of_untouched hnew hkept huntaken
    exact ⟨_, later, hcalls, rfl, hwaits.2.1, (Recorded.of_run _).mem_nursery.2 ⟨_, hwaits⟩⟩

/-- A slot is registered twice, forgotten, registered again and taken: it is the third registration that is handed out,
after a slot that was registered before it. -/
theorem registered_anew_handed_out :
    let slot : Slot := ⟨0x1000⟩
    let calls : List HandleCall := [.register slot, .register slot, .unregister slot, .register ⟨0x2000⟩,
      .register slot, .take, .take]
    ¬Registered slot (calls.take 4) ∧ HandedOut 4 5 slot calls ∧ (∀ j, HandedOut 4 j slot calls → j = 5) ∧
      (run (calls.take 5)).takeNursery.1 = [⟨0x2000⟩, slot] ∧ (run (calls.take 5)).slots = [slot, ⟨0x2000⟩] := by
  intro slot calls
  obtain ⟨-, -, -, -, honce, hnext⟩ := handles_follow_history calls
  have hnew : ¬Registered slot (calls.take 4) := by
    rw [← (Recorded.of_run _).registered]
    decide +kernel
  have hout : HandedOut 4 5 slot calls := hnext (calls.take 4) [] [.take] slot rfl hnew (by simp) (by simp)
  exact ⟨hnew, hout, fun j hj => honce 4 j 5 slot hj hout, by decide +kernel, by decide +kernel⟩

end HandleCall

end Safepoint
