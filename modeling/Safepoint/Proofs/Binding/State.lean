import Safepoint.Binding.Basic
import Safepoint.Proofs.Roots.CodeLedger

/-!
# What holds of a binding's tables

Whatever was registered, forgotten, claimed or scanned before: each mutator stands under its own
id, no weak handle waits twice, and the code table is sound.
-/
namespace Safepoint

theorem values_eq {α β : Type} [Ord α] [Std.TransOrd α] (map : Std.ExtTreeMap α β) :
    map.values = map.toList.map Prod.snd := by
  rcases map with ⟨inner⟩
  induction inner using Std.ExtDTreeMap.inductionOn with
  | mk map =>
    change map.inner.values = (Std.DTreeMap.Internal.Impl.Const.toList map.inner).map Prod.snd
    rw [Std.DTreeMap.Internal.Impl.values_eq_map_snd, Std.DTreeMap.Internal.Impl.Const.toList_eq_toListModel_map]
    simp

namespace Registry

variable {μ : Type} {registry : Registry μ}

/-- Each mutator stands under its own id. -/
def Sound (registry : Registry μ) : Prop :=
  ∀ (id : MutatorId) (mutator : Mutator), registry.byId[id]? = some mutator → mutator.id = id

theorem Sound.empty : ({} : Registry μ).Sound := by simp [Sound]

theorem Sound.addId (h : registry.Sound) (mutator : Mutator) (state : μ) : (registry.addId mutator state).Sound := by
  intro id other hother
  simp only [Registry.addId, Std.ExtTreeMap.getElem?_insert, Std.LawfulEqCmp.compare_eq_iff_eq] at hother
  split at hother
  · rename_i he
    cases hother
    exact he
  · exact h id other hother

theorem Sound.deregister (h : registry.Sound) {me : ThreadId} {id : MutatorId} {state : Option μ}
    {registry' : Registry μ} (hd : registry.deregister me = .ok (id, state, registry')) : registry'.Sound := by
  unfold Registry.deregister at hd
  split at hd <;> cases hd
  intro id other hother
  simp only [Std.ExtTreeMap.getElem?_erase] at hother
  split at hother
  · cases hother
  · exact h id other hother

theorem Sound.mutatorIds (h : registry.Sound) : registry.mutatorIds = registry.byId.keys := by
  rw [Registry.mutatorIds, mutators, values_eq, List.map_map, ← Std.ExtTreeMap.map_fst_toList_eq_keys]
  refine List.map_congr_left fun e he => ?_
  exact h e.1 e.2 (Std.ExtTreeMap.mem_toList_iff_getElem?_eq_some.1 he)

theorem Sound.nodup (h : registry.Sound) : registry.mutatorIds.Nodup := by
  rw [h.mutatorIds]
  exact Std.ExtTreeMap.nodup_keys

theorem Sound.known (h : registry.Sound) {id : MutatorId} (hid : id ∈ registry.mutatorIds) :
    (registry.get id).isSome := by
  rw [h.mutatorIds, Std.ExtTreeMap.mem_keys] at hid
  exact Std.ExtTreeMap.mem_iff_isSome_getElem?.1 hid

end Registry

namespace WeakHandles

/-- What waits is registered, and waits once. -/
structure Sound (handles : WeakHandles) : Prop where
  nodup : handles.nursery.Nodup
  registered : ∀ slot ∈ handles.nursery, slot ∈ handles.registered

variable {handles : WeakHandles}

theorem Sound.register (h : handles.Sound) (slot : Slot) : (handles.register slot).Sound := by
  have hkept : ∀ other ∈ handles.nursery, other ∈ handles.registered.insert slot := fun other hother =>
    Std.ExtTreeSet.mem_insert.2 (.inr (h.registered other hother))
  by_cases hslot : slot ∈ handles.registered
  · have hsame : handles.register slot = { handles with registered := handles.registered.insert slot } := by
      simp [WeakHandles.register, insertRegistered, hslot]
    rw [hsame]
    exact ⟨h.nodup, hkept⟩
  · have hnew : handles.register slot =
        ⟨handles.registered.insert slot, handles.nursery ++ [slot]⟩ := by
      simp [WeakHandles.register, insertRegistered, pushNursery, hslot]
    rw [hnew]
    constructor
    · refine List.nodup_append.2 ⟨h.nodup, by simp, fun a ha b hb => ?_⟩
      rw [List.mem_singleton.1 hb]
      rintro rfl
      exact hslot (h.registered a ha)
    · intro other hother
      obtain hother | hother := List.mem_append.1 hother
      · exact hkept other hother
      · rw [List.mem_singleton.1 hother]
        exact Std.ExtTreeSet.mem_insert_self

theorem Sound.unregister (h : handles.Sound) (slot : Slot) : (handles.unregister slot).2.Sound := by
  by_cases hslot : slot ∈ handles.registered
  · have hgone : (handles.unregister slot).2 =
        ⟨handles.registered.erase slot, handles.nursery.filter (· ≠ slot)⟩ := by
      simp [WeakHandles.unregister, eraseRegistered, eraseNursery, hslot]
    rw [hgone]
    refine ⟨h.nodup.filter _, fun other hother => ?_⟩
    obtain ⟨hother, hne⟩ := List.mem_filter.1 hother
    have hne : other ≠ slot := by simpa using hne
    rw [Std.ExtTreeSet.mem_erase]
    exact ⟨by simpa using Ne.symm hne, h.registered other hother⟩
  · have hsame : (handles.unregister slot).2 = { handles with registered := handles.registered.erase slot } := by
      simp [WeakHandles.unregister, eraseRegistered, hslot]
    rw [hsame]
    refine ⟨h.nodup, fun other hother => ?_⟩
    have hne : slot ≠ other := fun he => hslot (he ▸ h.registered other hother)
    rw [Std.ExtTreeSet.mem_erase]
    exact ⟨by simpa using hne, h.registered other hother⟩

end WeakHandles

/-- Whatever comes of it, a call leaves a sound table. Only one cycle too many does not. -/
theorem CodeOp.sound {ρ : Type} {visit : Slot → Act ρ Unit} {op : CodeOp} {table : CodeTable} (h : table.Sound)
    (r : ρ) (hcycle : op = .beginCycle → table.epoch + 1 ≠ 0) : ((op.act visit).run (table, r)).2.1.Sound := by
  cases op with
  | register code slots => exact h.register code slots
  | unregister code => exact h.unregister code
  | beginCycle =>
    have hbegun := h.beginCycle (toNat_add_one_lt (hcycle rfl))
    simpa [CodeOp.act, CodeTable.tablePlace, CodeTable.run_beginCycle] using hbegun
  | claim code =>
    rw [CodeOp.act, Act.run_map]
    exact h.run_claimAndVisit visit code r
  | scan =>
    rw [CodeOp.act, Act.run_map]
    exact h.run_scan _ r

namespace Binding.State

variable {μ ε : Type}

/-- The states in which the use of a binding leaves its tables. -/
inductive Reached : State μ ε → Prop
  | fresh (machine : Machine ε) : Reached { machine }
  /-- A call of the code table that returns or faults, but not one that runs out of cycles. -/
  | code {s : State μ ε} (h : Reached s) (op : CodeOp) {ρ : Type} (visit : Slot → Act ρ Unit) (r : ρ)
      (cycle : op = .beginCycle → s.codeTable.epoch + 1 ≠ 0) :
      Reached { s with codeTable := ((op.act visit).run (s.codeTable, r)).2.1 }
  | handle {s : State μ ε} (h : Reached s) (slot : Slot) :
      Reached { s with weakHandles := s.weakHandles.register slot }
  | dropHandle {s : State μ ε} (h : Reached s) (slot : Slot) :
      Reached { s with weakHandles := (s.weakHandles.unregister slot).2 }
  | takeHandles {s : State μ ε} (h : Reached s) : Reached { s with weakHandles := s.weakHandles.takeNursery.2 }
  | mutator {s : State μ ε} (h : Reached s) (mutator : Mutator) (state : μ) :
      Reached { s with registry := (s.registry.addId mutator state).addThread mutator }
  | leave {s : State μ ε} (h : Reached s) {me : ThreadId} {id : MutatorId} {state : Option μ} {registry : Registry μ}
      (left : s.registry.deregister me = .ok (id, state, registry)) : Reached { s with registry }
  /-- Whatever does not touch these tables. -/
  | other {s s' : State μ ε} (h : Reached s) (registry : s'.registry.byId = s.registry.byId)
      (code : s'.codeTable = s.codeTable) (handles : s'.weakHandles = s.weakHandles) : Reached s'

theorem Reached.sound {s : State μ ε} (h : Reached s) :
    s.registry.Sound ∧ s.codeTable.Sound ∧ s.weakHandles.Sound := by
  induction h with
  | fresh machine => exact ⟨.empty, .empty, by simp, by simp⟩
  | code _ op visit r cycle ih => exact ⟨ih.1, CodeOp.sound ih.2.1 r cycle, ih.2.2⟩
  | handle _ slot ih => exact ⟨ih.1, ih.2.1, ih.2.2.register slot⟩
  | dropHandle _ slot ih => exact ⟨ih.1, ih.2.1, ih.2.2.unregister slot⟩
  | takeHandles _ ih => exact ⟨ih.1, ih.2.1, by simp [WeakHandles.takeNursery], by simp [WeakHandles.takeNursery]⟩
  | mutator _ mutator state ih => exact ⟨ih.1.addId mutator state, ih.2⟩
  | leave _ left ih => exact ⟨ih.1.deregister left, ih.2⟩
  | other _ registry code handles ih =>
    rw [code, handles]
    refine ⟨?_, ih.2⟩
    unfold Registry.Sound
    rw [registry]
    exact ih.1

end Binding.State

end Safepoint
