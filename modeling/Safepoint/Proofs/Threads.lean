import Mathlib.Data.List.Nodup
import Safepoint.Proofs.Basic
import Safepoint.Threads

/-!
# Where the states of mutators are

A thread registers and leaves in several steps, and other threads may go on between two of them. A state is bound once,
to an id that was not used before. From then on it is with the thread that registers, or in the registry, or was
destroyed, and in one of these places only.
-/
namespace Safepoint

namespace Registry

variable {μ : Type}

/-- Make a thread unknown. -/
def dropThread (r : Registry μ) (me : ThreadId) : Registry μ := { r with byThread := r.byThread.erase me }

/-- Make an id unknown. The collector's state for it stays. -/
def dropId (r : Registry μ) (id : MutatorId) : Registry μ := { r with byId := r.byId.erase id }

/-- Take out the collector's state for a mutator. -/
def dropState (r : Registry μ) (id : MutatorId) : Registry μ := { r with states := r.states.erase id }

/-- A mutator leaves in three steps. -/
theorem deregister_eq (r : Registry μ) (me : ThreadId) :
    r.deregister me = match r.current me with
      | none => .error (.unregisteredThread me)
      | some mutator =>
        let left := (r.dropThread me).dropId mutator.id
        .ok (mutator.id, left.states[mutator.id]?, left.dropState mutator.id) := rfl

/-- A thread registers in three steps, besides having its state bound. -/
theorem register_eq (r : Registry μ) (me : ThreadId) (name : Option String) (state : MutatorId → μ) :
    r.register me name state = match r.reserve me with
      | .error e => .error e
      | .ok (id, r) => .ok (⟨id, me, name⟩, (r.addId ⟨id, me, name⟩ (state id)).addThread ⟨id, me, name⟩) := by
  unfold register
  cases r.reserve me <;> rfl

end Registry

/-- The first `n` ids, the latest first. -/
def numbers (n : Nat) : List MutatorId := (List.range n).reverse.map fun k => ⟨UInt64.ofNat (k + 1)⟩

theorem numbers_succ (n : Nat) : numbers (n + 1) = ⟨UInt64.ofNat (n + 1)⟩ :: numbers n := by
  simp [numbers, List.range_succ]

theorem nodup_numbers {n : Nat} (h : n ≤ wordLimit) : (numbers n).Nodup := by
  refine List.Nodup.map_on ?_ (List.nodup_reverse.2 List.nodup_range)
  intro a ha b hb heq
  have ha : a < n := List.mem_range.1 (List.mem_reverse.1 ha)
  have hb : b < n := List.mem_range.1 (List.mem_reverse.1 hb)
  have hword : UInt64.ofNat (a + 1) = UInt64.ofNat (b + 1) := congrArg MutatorId.value heq
  have hnat := congrArg UInt64.toNat hword
  simp only [UInt64.toNat_ofNat'] at hnat
  unfold wordLimit UInt64.size at h
  omega

/-- Where states are: what threads have in hand, an id and maybe a state for it, and what is kept in a table. -/
structure Account {μ : Type} (ids : List MutatorId) (hands : ThreadId → Option (MutatorId × Option μ))
    (states : Std.ExtTreeMap MutatorId μ) (bound destroyed : List (MutatorId × μ)) : Prop where
  distinct : ids.Nodup
  handed : ∀ thread id state, hands thread = some (id, state) →
    id ∈ ids ∧ states[id]? = none ∧ id ∉ destroyed.map Prod.fst
  single : ∀ thread other id state state', hands thread = some (id, state) → hands other = some (id, state') →
    thread = other
  kept : ∀ id state, states[id]? = some state → id ∈ ids ∧ id ∉ destroyed.map Prod.fst
  gone : ∀ id ∈ destroyed.map Prod.fst, id ∈ ids
  once : (destroyed.map Prod.fst).Nodup
  apart : (bound.map Prod.fst).Nodup
  total : ∀ id state, (id, state) ∈ bound ↔
    states[id]? = some state ∨ (id, state) ∈ destroyed ∨ ∃ thread, hands thread = some (id, some state)

namespace Account

variable {μ : Type} {ids : List MutatorId} {hands : ThreadId → Option (MutatorId × Option μ)}
  {states : Std.ExtTreeMap MutatorId μ} {bound destroyed : List (MutatorId × μ)} {me : ThreadId} {id : MutatorId}
  {state : μ}

theorem fresh : Account (μ := μ) [] (fun _ => none) {} [] [] := by constructor <;> simp

/-- A thread that takes an id in hand which no other thread has is the only one to have it. -/
theorem single_update (h : Account ids hands states bound destroyed) {new : Option μ}
    (hme : ∀ thread state, hands thread = some (id, state) → thread = me) {thread other : ThreadId} {id' : MutatorId}
    {state' state'' : Option μ} (hthread : Function.update hands me (some (id, new)) thread = some (id', state'))
    (hother : Function.update hands me (some (id, new)) other = some (id', state'')) : thread = other := by
  obtain ⟨rfl, heq⟩ | ⟨-, hfirst⟩ := update_eq_some.1 hthread <;>
    obtain ⟨rfl, heq'⟩ | ⟨-, hsecond⟩ := update_eq_some.1 hother
  · rfl
  · cases heq
    exact (hme other _ hsecond).symm
  · cases heq'
    exact hme thread _ hfirst
  · exact h.single _ _ _ _ _ hfirst hsecond

/-- A thread takes an id nobody had before. -/
theorem reserve (h : Account ids hands states bound destroyed) (hme : hands me = none) (hid : (id :: ids).Nodup) :
    Account (id :: ids) (Function.update hands me (some (id, none))) states bound destroyed := by
  have hnew : id ∉ ids := (List.nodup_cons.1 hid).1
  constructor
  case distinct => exact hid
  case handed =>
    intro thread id' state hhand
    obtain ⟨-, heq⟩ | ⟨-, hhand⟩ := update_eq_some.1 hhand
    · cases heq
      refine ⟨List.mem_cons_self, ?_, fun hgone => hnew (h.gone id hgone)⟩
      cases hstate : states[id]? with
      | none => rfl
      | some state => exact absurd (h.kept id state hstate).1 hnew
    · obtain ⟨hmem, hrest⟩ := h.handed thread id' state hhand
      exact ⟨List.mem_cons_of_mem _ hmem, hrest⟩
  case single =>
    intro thread other id' state state'
    exact h.single_update fun thread state hhand => absurd (h.handed thread id state hhand).1 hnew
  case kept =>
    intro id' state hstate
    obtain ⟨hmem, hrest⟩ := h.kept id' state hstate
    exact ⟨List.mem_cons_of_mem _ hmem, hrest⟩
  case gone => exact fun id' hgone => List.mem_cons_of_mem _ (h.gone id' hgone)
  case once => exact h.once
  case apart => exact h.apart
  case total =>
    intro id' state
    rw [h.total id' state]
    refine or_congr_right (or_congr_right (exists_congr fun thread => ?_))
    rw [update_eq_some]
    constructor
    · intro hhand
      refine .inr ⟨?_, hhand⟩
      rintro rfl
      rw [hme] at hhand
      cases hhand
    · rintro (⟨-, heq⟩ | ⟨-, hhand⟩)
      · cases heq
      · exact hhand

/-- A state is bound to the id. -/
theorem bind (h : Account ids hands states bound destroyed) (hme : hands me = some (id, none)) (state : μ) :
    Account ids (Function.update hands me (some (id, some state))) states ((id, state) :: bound) destroyed := by
  obtain ⟨hid, hstates, hgone⟩ := h.handed me id none hme
  constructor
  case distinct => exact h.distinct
  case handed =>
    intro thread id' state' hhand
    obtain ⟨-, heq⟩ | ⟨-, hhand⟩ := update_eq_some.1 hhand
    · cases heq
      exact ⟨hid, hstates, hgone⟩
    · exact h.handed thread id' state' hhand
  case single =>
    intro thread other id' state' state''
    exact h.single_update fun thread state hhand => h.single thread me id state none hhand hme
  case kept => exact h.kept
  case gone => exact h.gone
  case once => exact h.once
  case apart =>
    refine List.nodup_cons.2 ⟨fun hmem => ?_, h.apart⟩
    obtain ⟨⟨id', state'⟩, hbound, rfl⟩ := List.mem_map.1 hmem
    obtain hstate | hdestroyed | ⟨thread, hhand⟩ := (h.total id' state').1 hbound
    · rw [hstates] at hstate
      cases hstate
    · exact hgone (List.mem_map_of_mem hdestroyed)
    · cases h.single _ _ _ _ _ hme hhand
      rw [hme] at hhand
      cases hhand
  case total =>
    intro id' state'
    rw [List.mem_cons, h.total id' state']
    simp only [update_eq_some]
    constructor
    · rintro (heq | hstate | hdestroyed | ⟨thread, hhand⟩)
      · cases heq
        exact .inr (.inr ⟨me, .inl ⟨rfl, rfl⟩⟩)
      · exact .inl hstate
      · exact .inr (.inl hdestroyed)
      · refine .inr (.inr ⟨thread, .inr ⟨?_, hhand⟩⟩)
        rintro rfl
        rw [hme] at hhand
        cases hhand
    · rintro (hstate | hdestroyed | ⟨thread, ⟨-, heq⟩ | ⟨-, hhand⟩⟩)
      · exact .inr (.inl hstate)
      · exact .inr (.inr (.inl hdestroyed))
      · cases heq
        exact .inl rfl
      · exact .inr (.inr (.inr ⟨thread, hhand⟩))

/-- The thread puts the state into the table. -/
theorem file (h : Account ids hands states bound destroyed) (hme : hands me = some (id, some state)) :
    Account ids (Function.update hands me none) (states.insert id state) bound destroyed := by
  obtain ⟨hid, hstates, hgone⟩ := h.handed me id _ hme
  have hhands {thread : ThreadId} {entry : MutatorId × Option μ}
      (hhand : Function.update hands me none thread = some entry) : thread ≠ me ∧ hands thread = some entry := by
    obtain ⟨-, heq⟩ | hold := update_eq_some.1 hhand
    · cases heq
    · exact hold
  constructor
  case distinct => exact h.distinct
  case handed =>
    intro thread id' state' hhand
    obtain ⟨hne, hold⟩ := hhands hhand
    obtain ⟨hmem, hnone, hrest⟩ := h.handed thread id' state' hold
    refine ⟨hmem, ?_, hrest⟩
    rw [Std.ExtTreeMap.getElem?_insert, if_neg, hnone]
    intro heq
    cases Std.LawfulEqCmp.eq_of_compare heq
    exact hne (h.single _ _ _ _ _ hold hme)
  case single =>
    intro thread other id' state' state'' hthread hother
    exact h.single _ _ _ _ _ (hhands hthread).2 (hhands hother).2
  case kept =>
    intro id' state' hstate
    rw [Std.ExtTreeMap.getElem?_insert] at hstate
    split at hstate
    · rename_i heq
      cases Std.LawfulEqCmp.eq_of_compare heq
      exact ⟨hid, hgone⟩
    · exact h.kept id' state' hstate
  case gone => exact h.gone
  case once => exact h.once
  case apart => exact h.apart
  case total =>
    intro id' state'
    rw [h.total id' state', Std.ExtTreeMap.getElem?_insert]
    constructor
    · rintro (hstate | hdestroyed | ⟨thread, hhand⟩)
      · left
        rw [if_neg, hstate]
        intro heq
        cases Std.LawfulEqCmp.eq_of_compare heq
        rw [hstates] at hstate
        cases hstate
      · exact .inr (.inl hdestroyed)
      · by_cases hthread : thread = me
        · rw [hthread, hme] at hhand
          cases hhand
          left
          rw [if_pos Std.ReflCmp.compare_self]
        · exact .inr (.inr ⟨thread, update_eq_some.2 (.inr ⟨hthread, hhand⟩)⟩)
    · rintro (hstate | hdestroyed | ⟨thread, hhand⟩)
      · split at hstate
        · rename_i heq
          cases Std.LawfulEqCmp.eq_of_compare heq
          cases hstate
          exact .inr (.inr ⟨me, hme⟩)
        · exact .inl hstate
      · exact .inr (.inl hdestroyed)
      · exact .inr (.inr ⟨thread, (hhands hhand).2⟩)

/-- A state is taken out of the table and destroyed. -/
theorem destroy (h : Account ids hands states bound destroyed) (hstate : states[id]? = some state) :
    Account ids hands (states.erase id) bound ((id, state) :: destroyed) := by
  obtain ⟨hid, hgone⟩ := h.kept id state hstate
  have hstates {id' : MutatorId} {state' : μ} (hstate' : (states.erase id)[id']? = some state') :
      id' ≠ id ∧ states[id']? = some state' := by
    rw [Std.ExtTreeMap.getElem?_erase] at hstate'
    split at hstate'
    · cases hstate'
    · rename_i hne
      refine ⟨?_, hstate'⟩
      rintro rfl
      exact hne Std.ReflCmp.compare_self
  have hkept {id' : MutatorId} (hne : id' ≠ id) : (states.erase id)[id']? = states[id']? := by
    rw [Std.ExtTreeMap.getElem?_erase, if_neg]
    intro heq
    exact hne (Std.LawfulEqCmp.eq_of_compare heq).symm
  constructor
  case distinct => exact h.distinct
  case handed =>
    intro thread id' state' hhand
    obtain ⟨hmem, hnone, hrest⟩ := h.handed thread id' state' hhand
    have hne : id' ≠ id := by
      rintro rfl
      rw [hstate] at hnone
      cases hnone
    refine ⟨hmem, (hkept hne).trans hnone, ?_⟩
    rw [List.map_cons, List.mem_cons, not_or]
    exact ⟨hne, hrest⟩
  case single => exact h.single
  case kept =>
    intro id' state' hstate'
    obtain ⟨hne, hold⟩ := hstates hstate'
    obtain ⟨hmem, hrest⟩ := h.kept id' state' hold
    refine ⟨hmem, ?_⟩
    rw [List.map_cons, List.mem_cons, not_or]
    exact ⟨hne, hrest⟩
  case gone => exact List.forall_mem_cons.2 ⟨hid, h.gone⟩
  case once => exact List.nodup_cons.2 ⟨hgone, h.once⟩
  case apart => exact h.apart
  case total =>
    intro id' state'
    rw [h.total id' state', List.mem_cons]
    constructor
    · rintro (hstate' | hdestroyed | hhand)
      · by_cases hne : id' = id
        · rw [hne, hstate] at hstate'
          cases hstate'
          exact .inr (.inl (.inl (by rw [hne])))
        · exact .inl ((hkept hne).trans hstate')
      · exact .inr (.inl (.inr hdestroyed))
      · exact .inr (.inr hhand)
    · rintro (hstate' | (heq | hdestroyed) | hhand)
      · exact .inl (hstates hstate').2
      · cases heq
        exact .inl hstate
      · exact .inr (.inl hdestroyed)
      · exact .inr (.inr hhand)

/-- If no thread has one in hand, every state is in the table or was destroyed. -/
theorem balanced (h : Account ids hands states bound destroyed) (hhands : ∀ thread, hands thread = none) :
    bound.Perm (states.toList ++ destroyed) := by
  have hstates : (states.toList.map Prod.fst).Nodup := by
    rw [Std.ExtTreeMap.map_fst_toList_eq_keys]
    exact Std.ExtTreeMap.nodup_keys
  have hapart : List.Disjoint states.toList destroyed := by
    rintro ⟨id, state⟩ hkept hgone
    rw [Std.ExtTreeMap.mem_toList_iff_getElem?_eq_some] at hkept
    exact (h.kept id state hkept).2 (List.mem_map_of_mem hgone)
  refine (List.perm_ext_iff_of_nodup h.apart.of_map (List.Nodup.append hstates.of_map h.once.of_map hapart)).2 ?_
  rintro ⟨id, state⟩
  rw [h.total id state, List.mem_append, Std.ExtTreeMap.mem_toList_iff_getElem?_eq_some]
  simp [hhands]

end Account

end Safepoint
