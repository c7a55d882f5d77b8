import Safepoint.Proofs.Binding.State
import Safepoint.Proofs.Threads

/-!
# Stages of threads that register or leave

Other threads find the registry as a thread that registers or leaves has left it between two of its steps. At every
stage, whoever is known by its thread is known by its id, and whoever is known by its id has its state.
-/
namespace Safepoint.Binding

/-- How far a thread is with something that goes through the registry. -/
inductive Stage (μ : Type) where
  /-- It registers, and has an id. -/
  | reserved (id : MutatorId) (name : Option String)
  /-- The collector's state for it was set up. -/
  | bound (mutator : Mutator) (state : μ)
  /-- It is known by its id. -/
  | listed (mutator : Mutator)
  /-- It leaves, under the lock of the world. -/
  | leaving
  /-- It is no longer known as a thread. -/
  | unlinked (mutator : Mutator)
  /-- It is no longer known by its id. -/
  | delisted (mutator : Mutator)
  /-- The collector destroys the state for it. -/
  | destroying (mutator : Mutator) (state : μ)
  /-- It has left, and still has the lock. -/
  | left
  /-- Its stop in this cycle was granted. -/
  | stopped (cycle : Nat)
  /-- It visits the mutators it found. -/
  | visiting (cycle : Nat) (rest : List Mutator)

namespace Stage

variable {μ : Type}

/-- The id a thread has in hand, and maybe the state for it. -/
def hand : Stage μ → Option (MutatorId × Option μ)
  | reserved id _ => some (id, none)
  | bound mutator state => some (mutator.id, some state)
  | _ => none

/-- Whether a thread has the lock of the world. -/
def departs : Stage μ → Bool
  | leaving | unlinked _ | delisted _ | destroying _ _ | left => true
  | _ => false

/-- The mutators a thread will visit, and in which cycle. -/
def visits : Stage μ → Option (Nat × List Mutator)
  | stopped cycle => some (cycle, [])
  | visiting cycle rest => some (cycle, rest)
  | _ => none

/-- What each thread has in hand. -/
def hands (stages : ThreadId → Option (Stage μ)) (thread : ThreadId) : Option (MutatorId × Option μ) :=
  (stages thread).bind hand

theorem hands_update (stages : ThreadId → Option (Stage μ)) (me : ThreadId) (stage : Option (Stage μ)) :
    hands (Function.update stages me stage) = Function.update (hands stages) me (stage.bind hand) := by
  funext thread
  by_cases hthread : thread = me
  · simp [hands, hthread]
  · simp [hands, hthread]

/-- What the registry has for a thread that has come to a stage. -/
def Fits (registry : Registry μ) (me : ThreadId) : Stage μ → Prop
  | bound mutator _ => mutator.thread = me
  | listed mutator => mutator.thread = me ∧ registry.byId[mutator.id]? = some mutator
  | unlinked mutator =>
    mutator.thread = me ∧ registry.byId[mutator.id]? = some mutator ∧ registry.byThread[me]? = none
  | delisted mutator => registry.byId[mutator.id]? = none ∧ mutator.id ∈ registry.states
  | _ => True

end Stage

/-- The registry and what the threads are doing to it fit together. -/
structure Filed {μ : Type} (registry : Registry μ) (stages : ThreadId → Option (Stage μ)) : Prop where
  thread : ∀ (thread : ThreadId) mutator, registry.byThread[thread]? = some mutator →
    mutator.thread = thread ∧ registry.byId[mutator.id]? = some mutator
  id : ∀ (id : MutatorId) mutator, registry.byId[id]? = some mutator → mutator.id = id ∧ id ∈ registry.states
  state : ∀ id ∈ registry.states, id ∈ registry.byId ∨
    ∃ thread mutator, stages thread = some (.delisted mutator) ∧ mutator.id = id
  fits : ∀ thread stage, stages thread = some stage → stage.Fits registry thread

namespace Filed

variable {μ : Type} {registry : Registry μ} {stages : ThreadId → Option (Stage μ)} {me : ThreadId}
  {stage : Option (Stage μ)} {mutator : Mutator} {state : μ}

theorem fresh : Filed ({} : Registry μ) fun _ => none := by constructor <;> simp

/-- An id that was given away is not in use yet. -/
theorem reserve (h : Filed registry stages) (nextId : UInt64) : Filed { registry with nextId } stages :=
  ⟨h.thread, h.id, h.state, h.fits⟩

/-- A thread comes to a stage without a change of the registry. -/
theorem restage (h : Filed registry stages) (hold : ∀ mutator, stages me ≠ some (.delisted mutator))
    (hnew : ∀ new, stage = some new → new.Fits registry me) : Filed registry (Function.update stages me stage) where
  thread := h.thread
  id := h.id
  state id hid := by
    refine (h.state id hid).imp_right ?_
    rintro ⟨thread, mutator, hthread, heq⟩
    refine ⟨thread, mutator, update_eq_some.2 (.inr ⟨?_, hthread⟩), heq⟩
    rintro rfl
    exact hold mutator hthread
  fits thread new hstage := by
    obtain ⟨rfl, heq⟩ | ⟨-, hthread⟩ := update_eq_some.1 hstage
    · exact hnew new heq
    · exact h.fits thread new hthread

theorem mem_mutators (h : Filed registry stages) (hmem : mutator ∈ registry.mutators) :
    registry.byId[mutator.id]? = some mutator := by
  rw [Registry.mutators, values_eq] at hmem
  obtain ⟨⟨id, other⟩, hentry, rfl⟩ := List.mem_map.1 hmem
  have hknown := Std.ExtTreeMap.mem_toList_iff_getElem?_eq_some.1 hentry
  rw [(h.id id other hknown).1]
  exact hknown

/-- A new id does not take the place of another. -/
theorem known_addId (h : Filed registry stages) (hstate : registry.states[mutator.id]? = none) {id : MutatorId}
    {other : Mutator} (hother : registry.byId[id]? = some other) :
    (registry.addId mutator state).byId[id]? = some other := by
  rw [Registry.addId, Std.ExtTreeMap.getElem?_insert, if_neg, hother]
  intro heq
  cases Std.LawfulEqCmp.eq_of_compare heq
  have hmem := (h.id _ other hother).2
  rw [Std.ExtTreeMap.mem_iff_isSome_getElem?, hstate] at hmem
  cases hmem

/-- A mutator becomes known by its id. -/
theorem addId (h : Filed registry stages) (hme : stages me = some (.bound mutator state))
    (hstate : registry.states[mutator.id]? = none) :
    Filed (registry.addId mutator state) (Function.update stages me (some (.listed mutator))) := by
  have hnew : mutator.id ∉ registry.states := by
    rw [Std.ExtTreeMap.mem_iff_isSome_getElem?, hstate]
    exact Bool.false_ne_true
  have hknown {id : MutatorId} {other : Mutator} (hother : registry.byId[id]? = some other) :
      (registry.addId mutator state).byId[id]? = some other := h.known_addId hstate hother
  have hkept {id : MutatorId} (hid : id ∈ registry.states) : id ∈ (registry.addId mutator state).states :=
    Std.ExtTreeMap.mem_insert.2 (.inr hid)
  constructor
  case thread =>
    intro thread other hother
    exact (h.thread thread other hother).imp_right hknown
  case id =>
    intro id other hother
    rw [Registry.addId, Std.ExtTreeMap.getElem?_insert] at hother
    split at hother
    · rename_i heq
      cases Std.LawfulEqCmp.eq_of_compare heq
      cases hother
      exact ⟨rfl, Std.ExtTreeMap.mem_insert_self⟩
    · exact (h.id id other hother).imp_right hkept
  case state =>
    intro id hid
    obtain heq | hid := Std.ExtTreeMap.mem_insert.1 hid
    · left
      exact Std.ExtTreeMap.mem_insert.2 (.inl heq)
    · refine (h.state id hid).imp (fun hmem => Std.ExtTreeMap.mem_insert.2 (.inr hmem)) ?_
      rintro ⟨thread, other, hthread, heq⟩
      refine ⟨thread, other, update_eq_some.2 (.inr ⟨?_, hthread⟩), heq⟩
      rintro rfl
      rw [hme] at hthread
      cases hthread
  case fits =>
    intro thread stage hstage
    obtain ⟨rfl, heq⟩ | ⟨-, hthread⟩ := update_eq_some.1 hstage
    · cases heq
      refine ⟨h.fits _ _ hme, ?_⟩
      rw [Registry.addId]
      exact Std.ExtTreeMap.getElem?_insert_self
    · have hfits := h.fits thread stage hthread
      cases stage with
      | listed other => exact hfits.imp_right hknown
      | unlinked other => exact ⟨hfits.1, hknown hfits.2.1, hfits.2.2⟩
      | delisted other =>
        refine ⟨?_, hkept hfits.2⟩
        rw [Registry.addId, Std.ExtTreeMap.getElem?_insert, if_neg, hfits.1]
        intro heq
        rw [Std.LawfulEqCmp.eq_of_compare heq] at hnew
        exact hnew hfits.2
      | _ => exact hfits

/-- A mutator becomes known by its thread. -/
theorem addThread (h : Filed registry stages) (hme : stages me = some (.listed mutator)) :
    Filed (registry.addThread mutator) (Function.update stages me none) := by
  obtain ⟨hmutator, hknown⟩ : mutator.thread = me ∧ registry.byId[mutator.id]? = some mutator := h.fits _ _ hme
  constructor
  case thread =>
    intro thread other hother
    rw [Registry.addThread, Std.ExtTreeMap.getElem?_insert] at hother
    split at hother
    · rename_i heq
      cases hother
      exact ⟨Std.LawfulEqCmp.eq_of_compare heq, hknown⟩
    · exact h.thread thread other hother
  case id => exact h.id
  case state =>
    intro id hid
    refine (h.state id hid).imp_right ?_
    rintro ⟨thread, other, hthread, heq⟩
    refine ⟨thread, other, update_eq_some.2 (.inr ⟨?_, hthread⟩), heq⟩
    rintro rfl
    rw [hme] at hthread
    cases hthread
  case fits =>
    intro thread stage hstage
    obtain ⟨-, heq⟩ | ⟨hne, hthread⟩ := update_eq_some.1 hstage
    · cases heq
    · have hfits := h.fits thread stage hthread
      cases stage with
      | unlinked other =>
        refine ⟨hfits.1, hfits.2.1, ?_⟩
        rw [Registry.addThread, Std.ExtTreeMap.getElem?_insert, if_neg, hfits.2.2]
        intro heq
        exact hne ((Std.LawfulEqCmp.eq_of_compare heq).symm.trans hmutator)
      | _ => exact hfits

/-- A mutator that leaves is no longer known by its thread. -/
theorem dropThread (h : Filed registry stages) (hme : stages me = some .leaving)
    (hcurrent : registry.byThread[me]? = some mutator) :
    Filed (registry.dropThread me) (Function.update stages me (some (.unlinked mutator))) := by
  constructor
  case thread =>
    intro thread other hother
    rw [Registry.dropThread, Std.ExtTreeMap.getElem?_erase] at hother
    split at hother
    · cases hother
    · exact h.thread thread other hother
  case id => exact h.id
  case state =>
    intro id hid
    refine (h.state id hid).imp_right ?_
    rintro ⟨thread, other, hthread, heq⟩
    refine ⟨thread, other, update_eq_some.2 (.inr ⟨?_, hthread⟩), heq⟩
    rintro rfl
    rw [hme] at hthread
    cases hthread
  case fits =>
    intro thread stage hstage
    obtain ⟨rfl, heq⟩ | ⟨-, hthread⟩ := update_eq_some.1 hstage
    · cases heq
      obtain ⟨hmutator, hknown⟩ := h.thread thread mutator hcurrent
      refine ⟨hmutator, hknown, ?_⟩
      rw [Registry.dropThread]
      exact Std.ExtTreeMap.getElem?_erase_self
    · have hfits := h.fits thread stage hthread
      cases stage with
      | unlinked other =>
        refine ⟨hfits.1, hfits.2.1, ?_⟩
        rw [Registry.dropThread, Std.ExtTreeMap.getElem?_erase, hfits.2.2, ite_self]
      | _ => exact hfits

/-- A mutator that leaves is no longer known by its id. -/
theorem dropId (h : Filed registry stages) (hme : stages me = some (.unlinked mutator)) :
    Filed (registry.dropId mutator.id) (Function.update stages me (some (.delisted mutator))) := by
  obtain ⟨hmutator, hknown, hthread⟩ :
      mutator.thread = me ∧ registry.byId[mutator.id]? = some mutator ∧ registry.byThread[me]? = none := h.fits _ _ hme
  -- whoever has this id is this thread
  have hother {thread : ThreadId} {other : Mutator} (hne : thread ≠ me) (hthread : other.thread = thread)
      (hother : registry.byId[other.id]? = some other) : (registry.dropId mutator.id).byId[other.id]? = some other := by
    rw [Registry.dropId, Std.ExtTreeMap.getElem?_erase, if_neg, hother]
    intro heq
    rw [← Std.LawfulEqCmp.eq_of_compare heq, hknown] at hother
    cases hother
    exact hne (hthread.symm.trans hmutator)
  have hnone {id : MutatorId} (hid : registry.byId[id]? = none) : (registry.dropId mutator.id).byId[id]? = none := by
    rw [Registry.dropId, Std.ExtTreeMap.getElem?_erase, hid, ite_self]
  constructor
  case thread =>
    intro thread other hother'
    obtain ⟨heq, hid⟩ := h.thread thread other hother'
    refine ⟨heq, hother ?_ heq hid⟩
    rintro rfl
    change registry.byThread[thread]? = some other at hother'
    rw [hthread] at hother'
    cases hother'
  case id =>
    intro id other hother'
    rw [Registry.dropId, Std.ExtTreeMap.getElem?_erase] at hother'
    split at hother'
    · cases hother'
    · exact h.id id other hother'
  case state =>
    intro id hid
    by_cases hsame : mutator.id = id
    · right
      exact ⟨me, mutator, Function.update_self .., hsame⟩
    · refine (h.state id hid).imp (fun hmem => ?_) ?_
      · refine Std.ExtTreeMap.mem_erase.2 ⟨fun heq => hsame (Std.LawfulEqCmp.eq_of_compare heq), hmem⟩
      · rintro ⟨thread, other, hthread', heq⟩
        refine ⟨thread, other, update_eq_some.2 (.inr ⟨?_, hthread'⟩), heq⟩
        rintro rfl
        rw [hme] at hthread'
        cases hthread'
  case fits =>
    intro thread stage hstage
    obtain ⟨rfl, heq⟩ | ⟨hne, hthread'⟩ := update_eq_some.1 hstage
    · cases heq
      refine ⟨?_, (h.id _ _ hknown).2⟩
      rw [Registry.dropId]
      exact Std.ExtTreeMap.getElem?_erase_self
    · have hfits := h.fits thread stage hthread'
      cases stage with
      | listed other => exact ⟨hfits.1, hother hne hfits.1 hfits.2⟩
      | unlinked other => exact ⟨hfits.1, hother hne hfits.1 hfits.2.1, hfits.2.2⟩
      | delisted other => exact ⟨hnone hfits.1, hfits.2⟩
      | _ => exact hfits

/-- The state for a mutator that leaves is taken out. Nobody else leaves. -/
theorem dropState (h : Filed registry stages) (hme : stages me = some (.delisted mutator))
    (hsole : ∀ thread other, stages thread = some (.delisted other) → thread = me) :
    Filed (registry.dropState mutator.id) (Function.update stages me (some (.destroying mutator state))) := by
  obtain ⟨hgone, -⟩ : registry.byId[mutator.id]? = none ∧ mutator.id ∈ registry.states := h.fits _ _ hme
  constructor
  case thread => exact h.thread
  case id =>
    intro id other hother
    obtain ⟨heq, hid⟩ := h.id id other hother
    refine ⟨heq, Std.ExtTreeMap.mem_erase.2 ⟨fun hsame => ?_, hid⟩⟩
    cases Std.LawfulEqCmp.eq_of_compare hsame
    change registry.byId[mutator.id]? = some other at hother
    rw [hgone] at hother
    cases hother
  case state =>
    intro id hid
    obtain ⟨hne, hid⟩ := Std.ExtTreeMap.mem_erase.1 hid
    refine (h.state id hid).imp_right ?_
    rintro ⟨thread, other, hthread, heq⟩
    cases hsole thread other hthread
    rw [hme] at hthread
    cases hthread
    rw [heq] at hne
    exact absurd Std.ReflCmp.compare_self hne
  case fits =>
    intro thread stage hstage
    obtain ⟨-, heq⟩ | ⟨hne, hthread⟩ := update_eq_some.1 hstage
    · cases heq
      trivial
    · have hfits := h.fits thread stage hthread
      cases stage with
      | delisted other => exact absurd (hsole thread other hthread) hne
      | _ => exact hfits

end Filed

end Safepoint.Binding
