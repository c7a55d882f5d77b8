import Safepoint.Binding.Barriers
import Safepoint.Proofs.Binding.RootSplits

/-!
# Stores and copies by registered threads

A registered thread has the collector's state for it at hand. Its store is the inlined one, whatever code runs it, and
what such calls keep of the machine one after the other, a run of them keeps.
-/
namespace Safepoint

variable {μ ε α : Type}

/-- The thread is a mutator, and the collector's state for it is there. -/
def Registry.Attaches (registry : Registry μ) (me : ThreadId) : Prop :=
  ∃ mutator, registry.current me = some mutator ∧ mutator.id ∈ registry.states

namespace Binding

/-- What is left of a state when the mutator `id` has worked on the machine. -/
def State.leave (s : State μ ε) (id : MutatorId) (left : Attached μ ε) : State μ ε :=
  { s with
    machine := left.machine
    registry := { s.registry with states := s.registry.states.insert id left.mutator } }

namespace State
variable {s : State μ ε} {id : MutatorId} {me : ThreadId}

theorem leave_leave (s : State μ ε) (id : MutatorId) (left again : Attached μ ε) :
    (s.leave id left).leave id again = s.leave id again := by
  have hstates : (s.registry.states.insert id left.mutator).insert id again.mutator =
      s.registry.states.insert id again.mutator := by
    refine Std.ExtTreeMap.ext_getElem? fun other => ?_
    simp only [Std.ExtTreeMap.getElem?_insert]
    split <;> rfl
  simp only [leave, hstates]

/-- A mutator that does nothing leaves the state as it was. -/
theorem leave_self {state : μ} (h : s.registry.states[id]? = some state) : s.leave id ⟨state, s.machine⟩ = s := by
  have hstates : s.registry.states.insert id state = s.registry.states := by
    refine Std.ExtTreeMap.ext_getElem? fun other => ?_
    rw [Std.ExtTreeMap.getElem?_insert]
    split
    · rename_i he
      rw [← Std.LawfulEqCmp.eq_of_compare he, h]
    · rfl
  simp only [leave, hstates]

theorem attaches_leave (h : s.registry.Attaches me) (left : Attached μ ε) : (s.leave id left).registry.Attaches me := by
  obtain ⟨mutator, hcurrent, hstate⟩ := h
  exact ⟨mutator, hcurrent, Std.ExtTreeMap.mem_insert.2 (.inr hstate)⟩

end State

section
variable {b : Binding μ ε} {s : State μ ε} {id : MutatorId} {mutator : Mutator} {me : ThreadId}

theorem mirrors_onMachine (act : Act (Machine ε) α) :
    Act.Mirrors (s.leave id) (onMachine act) (Act.within Attached.machinePlace act) := fun _ => rfl

theorem mirrors_withMutator (h : s.registry.current me = some mutator) (attached : Act (Attached μ ε) α) :
    Act.Mirrors (s.leave mutator.id) (withMutator me attached) attached := by
  intro a
  have hstate : (s.leave mutator.id a).registry.states[mutator.id]? = some a.mutator :=
    Std.ExtTreeMap.getElem?_insert_self
  have hcurrent : (s.leave mutator.id a).registry.current me = some mutator := h
  change withMutator me attached (s.leave mutator.id a) = _
  unfold withMutator
  simp only [hcurrent, hstate]
  rw [← State.leave_leave s mutator.id a (attached.run a).2]
  rfl

/-- A registered thread that interprets a store does what compiled code does. -/
theorem mirrors_storeReference (h : s.registry.current me = some mutator) (tier : Tier) (d : Decorators)
    (source : ObjectRef) (slot : Slot) (operand : Operand) :
    Act.Mirrors (s.leave mutator.id) (b.storeReference me tier d source slot operand)
      (Barrier.store b.options.barrier b.engine b.codec d source slot operand) := by
  unfold storeReference
  split
  · exact mirrors_withMutator h _
  · unfold interpretedStore Barrier.store
    dsimp only
    split
    · exact .bind (mirrors_onMachine _) fun _ => .pure ()
    · have hstored : Act.Mirrors (s.leave mutator.id)
          (do
            let stored ← onMachine (Barrier.plainStore b.codec slot operand.object)
            let object ← Act.check (stored.decompress b.codec)
            b.writePost me ⟨source, slot, object⟩)
          (do
            let stored ← Act.within Attached.machinePlace (Barrier.plainStore b.codec slot operand.object)
            let object ← Act.check (stored.decompress b.codec)
            Barrier.writePost b.options.barrier b.engine ⟨source, slot, object⟩) :=
        .bind (mirrors_onMachine _) fun _ => .bind (.check _) fun _ => mirrors_withMutator h _
      split
      · exact .bind (mirrors_withMutator h _) fun _ => hstored
      · exact hstored

end

end Binding

/-- A call that changes the heap. -/
inductive HeapCall where
  | store (me : ThreadId) (tier : Tier) (d : Decorators) (source : ObjectRef) (slot : Slot) (operand : Operand)
  | copy (me : ThreadId) (d : Decorators) (c : BulkCopy)

namespace HeapCall

def thread : HeapCall → ThreadId
  | store me .. => me
  | copy me .. => me

def act (b : Binding μ ε) : HeapCall → Act (Binding.State μ ε) Unit
  | store me tier d source slot operand => b.storeReference me tier d source slot operand
  | copy me d c => b.copyReferences me d c

/-- The call with the mutator at hand. -/
def attached (b : Binding μ ε) : HeapCall → Act (Attached μ ε) Unit
  | store _ _ d source slot operand => Barrier.store b.options.barrier b.engine b.codec d source slot operand
  | copy _ d c => Barrier.copy b.options.barrier b.engine d c

theorem mirrors_act (b : Binding μ ε) {s : Binding.State μ ε} {mutator : Mutator} {call : HeapCall}
    (h : s.registry.current call.thread = some mutator) :
    Act.Mirrors (s.leave mutator.id) (call.act b) (call.attached b) := by
  cases call with
  | store me tier d source slot operand => exact Binding.mirrors_storeReference h tier d source slot operand
  | copy me d c => exact Binding.mirrors_withMutator h _

end HeapCall

namespace Binding
variable {b : Binding μ ε} {s : State μ ε}

/-- What a row of calls leaves, whether they return or fault. -/
def afterCalls (b : Binding μ ε) (s : State μ ε) (calls : List HeapCall) : State μ ε :=
  calls.foldl (fun s call => ((call.act b).run s).2) s

/-- A call by a registered thread does to the machine what it does with the mutator at hand. -/
theorem exists_leave_of_attaches {call : HeapCall} (h : s.registry.Attaches call.thread) :
    ∃ mutator state, ((call.act b).run s).2 = s.leave mutator ((call.attached b).run ⟨state, s.machine⟩).2 := by
  obtain ⟨mutator, hcurrent, hstate⟩ := h
  obtain ⟨state, hstate⟩ := Option.isSome_iff_exists.1 (Std.ExtTreeMap.mem_iff_isSome_getElem?.1 hstate)
  have hrun := call.mirrors_act b hcurrent ⟨state, s.machine⟩
  rw [State.leave_self hstate] at hrun
  exact ⟨mutator.id, state, congrArg Prod.snd hrun⟩

/-- What each call keeps of the machine, whoever the mutator is, a run of calls by registered threads keeps. -/
theorem afterCalls_keeps (kept : Machine ε → Prop) {calls : List HeapCall}
    (hregistered : ∀ call ∈ calls, s.registry.Attaches call.thread)
    (hcall : ∀ call ∈ calls, ∀ a : Attached μ ε, kept a.machine → kept ((call.attached b).run a).2.machine)
    (hs : kept s.machine) : kept (b.afterCalls s calls).machine := by
  induction calls generalizing s with
  | nil => exact hs
  | cons call calls ih =>
    obtain ⟨mutator, state, hleft⟩ := exists_leave_of_attaches (b := b) (hregistered call (List.mem_cons_self ..))
    rw [afterCalls, List.foldl_cons, hleft]
    apply ih
    · -- The state of one mutator is put back; no thread loses its own.
      intro other hother
      exact State.attaches_leave (hregistered other (List.mem_cons_of_mem _ hother)) _
    · intro other hother
      exact hcall other (List.mem_cons_of_mem _ hother)
    · exact hcall call (List.mem_cons_self ..) ⟨state, s.machine⟩ hs

/-- A collector that is bound to a host with two threads. -/
def forTwo (options : Options) (codec : PointerCodec) (engine : Engine Unit ε) : Binding Unit ε :=
  ⟨options, (twoThreads.binding options).layout, codec, twoThreads.host, engine⟩

/-- Both threads are registered. -/
def registeredTwo (machine : Machine ε) : State Unit ε :=
  { machine, registry := (twoMutators []).registry }

theorem attaches_twoMutators : ∀ me ∈ [ThreadId.mk "a", ⟨"b"⟩], (twoMutators []).registry.Attaches me := by
  refine List.forall_mem_cons.2 ⟨⟨⟨⟨1⟩, ⟨"a"⟩, none⟩, by decide +kernel, by decide +kernel⟩, ?_⟩
  exact List.forall_mem_singleton.2 ⟨⟨⟨2⟩, ⟨"b"⟩, none⟩, by decide +kernel, by decide +kernel⟩

end Binding

end Safepoint
