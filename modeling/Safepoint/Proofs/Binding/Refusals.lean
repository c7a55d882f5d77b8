import Safepoint.Binding.Cycle
import Safepoint.Proofs.Basic
import Safepoint.Proofs.Binding.RootSplits
import Safepoint.Proofs.Roots.CodeTable

/-!
# Handshakes that are refused

Only a collector stops and releases the mutators, and only where the world is ready for it. Any other call ends the
process before the host was asked for anything. What it leaves is the state it found, but for one flag: whether classes
are unloaded is noted before the world is asked.
-/
namespace Safepoint

namespace Act

variable {σ α β : Type}

/-- From a state with `P` the call does not end in a breach of the handshake, and what it returns has `Q` with the state
it leaves. -/
def Complies (P : σ → Prop) (act : Act σ α) (Q : α → σ → Prop) : Prop :=
  ∀ s, P s → match act.run s with
    | (.ok a, s') => Q a s'
    | (.error cause, _) => ∀ breach, cause ≠ .terminated (.violation breach)

namespace Complies

variable {P : σ → Prop} {act : Act σ α} {Q : α → σ → Prop}

theorem pure {a : α} (h : ∀ s, P s → Q a s) : Complies P (pure a) Q := h

theorem get : Complies P (MonadStateOf.get : Act σ σ) fun _ => P := fun _ hs => hs

theorem bind {next : α → Act σ β} {R : β → σ → Prop} (h : Complies P act Q) (hnext : ∀ a, Complies (Q a) (next a) R) :
    Complies P (act >>= next) R := by
  intro s hs
  have hact := h s hs
  rw [run_bind]
  rcases hrun : act.run s with ⟨cause | a, s'⟩
  · rw [hrun] at hact
    exact hact
  · rw [hrun] at hact
    exact hnext a s' hact

theorem modify {f : σ → σ} {Q : σ → Prop} (h : ∀ s, P s → Q (f s)) :
    Complies P (MonadState.modifyGet fun s => ((), f s)) fun _ => Q := h

/-- A condition that does not depend on the state. -/
theorem given {p : Prop} (h : p → Complies P act Q) : Complies (fun s => p ∧ P s) act Q := fun s hs => h hs.1 s hs.2

theorem forM {call : β → Act σ PUnit} (h : ∀ b, Complies P (call b) fun _ => P) (bs : List β) :
    Complies P (bs.forM call) fun _ => P := by
  induction bs with
  | nil => exact pure fun _ hs => hs
  | cons b bs ih =>
    rw [List.forM_eq_forM, List.forM_cons]
    exact bind (h b) fun _ => ih

theorem not_breach (h : Complies P act Q) {s : σ} (hs : P s) (breach : Violation) :
    act.faultOf s ≠ some (.terminated (.violation breach)) := by
  intro hfault
  obtain ⟨s', hrun⟩ := exists_run_eq_error hfault
  have hact := h s hs
  rw [hrun] at hact
  exact hact breach rfl

end Complies

end Act

open Act (Complies)

/-- The services of the host around a stop and a start breach the handshake themselves in no case. -/
structure Host.Compliant {ε : Type} (host : Host ε) : Prop where
  hook : ∀ hook c, Complies (fun _ => True) (host.hook hook c) fun _ _ => True
  suspendAll : ∀ c, Complies (fun _ => True) (host.suspendAll c) fun _ _ => True
  resumeAll : ∀ c, Complies (fun _ => True) (host.resumeAll c) fun _ _ => True

namespace Binding

variable {μ ε : Type}

/-- What a collector may ask of the world. -/
inductive Order where
  | stop (unload : Bool)
  | resume

namespace Order

/-- Where the world has to be. -/
def source : Order → WorldState
  | .stop _ => .running
  | .resume => .suspended

/-- Where the order takes it first. -/
def target : Order → WorldState
  | .stop _ => .suspendRequested
  | .resume => .resumeRequested

/-- Whether classes are unloaded from then on. -/
def unload : Order → Bool
  | .stop unload => unload
  | .resume => false

def act (b : Binding μ ε) (me : ThreadId) : Order → Act (State μ ε) Unit
  | .stop unload => do let _ ← b.stopAllMutators me unload
  | .resume => do let _ ← b.resumeMutators me

theorem successor_eq_target (order : Order) (state : WorldState) :
    state.successor = order.target ↔ state = order.source := by
  cases order <;> cases state <;> simp [source, target, WorldState.successor]

end Order

/-- Why an order is refused, if it is: its caller is no collector, or the world is elsewhere. -/
def State.refusal (s : State μ ε) (me : ThreadId) (order : Order) : Option Violation :=
  match s.registry.requireCollector me with
  | .error breach => some breach
  | .ok _ => if s.world.state = order.source then none else some (.illegalTransition s.world.state order.target)

/-- What a refused order leaves behind. -/
def State.afterRefusal (s : State μ ε) (me : ThreadId) (order : Order) : State μ ε :=
  match s.registry.requireCollector me with
  | .error _ => s
  | .ok _ => { s with unloading := order.unload }

section

variable {b : Binding μ ε} {me : ThreadId} {s : State μ ε} {order : Order} {breach : Violation}

theorem run_transition (target : WorldState) (s : State μ ε) :
    (Handshake.transition State.worldPlace target).run s =
      if s.world.state.successor = target then (.ok (.ok ()), { s with world := { s.world with state := target } })
      else (.ok (.error (.illegalTransition s.world.state target)), s) := by
  by_cases h : s.world.state.successor = target <;>
    simp [Act.run, Handshake.transition, State.worldPlace, Coordinator.advance, h]

/-- One more completed cycle is counted, if it can be. -/
theorem run_bump (s : State μ ε) : (Act.within State.worldPlace (Act.update Coordinator.bump)).run s =
    if s.world.generation.toNat + 1 < wordLimit then
      (.ok (s.world.generation + 1), { s with world.generation := s.world.generation + 1 })
    else (.error (.panic .addOverflow), s) := by
  have hone : UInt64.toNat 1 = 1 := rfl
  by_cases hlt : s.world.generation.toNat + 1 < wordLimit <;>
    simp [Act.run_within, State.worldPlace, Coordinator.bump, addChecked, hone, hlt, bind, Except.bind, pure,
      Except.pure]

/-- An order from a thread that is no collector goes nowhere. -/
theorem run_order_of_error (h : s.registry.requireCollector me = .error breach) :
    (order.act b me).run s = (.error (.terminated (.violation breach)), s) := by
  have hinsist : (insist (s.registry.requireCollector me) : Act (State μ ε) CollectorKind).run s =
      (.error (.terminated (.violation breach)), s) := by
    rw [h]
    rfl
  cases order with
  | stop unload => exact Act.run_bind_error ((Act.run_bind_ok (Act.run_get s)).trans (Act.run_bind_error hinsist))
  | resume => exact Act.run_bind_error ((Act.run_bind_ok (Act.run_get s)).trans (Act.run_bind_error hinsist))

/-- What is left of a stop after its caller was found to be a collector. -/
def stopping (b : Binding μ ε) (me : ThreadId) (unload : Bool) : Act (State μ ε) Unit := do
  insist (← Handshake.stop State.worldPlace (b.threads me) (b.prologue unload))

/-- What is left of a release. -/
def resuming (b : Binding μ ε) (me : ThreadId) : Act (State μ ε) Unit := do
  let resumed ← Handshake.start State.worldPlace (b.threads me) b.epilogue
  modify fun s => { s with unloading := false }
  let _ ← insist resumed

theorem run_insist_collector {kind : CollectorKind} (h : s.registry.requireCollector me = .ok kind) :
    (insist (s.registry.requireCollector me) : Act (State μ ε) CollectorKind).run s = (.ok kind, s) := by
  rw [h]
  rfl

theorem run_stop_of_ok {kind : CollectorKind} (h : s.registry.requireCollector me = .ok kind) (unload : Bool) :
    ((Order.stop unload).act b me).run s = (b.stopping me unload).run { s with unloading := unload } := by
  have hmodify : (modify fun s => { s with unloading := unload } : Act (State μ ε) Unit).run s =
      (.ok (), { s with unloading := unload }) := rfl
  simp only [Order.act, stopAllMutators, bind_assoc]
  rw [Act.run_bind_ok (Act.run_get s), Act.run_bind_ok (run_insist_collector h), Act.run_bind_ok hmodify]
  refine congrArg (fun act : Act (State μ ε) Unit => act.run { s with unloading := unload })
    (bind_congr fun stopped => ?_)
  cases stopped <;> rfl

theorem run_resume_of_ok {kind : CollectorKind} (h : s.registry.requireCollector me = .ok kind) :
    (Order.resume.act b me).run s = (b.resuming me).run s := by
  simp only [Order.act, resumeMutators, bind_assoc]
  rw [Act.run_bind_ok (Act.run_get s), Act.run_bind_ok (run_insist_collector h)]
  rfl

theorem run_target_of_elsewhere (order : Order) (h : s.world.state ≠ order.source) :
    (Handshake.transition State.worldPlace order.target).run s =
      (.ok (.error (.illegalTransition s.world.state order.target)), s) := by
  rw [run_transition, if_neg (mt (order.successor_eq_target _).1 h)]

/-- A collector's order that the world is not ready for ends before the host is asked for anything, but the flag has
changed. -/
theorem run_order_of_elsewhere {kind : CollectorKind} (h : s.registry.requireCollector me = .ok kind)
    (helsewhere : s.world.state ≠ order.source) : (order.act b me).run s =
      (.error (.terminated (.violation (.illegalTransition s.world.state order.target))),
        { s with unloading := order.unload }) := by
  cases order with
  | stop unload =>
    let flagged := { s with unloading := unload }
    have hstop : (Handshake.stop State.worldPlace (b.threads me) (b.prologue unload)).run flagged =
        (.ok (.error (.illegalTransition s.world.state .suspendRequested)), flagged) :=
      (Act.run_bind_ok (run_target_of_elsewhere (s := flagged) (.stop unload) helsewhere)).trans rfl
    rw [run_stop_of_ok h]
    exact Act.run_bind_ok hstop
  | resume =>
    have hstart : (Handshake.start State.worldPlace (b.threads me) b.epilogue).run s =
        (.ok (.error (.illegalTransition s.world.state .resumeRequested)), s) :=
      (Act.run_bind_ok (run_target_of_elsewhere .resume helsewhere)).trans rfl
    rw [run_resume_of_ok h]
    exact Act.run_bind_ok hstart

theorem run_order_of_refusal (h : s.refusal me order = some breach) :
    (order.act b me).run s = (.error (.terminated (.violation breach)), s.afterRefusal me order) := by
  unfold State.refusal at h
  unfold State.afterRefusal
  cases hkind : s.registry.requireCollector me with
  | error other =>
    simp only [hkind, Option.some.injEq] at h
    subst h
    exact run_order_of_error hkind
  | ok kind =>
    simp only [hkind, Option.ite_none_left_eq_some, Option.some.injEq] at h
    obtain ⟨helsewhere, rfl⟩ := h
    exact run_order_of_elsewhere hkind helsewhere

end

section

variable {b : Binding μ ε} {me : ThreadId} {s : State μ ε} {order : Order} {source target : WorldState}

/-- No service of the host changes where the world is. -/
theorem complies_shown {service : Coordinator → Act (Machine ε) Unit}
    (h : ∀ c, Complies (fun _ => True) (service c) fun _ _ => True) :
    Complies (fun s : State μ ε => s.world.state = source) (shown service) fun _ s => s.world.state = source := by
  intro s hs
  have hservice := h s.world s.machine trivial
  simp only [shown, onMachine, Act.run_bind_ok (Act.run_get s), Act.run_within, State.machinePlace]
  rcases hrun : (service s.world).run s.machine with ⟨cause | ⟨⟩, m⟩
  · rw [hrun] at hservice
    exact hservice
  · exact hs

/-- A transition that the world is ready for is made. -/
theorem complies_transition (h : source.successor = target) : Complies (fun s : State μ ε => s.world.state = source)
    (Handshake.transition State.worldPlace target) fun passed s => passed = .ok () ∧ s.world.state = target := by
  intro s hs
  rw [run_transition, hs, if_pos h]
  exact ⟨rfl, rfl⟩

theorem complies_prologue (h : b.host.Compliant) (unload : Bool) :
    Complies (fun s : State μ ε => s.world.state = source) (b.prologue unload) fun _ s => s.world.state = source := by
  have hbegin : Complies (fun s : State μ ε => s.world.state = source) (Act.within State.codePlace CodeTable.beginCycle)
      fun _ s => s.world.state = source := by
    intro s hs
    rw [Act.run_within, CodeTable.run_beginCycle]
    by_cases hzero : s.codeTable.epoch + 1 = 0
    · simp [State.codePlace, hzero]
    · simpa [State.codePlace, hzero] using hs
  refine .bind hbegin fun _ => .bind (complies_shown (h.hook _)) fun _ => ?_
  dsimp only
  split
  · exact .bind (complies_shown (h.hook _)) fun _ => complies_shown (h.hook _)
  · exact complies_shown (h.hook _)

theorem complies_epilogue (h : b.host.Compliant) :
    Complies (fun s : State μ ε => s.world.state = source) b.epilogue fun _ s => s.world.state = source := by
  have hlast : Complies (fun s : State μ ε => s.world.state = source) (do
      shown (b.host.hook .codeCacheEpilogue)
      shown (b.host.hook .derivedPointersUpdate)) fun _ s => s.world.state = source :=
    .bind (complies_shown (h.hook _)) fun _ => complies_shown (h.hook _)
  unfold epilogue
  split
  · exact .bind .get fun now => .bind (.forM (fun code => complies_shown (h.hook _)) _) fun _ => hlast
  · exact hlast

theorem complies_insist {α : Type} {P : State μ ε → Prop} (a : α) : Complies P (insist (.ok a)) fun _ => P :=
  fun _ hs => hs

/-- An order that was let in is not turned away later. -/
theorem complies_stopping (h : b.host.Compliant) (me : ThreadId) (unload : Bool) :
    Complies (fun s => s.world.state = .running) (b.stopping me unload) fun _ s => s.world.state = .suspended := by
  have hstop : Complies (fun s => s.world.state = .running)
      (Handshake.stop State.worldPlace (b.threads me) (b.prologue unload))
      fun passed s => passed = .ok () ∧ s.world.state = .suspended := by
    refine .bind (complies_transition rfl) fun passed => .given ?_
    rintro rfl
    refine .bind (complies_prologue h unload) fun _ => .bind (complies_shown h.suspendAll) fun _ => ?_
    exact complies_transition rfl
  refine .bind hstop fun passed => .given ?_
  rintro rfl
  exact complies_insist ()

theorem complies_bump : Complies (fun s : State μ ε => s.world.state = source)
    (Act.within State.worldPlace (Act.update Coordinator.bump)) fun _ s => s.world.state = source := by
  intro s hs
  rw [run_bump]
  by_cases hlt : s.world.generation.toNat + 1 < wordLimit
  · rw [if_pos hlt]
    exact hs
  · rw [if_neg hlt]
    exact fun breach => Fault.noConfusion

theorem complies_resuming (h : b.host.Compliant) (me : ThreadId) :
    Complies (fun s => s.world.state = .suspended) (b.resuming me) fun _ s => s.world.state = .running := by
  have hstart : Complies (fun s => s.world.state = .suspended)
      (Handshake.start State.worldPlace (b.threads me) b.epilogue)
      fun resumed s => (∃ count, resumed = .ok count) ∧ s.world.state = .running := by
    refine .bind (complies_transition rfl) fun passed => .given ?_
    rintro rfl
    refine .bind (complies_epilogue h) fun _ => .bind complies_bump fun count => ?_
    refine .bind (complies_shown h.resumeAll) fun _ => .bind (complies_transition rfl) fun passed => .given ?_
    rintro rfl
    exact .pure fun s hs => ⟨⟨count, rfl⟩, hs⟩
  refine .bind hstart fun resumed => .given ?_
  rintro ⟨count, rfl⟩
  exact .bind (.modify fun s hs => hs) fun _ => complies_insist count

theorem not_breach_of_refusal_eq_none (hhost : b.host.Compliant) (h : s.refusal me order = none) (breach : Violation) :
    (order.act b me).faultOf s ≠ some (.terminated (.violation breach)) := by
  unfold State.refusal at h
  cases hkind : s.registry.requireCollector me with
  | error other => simp [hkind] at h
  | ok kind =>
    have hsource : s.world.state = order.source := by simpa [hkind] using h
    cases order with
    | stop unload =>
      have hstopping := (complies_stopping (b := b) hhost me unload).not_breach
        (s := { s with unloading := unload }) hsource breach
      rwa [Act.faultOf, ← run_stop_of_ok hkind] at hstopping
    | resume =>
      have hresuming := (complies_resuming (b := b) hhost me).not_breach hsource breach
      rwa [Act.faultOf, ← run_resume_of_ok hkind] at hresuming

end

/-- An order ends in a breach of the handshake just where its caller is no collector or the world is elsewhere, if the
host commits no breach itself. What it leaves is the state it found, and the host was asked for nothing. Only the flag
for class unloading is another if the caller is a collector. -/
theorem refused_order (b : Binding μ ε) (s : State μ ε) (me : ThreadId) (order : Order) :
    (∀ breach, s.refusal me order = some breach →
      (order.act b me).run s = (.error (.terminated (.violation breach)), s.afterRefusal me order)) ∧
    (b.host.Compliant → ∀ breach s', (order.act b me).run s = (.error (.terminated (.violation breach)), s') →
      s.refusal me order = some breach) := by
  refine ⟨fun breach => run_order_of_refusal, fun hhost breach s' hrun => ?_⟩
  cases hrefusal : s.refusal me order with
  | none =>
    refine absurd ?_ (not_breach_of_refusal_eq_none (b := b) hhost hrefusal breach)
    simp [Act.faultOf, hrun]
  | some other =>
    have hother := (run_order_of_refusal (b := b) hrefusal).symm.trans hrun
    simp only [Prod.mk.injEq, Except.error.injEq, Fault.terminated.injEq, Termination.violation.injEq] at hother
    rw [hother.1]

/-- Two collectors are at work, and the first has stopped the mutators to unload classes. -/
def unloadingCycle : State Unit Unit :=
  ((do
    enterCollector ⟨"a"⟩ .controller
    enterCollector ⟨"b"⟩ .worker
    (Order.stop true).act (twoThreads.binding {}) ⟨"a"⟩ : Act (State Unit Unit) Unit).run { machine := ⟨.zero, ()⟩ }).2

theorem HostRoots.compliant {ε : Type} (roots : HostRoots) : (roots.host : Host ε).Compliant :=
  ⟨fun _ _ _ _ => trivial, fun _ _ _ => trivial, fun _ _ _ => trivial⟩

/-- The second collector's stop is refused, and leaves the flag it came with. -/
theorem second_stop_refused : let s := unloadingCycle
    let act := (Order.stop false).act (twoThreads.binding {}) ⟨"b"⟩
    let breach := Violation.illegalTransition .suspended .suspendRequested
    act.run s = (.error (.terminated (.violation breach)), { s with unloading := false }) ∧
      s.refusal ⟨"b"⟩ (.stop false) = some breach := by
  intro s act breach
  obtain ⟨hrefused, hbreach⟩ := refused_order (twoThreads.binding {}) s ⟨"b"⟩ (.stop false)
  have hrun := hrefused breach (by decide +kernel)
  have hcollector : s.registry.requireCollector ⟨"b"⟩ = .ok .worker := by decide +kernel
  have hafter : s.afterRefusal ⟨"b"⟩ (.stop false) = { s with unloading := false } := by
    unfold State.afterRefusal
    rw [hcollector]
    rfl
  exact ⟨hrun.trans (by rw [hafter]), hbreach (HostRoots.compliant _) breach _ hrun⟩

/-- So classes are no longer unloaded in a cycle that was started to unload them. -/
theorem unloading_lost_by_refused_stop : let s := unloadingCycle
    let act := (Order.stop false).act (twoThreads.binding {}) ⟨"b"⟩
    act.faultOf s = some (.terminated (.violation (.illegalTransition .suspended .suspendRequested))) ∧
      s.world = ⟨.suspended, 0⟩ ∧ (act.run s).2.world = ⟨.suspended, 0⟩ ∧
      s.unloading = true ∧ (act.run s).2.unloading = false := by
  decide +kernel

end Binding

end Safepoint
