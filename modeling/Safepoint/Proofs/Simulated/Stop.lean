import Safepoint.Proofs.Binding.Frames
import Safepoint.Proofs.Roots.CodeTable
import Safepoint.Proofs.Simulated.Host
import Safepoint.Simulated.Cycle

/-!
# Stops and releases of a simulation

A stop that finds the world running and its threads in their places returns, and so does the release after it. Besides
the host's records they change the state of the world and of the code table, and nothing else.
-/
namespace Safepoint.Simulated

open Act (Meets)

/-- Where fields lie, once the facts of the host were judged. -/
def simLayout : Layout := ⟨16, 24, 8, 8, 24, 16, 0x5eed⟩

theorem validate_layoutFacts : layoutFacts.validate = .ok simLayout := by rfl

/-- A binding of the simulation's host to its collector, which has the heap in the given range, or none. -/
def simBinding (options : Options) (codec : PointerCodec) (range : Option (Address × Address)) : SimBinding :=
  ⟨options, simLayout, codec, host, engine range⟩

theorem ofCodec_eq {options : Options} {codec : PointerCodec} {layout : Layout}
    {range : Option (Address × Address)} {b : SimBinding} (hlayout : layoutFacts.validate = .ok layout)
    (hmade : Binding.ofCodec options layout host (engine range) codec = .ok b) :
    b = simBinding options codec range := by
  rw [validate_layoutFacts] at hlayout
  cases hlayout
  unfold Binding.ofCodec at hmade
  cases hvalid : options.validate with
  | error e => simp [hvalid, Except.map] at hmade
  | ok _ =>
    simp only [hvalid, Except.map, Except.ok.injEq] at hmade
    exact hmade.symm

/-- The state without the records of the host and the places of its threads. -/
def hush (s : World) : World := { s with machine := quiet s.machine }

variable {options : Options} {codec : PointerCodec} {range : Option (Address × Address)} {me : ThreadId} {s t : World}

/-- A change of the world's state is seen as it is. -/
theorem hush_world (h : hush s = t) (state : WorldState) :
    hush { s with world.state := state } = { t with world.state := state } := by
  subst h
  rfl

/-- Of a change of the machine the hushed part is seen. -/
theorem hush_machine (h : hush s = t) (m : SimMachine) :
    hush { s with machine := m } = { t with machine := quiet m } := by
  subst h
  rfl

/-- What an entry in the host's list of hooks leaves as it is, a hook leaves as it is. -/
theorem hook_meets {P : World → Prop}
    (h : ∀ (s : World) hooks, P s → P { s with machine.env.host.hooks := hooks }) (hook : CycleHook) :
    Meets P (Binding.shown ((simBinding options codec range).host.hook hook)) fun _ s => P s :=
  fun s hs => ⟨(), _, rfl, h s _ hs⟩

/-- The world as a stop leaves it. -/
def stoppedFrom (t : World) (unload : Bool) : World :=
  { t with world.state := .suspended, codeTable.epoch := t.codeTable.epoch + 1, unloading := unload }

theorem prologue_meets (hepoch : t.codeTable.epoch + 1 ≠ 0) (unload : Bool) :
    Meets (fun s => hush s = t ∧ Waits s.machine.env.host) ((simBinding options codec range).prologue unload)
      fun _ s => hush s = { t with codeTable.epoch := t.codeTable.epoch + 1 } ∧ Waits s.machine.env.host := by
  let begun (s : World) : Prop :=
    hush s = { t with codeTable.epoch := t.codeTable.epoch + 1 } ∧ Waits s.machine.env.host
  have hhook (hook : CycleHook) :
      Meets begun (Binding.shown ((simBinding options codec range).host.hook hook)) fun _ => begun :=
    hook_meets (fun _ _ hs => hs) hook
  apply Meets.bind (Q := fun _ => begun)
  · rintro s ⟨rfl, hwaits⟩
    have hbegin : (Act.within Binding.State.codePlace CodeTable.beginCycle).run s =
        (.ok (s.codeTable.epoch + 1), { s with codeTable.epoch := s.codeTable.epoch + 1 }) := by
      have hzero : ¬ s.codeTable.epoch + 1 = 0 := hepoch
      simp [Binding.State.codePlace, CodeTable.run_beginCycle, hzero]
    exact ⟨_, _, hbegin, rfl, hwaits⟩
  · intro _
    apply Meets.bind (hhook _)
    intro _
    dsimp only
    split
    · exact .bind (hhook _) fun _ => hhook _
    · exact hhook _

theorem insist_meets {α : Type} {outcome : Except Violation α} {a : α} {P : World → Prop} (h : outcome = .ok a) :
    Meets P (Binding.insist outcome) fun b s => b = a ∧ P s := by
  subst h
  exact fun s hs => ⟨a, s, rfl, rfl, hs⟩

theorem transition_meets {P Q : World → Prop} {target : WorldState}
    (h : ∀ s, P s → s.world.state.successor = target ∧ Q { s with world.state := target }) :
    Meets P (Handshake.transition Binding.State.worldPlace target) fun refused s => refused = .ok () ∧ Q s := by
  intro s hs
  obtain ⟨hnext, hq⟩ := h s hs
  refine ⟨.ok (), { s with world.state := target }, ?_, rfl, hq⟩
  simp [Act.run, Handshake.transition, Coordinator.advance, Binding.State.worldPlace, hnext]

/-- A step after one that was not refused. -/
theorem unrefused {α β : Type} {a : α} {Q : World → Prop} {next : Except Violation α → Act World β}
    {R : β → World → Prop} (h : Meets Q (next (.ok a)) R) (refused : Except Violation α) :
    Meets (fun s => refused = .ok a ∧ Q s) (next refused) R := by
  rintro s ⟨rfl, hs⟩
  exact h s hs

/-- A collector thread is let through. -/
theorem require_meets {kind : CollectorKind} {P : World → Prop} {now : World}
    (h : ∀ s, P s → s.registry.collectors[me]? = some kind) :
    Meets (fun s => now = s ∧ P s) (Binding.insist (now.registry.requireCollector me)) fun _ => P := by
  rintro s ⟨rfl, hs⟩
  have hrequire : now.registry.requireCollector me = .ok kind := by simp [Registry.requireCollector, h now hs]
  obtain ⟨_, s', hrun, -, hs'⟩ := insist_meets hrequire now hs
  exact ⟨_, s', hrun, hs'⟩

/-- A collector thread may stop a running world. -/
theorem stop_meets (options : Options) (codec : PointerCodec) (range : Option (Address × Address))
    {kind : CollectorKind} (hcollector : t.registry.collectors[me]? = some kind) (hrunning : t.world.state = .running)
    (hepoch : t.codeTable.epoch + 1 ≠ 0) (unload : Bool) :
    Meets (fun s => hush s = t ∧ Waits s.machine.env.host)
      ((simBinding options codec range).stopAllMutators me unload) fun _ s => hush s = stoppedFrom t unload := by
  let asked : World := { t with unloading := unload, world.state := .suspendRequested }
  have hask : Meets (fun s => hush s = { t with unloading := unload } ∧ Waits s.machine.env.host)
      (Handshake.transition Binding.State.worldPlace .suspendRequested)
      fun refused s => refused = .ok () ∧ hush s = asked ∧ Waits s.machine.env.host := by
    apply transition_meets
    rintro s ⟨hs, hwaits⟩
    have hstate : s.world.state = .running := (congrArg (fun s : World => s.world.state) hs).trans hrunning
    exact ⟨by simp [hstate, WorldState.successor], hush_world hs .suspendRequested, hwaits⟩
  have hsuspend : Meets (fun s => hush s = { asked with codeTable.epoch := t.codeTable.epoch + 1 } ∧
        Waits s.machine.env.host)
      (Binding.shown (simBinding options codec range).host.suspendAll)
      fun _ s => hush s = { asked with codeTable.epoch := t.codeTable.epoch + 1 } := by
    apply Meets.bind Meets.get
    intro _
    apply Meets.within (suspendAll_meets t.machine)
    · rintro s ⟨-, hs, hwaits⟩
      exact ⟨congrArg Binding.State.machine hs, hwaits⟩
    · rintro s _ m ⟨-, hs, -⟩ hm
      refine (hush_machine hs m).trans ?_
      rw [hm]
  have hgrant : Meets (fun s => hush s = { asked with codeTable.epoch := t.codeTable.epoch + 1 })
      (Handshake.transition Binding.State.worldPlace .suspended)
      fun refused s => refused = .ok () ∧ hush s = stoppedFrom t unload := by
    apply transition_meets
    intro s hs
    have hstate : s.world.state = .suspendRequested := congrArg (fun s : World => s.world.state) hs
    exact ⟨by simp [hstate, WorldState.successor], hush_world hs .suspended⟩
  have hstop : Meets (fun s => hush s = { t with unloading := unload } ∧ Waits s.machine.env.host)
      (Handshake.stop Binding.State.worldPlace ((simBinding options codec range).threads me)
        ((simBinding options codec range).prologue unload))
      fun refused s => refused = .ok () ∧ hush s = stoppedFrom t unload :=
    .bind hask (unrefused (.bind (prologue_meets (t := asked) hepoch unload) fun _ => .bind hsuspend fun _ => hgrant))
  apply Meets.bind Meets.get
  intro s₀
  apply Meets.bind (Q := fun _ s => hush s = t ∧ Waits s.machine.env.host)
  · have hknown : ∀ s, hush s = t ∧ Waits s.machine.env.host → s.registry.collectors[me]? = some kind := by
      rintro s ⟨hs, -⟩
      rw [← hs] at hcollector
      exact hcollector
    exact require_meets hknown
  · intro _
    apply Meets.bind (Q := fun _ s => hush s = { t with unloading := unload } ∧ Waits s.machine.env.host)
    · apply Meets.modify
      rintro s ⟨rfl, hwaits⟩
      exact ⟨rfl, hwaits⟩
    · intro _
      apply Meets.bind hstop
      apply unrefused
      apply Meets.bind (insist_meets rfl)
      intro _
      apply Meets.bind Meets.get
      intro _
      apply Meets.pure
      rintro s ⟨-, -, hs⟩
      exact hs

/-- The world as a release leaves it. -/
def resumedFrom (t : World) : World :=
  { t with world := ⟨.running, t.world.generation + 1⟩, unloading := false }

theorem epilogue_meets :
    Meets (fun s => hush s = t) (simBinding options codec range).epilogue fun _ s => hush s = t := by
  have hhook (hook : CycleHook) : Meets (fun s => hush s = t)
      (Binding.shown ((simBinding options codec range).host.hook hook)) fun _ s => hush s = t :=
    hook_meets (fun _ _ hs => hs) hook
  have hafter : Meets (fun s => hush s = t) (do
      Binding.shown ((simBinding options codec range).host.hook .codeCacheEpilogue)
      Binding.shown ((simBinding options codec range).host.hook .derivedPointersUpdate)) fun _ s => hush s = t :=
    .bind (hhook _) fun _ => hhook _
  unfold Binding.epilogue
  split
  · apply Meets.bind (Q := fun _ s => hush s = t) (Meets.get.mono (fun _ hs => hs) fun _ _ hs => hs.2)
    intro s
    apply Meets.bind
    · apply Meets.forM
      intro code _
      exact hhook _
    · intro _
      exact hafter
  · exact hafter

/-- The count of cycles goes up by one. -/
theorem bump_meets (hcount : t.world.generation.toNat + 1 < wordLimit) :
    Meets (fun s => hush s = t) (Act.within Binding.State.worldPlace (Act.update Coordinator.bump))
      fun generation s => generation = t.world.generation + 1 ∧
        hush s = { t with world.generation := t.world.generation + 1 } := by
  rintro s rfl
  have hsum : addChecked s.world.generation 1 = .ok (s.world.generation + 1) :=
    addChecked_eq_ok.2 (toNat_add_one hcount)
  have hbump : s.world.bump =
      .ok (s.world.generation + 1, { s.world with generation := s.world.generation + 1 }) := by
    simp [Coordinator.bump, hsum, bind, Except.bind, pure, Except.pure]
  refine ⟨s.world.generation + 1, { s with world.generation := s.world.generation + 1 }, ?_, rfl, rfl⟩
  simp [Binding.State.worldPlace, hbump]

/-- A collector thread may release a suspended world. -/
theorem resume_meets (options : Options) (codec : PointerCodec) (range : Option (Address × Address))
    {kind : CollectorKind} (hcollector : t.registry.collectors[me]? = some kind) (hsuspended : t.world.state = .suspended)
    (hcount : t.world.generation.toNat + 1 < wordLimit) :
    Meets (fun s => hush s = t) ((simBinding options codec range).resumeMutators me)
      fun _ s => hush s = resumedFrom t := by
  let asked : World := { t with world.state := .resumeRequested }
  let counted : World := { asked with world.generation := t.world.generation + 1 }
  have hask : Meets (fun s => hush s = t) (Handshake.transition Binding.State.worldPlace .resumeRequested)
      fun refused s => refused = .ok () ∧ hush s = asked := by
    apply transition_meets
    rintro s rfl
    have hstate : s.world.state = .suspended := hsuspended
    exact ⟨by simp [hstate, WorldState.successor], rfl⟩
  have hbump : Meets (fun s => hush s = asked) (Act.within Binding.State.worldPlace (Act.update Coordinator.bump))
      fun generation s => generation = t.world.generation + 1 ∧ hush s = counted :=
    bump_meets (t := asked) hcount
  have hresume : Meets (fun s => hush s = counted)
      (Binding.shown (simBinding options codec range).host.resumeAll) fun _ s => hush s = counted := by
    apply Meets.bind Meets.get
    intro _
    apply Meets.within (resumeAll_meets t.machine)
    · rintro s ⟨-, hs⟩
      exact congrArg Binding.State.machine hs
    · rintro s _ m ⟨-, hs⟩ hm
      refine (hush_machine hs m).trans ?_
      rw [hm]
  have hrun : Meets (fun s => hush s = counted) (Handshake.transition Binding.State.worldPlace .running)
      fun refused s => refused = .ok () ∧ hush s = { counted with world.state := .running } := by
    apply transition_meets
    intro s hs
    have hstate : s.world.state = .resumeRequested := congrArg (fun s : World => s.world.state) hs
    exact ⟨by simp [hstate, WorldState.successor], hush_world hs .running⟩
  have hstart : Meets (fun s => hush s = t)
      (Handshake.start Binding.State.worldPlace ((simBinding options codec range).threads me)
        (simBinding options codec range).epilogue)
      fun resumed s => resumed = .ok (t.world.generation + 1) ∧ hush s = { counted with world.state := .running } := by
    apply Meets.bind hask
    apply unrefused
    apply Meets.bind epilogue_meets
    intro _
    apply Meets.bind hbump
    intro generation s hs
    obtain ⟨rfl, hs⟩ := hs
    obtain ⟨_, s₁, hresumed, hs₁⟩ := hresume s hs
    obtain ⟨refused, s₂, htransition, rfl, hs₂⟩ := hrun s₁ hs₁
    refine ⟨.ok (t.world.generation + 1), s₂, ?_, rfl, hs₂⟩
    refine (Act.run_bind_ok hresumed).trans ?_
    exact Act.run_bind_ok htransition
  apply Meets.bind Meets.get
  intro s₀
  apply Meets.bind (Q := fun _ s => hush s = t)
  · have hknown : ∀ s, hush s = t → s.registry.collectors[me]? = some kind := by
      intro s hs
      rw [← hs] at hcollector
      exact hcollector
    exact require_meets hknown
  · intro _
    apply Meets.bind hstart
    apply unrefused
    apply Meets.bind (Q := fun _ s => hush s = resumedFrom t)
    · apply Meets.modify
      intro s hs
      have hhush : hush { s with unloading := false } = { hush s with unloading := false } := rfl
      rw [hhush, hs]
      rfl
    · intro _
      exact (insist_meets rfl).mono (fun _ hs => hs) fun _ _ hs => hs.2

end Safepoint.Simulated
