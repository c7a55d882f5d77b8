import Safepoint.Proofs.Binding.Frames
import Safepoint.Proofs.Binding.Refusals

/-!
# What a host is asked for in a cycle

A host that keeps a journal sees the services of a cycle in order: the hooks before the mutators are parked, their
suspension, the hooks before they are released, and their release, each with the world as it is shown to it. A call that
breaks off has asked for the first of its services and no others.
-/
namespace Safepoint

open Act (Moves)

/-- A service of the host that a cycle asks for. -/
inductive HostCall where
  | hook (hook : CycleHook)
  | suspendAll
  | resumeAll
  deriving DecidableEq

/-- An entry of the journal: the service, and the world that it is shown. -/
structure HostEntry where
  call : HostCall
  world : Coordinator
  deriving DecidableEq

/-- A host that does what it does and keeps a journal, also where a service faults. Walks over roots are not entered. -/
structure Host.Journals {ε : Type} (host : Host ε) (journal : ε → List HostEntry) : Prop where
  hook : ∀ hook c m, journal ((host.hook hook c).run m).2.env = journal m.env ++ [⟨.hook hook, c⟩]
  suspendAll : ∀ c m, journal ((host.suspendAll c).run m).2.env = journal m.env ++ [⟨.suspendAll, c⟩]
  resumeAll : ∀ c m, journal ((host.resumeAll c).run m).2.env = journal m.env ++ [⟨.resumeAll, c⟩]
  walks : host.Walks fun walk => ∀ m, journal (walk.run m).2.env = journal m.env

namespace Act

variable {σ α β κ : Type} {log : σ → List κ} {act : Act σ α} {s : σ} {entries more : List κ}

/-- From `s` the call makes these entries, or the first of them if it faults. -/
def Logs (log : σ → List κ) (act : Act σ α) (s : σ) (entries : List κ) : Prop :=
  ∃ made, made <+: entries ∧ log (act.run s).2 = log s ++ made ∧ (act.faultOf s = none → made = entries)

namespace Logs

theorem one {entry : κ} (h : log (act.run s).2 = log s ++ [entry]) : Logs log act s [entry] :=
  ⟨[entry], List.prefix_rfl, h, fun _ => rfl⟩

theorem nothing (h : log (act.run s).2 = log s) : Logs log act s [] :=
  ⟨[], List.prefix_rfl, by rw [h, List.append_nil], fun _ => rfl⟩

theorem congr {act' : Act σ α} (h : Logs log act s entries) (hrun : act'.run s = act.run s) :
    Logs log act' s entries := by
  unfold Logs faultOf at h ⊢
  rwa [hrun]

theorem bind {next : α → Act σ β} (h : Logs log act s entries)
    (hnext : ∀ a s', act.run s = (.ok a, s') → Logs log (next a) s' more) :
    Logs log (act >>= next) s (entries ++ more) := by
  obtain ⟨made, hprefix, hlog, hall⟩ := h
  rcases hrun : act.run s with ⟨cause | a, s'⟩
  · rw [hrun] at hlog
    refine ⟨made, hprefix.trans (List.prefix_append ..), by rw [run_bind_error hrun, hlog], fun hnone => ?_⟩
    simp [faultOf, run_bind_error hrun] at hnone
  · rw [hrun] at hlog
    obtain ⟨made', hprefix', hlog', hall'⟩ := hnext a s' hrun
    have hmade : made = entries := hall (by simp [faultOf, hrun])
    subst hmade
    refine ⟨made ++ made', List.prefix_append_right_inj .. |>.2 hprefix', ?_, fun hnone => ?_⟩
    · rw [run_bind_ok hrun, hlog', hlog, List.append_assoc]
    · rw [hall' (by rwa [faultOf, run_bind_ok hrun] at hnone)]

/-- A call that makes no entries, and one after it. -/
theorem before {next : α → Act σ β} (h : log (act.run s).2 = log s)
    (hnext : ∀ a s', act.run s = (.ok a, s') → Logs log (next a) s' entries) : Logs log (act >>= next) s entries :=
  (nothing h).bind hnext

/-- A call, and one after it that makes no entries. -/
theorem after {next : α → Act σ β} (h : Logs log act s entries)
    (hnext : ∀ a s', act.run s = (.ok a, s') → log ((next a).run s').2 = log s') :
    Logs log (act >>= next) s entries := by
  have hboth := h.bind fun a s' hrun => nothing (hnext a s' hrun)
  rwa [List.append_nil] at hboth

/-- A call that returns has made all of its entries. -/
theorem run {s' : σ} {a : α} (h : Logs log act s entries) (hrun : act.run s = (.ok a, s')) :
    log s' = log s ++ entries := by
  obtain ⟨made, -, hlog, hall⟩ := h
  rw [hrun] at hlog
  rw [hlog, hall (by simp [faultOf, hrun])]

end Logs

end Act

open Act (Logs Meets)

namespace Binding

variable {μ ε α : Type} {b : Binding μ ε} {journal : ε → List HostEntry} {s s' : State μ ε} {me : ThreadId}

/-- Ask the host for its bookkeeping, one after the other. -/
def announce (b : Binding μ ε) (hooks : List CycleHook) : Act (State μ ε) Unit :=
  hooks.forM fun hook => shown (b.host.hook hook)

/-- The bookkeeping before the mutators are parked. -/
def prologueHooks (unload : Bool) : List CycleHook :=
  .codeCachePrologue :: ((if unload then [.clearClaimedMarks] else []) ++ [.derivedPointersClear])

/-- The blobs that a release fixes up, if `table` is what was registered and claimed before it. -/
def fixups (b : Binding μ ε) (table : CodeTable) : List CodeId :=
  if b.options.relocateCode then table.claimed else []

/-- The bookkeeping before the mutators are released. -/
def epilogueHooks (fixups : List CodeId) : List CycleHook :=
  fixups.map .fixCodeRelocations ++ [.codeCacheEpilogue, .derivedPointersUpdate]

theorem run_shown (service : Coordinator → Act (Machine ε) α) (s : State μ ε) : (shown service).run s =
    (((service s.world).run s.machine).1, { s with machine := ((service s.world).run s.machine).2 }) := rfl

theorem prologue_eq (b : Binding μ ε) (unload : Bool) : b.prologue unload =
    Act.within State.codePlace CodeTable.beginCycle >>= fun _ => b.announce (prologueHooks unload) := by
  unfold prologue announce prologueHooks
  cases unload <;> simp [List.forM_cons]

theorem run_epilogue (b : Binding μ ε) (s : State μ ε) :
    b.epilogue.run s = (b.announce (epilogueHooks (b.fixups s.codeTable))).run s := by
  unfold epilogue announce epilogueHooks fixups
  cases b.options.relocateCode with
  | false => simp [List.forM_cons]
  | true =>
    simp only [if_true, Act.run_bind_ok (Act.run_get s), List.forM_eq_forM, List.forM_append, List.forM_map,
      List.forM_cons, List.forM_nil, bind_pure_unit]

/-- What was announced is in the journal, with the world as it is throughout. -/
theorem announce_spec (hjournal : b.host.Journals journal) (hooks : List CycleHook) (s : State μ ε) :
    Logs (fun s => journal s.machine.env) (b.announce hooks) s (hooks.map fun hook => ⟨.hook hook, s.world⟩) ∧
      ∃ machine, ((b.announce hooks).run s).2 = { s with machine } := by
  induction hooks generalizing s with
  | nil => exact ⟨.nothing rfl, s.machine, rfl⟩
  | cons hook hooks ih =>
    have hcons : b.announce (hook :: hooks) = shown (b.host.hook hook) >>= fun _ => b.announce hooks :=
      List.forM_cons
    have hone : Logs (fun s : State μ ε => journal s.machine.env) (shown (b.host.hook hook)) s
        [⟨.hook hook, s.world⟩] := .one (hjournal.hook hook s.world s.machine)
    rw [hcons]
    refine ⟨hone.bind fun _ s₁ hrun => ?_, ?_⟩
    · have hworld : s.world = s₁.world := congrArg (fun r : Except Fault Unit × State μ ε => r.2.world) hrun
      rw [hworld]
      exact (ih s₁).1
    · rw [Act.run_bind, run_shown]
      rcases (b.host.hook hook s.world).run s.machine with ⟨cause | ⟨⟩, m⟩
      · exact ⟨m, rfl⟩
      · exact (ih { s with machine := m }).2

/-- What the journal has of a stop in which classes are unloaded or not, if `generation` cycles were complete. -/
def stopEntries (unload : Bool) (generation : UInt64) : List HostEntry :=
  (prologueHooks unload).map (fun hook => ⟨.hook hook, ⟨.suspendRequested, generation⟩⟩) ++
    [⟨.suspendAll, ⟨.suspendRequested, generation⟩⟩]

/-- What it has of a release that fixes up `fixups`. -/
def resumeEntries (fixups : List CodeId) (generation : UInt64) : List HostEntry :=
  (epilogueHooks fixups).map (fun hook => ⟨.hook hook, ⟨.resumeRequested, generation⟩⟩) ++
    [⟨.resumeAll, ⟨.resumeRequested, generation + 1⟩⟩]

/-- What a stop has done when it returns. -/
structure Stopped (journal : ε → List HostEntry) (unload : Bool) (s s' : State μ ε) : Prop where
  registry : s'.registry = s.registry
  world : s'.world = ⟨.suspended, s.world.generation⟩
  counted : s.codeTable.epoch + 1 ≠ 0
  table : s'.codeTable = { s.codeTable with epoch := s.codeTable.epoch + 1 }
  journal : journal s'.machine.env = journal s.machine.env ++ stopEntries unload s.world.generation

theorem prologue_returns (hjournal : b.host.Journals journal) {unload : Bool}
    (hrun : (b.prologue unload).run s = (.ok (), s')) :
    s.codeTable.epoch + 1 ≠ 0 ∧ ∃ machine : Machine ε,
      s' = { s with machine, codeTable := { s.codeTable with epoch := s.codeTable.epoch + 1 } } ∧
      journal machine.env = journal s.machine.env ++ (prologueHooks unload).map fun hook => ⟨.hook hook, s.world⟩ := by
  rw [prologue_eq] at hrun
  obtain ⟨_, s₁, hbegin, hannounce⟩ := Act.run_bind_eq_ok.1 hrun
  obtain ⟨table, htable, rfl⟩ := Act.run_within_eq_ok.1 hbegin
  obtain ⟨hcounted, rfl⟩ : s.codeTable.epoch + 1 ≠ 0 ∧ table = { s.codeTable with epoch := s.codeTable.epoch + 1 } := by
    rw [CodeTable.run_beginCycle] at htable
    by_cases hzero : s.codeTable.epoch + 1 = 0
    · simp [State.codePlace, hzero] at htable
    · exact ⟨hzero, (congrArg Prod.snd htable).symm⟩
  obtain ⟨hlogs, machine, hleft⟩ := announce_spec hjournal (prologueHooks unload)
    (State.codePlace.put { s.codeTable with epoch := s.codeTable.epoch + 1 } s)
  rw [hannounce] at hleft
  have hentries := hlogs.run hannounce
  subst hleft
  exact ⟨hcounted, machine, rfl, hentries⟩

theorem insist_returns {outcome : Except Violation α} {a : α}
    (hrun : (insist outcome : Act (State μ ε) α).run s = (.ok a, s')) : outcome = .ok a ∧ s' = s := by
  cases outcome with
  | error breach => cases hrun
  | ok a' =>
    cases hrun
    exact ⟨rfl, rfl⟩

theorem transition_returns {target : WorldState}
    (hrun : (Handshake.transition State.worldPlace target).run s = (.ok (.ok ()), s')) :
    s.world.state.successor = target ∧ s' = { s with world := { s.world with state := target } } := by
  rw [run_transition] at hrun
  split at hrun
  · rename_i hsuccessor
    exact ⟨hsuccessor, (congrArg Prod.snd hrun).symm⟩
  · cases hrun

theorem stop_returns (hjournal : b.host.Journals journal) {unload : Bool}
    (hrun : (Handshake.stop State.worldPlace (b.threads me) (b.prologue unload)).run s = (.ok (.ok ()), s')) :
    Stopped journal unload s s' := by
  unfold Handshake.stop at hrun
  obtain ⟨passed, s₁, htransition, hrun⟩ := Act.run_bind_eq_ok.1 hrun
  cases passed with
  | error breach => cases hrun
  | ok _ =>
    obtain ⟨-, rfl⟩ := transition_returns htransition
    obtain ⟨_, s₂, hprologue, hrun⟩ := Act.run_bind_eq_ok.1 hrun
    obtain ⟨hcounted, machine, rfl, hentries⟩ := prologue_returns hjournal hprologue
    obtain ⟨_, s₃, hsuspend, hrun⟩ := Act.run_bind_eq_ok.1 hrun
    cases (congrArg Prod.snd hsuspend : _ = s₃)
    obtain ⟨-, rfl⟩ := transition_returns hrun
    refine ⟨rfl, rfl, hcounted, rfl, (hjournal.suspendAll _ machine).trans ?_⟩
    rw [hentries, stopEntries, ← List.append_assoc]

/-- A stop that returns has asked for all that a stop asks for, and a new cycle of the code table has begun. -/
theorem stopped_of_returns (hjournal : b.host.Journals journal) {unload : Bool} {mutators : List Mutator}
    (hrun : (b.stopAllMutators me unload).run s = (.ok mutators, s')) : Stopped journal unload s s' := by
  unfold stopAllMutators at hrun
  obtain ⟨_, s₁, hget, hrest⟩ := Act.run_bind_eq_ok.1 hrun
  cases hget
  obtain ⟨kind, s₂, hkind, hrest₂⟩ := Act.run_bind_eq_ok.1 hrest
  obtain ⟨-, rfl⟩ := insist_returns hkind
  obtain ⟨_, s₃, hset, hrest₃⟩ := Act.run_bind_eq_ok.1 hrest₂
  rw [Act.run_modify] at hset
  cases hset
  obtain ⟨passed, s₄, hstop, hrest₄⟩ := Act.run_bind_eq_ok.1 hrest₃
  obtain ⟨_, s₅, hpassed, hrest₅⟩ := Act.run_bind_eq_ok.1 hrest₄
  obtain ⟨rfl, rfl⟩ := insist_returns hpassed
  cases hrest₅
  have hstopped := stop_returns hjournal hstop
  exact ⟨hstopped.registry, hstopped.world, hstopped.counted, hstopped.table, hstopped.journal⟩

theorem transition_keeps (target : WorldState) (s : State μ ε) :
    ((Handshake.transition State.worldPlace target).run s).2.machine = s.machine := by
  rw [run_transition]
  split <;> rfl

theorem insist_keeps (outcome : Except Violation α) (s : State μ ε) : ((insist outcome).run s).2 = s := by
  cases outcome <;> rfl

theorem logs_start (hjournal : b.host.Journals journal) {generation : UInt64}
    (hworld : s.world = ⟨.suspended, generation⟩) :
    Logs (fun s : State μ ε => journal s.machine.env)
      (Handshake.start State.worldPlace (b.threads me) b.epilogue) s
      (resumeEntries (b.fixups s.codeTable) generation) := by
  have htransition : (Handshake.transition State.worldPlace .resumeRequested).run s =
      (.ok (.ok ()), { s with world := ⟨.resumeRequested, generation⟩ }) := by
    rw [run_transition, hworld]
    rfl
  have hkeeps := transition_keeps .resumeRequested s
  refine .before (congrArg (fun m : Machine ε => journal m.env) hkeeps) fun passed s₁ hrun => ?_
  cases htransition.symm.trans hrun
  obtain ⟨hentries, machine, hleft⟩ := announce_spec hjournal (epilogueHooks (b.fixups s.codeTable))
    { s with world := ⟨.resumeRequested, generation⟩ }
  rw [← run_epilogue b { s with world := ⟨.resumeRequested, generation⟩ }] at hleft
  refine (hentries.congr (run_epilogue ..)).bind fun _ s₂ hepilogue => ?_
  rw [hepilogue] at hleft
  subst hleft
  refine .before rfl fun count s₃ hbump => ?_
  rw [run_bump] at hbump
  split at hbump
  · cases hbump
    refine .after (.one (hjournal.resumeAll ..)) fun _ s₄ _ => congrArg (fun m : Machine ε => journal m.env) ?_
    have hkeeps := transition_keeps .running s₄
    refine Act.keeps_bind (fun s : State μ ε => s.machine = s₄.machine) hkeeps fun passed s₅ hrun => ?_
    rw [hrun] at hkeeps
    cases passed <;> exact hkeeps
  · cases hbump

/-- A release asks for what a release asks for, in this order, and for the first of it if it breaks off. -/
theorem logs_resume (hjournal : b.host.Journals journal) {generation : UInt64}
    (hworld : s.world = ⟨.suspended, generation⟩) :
    Logs (fun s => journal s.machine.env) (b.resumeMutators me) s
      (resumeEntries (b.fixups s.codeTable) generation) := by
  refine .before rfl fun now s₁ hget => ?_
  cases hget
  refine .before (by rw [insist_keeps]) fun kind s₂ hkind => ?_
  obtain ⟨-, rfl⟩ := insist_returns hkind
  refine (logs_start hjournal hworld).after fun resumed s₃ _ => ?_
  cases resumed <;> rfl

section

variable {c : Coordinator} {generation : UInt64}

theorem shown_meets {service : Coordinator → Act (Machine ε) α}
    (hreturns : ∀ m, ∃ a m', (service c).run m = (.ok a, m')) :
    Meets (fun s : State μ ε => s.world = c) (shown service) fun _ s => s.world = c := by
  rintro s rfl
  obtain ⟨a, m, hrun⟩ := hreturns s.machine
  exact ⟨a, { s with machine := m }, by rw [run_shown, hrun], rfl⟩

theorem transition_meets {target : WorldState} (htarget : c.state.successor = target) :
    Meets (fun s : State μ ε => s.world = c) (Handshake.transition State.worldPlace target)
      fun passed s => passed = .ok () ∧ s.world = ⟨target, c.generation⟩ := by
  rintro s rfl
  exact ⟨_, _, (run_transition target s).trans (if_pos htarget), rfl, rfl⟩

theorem bump_meets (hcounted : c.generation.toNat + 1 < wordLimit) :
    Meets (fun s : State μ ε => s.world = c) (Act.within State.worldPlace (Act.update Coordinator.bump))
      fun count s => count = c.generation + 1 ∧ s.world = ⟨c.state, c.generation + 1⟩ := by
  rintro s rfl
  exact ⟨_, _, (run_bump s).trans (if_pos hcounted), rfl, rfl⟩

variable (hreturns : b.host.Releases fun service => ∀ m, ∃ a m', service.run m = (.ok a, m'))
include hreturns

theorem epilogue_meets : Meets (fun s : State μ ε => s.world = c) b.epilogue fun _ s => s.world = c := by
  intro s hs
  rw [run_epilogue]
  exact Meets.forM (fun hook _ => shown_meets (hreturns.hook hook c)) s hs

theorem start_meets (me : ThreadId) (hcounted : generation.toNat + 1 < wordLimit) :
    Meets (fun s : State μ ε => s.world = ⟨.suspended, generation⟩)
      (Handshake.start State.worldPlace (b.threads me) b.epilogue) fun resumed _ => resumed = .ok (generation + 1) := by
  refine .bind (transition_meets rfl) fun passed => ?_
  rintro s ⟨rfl, hs⟩
  refine Meets.bind (epilogue_meets hreturns) (fun _ => .bind (bump_meets hcounted) fun count => ?_) s hs
  rintro s ⟨rfl, hs⟩
  refine Meets.bind (shown_meets (hreturns.resumeAll _)) (fun _ => .bind (transition_meets rfl) fun passed => ?_) s hs
  rintro s ⟨rfl, -⟩
  exact ⟨_, s, rfl, rfl⟩

/-- A release by a collector returns if the services of the host do, and the cycles can be counted. -/
theorem resume_returns {kind : CollectorKind} (hkind : s.registry.requireCollector me = .ok kind)
    (hworld : s.world = ⟨.suspended, generation⟩) (hcounted : generation.toNat + 1 < wordLimit) :
    ∃ s', (b.resumeMutators me).run s = (.ok (generation + 1), s') := by
  obtain ⟨_, s₁, hstart, rfl⟩ := start_meets hreturns me hcounted s hworld
  refine ⟨{ s₁ with unloading := false }, ?_⟩
  refine (Act.run_bind_ok (Act.run_get s)).trans ?_
  refine (Act.run_bind_ok (run_insist_collector hkind)).trans ?_
  exact (Act.run_bind_ok hstart).trans rfl

end

end Binding

end Safepoint
