import Safepoint.Proofs.World.Freshness
import Safepoint.Proofs.World.Holding

/-!
# When a stop is let in

A start releases the threads before its last transition. In between, mutators run while the world does not, and a stop
is turned away. Whether it is can be read off what was done so far: a stop is let in if every stop before it was
followed by a start that is past its last transition.
-/
namespace Safepoint.Handshake

/-- Only a start lets the world run, after it has released the threads. -/
theorem Call.body_running {call : Call} {done rest : List Stretch}
    (h : done ++ .transition .running :: rest = call.body) : call = .start ∧ .transition .running ∉ done := by
  cases call <;> simp [Call.body, List.append_eq_cons_iff, List.cons_eq_append_iff] at h <;> grind

theorem toNat_isStopped (c : Coordinator) : c.isStopped.toNat = if c.state = .running then 0 else 1 := by
  unfold Coordinator.isStopped
  cases c.state <;> rfl

namespace Frame

variable {f : Frame} {stretch : Stretch} {rest : List Stretch}

def hasDone (f : Frame) (stretch : Stretch) : Bool := f.deeds.any (·.stretch = stretch)

theorem hasDone_onward (deed : Deed) (count : UInt64) :
    (f.onward deed rest count).hasDone stretch = (f.hasDone stretch || deed.stretch = stretch) := by
  simp [hasDone, onward]

theorem hasDone_quit (deed : Deed) (outcome : Outcome) :
    (f.quit deed outcome).hasDone stretch = (f.hasDone stretch || deed.stretch = stretch) := by
  simp [hasDone, quit]

theorem hasDone_iff : f.hasDone stretch ↔ stretch ∈ f.deeds.map Deed.stretch := by
  simp [hasDone]

/-- A start that has released the threads and not made its last transition is about to make it. -/
theorem Course.released (h : f.Course) (hreleased : f.hasDone (.host .resumeAll))
    (hresumed : f.hasDone (.transition .running) = false) :
    f.call = .start ∧ f.rest = [.transition .running, .settle, .wake] := by
  rw [hasDone_iff] at hreleased
  rw [← Bool.not_eq_true, hasDone_iff] at hresumed
  cases h with
  | refused source c call found deeds | departed c call deeds => simp [deeds] at hreleased
  | under course =>
    obtain ⟨before, after, hsplit⟩ := List.append_of_mem hreleased
    rw [hsplit, List.append_assoc, List.cons_append] at course
    obtain ⟨hcall, -, hrest⟩ := Call.body_resumeAll course
    refine ⟨hcall, ?_⟩
    cases after with
    | nil => exact hrest
    | cons stretch after =>
      rw [List.cons_append, List.cons.injEq] at hrest
      rw [hsplit, hrest.1] at hresumed
      simp at hresumed

/-- A stop that was let in is not turned away any more. -/
theorem Course.accepted (h : f.Course) (hcycle : f.cycle.isSome) (violation : Violation) :
    f.outcome ≠ some (.refused violation) := by
  cases h with
  | under _ _ outcome =>
    rw [outcome]
    split <;> simp
  | refused source c call found deeds =>
    have hnone : f.cycle = none := by
      cases hcall : f.call with
      | stop =>
        rw [hcall] at call
        cases call
        simp [cycle, hcall, deeds, found]
      | _ => exact cycle_of_ne_stop (by simp [hcall])
    rw [hnone] at hcycle
    cases hcycle
  | departed c call deeds rest outcome => simp [outcome]

end Frame

namespace Crowd

/-- How many stops were let in. -/
def stops (s : Crowd) : Nat := s.frames.countP (·.cycle.isSome)

/-- How many starts have released the threads. -/
def releases (s : Crowd) : Nat := s.frames.countP (·.hasDone (.host .resumeAll))

/-- How many starts have let the world run. -/
def resumes (s : Crowd) : Nat := s.frames.countP (·.hasDone (.transition .running))

/-- There is one more stop than there are starts past their last transition while the world does not run. -/
def Balanced (s : Crowd) : Prop := s.stops = s.resumes + s.world.isStopped.toNat

variable {s s' : Crowd} {newer older : List Frame} {f f' : Frame} {stretch : Stretch} {rest : List Stretch}
  {count : UInt64} {world : Coordinator} {thread : ThreadId}

namespace Balanced

theorem begin (h : s.Balanced) (thread : ThreadId) (call : Call) : (s.begin thread call).Balanced := by
  have hcycle : (Frame.begun thread call).cycle = none := Frame.cycle_of_deeds rfl
  have hdone : (Frame.begun thread call).hasDone (.transition .running) = false := rfl
  unfold Balanced stops resumes at h ⊢
  simp only [Crowd.begin, List.countP_cons, hcycle, hdone, Option.isSome_none, Bool.false_eq_true, if_false,
    Nat.add_zero]
  exact h

theorem rousedAll {frames : List Frame} (h : Balanced ⟨world, frames⟩) : Balanced ⟨world, frames.map Frame.roused⟩ := by
  unfold Balanced stops resumes at h ⊢
  rw [List.countP_map, List.countP_map]
  exact h

/-- A call comes on: what it adds to the stops is what it adds to the starts, and to the world. -/
theorem replace (h : s.Balanced) (hf : s.frames = newer ++ f :: older)
    (hsame : f'.cycle.isSome.toNat + (f.hasDone (.transition .running)).toNat + s.world.isStopped.toNat =
      f.cycle.isSome.toNat + (f'.hasDone (.transition .running)).toNat + world.isStopped.toNat) :
    Balanced ⟨world, newer ++ f' :: older⟩ := by
  have hcount (p : Frame → Bool) (g : Frame) :
      (newer ++ g :: older).countP p = newer.countP p + older.countP p + (p g).toNat := by
    rw [List.countP_append, List.countP_cons]
    cases p g <;> simp [Nat.add_assoc]
  unfold Balanced stops resumes at h ⊢
  rw [hf] at h
  simp only [hcount] at h ⊢
  omega

/-- A transition that is let through: the first of a stop makes one more stop, the last of a start one more start. -/
theorem across (h : s.Balanced) (ho : s.Orderly) (hf : s.frames = newer ++ f :: older) {target : WorldState}
    (hr : f.rest = .transition target :: rest) (hsucc : s.world.state.successor = target) (count : UInt64) :
    Balanced ⟨{ s.world with state := target },
      newer ++ f.onward ⟨.transition target, s.world, { s.world with state := target }⟩ rest count :: older⟩ := by
  have hbody := ((ho.course f (by simp [hf])).ofRest hr).1
  refine h.replace hf ?_
  rw [Frame.hasDone_onward]
  obtain ⟨source, hsource, ⟨hdone, rfl, -⟩ | ⟨hdone, rfl, -⟩⟩ := Call.body_transition hbody
  · have hd : f.deeds = [] := List.map_eq_nil_iff.1 hdone
    have hstate : s.world.state = source := successor_injective hsucc
    have hnone : f.cycle = none := Frame.cycle_of_deeds hd
    cases hcall : f.call with
    | stop =>
      rw [hcall] at hsource
      cases hsource
      simp [Frame.cycle, Frame.onward, hcall, hd, hstate, toNat_isStopped, WorldState.successor, Nat.add_comm]
    | start =>
      rw [hcall] at hsource
      cases hsource
      have hnone' (deed : Deed) : (f.onward deed rest count).cycle = none :=
        Frame.cycle_of_ne_stop (by simp [Frame.onward, hcall])
      simp [hnone, hnone', hstate, toNat_isStopped, WorldState.successor]
    | _ => simp [hcall, Call.source] at hsource
  · have hd : f.deeds ≠ [] := by simpa using hdone
    have hstate : s.world.state = source.successor := successor_injective hsucc
    rw [Frame.cycle_onward hd]
    cases hcall : f.call with
    | stop =>
      rw [hcall] at hsource
      cases hsource
      simp [hstate, toNat_isStopped, WorldState.successor]
    | start =>
      rw [hcall] at hsource
      cases hsource
      obtain ⟨-, hnot⟩ := Call.body_running hbody
      rw [← Frame.hasDone_iff, Bool.not_eq_true] at hnot
      simp [hstate, hnot, toNat_isStopped, WorldState.successor, Nat.add_comm]
    | _ => simp [hcall, Call.source] at hsource

/-- What a call does next, if it goes on. -/
theorem onward (h : s.Balanced) (ho : s.Orderly) (hf : s.frames = newer ++ f :: older) (hr : f.rest = stretch :: rest)
    (hact : (stretch.act whole f.count).run s.world = (.ok (.on count), world)) :
    Balanced ⟨world, newer ++ f.onward ⟨stretch, s.world, world⟩ rest count :: older⟩ := by
  cases hs : stretch.isTransition with
  | true =>
    cases stretch with
    | transition target =>
      rw [act_transition] at hact
      split at hact
      · cases hact
        exact h.across ho hf hr ‹_› f.count
      · cases hact
    | _ => cases hs
  | false =>
    have hne : stretch ≠ .transition .running := by
      rintro rfl
      cases hs
    have hcycle : (f.onward ⟨stretch, s.world, world⟩ rest count).cycle = f.cycle :=
      (ho.course f (by simp [hf])).cycle_onward hr hs _
    refine h.replace hf ?_
    rw [hcycle, Frame.hasDone_onward, toNat_isStopped, toNat_isStopped, Stretch.act_state hact hs]
    simp [hne]

/-- A call that is turned away was not let in before, and is not now. -/
theorem quit (h : s.Balanced) (ho : s.Orderly) (hf : s.frames = newer ++ f :: older) (hr : f.rest = stretch :: rest)
    {outcome : Outcome} (hact : (stretch.act whole f.count).run s.world = (.ok (.off outcome), world)) :
    Balanced ⟨world, newer ++ f.quit ⟨stretch, s.world, world⟩ outcome :: older⟩ := by
  obtain ⟨hd, -, hstate⟩ := ho.first_of_off (by simp [hf]) hr hact
  have hbody := (ho.course f (by simp [hf])).rest_of_deeds hd
  rw [hr] at hbody
  have hne : stretch ≠ .transition .running := by
    rintro rfl
    cases hcall : f.call <;> rw [hcall] at hbody <;> cases (List.cons.inj hbody).1
  have hcycle := (ho.course f (by simp [hf])).cycle_quit hd hr hact
  refine h.replace hf ?_
  rw [hcycle, Frame.cycle_of_deeds hd, Frame.hasDone_quit, toNat_isStopped, toNat_isStopped, hstate]
  simp [hne]

theorem move {m : Move} (h : s.Balanced) (ho : s.Orderly) (hm : s.move m = some s') : s'.Balanced := by
  refine move_keeps hm h.begin (fun newer f older hf => h.replace hf rfl)
    (fun newer f older rest hf hr => h.replace hf rfl) ?_ ?_ fun world frames hbalanced => hbalanced.rousedAll
  · exact fun newer f older stretch rest count world hf _ hr hact => h.onward ho hf hr hact
  · exact fun newer f older stretch rest outcome world hf hr hact => h.quit ho hf hr hact

theorem stops_eq_resumes (h : s.Balanced) : s.stops = s.resumes ↔ s.world.state = .running := by
  unfold Balanced at h
  rw [toNat_isStopped] at h
  split at h
  · exact iff_of_true h ‹_›
  · exact iff_of_false (by omega) ‹_›

end Balanced

theorem Reachable.balanced (h : Reachable {} s) : s.Balanced := by
  refine (h.induct (P := fun s => s.Orderly ∧ s.Balanced) ⟨⟨?_, ?_, ?_, ?_⟩, ?_⟩
    fun _ _ _ ⟨ho, hb⟩ hm => ⟨ho.move hm, hb.move ho hm⟩).2
  all_goals simp [Balanced, stops, resumes, Coordinator.isStopped]

/-- While more starts have released the threads than have let the world run, one of them is about to. -/
theorem Orderly.releasing (h : s.Orderly) (hmore : s.resumes < s.releases) :
    ∃ newer g older, s.frames = newer ++ g :: older ∧ g.call = .start ∧
      g.rest = [.transition .running, .settle, .wake] ∧ s.world.state = .resumeRequested := by
  obtain ⟨g, hg, hreleased, hresumed⟩ : ∃ g ∈ s.frames, g.hasDone (.host .resumeAll) ∧
      g.hasDone (.transition .running) = false := by
    by_contra hnone
    refine Nat.not_lt.2 (List.countP_mono_left fun g hg hreleased => ?_) hmore
    by_contra hresumed
    exact hnone ⟨g, hg, hreleased, by simpa using hresumed⟩
  obtain ⟨newer, older, hf⟩ := List.append_of_mem hg
  obtain ⟨hcall, hrest⟩ := (h.course g hg).released hreleased hresumed
  have hdeeds : g.deeds ≠ [] := by
    rintro hnil
    simp [Frame.hasDone, hnil] at hreleased
  obtain ⟨source, hsource, hstate⟩ := h.held g hg (by simp [Frame.isBetween, hdeeds, hrest, Stretch.isTransition])
  rw [hcall] at hsource
  cases hsource
  exact ⟨newer, g, older, hf, hcall, hrest, hstate⟩

end Crowd

end Safepoint.Handshake

namespace Safepoint.Binding

variable {μ ε : Type}

/-- A collector that stops the mutators makes a stop on the coordinator. If it is turned away, the process ends. -/
theorem run_stopAllMutators (b : Binding μ ε) {me : ThreadId} {s : State μ ε} {kind : CollectorKind}
    (h : s.registry.requireCollector me = .ok kind) (unload : Bool) :
    (b.stopAllMutators me unload).run s = (do
      match ← Handshake.carryOut State.worldPlace (b.hostCode me (b.prologue unload)) Handshake.Call.stop.body 0 with
      | .returned _ => return (← get).registry.mutators
      | .refused violation => Act.fault (.terminated (.violation violation))).run { s with unloading := unload } := by
  have hinsist : (insist (s.registry.requireCollector me) : Act (State μ ε) CollectorKind).run s = (.ok kind, s) := by
    rw [h]
    rfl
  have hmodify : (modify fun s => { s with unloading := unload } : Act (State μ ε) Unit).run s =
      (.ok (), { s with unloading := unload }) := rfl
  rw [Handshake.carryOut_stop, stopAllMutators]
  rw [Act.run_bind_ok (Act.run_get s), Act.run_bind_ok hinsist, Act.run_bind_ok hmodify]
  simp only [map_eq_pure_bind, bind_assoc, pure_bind]
  refine congrArg (fun act : Act (State μ ε) (List Mutator) => act.run { s with unloading := unload })
    (bind_congr fun stopped => ?_)
  cases stopped <;> rfl

end Safepoint.Binding

namespace Safepoint.Handshake

open Crowd in
/-- A stop that is about to make its first transition is let in if every stop let in before was followed by a start that
let the world run, and is turned away otherwise, with nothing changed. It may be turned away although the threads were
released after every stop: then a start is about to make its last transition, its thread can make it whatever the others
do, and the stop is let in if it is made then. A stop that was let in is not turned away later. A collector that stops
the mutators of a binding makes this very call, and the process ends if it is turned away. -/
theorem stop_let_in_iff_resumed {s : Crowd} (h : Reachable {} s) {thread : ThreadId} {newer older : List Frame}
    {f : Frame} (hp : s.pick thread = some (newer, f, older)) (hcall : f.call = .stop) (hnew : f.deeds = []) :
    (s.stops = s.resumes → s.move (.go thread) = some ⟨{ s.world with state := .suspendRequested },
      newer ++ f.onward ⟨.transition .suspendRequested, s.world, { s.world with state := .suspendRequested }⟩
        [.host .callback, .host .suspendAll, .transition .suspended] f.count :: older⟩) ∧
    (s.stops ≠ s.resumes →
      s.move (.go thread) = some ⟨s.world, newer ++ f.quit ⟨.transition .suspendRequested, s.world, s.world⟩
        (.refused (.illegalTransition s.world.state .suspendRequested)) :: older⟩ ∧
      (s.stops = s.releases → s.world.state = .resumeRequested ∧ ∃ g ∈ s.frames, g.call = .start ∧
        g.rest = [.transition .running, .settle, .wake] ∧ g.thread ≠ thread ∧
        ∃ s₁ s₂, s.move (.go g.thread) = some s₁ ∧ s₁.world.state = .running ∧
          s₁.move (.go thread) = some s₂ ∧ s₂.world.state = .suspendRequested)) ∧
    (∀ g ∈ s.frames, g.cycle.isSome → ∀ violation, g.outcome ≠ some (.refused violation)) ∧
    ∀ {μ ε : Type} (b : Binding μ ε) (me : ThreadId) (kind : CollectorKind) (state : Binding.State μ ε) (unload : Bool),
      state.registry.requireCollector me = .ok kind →
      (b.stopAllMutators me unload).run state = (do
        match ← carryOut Binding.State.worldPlace (b.hostCode me (b.prologue unload)) Call.stop.body 0 with
        | .returned _ => return (← get).registry.mutators
        | .refused violation => Act.fault (.terminated (.violation violation))).run
          { state with unloading := unload } := by
  have ho := h.orderly
  have hbalanced := h.balanced
  obtain ⟨hf, hme, hopen⟩ := pick_eq hp
  have hrest : f.rest =
      [.transition .suspendRequested, .host .callback, .host .suspendAll, .transition .suspended] := by
    rw [(ho.course f (by simp [hf])).rest_of_deeds hnew, hcall]
    rfl
  have hawake := (ho.course f (by simp [hf])).awake hrest (by simp)
  have hgo := go_transition hp hawake hrest
  have hlets : s.world.state.successor = .suspendRequested ↔ s.stops = s.resumes := by
    rw [hbalanced.stops_eq_resumes]
    exact ⟨successor_injective (b := .running), congrArg WorldState.successor⟩
  refine ⟨fun heven => ?_, fun hodd => ⟨?_, fun hreleased => ?_⟩, fun g hg => (ho.course g hg).accepted,
    fun b me kind state unload hkind => Binding.run_stopAllMutators b hkind unload⟩
  · rw [hgo, if_pos (hlets.2 heven)]
  · rw [hgo, if_neg (mt hlets.1 hodd)]
  · have hmore : s.resumes < s.releases := by
      have hstops : s.stops = s.resumes + s.world.isStopped.toNat := hbalanced
      omega
    obtain ⟨newer', g, older', hg, hstart, hlast, hstate⟩ := ho.releasing hmore
    have hgmem : g ∈ s.frames := by simp [hg]
    have hgopen : g.isOpen := by
      cases ho.course g hgmem with
      | under _ _ outcome => simp [Frame.isOpen, outcome, hlast]
      | refused _ _ _ _ _ hdone | departed _ _ _ hdone => simp [hlast] at hdone
    have hgpick := h.nested.pick hg hgopen (by simp [Frame.atHost, hlast])
    have hthread : g.thread ≠ thread := by
      rintro rfl
      cases (current_of_pick hgpick).symm.trans (current_of_pick hp)
      rw [hstart] at hcall
      cases hcall
    obtain ⟨s₁, hmove, hrunning⟩ : ∃ s₁, s.move (.go g.thread) = some s₁ ∧ s₁.world.state = .running := by
      refine ⟨_, go_transition hgpick ((ho.course g hgmem).awake hlast (by simp)) hlast, ?_⟩
      rw [if_pos (by rw [hstate]; rfl)]
    -- the stop is still the innermost call of its thread, and finds the world running
    obtain ⟨f', hcurrent, hrest', hawake'⟩ :
        ∃ f', s₁.current thread = some f' ∧ f'.rest = f.rest ∧ f'.asleep = false := by
      have hcurrent := current_of_move hmove hthread
      rw [current_of_pick hp] at hcurrent
      obtain hsame | hroused := hcurrent
      · exact ⟨f, hsame, rfl, hawake⟩
      · exact ⟨f.roused, hroused, rfl, rfl⟩
    obtain ⟨newer₁, older₁, hp₁⟩ := exists_pick hcurrent
    refine ⟨hstate, g, hgmem, hstart, hlast, hthread, s₁, _, hmove, hrunning,
      go_transition hp₁ hawake' (hrest'.trans hrest), ?_⟩
    rw [if_pos (by rw [hrunning]; rfl)]

/-- A thread asks for a stop when another has released the threads and not let the world run yet. It is turned away, and
would have been let in one step later. -/
theorem stop_one_step_early : ∃ (s s₁ : Crowd) (newer older newer₁ older₁ : List Frame) (f f₁ : Frame),
    Crowd.Reachable {} s ∧ s.stops = s.releases ∧ s.pick ⟨"h"⟩ = some (newer, f, older) ∧ f.call = .stop ∧
    s.move (.go ⟨"h"⟩) = some ⟨s.world, newer ++ f.quit ⟨.transition .suspendRequested, s.world, s.world⟩
      (.refused (.illegalTransition .resumeRequested .suspendRequested)) :: older⟩ ∧
    s.move (.go ⟨"g"⟩) = some s₁ ∧ s₁.pick ⟨"h"⟩ = some (newer₁, f₁, older₁) ∧
    s₁.move (.go ⟨"h"⟩) = some ⟨{ s₁.world with state := .suspendRequested },
      newer₁ ++ f₁.onward ⟨.transition .suspendRequested, s₁.world, { s₁.world with state := .suspendRequested }⟩
        [.host .callback, .host .suspendAll, .transition .suspended] f₁.count :: older₁⟩ := by
  let moves : List Move := .call ⟨"g"⟩ .stop :: List.replicate 4 (.go ⟨"g"⟩) ++
    .call ⟨"g"⟩ .start :: List.replicate 4 (.go ⟨"g"⟩) ++ [.call ⟨"h"⟩ .stop]
  obtain ⟨s, hs⟩ : ∃ s, Crowd.run moves ⟨{}, []⟩ = some s := ⟨_, rfl⟩
  obtain ⟨s₁, hs₁⟩ : ∃ s₁, Crowd.run (moves ++ [.go ⟨"g"⟩]) ⟨{}, []⟩ = some s₁ := ⟨_, rfl⟩
  have hr : Crowd.Reachable {} s := ⟨moves, hs⟩
  have hr₁ : Crowd.Reachable {} s₁ := ⟨moves ++ [.go ⟨"g"⟩], hs₁⟩
  cases hs
  cases hs₁
  refine ⟨_, _, _, _, _, _, _, _, hr, by decide, rfl, rfl, ?_, rfl, rfl, ?_⟩
  · exact ((stop_let_in_iff_resumed hr rfl rfl rfl).2.1 (by decide)).1
  · exact (stop_let_in_iff_resumed hr₁ rfl rfl rfl).1 (by decide)

/-- A stop may be turned away after the last start has released the threads, though nobody else asked for a stop since
and each start was that of a thread whose stop was let in. -/
theorem stop_turned_away_after_release :
    ¬∀ (s s' : Crowd) (thread : ThreadId) (newer older : List Frame) (f : Frame), Crowd.Reachable {} s →
      (∀ start ∈ s.frames, start.call = .start →
        ∃ stop ∈ s.frames, stop.call = .stop ∧ stop.thread = start.thread ∧ stop.cycle.isSome) →
      s.pick thread = some (newer, f, older) → f.call = .stop → f.deeds = [] →
      (∀ other ∈ newer ++ older, other.call = .stop → other.cycle.isSome) → s.stops = s.releases →
      s.move (.go thread) = some s' →
      ∀ stop ∈ s'.frames, stop.call = .stop → ∀ source target,
        stop.outcome ≠ some (.refused (.illegalTransition source target)) := by
  intro hclaim
  let moves : List Move := .call ⟨"g"⟩ .stop :: List.replicate 4 (.go ⟨"g"⟩) ++
    .call ⟨"g"⟩ .start :: List.replicate 4 (.go ⟨"g"⟩) ++ [.call ⟨"h"⟩ .stop]
  obtain ⟨s, hs⟩ : ∃ s, Crowd.run moves ⟨{}, []⟩ = some s := ⟨_, rfl⟩
  have hr : Crowd.Reachable {} s := ⟨moves, hs⟩
  cases hs
  exact hclaim _ _ ⟨"h"⟩ _ _ _ hr (by decide) rfl rfl rfl (by decide) (by decide) rfl _ (.head _) rfl
    .resumeRequested .suspendRequested rfl

end Safepoint.Handshake
