import Safepoint.Binding.Cycle
import Safepoint.Proofs.World.Innermost
import Safepoint.Proofs.World.Wakeup

/-!
# Which cycle ends a wait

The count that a blocked thread notes is that of the complete cycles. It does not tell a cycle that is under way from
one that is yet to begin, so a cycle that was begun before the thread asked ends its wait as well. How many cycles were
begun can be read off the world: one more than were counted from the first transition of a stop to the bump of the start
after it, and as many at any other time.
-/
namespace Safepoint.Handshake

/-- What a call counts, it counts before its second transition. -/
theorem Call.bump_not_mem {call : Call} {done rest : List Stretch} {target : WorldState}
    (h : done ++ .transition target :: rest = call.body) (hd : done ≠ []) : .bump ∉ rest := by
  cases call <;> simp [Call.body, List.append_eq_cons_iff, List.cons_eq_append_iff] at h <;> grind

/-- A start counts its cycle before its second transition. -/
theorem Call.transition_of_bump {call : Call} {done rest : List Stretch} (h : done ++ .bump :: rest = call.body) :
    done ≠ [] ∧ rest.any Stretch.isTransition ∧ .bump ∉ rest := by
  cases call <;> simp [Call.body, List.append_eq_cons_iff, List.cons_eq_append_iff] at h <;>
    grind [Stretch.isTransition]

namespace Frame

/-- The number of the cycle that a stop has begun. All cycles before it were complete when it took the world. -/
def cycle (f : Frame) : Option Nat :=
  match f.call, f.deeds.head? with
  | .stop, some d => if d.before.state = .running then some (d.before.generation.toNat + 1) else none
  | _, _ => none

/-- Whether a start has taken the world and has yet to count the cycle. -/
def isToCount (f : Frame) : Bool := f.isBetween && f.rest.contains .bump

variable {f : Frame} {stretch : Stretch} {rest : List Stretch} {count : UInt64}

theorem cycle_of_ne_stop (h : f.call ≠ .stop) : f.cycle = none := by
  unfold cycle
  split
  · contradiction
  · rfl

theorem cycle_of_deeds (h : f.deeds = []) : f.cycle = none := by
  unfold cycle
  rw [h]
  split
  · contradiction
  · rfl

/-- What a stop does later does not change which cycle it began. -/
theorem cycle_onward (h : f.deeds ≠ []) (deed : Deed) : (f.onward deed rest count).cycle = f.cycle := by
  obtain ⟨d, ds, hd⟩ := List.exists_cons_of_ne_nil h
  simp only [cycle, onward, hd, List.cons_append, List.head?_cons]

/-- A stop begins its cycle with its first transition, and no other stretch begins one. -/
theorem Course.cycle_onward (h : f.Course) (hr : f.rest = stretch :: rest) (hs : stretch.isTransition = false)
    (deed : Deed) : (f.onward deed rest count).cycle = f.cycle := by
  by_cases hd : f.deeds = []
  · have hcall : f.call ≠ .stop := by
      intro hcall
      have hbody := h.rest_of_deeds hd
      rw [hcall, hr] at hbody
      cases (List.cons.inj hbody).1
      cases hs
    rw [cycle_of_deeds hd]
    exact cycle_of_ne_stop hcall
  · exact Frame.cycle_onward hd deed

/-- A call that is turned away begins no cycle. -/
theorem Course.cycle_quit {world after : Coordinator} {outcome : Outcome} (h : f.Course) (hd : f.deeds = [])
    (hr : f.rest = stretch :: rest) (hact : (stretch.act whole f.count).run world = (.ok (.off outcome), after)) :
    (f.quit ⟨stretch, world, after⟩ outcome).cycle = none := by
  by_cases hcall : f.call = .stop
  · have hbody := h.rest_of_deeds hd
    rw [hcall, hr] at hbody
    rw [(List.cons.inj hbody).1, act_transition] at hact
    have hrunning : world.state ≠ .running := by
      intro hrunning
      rw [hrunning] at hact
      cases hact
    simp [cycle, quit, hcall, hd, hrunning]
  · exact cycle_of_ne_stop hcall

theorem isToCount_onward (h : f.Course) (hr : f.rest = stretch :: rest) (hs : stretch.isTransition = false)
    (hb : stretch ≠ .bump) (deed : Deed) (count : UInt64) : (f.onward deed rest count).isToCount = f.isToCount := by
  have hbump : (stretch == .bump) = false := by simpa using hb
  unfold isToCount
  rw [isBetween_onward h hr hs, hr, List.contains_cons, BEq.comm, hbump, Bool.false_or]
  rfl

end Frame

namespace Crowd

/-- Whether a cycle was begun that is not counted yet. -/
def isOwed (s : Crowd) : Bool :=
  match s.world.state with
  | .running => false
  | .suspendRequested | .suspended => true
  | .resumeRequested => s.frames.any Frame.isToCount

/-- How many cycles were begun. -/
def cyclesBegun (s : Crowd) : Nat := s.world.generation.toNat + s.isOwed.toNat

/-- Every cycle begun so far was begun by a stop of its own. -/
def Numbered (s : Crowd) : Prop := (s.frames.filterMap Frame.cycle).Perm (List.range' 1 s.cyclesBegun)

end Crowd

section

variable {s : Crowd} {newer older : List Frame} {f f' : Frame} {stretch : Stretch} {rest : List Stretch}
  {count : UInt64} {world : Coordinator}

/-- While a call is between its transitions, only it can be a start that is to count a cycle. -/
theorem Crowd.Orderly.any_isToCount (h : s.Orderly) (hf : s.frames = newer ++ f :: older) (hb : f.isBetween)
    (f' : Frame) : (newer ++ f' :: older).any Frame.isToCount = f'.isToCount := by
  have hothers : (newer ++ older).any Frame.isToCount = false := by
    refine List.any_eq_false.2 fun g hg => ?_
    simp [Frame.isToCount, h.alone hf hb g hg]
  rw [List.any_append, Bool.or_eq_false_iff] at hothers
  rw [List.any_append, List.any_cons, hothers.1, hothers.2, Bool.false_or, Bool.or_false]

namespace Crowd.Numbered

theorem begin (h : s.Numbered) (thread : ThreadId) (call : Call) : (s.begin thread call).Numbered := by
  have hcycle : (Frame.begun thread call).cycle = none := Frame.cycle_of_deeds rfl
  have hbegun : (s.begin thread call).cyclesBegun = s.cyclesBegun := rfl
  unfold Numbered
  rw [hbegun, Crowd.begin, List.filterMap_cons, hcycle]
  exact h

theorem rousedAll {frames : List Frame} (h : Numbered ⟨world, frames⟩) : Numbered ⟨world, frames.map Frame.roused⟩ := by
  have hbegun : cyclesBegun ⟨world, frames.map Frame.roused⟩ = cyclesBegun ⟨world, frames⟩ := by
    unfold cyclesBegun isOwed
    rw [List.any_map]
    rfl
  unfold Numbered
  rw [hbegun, List.filterMap_map]
  exact h

theorem replace (h : s.Numbered) (hf : s.frames = newer ++ f :: older) (hcycle : f'.cycle = f.cycle)
    (hbegun : cyclesBegun ⟨world, newer ++ f' :: older⟩ = s.cyclesBegun) : Numbered ⟨world, newer ++ f' :: older⟩ := by
  unfold Numbered at h ⊢
  rw [hbegun]
  simpa only [hf, List.filterMap_append, List.filterMap_cons, hcycle] using h

/-- A stop that takes the world begins the next cycle. -/
theorem take (h : s.Numbered) (hf : s.frames = newer ++ f :: older) (hnone : f.cycle = none)
    (hcycle : f'.cycle = some (s.cyclesBegun + 1))
    (hbegun : cyclesBegun ⟨world, newer ++ f' :: older⟩ = s.cyclesBegun + 1) :
    Numbered ⟨world, newer ++ f' :: older⟩ := by
  unfold Numbered at h ⊢
  simp only [hf, List.filterMap_append, List.filterMap_cons, hnone] at h
  simp only [hbegun, List.filterMap_append, List.filterMap_cons, hcycle]
  rw [List.range'_1_concat, Nat.add_comm 1]
  exact List.perm_middle.trans ((h.cons _).trans (List.perm_append_singleton _ _).symm)

/-- A first transition that is let through begins a cycle if it is that of a stop. That of a start leaves the cycle to
be counted. -/
theorem first (h : s.Numbered) (hf : s.frames = newer ++ f :: older) {source : WorldState}
    (hsource : f.call.source = some source) (hd : f.deeds = []) (hbody : stretch :: rest = f.call.body)
    (hstate : s.world.state = source) (count : UInt64) :
    Numbered ⟨{ s.world with state := source.successor },
      newer ++ f.onward ⟨stretch, s.world, { s.world with state := source.successor }⟩ rest count :: older⟩ := by
  have hnone : f.cycle = none := Frame.cycle_of_deeds hd
  cases hcall : f.call with
  | stop =>
    rw [hcall] at hsource
    cases hsource
    have hbegun : s.cyclesBegun = s.world.generation.toNat := by simp [cyclesBegun, isOwed, hstate]
    refine h.take hf hnone ?_ ?_
    · simp [Frame.cycle, Frame.onward, hcall, hd, hstate, hbegun]
    · rw [hbegun]
      rfl
  | start =>
    rw [hcall] at hsource hbody
    cases hsource
    obtain ⟨rfl, rfl⟩ := List.cons.inj hbody
    refine h.replace hf ?_ ?_
    · rw [hnone]
      exact Frame.cycle_of_ne_stop (by simp [Frame.onward, hcall])
    · simp [cyclesBegun, isOwed, hstate, WorldState.successor, Frame.isToCount, Frame.isBetween, Frame.onward,
        Stretch.isTransition]
  | _ => simp [hcall, Call.source] at hsource

/-- No second transition changes how many cycles were begun. A start makes it when its cycle is counted. -/
theorem second (h : s.Numbered) (ho : s.Orderly) (hf : s.frames = newer ++ f :: older) {source : WorldState}
    (hsource : f.call.source = some source) (hd : f.deeds ≠ [])
    (hbody : f.deeds.map Deed.stretch ++ .transition source.successor.successor :: rest = f.call.body)
    (hr : f.rest = .transition source.successor.successor :: rest) (hstate : s.world.state = source.successor)
    (deed : Deed) (count : UInt64) :
    Numbered ⟨{ s.world with state := source.successor.successor }, newer ++ f.onward deed rest count :: older⟩ := by
  refine h.replace hf (Frame.cycle_onward hd deed) ?_
  cases hcall : f.call with
  | stop =>
    rw [hcall] at hsource
    cases hsource
    simp [cyclesBegun, isOwed, hstate, WorldState.successor]
  | start =>
    have hcounted : .bump ∉ f.rest := by
      rw [hr]
      simpa using Call.bump_not_mem hbody (by simpa using hd)
    rw [hcall] at hsource
    cases hsource
    have hbetween : f.isBetween := by simp [Frame.isBetween, hd, hr, Stretch.isTransition]
    have hnone : s.frames.any Frame.isToCount = false := by
      rw [hf, ho.any_isToCount hf hbetween]
      simp [Frame.isToCount, hcounted]
    simp [cyclesBegun, isOwed, hstate, WorldState.successor, hnone]
  | _ => simp [hcall, Call.source] at hsource

/-- A bump counts the cycle that was owed. -/
theorem bump (h : s.Numbered) (ho : s.Orderly) (hf : s.frames = newer ++ f :: older) (hr : f.rest = .bump :: rest)
    (hact : (Stretch.bump.act whole f.count).run s.world = (.ok (.on count), world)) :
    Numbered ⟨world, newer ++ f.onward ⟨.bump, s.world, world⟩ rest count :: older⟩ := by
  have hmem : f ∈ s.frames := by simp [hf]
  have hbody := ((ho.course f hmem).ofRest hr).1
  obtain ⟨hcall, -⟩ := Call.body_bump hbody
  obtain ⟨hdone, htransition, hlast⟩ := Call.transition_of_bump hbody
  have hdeeds : f.deeds ≠ [] := by simpa using hdone
  have hbetween : f.isBetween := by simp [Frame.isBetween, hdeeds, hr, htransition]
  have hstate : s.world.state = .resumeRequested := by
    obtain ⟨source, hsource, hstate⟩ := ho.held f hmem hbetween
    rw [hcall] at hsource
    cases hsource
    exact hstate
  have hleft : world.state = .resumeRequested := (Stretch.act_state hact rfl).trans hstate
  have hgeneration : world.generation.toNat = s.world.generation.toNat + 1 := by
    rw [Stretch.act_generation hact, if_pos rfl]
  have howed : s.frames.any Frame.isToCount = true := by
    rw [hf, ho.any_isToCount hf hbetween]
    simp [Frame.isToCount, hbetween, hr]
  refine h.replace hf (Frame.cycle_onward hdeeds _) ?_
  have hnone : (f.onward ⟨.bump, s.world, world⟩ rest count).isToCount = false := by
    simp [Frame.isToCount, Frame.onward, hlast]
  simp only [cyclesBegun, isOwed, hstate, hleft, ho.any_isToCount hf hbetween, hnone, howed, hgeneration]
  rfl

/-- Other stretches neither move the world nor count. -/
theorem aside (h : s.Numbered) (ho : s.Orderly) (hf : s.frames = newer ++ f :: older) (hr : f.rest = stretch :: rest)
    (hact : (stretch.act whole f.count).run s.world = (.ok (.on count), world)) (hs : stretch.isTransition = false)
    (hb : stretch ≠ .bump) : Numbered ⟨world, newer ++ f.onward ⟨stretch, s.world, world⟩ rest count :: older⟩ := by
  have hcourse := ho.course f (by simp [hf])
  have hsame := Frame.isToCount_onward hcourse hr hs hb ⟨stretch, s.world, world⟩ count
  refine h.replace hf (hcourse.cycle_onward hr hs _) ?_
  simp only [cyclesBegun, isOwed, Stretch.act_state hact hs, act_generation_eq hact hb, hf, List.any_append,
    List.any_cons, hsame]

/-- A call that is turned away began no cycle. -/
theorem quit (h : s.Numbered) (ho : s.Orderly) (hf : s.frames = newer ++ f :: older) (hr : f.rest = stretch :: rest)
    {outcome : Outcome} (hact : (stretch.act whole f.count).run s.world = (.ok (.off outcome), world)) :
    Numbered ⟨world, newer ++ f.quit ⟨stretch, s.world, world⟩ outcome :: older⟩ := by
  obtain ⟨hd, -, hstate⟩ := ho.first_of_off (by simp [hf]) hr hact
  have hbody := ((ho.course f (by simp [hf])).ofRest hr).1
  have hbump : stretch ≠ .bump := fun he => (Call.transition_of_bump (he ▸ hbody)).1 (by simp [hd])
  have hto : f.isToCount = false ∧ (f.quit ⟨stretch, s.world, world⟩ outcome).isToCount = false := by
    simp [Frame.isToCount, Frame.isBetween, Frame.quit, hd]
  have hcycle := (ho.course f (by simp [hf])).cycle_quit hd hr hact
  refine h.replace hf (hcycle.trans (Frame.cycle_of_deeds hd).symm) ?_
  simp only [cyclesBegun, isOwed, hstate, act_generation_eq hact hbump, hf, List.any_append, List.any_cons, hto]

/-- What a call does next, if it goes on. -/
theorem onward (h : s.Numbered) (ho : s.Orderly) (hf : s.frames = newer ++ f :: older) (hr : f.rest = stretch :: rest)
    (hact : (stretch.act whole f.count).run s.world = (.ok (.on count), world)) :
    Numbered ⟨world, newer ++ f.onward ⟨stretch, s.world, world⟩ rest count :: older⟩ := by
  by_cases hb : stretch = .bump
  · subst hb
    exact h.bump ho hf hr hact
  · cases hs : stretch.isTransition with
    | false => exact h.aside ho hf hr hact hs hb
    | true =>
      cases stretch with
      | transition target =>
        have hbody := ((ho.course f (by simp [hf])).ofRest hr).1
        rw [act_transition] at hact
        split at hact
        · rename_i hsucc
          cases hact
          obtain ⟨source, hsource, ⟨hnil, rfl, -⟩ | ⟨hdone, rfl, -⟩⟩ := Call.body_transition hbody
          · rw [hnil] at hbody
            exact h.first hf hsource (List.map_eq_nil_iff.1 hnil) hbody (successor_injective hsucc) f.count
          · exact h.second ho hf hsource (by simpa using hdone) hbody hr (successor_injective hsucc) _ f.count
        · cases hact
      | _ => simp [Stretch.isTransition] at hs

theorem move {s' : Crowd} {m : Move} (h : s.Numbered) (ho : s.Orderly) (hm : s.move m = some s') : s'.Numbered := by
  refine move_keeps hm h.begin (fun newer f older hf => ?_) (fun newer f older rest hf hr => ?_) ?_ ?_
    fun world frames hnumbered => hnumbered.rousedAll
  · refine h.replace hf rfl ?_
    simp only [cyclesBegun, isOwed, hf, List.any_append, List.any_cons]
    rfl
  · refine h.replace hf rfl ?_
    simp only [cyclesBegun, isOwed, hf, List.any_append, List.any_cons]
    rfl
  · exact fun newer f older stretch rest count world hf _ hr hact => h.onward ho hf hr hact
  · exact fun newer f older stretch rest outcome world hf hr hact => h.quit ho hf hr hact

end Crowd.Numbered

theorem Crowd.Reachable.numbered (h : Reachable {} s) : s.Numbered := by
  refine (h.induct (P := fun s => s.Orderly ∧ s.Numbered) ⟨⟨?_, ?_, ?_, ?_⟩, ?_⟩
    fun _ _ _ ⟨ho, hn⟩ hm => ⟨ho.move hm, hn.move ho hm⟩).2
  all_goals simp [Numbered, cyclesBegun, isOwed]

/-- A stop has begun the `k`-th cycle. -/
def Crowd.Begins (s : Crowd) (k : Nat) : Prop := ∃ stop ∈ s.frames, stop.cycle = some k

/-- A stop has begun the `k`-th cycle, and a start has counted it. -/
def Crowd.Completes (s : Crowd) (k : Nat) : Prop :=
  s.Begins k ∧ ∃ start ∈ s.frames, start.call = .start ∧ start.ticket.map UInt64.toNat = some k

theorem Crowd.Reachable.begins_iff (h : Reachable {} s) {k : Nat} : s.Begins k ↔ 1 ≤ k ∧ k ≤ s.cyclesBegun := by
  rw [Begins, ← List.mem_filterMap, h.numbered.mem_iff, List.mem_range'_1]
  omega

/-- The count tells which cycles are complete. -/
theorem Crowd.Reachable.completes_iff (h : Reachable {} s) {k : Nat} :
    s.Completes k ↔ 1 ≤ k ∧ k ≤ s.world.generation.toNat := by
  obtain ⟨ho, hcounted, -⟩ := h.tallied
  have hticket : k ∈ (s.frames.filterMap Frame.ticket).map UInt64.toNat ↔ 1 ≤ k ∧ k ≤ s.world.generation.toNat := by
    rw [hcounted.numbered.mem_iff, List.mem_range'_1]
    omega
  have hbegun : s.world.generation.toNat ≤ s.cyclesBegun := Nat.le_add_right ..
  constructor
  · rintro ⟨-, start, hstart, -, hk⟩
    obtain ⟨ticket, hticket', rfl⟩ := Option.map_eq_some_iff.1 hk
    exact hticket.1 (List.mem_map_of_mem (List.mem_filterMap.2 ⟨start, hstart, hticket'⟩))
  · intro hk
    obtain ⟨ticket, hmem, rfl⟩ := List.mem_map.1 (hticket.2 hk)
    obtain ⟨start, hstart, hticket'⟩ := List.mem_filterMap.1 hmem
    have hpast : start.isPastBump := by simp [Frame.isPastBump, hticket']
    refine ⟨h.begins_iff.2 ⟨hk.1, Nat.le_trans hk.2 hbegun⟩, start, hstart, ?_, by rw [hticket', Option.map_some]⟩
    exact (ho.course start hstart).start_of_isPastBump hpast

end

namespace Crowd

variable {s s' : Crowd} {i : Nat}

/-- What every move keeps, a run of moves keeps. -/
theorem run_keeps {P : Crowd → Prop} (keep : ∀ s s' m, P s → s.move m = some s' → P s') {moves : List Move}
    (hs : P s) (h : run moves s = some s') : P s' := by
  induction moves generalizing s with
  | nil =>
    cases h
    exact hs
  | cons m rest ih =>
    obtain ⟨middle, hm, hrest⟩ := Option.bind_eq_some_iff.1 h
    exact ih (keep s middle m hs hm) hrest

theorem run_append (moves more : List Move) (s : Crowd) : run (moves ++ more) s = (run moves s).bind (run more) := by
  induction moves generalizing s with
  | nil => rfl
  | cons m rest ih =>
    rw [List.cons_append, run, run, Option.bind_assoc]
    exact Option.bind_congr fun middle _ => ih middle

theorem Reachable.run {c : Coordinator} {moves : List Move} (h : Reachable c s) (hrun : Crowd.run moves s = some s') :
    Reachable c s' := by
  obtain ⟨before, hbefore⟩ := h
  refine ⟨before ++ moves, ?_⟩
  rw [run_append, hbefore]
  exact hrun

/-- The `i`-th call that was made. -/
def nth (s : Crowd) (i : Nat) : Option Frame := s.frames.reverse[i]?

theorem nth_begin (hi : i < s.frames.length) (thread : ThreadId) (call : Call) :
    (s.begin thread call).nth i = s.nth i := by
  rw [nth, begin, List.reverse_cons, List.getElem?_append_left (by simpa using hi), nth]

theorem nth_roused (c : Coordinator) (frames : List Frame) :
    nth ⟨c, frames.map Frame.roused⟩ i = (nth ⟨c, frames⟩ i).map Frame.roused := by
  rw [nth, nth, ← List.map_reverse, List.getElem?_map]

theorem nth_replace {newer older : List Frame} {f f' g : Frame} {c : Coordinator}
    (hf : s.frames = newer ++ f :: older) (h : nth ⟨c, newer ++ f' :: older⟩ i = some g) :
    s.nth i = some f ∧ g = f' ∨ s.nth i = some g := by
  simp only [nth, hf, List.reverse_append, List.reverse_cons, List.append_assoc, List.singleton_append] at h ⊢
  by_cases hlt : i < older.reverse.length
  · rw [List.getElem?_append_left hlt] at h ⊢
    exact .inr h
  · rw [List.getElem?_append_right (Nat.le_of_not_lt hlt), List.getElem?_cons] at h ⊢
    by_cases hzero : i - older.reverse.length = 0
    · rw [if_pos hzero] at h ⊢
      exact .inl ⟨rfl, (Option.some.inj h).symm⟩
    · rw [if_neg hzero] at h ⊢
      exact .inr h

/-- A call stays what it is, and what it does next it does to the world as it is. -/
theorem nth_of_move {m : Move} (h : s.move m = some s') (hi : i < s.frames.length) {f' : Frame}
    (hf' : s'.nth i = some f') :
    ∃ f, s.nth i = some f ∧ f'.call = f.call ∧ ∀ d ∈ f'.deeds, d ∈ f.deeds ∨ d.before = s.world := by
  obtain ⟨thread, call, rfl⟩ | ⟨newer, f, older, hf, rfl⟩ | ⟨newer, f, older, next, c', hf, ha, hn, rfl⟩ :=
    move_cases h
  · rw [nth_begin hi] at hf'
    exact ⟨f', hf', rfl, fun d hd => .inl hd⟩
  · obtain ⟨hold, rfl⟩ | hsame := nth_replace hf hf'
    · exact ⟨f, hold, rfl, fun d hd => .inl hd⟩
    · exact ⟨f', hsame, rfl, fun d hd => .inl hd⟩
  · suffices hnext : ∀ g, nth ⟨c', newer ++ next :: older⟩ i = some g →
        ∃ f, s.nth i = some f ∧ g.call = f.call ∧ ∀ d ∈ g.deeds, d ∈ f.deeds ∨ d.before = s.world by
      split at hf'
      · rw [nth_roused] at hf'
        obtain ⟨g, hg, rfl⟩ := Option.map_eq_some_iff.1 hf'
        exact hnext g hg
      · exact hnext f' hf'
    intro g hg
    obtain ⟨hold, rfl⟩ | hsame := nth_replace hf hg
    · refine ⟨f, hold, ?_⟩
      obtain ⟨rest, -, -, rfl, -⟩ | ⟨stretch, rest, count, -, -, rfl⟩ | ⟨stretch, rest, outcome, -, -, rfl⟩ :=
        Frame.next_cases hn
      · exact ⟨rfl, fun d hd => .inl hd⟩
      all_goals
        refine ⟨rfl, fun d hd => ?_⟩
        obtain hd | hd := List.mem_append.1 hd
        · exact .inl hd
        · rw [List.mem_singleton.1 hd]
          exact .inr rfl
    · exact ⟨g, hsame, rfl, fun d hd => .inl hd⟩

/-- No move takes a counted cycle back. -/
theorem generation_of_move {m : Move} (h : s.move m = some s') : s.world.generation ≤ s'.world.generation := by
  have hact {stretch : Stretch} {count : UInt64} {turn : Turn} {c' : Coordinator}
      (hact : (stretch.act whole count).run s.world = (.ok turn, c')) : s.world.generation ≤ c'.generation := by
    rw [UInt64.le_iff_toNat_le, Stretch.act_generation hact]
    exact Nat.le_add_right ..
  obtain ⟨thread, call, rfl⟩ | ⟨newer, f, older, -, rfl⟩ | ⟨newer, f, older, f', c', -, -, hn, rfl⟩ := move_cases h
  · exact UInt64.le_refl _
  · exact UInt64.le_refl _
  · obtain ⟨rest, -, -, -, rfl⟩ | ⟨stretch, rest, count, -, hgo, -⟩ | ⟨stretch, rest, outcome, -, hgo, -⟩ :=
      Frame.next_cases hn
    · exact UInt64.le_refl _
    · exact hact hgo
    · exact hact hgo

/-- The `i`-th call was made as `call` when `n` cycles were complete, and did all it did since. -/
structure MadeAt (i : Nat) (call : Call) (n : UInt64) (s : Crowd) : Prop where
  made : i < s.frames.length
  count : n ≤ s.world.generation
  deeds : ∀ f, s.nth i = some f → f.call = call ∧ ∀ d ∈ f.deeds, n ≤ d.before.generation

theorem length_of_move {m : Move} (h : s.move m = some s') : s.frames.length ≤ s'.frames.length := by
  obtain ⟨thread, call, rfl⟩ | ⟨newer, f, older, hf, rfl⟩ | ⟨newer, f, older, f', c', hf, -, -, rfl⟩ := move_cases h
  · exact Nat.le_succ _
  · simp [hf]
  · split <;> simp [hf]

theorem MadeAt.move {call : Call} {n : UInt64} {m : Move} (h : s.MadeAt i call n) (hm : s.move m = some s') :
    s'.MadeAt i call n where
  made := Nat.lt_of_lt_of_le h.made (length_of_move hm)
  count := UInt64.le_trans h.count (generation_of_move hm)
  deeds f' hf' := by
    obtain ⟨f, hf, hcall, hdeeds⟩ := nth_of_move hm h.made hf'
    obtain ⟨hf, hsince⟩ := h.deeds f hf
    refine ⟨hcall.trans hf, fun d hd => ?_⟩
    obtain hd | hd := hdeeds d hd
    · exact hsince d hd
    · rw [hd]
      exact h.count

/-- A call that is made is the next one. -/
theorem madeAt_of_call {thread : ThreadId} {call : Call} (h : s.move (.call thread call) = some s') :
    s'.MadeAt s.frames.length call s.world.generation := by
  rw [begin_of_call h]
  refine ⟨Nat.lt_succ_self _, UInt64.le_refl _, fun f hf => ?_⟩
  obtain rfl : Frame.begun thread call = f := by
    simpa [nth, begin, List.getElem?_append_right] using hf
  exact ⟨rfl, fun d hd => by cases hd⟩

end Crowd

end Safepoint.Handshake

namespace Safepoint.Binding

variable {μ ε : Type} (b : Binding μ ε) (me : ThreadId)

/-- The host's code in a call that the thread `me` makes on a binding, with `request` for the callback. -/
def hostCode (request : Act (State μ ε) Unit) : Handshake.HostCode → Act (State μ ε) Unit
  | .callback => request
  | .suspendAll => (b.threads me).suspendAll
  | .resumeAll => (b.threads me).resumeAll
  | .enterSafeRegion => (b.threads me).enterSafeRegion
  | .leaveSafeRegion => (b.threads me).leaveSafeRegion

/-- A call that blocks for a cycle, from its beginning to its end. -/
def blockThrough (request : MutatorId → Act (State μ ε) Unit) : Act (State μ ε) UInt64 := do
  match ← b.blockWith me request with
  | .collection snapshot => b.finishBlock me snapshot
  | .departure => Act.fault .stuck

variable {b me}

/-- A mutator that blocks makes a blocking call on the coordinator. -/
theorem run_blockThrough {request : MutatorId → Act (State μ ε) Unit} {s : State μ ε} {mutator : Mutator}
    (h : s.registry.requireMutator me = .ok mutator) :
    (Handshake.Outcome.returned <$> b.blockThrough me request).run s =
      (Handshake.carryOut State.worldPlace (b.hostCode me (request mutator.id)) Handshake.Call.block.body 0).run s := by
  have hinsist : (insist (s.registry.requireMutator me) : Act (State μ ε) Mutator).run s = (.ok mutator, s) := by
    rw [h]
    rfl
  rw [Handshake.carryOut_block, blockThrough, blockWith]
  simp only [map_bind, bind_assoc, pure_bind]
  rw [Act.run_bind_ok (Act.run_get s), Act.run_bind_ok hinsist]
  simp only [map_eq_pure_bind]
  rfl

end Safepoint.Binding

namespace Safepoint.Handshake

open Crowd in
/-- A thread that blocks for a cycle returns with a count past that at its call, and with the cycle of that count
complete. If no cycle was owed when it called, or the count grew by more than one, a cycle is complete that was begun
after the call. Otherwise it is the cycle that was owed that ended the wait, and no cycle begun since is complete. A
mutator of a binding that blocks makes this very call, with or without a request to the collector. -/
theorem fresh_cycle_unless_owed {s₀ s₁ s : Crowd} {thread : ThreadId} {moves : List Move} {f : Frame} {g : UInt64}
    (h₀ : Reachable {} s₀) (hcall : s₀.move (.call thread .block) = some s₁) (hmoves : run moves s₁ = some s)
    (hf : s.nth s₀.frames.length = some f) (hg : f.result = some g) :
    s₀.world.generation < g ∧ s.Completes g.toNat ∧
    ((∃ k, k ≤ g.toNat ∧ s.Completes k ∧ ¬s₀.Begins k) ↔
      s₀.isOwed = false ∨ s₀.world.generation.toNat + 1 < g.toNat) ∧
    ∀ {μ ε : Type} (b : Binding μ ε) (me : ThreadId) (request : MutatorId → Act (Binding.State μ ε) Unit)
      (state : Binding.State μ ε) (mutator : Mutator), state.registry.requireMutator me = .ok mutator →
      (Outcome.returned <$> b.blockThrough me request).run state =
        (carryOut Binding.State.worldPlace (b.hostCode me (request mutator.id)) Call.block.body 0).run state := by
  have hcalled : run [.call thread .block] s₀ = some s₁ := by
    rw [run, hcall]
    rfl
  have hs : Reachable {} s := (h₀.run hcalled).run hmoves
  obtain ⟨ho, hcounted, -⟩ := hs.tallied
  have hmem : f ∈ s.frames := List.mem_reverse.1 (List.mem_of_getElem? hf)
  have hmade : s.MadeAt s₀.frames.length .block s₀.world.generation :=
    run_keeps (P := fun s => s.MadeAt s₀.frames.length .block s₀.world.generation)
      (fun _ _ _ hmade hm => hmade.move hm) (madeAt_of_call hcall) hmoves
  obtain ⟨hblock, hsince⟩ := hmade.deeds f hf
  -- The count noted is one that was found after the call.
  obtain ⟨n, d, hsnapshot, hlt, hd, rfl⟩ := (ho.course f hmem).waited (by rw [hblock]; decide) hg
  have hnoted : s₀.world.generation ≤ n := by
    simp only [Frame.snapshot, hblock] at hsnapshot
    obtain ⟨first, hfirst, rfl⟩ := Option.map_eq_some_iff.1 hsnapshot
    exact hsince first (List.mem_of_head? hfirst)
  have hpast : s₀.world.generation < d.after.generation := UInt64.lt_of_le_of_lt hnoted hlt
  have hnat : s₀.world.generation.toNat < d.after.generation.toNat := UInt64.lt_iff_toNat_lt.1 hpast
  have hseen : d.after.generation.toNat ≤ s.world.generation.toNat :=
    UInt64.le_iff_toNat_le.1 (hcounted.seen f hmem d hd)
  refine ⟨hpast, hs.completes_iff.2 ⟨by omega, hseen⟩, ?_, fun b me request state mutator => Binding.run_blockThrough⟩
  have hbegun : s₀.cyclesBegun < d.after.generation.toNat ↔
      s₀.isOwed = false ∨ s₀.world.generation.toNat + 1 < d.after.generation.toNat := by
    unfold cyclesBegun
    cases s₀.isOwed <;> simp [hnat]
  rw [← hbegun]
  simp only [hs.completes_iff, h₀.begins_iff]
  constructor
  · rintro ⟨k, hk, ⟨hpos, -⟩, hfresh⟩
    omega
  · intro hfresh
    exact ⟨d.after.generation.toNat, Nat.le_refl _, ⟨by omega, hseen⟩, by omega⟩

/-- A mutator asks while a stop is under way. The cycle that is owed is counted before the mutator looks, and so is the
next: that one is fresh, and the mutator returns its number. -/
theorem second_cycle_is_fresh : ∃ (s₀ s : Crowd) (f : Frame), Crowd.Reachable {} s₀ ∧ s₀.isOwed ∧
    s.nth s₀.frames.length = some f ∧ f.call = .block ∧ f.result = some 2 ∧
    ∃ k, k ≤ 2 ∧ s.Completes k ∧ ¬s₀.Begins k := by
  let collector : ThreadId := ⟨"collector"⟩
  let mutator : ThreadId := ⟨"mutator"⟩
  let before : List Move := [.call collector .stop, .go collector]
  let after : List Move := List.replicate 2 (.go mutator) ++ List.replicate 3 (.go collector) ++
    .call collector .start :: List.replicate 7 (.go collector) ++
    .call collector .stop :: List.replicate 4 (.go collector) ++
    .call collector .start :: List.replicate 7 (.go collector) ++ List.replicate 3 (.go mutator)
  have hrun : ((Crowd.run before ⟨{}, []⟩).bind fun s₀ => (s₀.move (.call mutator .block)).bind fun s₁ =>
      (Crowd.run after s₁).bind fun s => (s.nth s₀.frames.length).map fun f =>
        (s₀.isOwed, s₀.world.generation, f.call, f.result)) = some (true, 0, .block, some 2) := by
    decide +kernel
  obtain ⟨s₀, hbefore, hrun⟩ := Option.bind_eq_some_iff.1 hrun
  obtain ⟨s₁, hcall, hrun⟩ := Option.bind_eq_some_iff.1 hrun
  obtain ⟨s, hafter, hrun⟩ := Option.bind_eq_some_iff.1 hrun
  obtain ⟨f, hf, hfound⟩ := Option.map_eq_some_iff.1 hrun
  obtain ⟨howed, hgeneration, hblock, hresult⟩ : s₀.isOwed = true ∧ s₀.world.generation = 0 ∧ f.call = .block ∧
      f.result = some 2 := by
    simpa only [Prod.mk.injEq] using hfound
  have hreachable : Crowd.Reachable {} s₀ := ⟨before, hbefore⟩
  obtain ⟨-, -, hfresh, -⟩ := fresh_cycle_unless_owed hreachable hcall hafter hf hresult
  refine ⟨s₀, s, f, hreachable, howed, hf, hblock, hresult, ?_⟩
  exact hfresh.2 (.inr (by rw [hgeneration]; decide))

/-- A mutator asks while a stop is under way, and that very cycle ends its wait: it returns though no cycle was begun
since it asked. -/
theorem owed_cycle_ends_the_wait :
    ¬∀ (s₀ s₁ s : Crowd) (thread : ThreadId) (moves : List Move) (f : Frame) (g : UInt64), Crowd.Reachable {} s₀ →
      s₀.move (.call thread .block) = some s₁ → Crowd.run moves s₁ = some s → s.nth s₀.frames.length = some f →
      f.result = some g → ∃ k, s.Completes k ∧ ¬s₀.Begins k := by
  intro h
  let collector : ThreadId := ⟨"collector"⟩
  let mutator : ThreadId := ⟨"mutator"⟩
  let before : List Move := [.call collector .stop, .go collector]
  let after : List Move := List.replicate 3 (.go mutator) ++ List.replicate 3 (.go collector) ++
    .call collector .start :: List.replicate 7 (.go collector) ++ List.replicate 2 (.go mutator)
  have hrun : ((Crowd.run before ⟨{}, []⟩).bind fun s₀ => (s₀.move (.call mutator .block)).bind fun s₁ =>
      (Crowd.run after s₁).bind fun s => (s.nth s₀.frames.length).map fun f =>
        (s₀.cyclesBegun, s.world.generation, f.result)) = some (1, 1, some 1) := by
    decide +kernel
  obtain ⟨s₀, hbefore, hrun⟩ := Option.bind_eq_some_iff.1 hrun
  obtain ⟨s₁, hcall, hrun⟩ := Option.bind_eq_some_iff.1 hrun
  obtain ⟨s, hafter, hrun⟩ := Option.bind_eq_some_iff.1 hrun
  obtain ⟨f, hf, hfound⟩ := Option.map_eq_some_iff.1 hrun
  obtain ⟨hbegun, hgeneration, hresult⟩ : s₀.cyclesBegun = 1 ∧ s.world.generation = 1 ∧ f.result = some 1 := by
    simpa only [Prod.mk.injEq] using hfound
  have h₀ : Crowd.Reachable {} s₀ := ⟨before, hbefore⟩
  have hcalled : Crowd.run [.call mutator .block] s₀ = some s₁ := by
    rw [Crowd.run, hcall]
    rfl
  have hs : Crowd.Reachable {} s := (h₀.run hcalled).run hafter
  obtain ⟨k, hcomplete, hfresh⟩ := h s₀ s₁ s mutator after f 1 h₀ hcall hafter hf hresult
  rw [hs.completes_iff, hgeneration] at hcomplete
  rw [h₀.begins_iff, hbegun] at hfresh
  exact hfresh hcomplete

end Safepoint.Handshake
