import Safepoint.Proofs.World.Innermost

/-!
# Whether the threads are held

A stop has the host suspend the threads, and the start after it has them released. Between a suspension and the release
that follows it the world is not running: it is on its way to being suspended, or suspended, or about to be released.
-/
namespace Safepoint.Handshake

section Bodies

/-- A stop suspends the threads between its two transitions. -/
theorem Call.body_suspendAll {call : Call} {done rest : List Stretch}
    (h : done ++ .host .suspendAll :: rest = call.body) :
    call = .stop ∧ done ≠ [] ∧ rest = [.transition .suspended] := by
  cases call <;> simp [Call.body, List.append_eq_cons_iff, List.cons_eq_append_iff] at h <;> grind

/-- A start releases the threads between its two transitions. -/
theorem Call.body_resumeAll {call : Call} {done rest : List Stretch}
    (h : done ++ .host .resumeAll :: rest = call.body) :
    call = .start ∧ done ≠ [] ∧ rest = [.transition .running, .settle, .wake] := by
  cases call <;> simp [Call.body, List.append_eq_cons_iff, List.cons_eq_append_iff] at h <;> grind

/-- What a stop and a start have before them after a transition. -/
theorem Call.body_transition_host {call : Call} {done rest : List Stretch} {target : WorldState}
    (h : done ++ .transition target :: rest = call.body) :
    (call = .stop ∧ (.host .suspendAll ∈ rest ↔ done = [])) ∨
    (call = .start ∧ (.host .resumeAll ∈ rest ↔ done = [])) := by
  cases call <;> simp [Call.body, List.append_eq_cons_iff, List.cons_eq_append_iff] at h <;> grind

end Bodies

/-- Whether the threads are held once code of the host has run, if they were held before as `held` says. -/
def HostCode.holds (code : HostCode) (held : Bool) : Bool :=
  match code with
  | .suspendAll => true
  | .resumeAll => false
  | _ => held

def Stretch.holds (stretch : Stretch) (held : Bool) : Bool :=
  match stretch with
  | .host code => code.holds held
  | _ => held

/-- Whether a call that is between its transitions holds the threads: a stop once it has suspended them, a start until
it has released them. -/
def Frame.holds (f : Frame) : Bool :=
  match f.call with
  | .stop => .host .suspendAll ∉ f.rest
  | _ => .host .resumeAll ∈ f.rest

/-- Whether the threads are held follows from where the world is, and from the call that is taking it elsewhere. -/
structure Crowd.Holds (s : Crowd) (held : Bool) : Prop where
  running : s.world.state = .running → held = false
  suspended : s.world.state = .suspended → held = true
  between : ∀ f ∈ s.frames, f.isBetween → held = f.holds

namespace Frame

variable {f : Frame} {rest : List Stretch} {code : HostCode}

/-- A call that is about to have the threads suspended or released is between its transitions. -/
theorem Course.between_of_host (h : f.Course) (hr : f.rest = .host code :: rest)
    (hcode : code = .suspendAll ∨ code = .resumeAll) : f.isBetween := by
  obtain ⟨course, -⟩ := h.ofRest hr
  have hdeeds : f.deeds ≠ [] ∧ f.rest.any Stretch.isTransition := by
    obtain rfl | rfl := hcode
    · obtain ⟨-, hdone, hrest⟩ := Call.body_suspendAll course
      exact ⟨by simpa using hdone, by simp [hr, hrest, Stretch.isTransition]⟩
    · obtain ⟨-, hdone, hrest⟩ := Call.body_resumeAll course
      exact ⟨by simpa using hdone, by simp [hr, hrest, Stretch.isTransition]⟩
  simp [isBetween, hdeeds]

end Frame

namespace Crowd.Holds

variable {s : Crowd} {held : Bool} {newer older : List Frame} {f : Frame} {stretch : Stretch} {rest : List Stretch}
  {count : UInt64} {world : Coordinator}

/-- If no other call is between its transitions, only one has to be looked at. -/
theorem between_of_alone (halone : ∀ g ∈ newer ++ older, g.isBetween = false) {f' : Frame}
    (hf' : f'.isBetween → held = f'.holds) : ∀ g ∈ newer ++ f' :: older, g.isBetween → held = g.holds := by
  intro g hg hbetween
  have hcases : g = f' ∨ g ∈ newer ++ older := List.mem_cons.1 (List.perm_middle.mem_iff.1 hg)
  obtain rfl | hother := hcases
  · exact hf' hbetween
  · rw [halone g hother] at hbetween
    cases hbetween

/-- A call goes on with something that is no transition. -/
theorem within (h : s.Holds held) (ho : s.Orderly) (hs : s.frames = newer ++ f :: older) (hr : f.rest = stretch :: rest)
    (hact : (stretch.act whole f.count).run s.world = (.ok (.on count), world))
    (hinside : stretch.isTransition = false) :
    Holds ⟨world, newer ++ f.onward ⟨stretch, s.world, world⟩ rest count :: older⟩ (stretch.holds held) := by
  have hmem : f ∈ s.frames := by simp [hs]
  have hcourse := ho.course f hmem
  have hstate : world.state = s.world.state := Stretch.act_state hact hinside
  have hbetween : (f.onward ⟨stretch, s.world, world⟩ rest count).isBetween = f.isBetween :=
    Frame.isBetween_onward hcourse hr hinside _
  by_cases hhost : stretch = .host .suspendAll ∨ stretch = .host .resumeAll
  · -- The call is between its transitions, so it is the only one.
    have hf : f.isBetween := by
      obtain rfl | rfl := hhost
      · exact hcourse.between_of_host hr (.inl rfl)
      · exact hcourse.between_of_host hr (.inr rfl)
    obtain ⟨source, hsource, hin⟩ := ho.held f hmem hf
    have hnot : world.state ≠ .running ∧ world.state ≠ .suspended := by
      rw [hstate, hin]
      cases hcall : f.call <;> rw [hcall] at hsource <;> cases hsource <;> exact ⟨by decide, by decide⟩
    refine ⟨fun hrun => absurd hrun hnot.1, fun hsuspended => absurd hsuspended hnot.2, ?_⟩
    refine between_of_alone (ho.alone hs hf) fun _ => ?_
    obtain ⟨course, -⟩ := hcourse.ofRest hr
    obtain rfl | rfl := hhost
    · obtain ⟨hcall, -, rfl⟩ := Call.body_suspendAll course
      simp [Stretch.holds, HostCode.holds, Frame.holds, Frame.onward, hcall]
    · obtain ⟨hcall, -, rfl⟩ := Call.body_resumeAll course
      simp [Stretch.holds, HostCode.holds, Frame.holds, Frame.onward, hcall]
  · have hsame : stretch.holds held = held := by
      cases stretch with
      | host code => cases code <;> simp_all [Stretch.holds, HostCode.holds]
      | _ => rfl
    obtain ⟨hsuspend, hresume⟩ := not_or.1 hhost
    have hholds : (f.onward ⟨stretch, s.world, world⟩ rest count).holds = f.holds := by
      cases hcall : f.call <;> simp [Frame.holds, Frame.onward, hcall, hr, Ne.symm hsuspend, Ne.symm hresume]
    rw [hsame]
    constructor
    · intro hrun
      exact h.running (hstate ▸ hrun)
    · intro hsuspended
      exact h.suspended (hstate ▸ hsuspended)
    · refine forall_mem_replace (hs ▸ h.between) fun hf => ?_
      rw [hholds]
      exact h.between f hmem (hbetween ▸ hf)

/-- A call makes a transition. -/
theorem across (h : s.Holds held) (ho : s.Orderly) (hs : s.frames = newer ++ f :: older) {target : WorldState}
    (hr : f.rest = .transition target :: rest)
    (hact : ((Stretch.transition target).act whole f.count).run s.world = (.ok (.on count), world)) :
    Holds ⟨world, newer ++ f.onward ⟨.transition target, s.world, world⟩ rest count :: older⟩ held := by
  have hmem : f ∈ s.frames := by simp [hs]
  obtain ⟨course, -⟩ := (ho.course f hmem).ofRest hr
  have hsucc : s.world.state.successor = target := by
    rw [act_transition] at hact
    split at hact
    · assumption
    · cases hact
  rw [act_transition, if_pos hsucc] at hact
  cases hact
  have hhost := Call.body_transition_host course
  obtain ⟨source, hsource, ⟨hdone, rfl, hmore⟩ | ⟨hdone, rfl, hmore⟩⟩ := Call.body_transition course
  · -- the first transition: nobody else is between two
    have hin : s.world.state = source := successor_injective hsucc
    have hfree := ho.free_of_source (hin ▸ hsource)
    have hheld : held = (f.onward ⟨.transition source.successor, s.world, { s.world with state := source.successor }⟩
        rest f.count).holds := by
      obtain ⟨hcall, hin'⟩ | ⟨hcall, hin'⟩ := hhost
      · have hrunning : s.world.state = .running := by
          rw [hcall] at hsource
          exact hin.trans (Option.some.inj hsource).symm
        simp [h.running hrunning, Frame.holds, Frame.onward, hcall, hin'.2 hdone]
      · have hsuspended : s.world.state = .suspended := by
          rw [hcall] at hsource
          exact hin.trans (Option.some.inj hsource).symm
        simp [h.suspended hsuspended, Frame.holds, Frame.onward, hcall, hin'.2 hdone]
    refine ⟨fun hrun => ?_, fun hsuspended => ?_, ?_⟩
    · have hstop : Call.stop.source = some .running := rfl
      exact absurd hrun.symm (Call.source_ne hstop hsource)
    · have hstart : Call.start.source = some .suspended := rfl
      exact absurd hsuspended.symm (Call.source_ne hstart hsource)
    · have hothers : ∀ g ∈ newer ++ older, g.isBetween = false := by
        intro g hg
        apply hfree g
        rw [hs]
        exact List.perm_middle.mem_iff.2 (List.mem_cons_of_mem f hg)
      exact between_of_alone hothers fun _ => hheld
  · -- the second: the call was between the two, and now nobody is
    have hdeeds : f.deeds ≠ [] := by simpa using hdone
    have hf : f.isBetween := by simp [Frame.isBetween, hdeeds, hr, Stretch.isTransition]
    have hheld : held = f.holds := h.between f hmem hf
    refine ⟨fun hrun => ?_, fun hsuspended => ?_, ?_⟩
    · obtain ⟨hcall, hin⟩ | ⟨hcall, hin⟩ := hhost
      · rw [hcall] at hsource
        cases hsource
        cases hrun
      · simpa [Frame.holds, hcall, hr, mt hin.1 hdone] using hheld
    · obtain ⟨hcall, hin⟩ | ⟨hcall, hin⟩ := hhost
      · simpa [Frame.holds, hcall, hr, mt hin.1 hdone] using hheld
      · rw [hcall] at hsource
        cases hsource
        cases hsuspended
    · refine between_of_alone (ho.alone hs hf) fun hbetween => ?_
      simp [Frame.isBetween, Frame.onward, hmore] at hbetween

theorem rousedAll (h : s.Holds held) : Holds ⟨s.world, s.frames.map Frame.roused⟩ held where
  running := h.running
  suspended := h.suspended
  between g hg hbetween := by
    obtain ⟨f, hf, rfl⟩ := List.mem_map.1 hg
    exact h.between f hf hbetween

/-- A call is where it was, or was over before it had moved the world. -/
theorem replace (h : s.Holds held) (hs : s.frames = newer ++ f :: older) {f' : Frame}
    (hstate : world.state = s.world.state) (hbetween : f'.isBetween → f.isBetween ∧ f'.holds = f.holds) :
    Holds ⟨world, newer ++ f' :: older⟩ held where
  running hrun := h.running (hstate ▸ hrun)
  suspended hsuspended := h.suspended (hstate ▸ hsuspended)
  between := by
    refine forall_mem_replace (hs ▸ h.between) fun hf' => ?_
    obtain ⟨hf, hholds⟩ := hbetween hf'
    rw [hholds]
    exact h.between f (by simp [hs]) hf

/-- A thread carries out the next stretch of its call. -/
theorem go {s' : Crowd} {thread : ThreadId} (h : s.Holds held) (ho : s.Orderly) (hm : s.move (.go thread) = some s')
    (hf : s.current thread = some f) (hr : f.rest = stretch :: rest) : s'.Holds (stretch.holds held) := by
  obtain ⟨newer, g, older, f', world, hp, -, hn, rfl⟩ := go_cases hm
  obtain rfl : f = g := Option.some.inj (hf.symm.trans (current_of_pick hp))
  obtain ⟨hs, -, -⟩ := pick_eq hp
  suffices hq : Holds ⟨world, newer ++ f' :: older⟩ (stretch.holds held) by
    split
    · exact hq.rousedAll
    · exact hq
  obtain ⟨rest', hr', -, rfl, rfl⟩ | ⟨stretch', rest', count, hr', hact, rfl⟩ |
    ⟨stretch', rest', outcome, hr', hact, rfl⟩ := Frame.next_cases hn <;> cases hr.symm.trans hr'
  · exact h.replace hs rfl fun hbetween => ⟨hbetween, rfl⟩
  · cases hinside : stretch.isTransition with
    | false => exact h.within ho hs hr hact hinside
    | true =>
      cases stretch with
      | transition target => exact h.across ho hs hr hact
      | _ => cases hinside
  · obtain ⟨-, -, hstate⟩ := ho.first_of_off (by simp [hs]) hr hact
    have hsame : stretch.holds held = held := by
      cases stretch with
      | host code => cases hact
      | _ => rfl
    rw [hsame]
    refine h.replace hs hstate fun hbetween => ?_
    simp [Frame.isBetween, Frame.quit] at hbetween

/-- Whatever does not carry out a stretch leaves the threads as they are. -/
theorem other {s' : Crowd} {m : Move} (h : s.Holds held) (hm : s.move m = some s') (hgo : ∀ thread, m ≠ .go thread) :
    s'.Holds held := by
  cases m with
  | call thread call =>
    rw [begin_of_call hm]
    refine ⟨h.running, h.suspended, List.forall_mem_cons.2 ⟨fun hbetween => ?_, h.between⟩⟩
    simp [Frame.isBetween, Frame.begun] at hbetween
  | go thread => exact absurd rfl (hgo thread)
  | rouse thread =>
    obtain ⟨⟨newer, f, older⟩, hp, rfl⟩ := Option.map_eq_some_iff.1 hm
    exact h.replace (pick_eq hp).1 rfl fun hbetween => ⟨hbetween, rfl⟩

end Crowd.Holds

end Safepoint.Handshake
