import Safepoint.Proofs.World.Crowd

/-!
# Who may move the world

Between its two transitions a stop or a start owns the world: it alone can take it out of the
state in between. So a call that was let in is never refused later, whatever other calls run
inside it or beside it, and a call that is refused is refused before it has done anything.
-/
namespace Safepoint.Handshake

def Stretch.isTransition : Stretch → Bool
  | .transition _ => true
  | _ => false

/-- A call makes two transitions if it makes any, the first of them first of all. -/
theorem Call.body_transition {call : Call} {done rest : List Stretch} {target : WorldState}
    (h : done ++ .transition target :: rest = call.body) :
    ∃ source, call.source = some source ∧
      ((done = [] ∧ target = source.successor ∧ rest.any Stretch.isTransition) ∨
        (done ≠ [] ∧ target = source.successor.successor ∧ rest.any Stretch.isTransition = false)) := by
  cases call <;>
    simp [Call.body, List.append_eq_cons_iff, List.cons_eq_append_iff] at h <;>
    grind [Call.source, WorldState.successor, Stretch.isTransition]

theorem Call.body_other {call : Call} {rest : List Stretch} {stretch : Stretch}
    (h : stretch :: rest = call.body) (hs : stretch.isTransition = false) :
    rest.any Stretch.isTransition = false := by
  cases call <;> simp [Call.body] at h <;> grind [Stretch.isTransition]

theorem Call.body_departNow {call : Call} {done rest : List Stretch}
    (h : done ++ .departNow :: rest = call.body) : call = .leave ∧ done = [] := by
  cases call <;> simp [Call.body, List.append_eq_cons_iff, List.cons_eq_append_iff] at h <;> grind

/-- All that a call does after its second transition is to wake others. -/
theorem Call.body_between {call : Call} {source : WorldState} {done rest : List Stretch} {stretch : Stretch}
    (hc : call.source = some source) (h : done ++ stretch :: rest = call.body) (hd : done ≠ [])
    (hs : stretch ≠ .settle) (hw : stretch ≠ .wake) : (stretch :: rest).any Stretch.isTransition := by
  cases call <;> simp [Call.source] at hc <;>
    simp [Call.body, List.append_eq_cons_iff, List.cons_eq_append_iff] at h <;> grind [Stretch.isTransition]

/-- Only a transition moves the world. -/
theorem Stretch.act_state {stretch : Stretch} {count : UInt64} {c c' : Coordinator} {turn : Turn}
    (h : (stretch.act whole count).run c = (.ok turn, c')) (hs : stretch.isTransition = false) :
    c'.state = c.state := by
  cases stretch with
  | transition target => simp [isTransition] at hs
  | bump =>
    rw [act_bump] at h
    split at h <;> cases h
    rfl
  | wait =>
    rw [act_wait] at h
    split at h <;> cases h
    rfl
  | departNow =>
    rw [act_departNow] at h
    split at h <;> cases h <;> rfl
  | departLater =>
    rw [act_departLater] at h
    split at h <;> cases h
    rfl
  | note | settle | wake | host code =>
    cases h
    rfl

/-- The deeds follow one another, from a call that holds `count` to one that holds the last. -/
def Passes : UInt64 → List Deed → UInt64 → Prop
  | count, [], last => count = last
  | count, d :: ds, last =>
    ∃ next, (d.stretch.act whole count).run d.before = (.ok (.on next), d.after) ∧ Passes next ds last

theorem passes_append {count last : UInt64} {ds es : List Deed} :
    Passes count (ds ++ es) last ↔ ∃ middle, Passes count ds middle ∧ Passes middle es last := by
  induction ds generalizing count with
  | nil => simp [Passes]
  | cons d ds ih => simp only [List.cons_append, Passes, ih]; grind

namespace Frame

/-- Whether the first transition of a call is done and the second is to come. -/
def isBetween (f : Frame) : Bool := !f.deeds.isEmpty && f.rest.any Stretch.isTransition

/-- A call is under way or was carried out in full, or it was over after its first stretch. -/
inductive Course (f : Frame) : Prop
  | under (course : f.deeds.map Deed.stretch ++ f.rest = f.call.body)
      (passes : Passes f.call.count f.deeds f.count)
      (outcome : f.outcome = if f.rest = [] then some (.returned f.count) else none)
      (asleep : f.asleep → ∃ rest, f.rest = .wait :: rest)
  | refused (source : WorldState) (c : Coordinator) (call : f.call.source = some source)
      (found : c.state ≠ source) (deeds : f.deeds = [⟨.transition source.successor, c, c⟩])
      (rest : f.rest = [])
      (outcome : f.outcome = some (.refused (.illegalTransition c.state source.successor)))
  | departed (c : Coordinator) (call : f.call = .leave) (deeds : f.deeds = [⟨.departNow, c, c⟩])
      (rest : f.rest = []) (outcome : f.outcome = some (.returned f.count))

/-- Between its transitions, a call did everything in the state in between. -/
def Steady (f : Frame) : Prop :=
  ∀ source, f.call.source = some source → ∀ d ∈ f.deeds.tail,
    d.stretch ≠ .settle → d.stretch ≠ .wake → d.before.state = source.successor

end Frame

/-- No two calls are between their transitions, and the world is where such a call left it. -/
structure Crowd.Orderly (s : Crowd) : Prop where
  course : ∀ f ∈ s.frames, f.Course
  steady : ∀ f ∈ s.frames, f.Steady
  single : s.frames.countP Frame.isBetween ≤ 1
  held : ∀ f ∈ s.frames, f.isBetween → ∃ source, f.call.source = some source ∧ s.world.state = source.successor

namespace Frame

variable {f : Frame} {stretch : Stretch} {rest : List Stretch} {count : UInt64} {c c' : Coordinator}

/-- A call with something left to do is under way. -/
theorem Course.ofRest (h : f.Course) (hr : f.rest = stretch :: rest) :
    f.deeds.map Deed.stretch ++ stretch :: rest = f.call.body ∧ Passes f.call.count f.deeds f.count := by
  cases h with
  | under course passes => exact ⟨hr ▸ course, passes⟩
  | refused _ _ _ _ _ hdone | departed _ _ _ hdone =>
    rw [hdone] at hr
    cases hr

/-- A call that has done nothing has its whole body before it. -/
theorem Course.rest_of_deeds (h : f.Course) (hd : f.deeds = []) : f.rest = f.call.body := by
  cases h with
  | under course =>
    rw [hd] at course
    exact course
  | refused _ _ _ _ deeds | departed _ _ deeds =>
    rw [hd] at deeds
    cases deeds

/-- Only a call that waits is asleep. -/
theorem Course.awake (h : f.Course) (hr : f.rest = stretch :: rest) (hs : stretch ≠ .wait) : f.asleep = false := by
  cases h with
  | under _ _ _ asleep =>
    cases hasleep : f.asleep with
    | false => rfl
    | true =>
      obtain ⟨_, hwait⟩ := asleep hasleep
      exact absurd (List.cons.inj (hr.symm.trans hwait)).1 hs
  | refused _ _ _ _ _ hdone | departed _ _ _ hdone =>
    rw [hdone] at hr
    cases hr

theorem Course.onward (h : f.Course) (hr : f.rest = stretch :: rest) (ha : f.asleep = false)
    (hact : (stretch.act whole f.count).run c = (.ok (.on count), c')) :
    (f.onward ⟨stretch, c, c'⟩ rest count).Course := by
  obtain ⟨course, passes⟩ := h.ofRest hr
  refine .under ?_ ?_ rfl ?_
  · simpa [Frame.onward] using course
  · exact passes_append.2 ⟨f.count, passes, count, hact, rfl⟩
  · simp [Frame.onward, ha]

theorem Course.begun (thread : ThreadId) (call : Call) : (Frame.begun thread call).Course := by
  refine .under rfl rfl ?_ (by simp [Frame.begun])
  cases call <;> rfl

theorem Course.roused (h : f.Course) : f.roused.Course := by
  cases h with
  | under course passes outcome => exact .under course passes outcome (by simp [Frame.roused])
  | refused source c call found deeds rest outcome => exact .refused source c call found deeds rest outcome
  | departed c call deeds rest outcome => exact .departed c call deeds rest outcome

theorem Course.asleep (h : f.Course) (hr : f.rest = .wait :: rest) : { f with asleep := true : Frame }.Course := by
  cases h with
  | under course passes outcome => exact .under course passes outcome fun _ => ⟨rest, hr⟩
  | refused source c call found deeds rest outcome => exact .refused source c call found deeds rest outcome
  | departed c call deeds rest outcome => exact .departed c call deeds rest outcome

/-- Only transitions decide whether a call is between them. -/
theorem isBetween_onward (h : f.Course) (hr : f.rest = stretch :: rest) (hs : stretch.isTransition = false)
    (deed : Deed) : (f.onward deed rest count).isBetween = f.isBetween := by
  obtain ⟨course, -⟩ := h.ofRest hr
  cases hd : f.deeds with
  | nil =>
    rw [hd] at course
    have := Call.body_other (by simpa using course) hs
    simp [isBetween, Frame.onward, hd, this]
  | cons d ds => simp [isBetween, Frame.onward, hd, hr, hs]

theorem Steady.onward (h : f.Steady) (hc : f.Course) (hr : f.rest = stretch :: rest)
    (world after : Coordinator) (count : UInt64)
    (held : f.isBetween → ∃ source, f.call.source = some source ∧ world.state = source.successor) :
    (f.onward ⟨stretch, world, after⟩ rest count).Steady := by
  intro source hsource d hd hset hwake
  cases hds : f.deeds with
  | nil => simp [Frame.onward, hds] at hd
  | cons first later =>
    have hd : d ∈ later ∨ d = ⟨stretch, world, after⟩ := by simpa [Frame.onward, hds] using hd
    obtain hd | rfl := hd
    · exact h source hsource d (by simpa [hds] using hd) hset hwake
    · have hany := Call.body_between hsource (hc.ofRest hr).1 (by simp [hds]) hset hwake
      obtain ⟨source', hs', hw⟩ := held (by simpa [isBetween, hds, hr] using hany)
      cases hsource.symm.trans hs'
      exact hw

end Frame

theorem forall_mem_replace {α : Type} {P : α → Prop} {newer older : List α} {a b : α}
    (h : ∀ x ∈ newer ++ a :: older, P x) (hb : P b) : ∀ x ∈ newer ++ b :: older, P x := by
  intro x hx
  simp only [List.mem_append, List.mem_cons] at h hx
  obtain hx | rfl | hx := hx
  · exact h x (.inl hx)
  · exact hb
  · exact h x (.inr (.inr hx))

/-- The world is never found in between where a handshake may begin. -/
theorem Call.source_ne {call other : Call} {a b : WorldState} (ha : call.source = some a)
    (hb : other.source = some b) : a ≠ b.successor := by
  cases call <;> cases other <;> simp [Call.source] at ha hb <;> subst ha hb <;> decide

theorem successor_injective {a b : WorldState} (h : a.successor = b.successor) : a = b := by
  cases a <;> cases b <;> first | rfl | cases h

namespace Crowd.Orderly

variable {s : Crowd} {newer older : List Frame} {f f' : Frame} {world : Coordinator}

/-- A call went on, and neither took the world nor gave it back. -/
theorem replace (h : s.Orderly) (hf : s.frames = newer ++ f :: older) (hc : f'.Course) (hs : f'.Steady)
    (hb : f'.isBetween = f.isBetween) (hcall : f'.call = f.call) (hw : world.state = s.world.state) :
    Orderly ⟨world, newer ++ f' :: older⟩ where
  course := forall_mem_replace (hf ▸ h.course) hc
  steady := forall_mem_replace (hf ▸ h.steady) hs
  single := by
    have := h.single
    simp only [hf, List.countP_append, List.countP_cons] at this ⊢
    rw [hb]
    exact this
  held := by
    refine forall_mem_replace (a := f) (fun g hg hgb => ?_) fun hfb => ?_
    · exact hw ▸ h.held g (hf ▸ hg) hgb
    · rw [hb] at hfb
      exact hcall ▸ hw ▸ h.held f (by simp [hf]) hfb

/-- A call took the world, where nobody had it. -/
theorem take (h : s.Orderly) (hf : s.frames = newer ++ f :: older) (hc : f'.Course) (hs : f'.Steady)
    (free : ∀ g ∈ s.frames, g.isBetween = false) {source : WorldState} (hcall : f'.call.source = some source)
    (hw : world.state = source.successor) : Orderly ⟨world, newer ++ f' :: older⟩ where
  course := forall_mem_replace (hf ▸ h.course) hc
  steady := forall_mem_replace (hf ▸ h.steady) hs
  single := by
    have none (l : List Frame) (hl : ∀ g ∈ l, g ∈ s.frames) : l.countP Frame.isBetween = 0 :=
      List.countP_eq_zero.2 fun g hg => by simp [free g (hl g hg)]
    simp only [List.countP_append, List.countP_cons, none newer (by simp +contextual [hf]),
      none older (by simp +contextual [hf])]
    split <;> omega
  held := by
    refine forall_mem_replace (a := f) (fun g hg hgb => ?_) fun _ => ⟨source, hcall, hw⟩
    rw [free g (hf ▸ hg)] at hgb
    cases hgb

/-- The call that had the world gave it back. -/
theorem release (h : s.Orderly) (hf : s.frames = newer ++ f :: older) (hc : f'.Course) (hs : f'.Steady)
    (hb : f.isBetween) (hb' : f'.isBetween = false) : Orderly ⟨world, newer ++ f' :: older⟩ := by
  have hzero : newer.countP Frame.isBetween = 0 ∧ older.countP Frame.isBetween = 0 := by
    have := h.single
    simp only [hf, List.countP_append, List.countP_cons, hb, if_true] at this
    omega
  refine ⟨forall_mem_replace (hf ▸ h.course) hc, forall_mem_replace (hf ▸ h.steady) hs, ?_, ?_⟩
  · simp [List.countP_append, hzero, hb']
  · intro g hg hgb
    simp only [List.mem_append, List.mem_cons] at hg
    obtain hg | rfl | hg := hg
    · exact absurd hgb (List.countP_eq_zero.1 hzero.1 g hg)
    · simp [hb'] at hgb
    · exact absurd hgb (List.countP_eq_zero.1 hzero.2 g hg)

theorem rousedAll (h : s.Orderly) : Orderly ⟨s.world, s.frames.map Frame.roused⟩ where
  course g hg := by
    obtain ⟨f, hf, rfl⟩ := List.mem_map.1 hg
    exact (h.course f hf).roused
  steady g hg := by
    obtain ⟨f, hf, rfl⟩ := List.mem_map.1 hg
    exact h.steady f hf
  single := by
    rw [List.countP_map]
    exact h.single
  held g hg := by
    obtain ⟨f, hf, rfl⟩ := List.mem_map.1 hg
    exact h.held f hf

/-- Beside a call that is between its transitions there is no other. -/
theorem alone (h : s.Orderly) (hf : s.frames = newer ++ f :: older) (hb : f.isBetween) :
    ∀ g ∈ newer ++ older, g.isBetween = false := by
  have hcount : newer.countP Frame.isBetween + older.countP Frame.isBetween = 0 := by
    have hsingle := h.single
    simp only [hf, List.countP_append, List.countP_cons, hb, if_true] at hsingle
    omega
  rw [← List.countP_append, List.countP_eq_zero] at hcount
  intro g hg
  simpa using hcount g hg

/-- A first transition finds nobody in between. -/
theorem free_of_source (h : s.Orderly) {call : Call} (hcall : call.source = some s.world.state) :
    ∀ g ∈ s.frames, g.isBetween = false := by
  intro g hg
  cases hb : g.isBetween with
  | false => rfl
  | true =>
    obtain ⟨source, hsource, hw⟩ := h.held g hg hb
    exact absurd hw (Call.source_ne hcall hsource)

/-- One stretch is carried out and the call goes on. -/
theorem onward (h : s.Orderly) (hf : s.frames = newer ++ f :: older) (ha : f.asleep = false)
    {stretch : Stretch} {rest : List Stretch} {count : UInt64} (hr : f.rest = stretch :: rest)
    (hact : (stretch.act whole f.count).run s.world = (.ok (.on count), world)) :
    Orderly ⟨world, newer ++ f.onward ⟨stretch, s.world, world⟩ rest count :: older⟩ := by
  have hmem : f ∈ s.frames := by simp [hf]
  have hcourse := h.course f hmem
  have hc := hcourse.onward hr ha hact
  have hs := (h.steady f hmem).onward hcourse hr s.world world count (h.held f hmem)
  cases ht : stretch.isTransition with
  | false =>
    exact h.replace hf hc hs (Frame.isBetween_onward hcourse hr ht _) rfl (Stretch.act_state hact ht)
  | true =>
    cases stretch with
    | transition target =>
      rw [act_transition] at hact
      split at hact
      · rename_i hsucc
        cases hact
        obtain ⟨source, hsource, ⟨hd, rfl, hrest⟩ | ⟨hd, rfl, hrest⟩⟩ := Call.body_transition (hcourse.ofRest hr).1
        · have hw : s.world.state = source := successor_injective hsucc
          exact h.take hf hc hs (h.free_of_source (hw ▸ hsource)) hsource rfl
        · refine h.release hf hc hs ?_ ?_
          · simp only [List.map_eq_nil_iff, ne_eq] at hd
            simp [Frame.isBetween, hd, hr, Stretch.isTransition]
          · simp [Frame.isBetween, Frame.onward, hrest]
      · cases hact
    | _ => simp [Stretch.isTransition] at ht

/-- A call that is over after this stretch had done nothing before. -/
theorem first_of_off (h : s.Orderly) (hmem : f ∈ s.frames)
    {stretch : Stretch} {rest : List Stretch} {outcome : Outcome} (hr : f.rest = stretch :: rest)
    (hact : (stretch.act whole f.count).run s.world = (.ok (.off outcome), world)) :
    f.deeds = [] ∧ (f.quit ⟨stretch, s.world, world⟩ outcome).Course ∧ world.state = s.world.state := by
  have hcourse := (h.course f hmem).ofRest hr
  cases stretch with
  | transition target =>
    rw [act_transition] at hact
    split at hact
    · cases hact
    rename_i hsucc
    cases hact
    obtain ⟨source, hsource, ⟨hd, rfl, -⟩ | ⟨hd, rfl, -⟩⟩ := Call.body_transition hcourse.1
    · have hd : f.deeds = [] := List.map_eq_nil_iff.1 hd
      have hne : s.world.state ≠ source := fun he => hsucc (he ▸ rfl)
      exact ⟨hd, .refused source s.world hsource hne (by simp [Frame.quit, hd]) rfl rfl, rfl⟩
    · -- the second transition starts where the first one led
      simp only [List.map_eq_nil_iff, ne_eq] at hd
      have hb : f.isBetween := by simp [Frame.isBetween, hd, hr, Stretch.isTransition]
      obtain ⟨source', hs', hw⟩ := h.held f hmem hb
      cases hsource.symm.trans hs'
      exact absurd (by rw [hw]) hsucc
  | departNow =>
    rw [act_departNow] at hact
    split at hact <;> cases hact
    obtain ⟨hcall, hd⟩ := Call.body_departNow hcourse.1
    have hd : f.deeds = [] := List.map_eq_nil_iff.1 hd
    exact ⟨hd, .departed s.world hcall (by simp [Frame.quit, hd]) rfl rfl, rfl⟩
  | bump =>
    rw [act_bump] at hact
    split at hact <;> cases hact
  | wait =>
    rw [act_wait] at hact
    split at hact <;> cases hact
  | departLater =>
    rw [act_departLater] at hact
    split at hact <;> cases hact
  | note | settle | wake | host code => cases hact

theorem quit (h : s.Orderly) (hf : s.frames = newer ++ f :: older)
    {stretch : Stretch} {rest : List Stretch} {outcome : Outcome} (hr : f.rest = stretch :: rest)
    (hact : (stretch.act whole f.count).run s.world = (.ok (.off outcome), world)) :
    Orderly ⟨world, newer ++ f.quit ⟨stretch, s.world, world⟩ outcome :: older⟩ := by
  obtain ⟨hd, hc, hw⟩ := h.first_of_off (by simp [hf]) hr hact
  refine h.replace hf hc (fun _ _ d hd' => ?_) ?_ rfl hw
  · simp [Frame.quit, hd] at hd'
  · simp [Frame.isBetween, Frame.quit, hd]

theorem begin (h : s.Orderly) (thread : ThreadId) (call : Call) : (s.begin thread call).Orderly := by
  have hb : (Frame.begun thread call).isBetween = false := rfl
  refine ⟨?_, ?_, ?_, ?_⟩
  · exact List.forall_mem_cons.2 ⟨.begun thread call, h.course⟩
  · exact List.forall_mem_cons.2 ⟨fun _ _ d hd => by simp [Frame.begun] at hd, h.steady⟩
  · simpa [Crowd.begin, hb] using h.single
  · exact List.forall_mem_cons.2 ⟨fun hbetween => absurd hbetween (by simp [hb]), h.held⟩

theorem move {s' : Crowd} {m : Move} (h : s.Orderly) (hm : s.move m = some s') : s'.Orderly := by
  refine move_keeps hm h.begin (fun newer f older hf => ?_) (fun newer f older rest hf hr => ?_) ?_ ?_
    fun world frames hq => hq.rousedAll
  · have hmem : f ∈ s.frames := by simp [hf]
    exact h.replace hf (h.course f hmem).roused (h.steady f hmem) rfl rfl rfl
  · have hmem : f ∈ s.frames := by simp [hf]
    exact h.replace hf ((h.course f hmem).asleep hr) (h.steady f hmem) rfl rfl rfl
  · exact fun newer f older stretch rest count world hf ha hr hact => h.onward hf ha hr hact
  · exact fun newer f older stretch rest outcome world hf hr hact => h.quit hf hr hact

end Crowd.Orderly

theorem Crowd.Reachable.orderly {c : Coordinator} {s : Crowd} (h : Reachable c s) : s.Orderly := by
  refine h.induct (P := Orderly) ⟨?_, ?_, ?_, ?_⟩ fun _ _ _ hs hm => hs.move hm
  all_goals simp

/-- Each bump counts one cycle, and nothing else counts any. -/
theorem Stretch.act_generation {stretch : Stretch} {count : UInt64} {c c' : Coordinator} {turn : Turn}
    (h : (stretch.act whole count).run c = (.ok turn, c')) :
    c'.generation.toNat = c.generation.toNat + if stretch = .bump then 1 else 0 := by
  cases stretch with
  | transition target =>
    rw [act_transition] at h
    split at h <;> cases h <;> rfl
  | bump =>
    rw [act_bump] at h
    split at h <;> cases h
    rename_i hlt
    simpa using toNat_add_one hlt
  | wait =>
    rw [act_wait] at h
    split at h <;> cases h
    rfl
  | departNow =>
    rw [act_departNow] at h
    split at h <;> cases h <;> rfl
  | departLater =>
    rw [act_departLater] at h
    split at h <;> cases h
    rfl
  | note | settle | wake | host code =>
    cases h
    rfl

theorem Passes.act {count last : UInt64} {ds : List Deed} (h : Passes count ds last) {d : Deed} (hd : d ∈ ds) :
    ∃ held next, (d.stretch.act whole held).run d.before = (.ok (.on next), d.after) := by
  induction ds generalizing count with
  | nil => cases hd
  | cons e es ih =>
    obtain ⟨next, hact, hes⟩ := h
    obtain rfl | hd := List.mem_cons.1 hd
    · exact ⟨count, next, hact⟩
    · exact ih hes hd

section Replay

variable {host : HostCode → Act Coordinator Unit} {stretch : Stretch} {rest : List Stretch}
  {count next : UInt64} {c c' : Coordinator}

theorem run_carryOut_on (hs : ∀ code, stretch ≠ .host code)
    (h : (stretch.act whole count).run c = (.ok (.on next), c')) :
    (carryOut whole host (stretch :: rest) count).run c = (carryOut whole host rest next).run c' := by
  cases stretch with
  | host code => exact absurd rfl (hs code)
  | _ =>
    simp only [carryOut]
    rw [Act.run_bind_ok h]

theorem run_carryOut_off (hs : ∀ code, stretch ≠ .host code) {outcome : Outcome}
    (h : (stretch.act whole count).run c = (.ok (.off outcome), c')) :
    (carryOut whole host (stretch :: rest) count).run c = (.ok outcome, c') := by
  cases stretch with
  | host code => exact absurd rfl (hs code)
  | _ =>
    simp only [carryOut]
    rw [Act.run_bind_ok h]
    rfl

theorem run_carryOut_host {code : HostCode} (h : (host code).run c = (.ok (), c')) :
    (carryOut whole host (.host code :: rest) count).run c = (carryOut whole host rest count).run c' := by
  rw [carryOut_host, Act.run_bind_ok h]

theorem eq_of_act_host {code : HostCode}
    (h : ((Stretch.host code).act whole count).run c = (.ok (.on next), c')) : next = count := by
  cases congrArg Prod.fst h
  rfl

end Replay

namespace Frame

/-- Code of the host that leaves the coordinator as the call found it next: what the others did
meanwhile, done at once. -/
def meanwhile (f : Frame) (code : HostCode) : Act Coordinator Unit :=
  modify fun c => (((f.deeds.dropWhile (·.stretch ≠ .host code)).tail.head?.map Deed.before).getD c)

theorem meanwhile_run {f : Frame} {code : HostCode} (before : List Deed) {rest : List Deed} {d next : Deed}
    (hf : f.deeds = before ++ d :: next :: rest) (hb : ∀ e ∈ before, e.stretch ≠ .host code)
    (hd : d.stretch = .host code) (c : Coordinator) : (f.meanwhile code).run c = (.ok (), next.before) := by
  have hdrop : f.deeds.dropWhile (·.stretch ≠ .host code) = d :: next :: rest := by
    rw [hf, List.dropWhile_append_of_pos (by simpa using hb), List.dropWhile_cons_of_neg (by simp [hd])]
  simp only [meanwhile, hdrop]
  rfl

/-- A call that was carried out in full returns what its own function returns if the host's code
does to the coordinator what was done while it ran. -/
theorem alone_of_done {f : Frame} (hc : f.deeds.map Deed.stretch = f.call.body)
    (hp : Passes f.call.count f.deeds f.count) {source : WorldState} (hs : f.call.source = some source)
    {first : Deed} {later : List Deed} (hd : f.deeds = first :: later) :
    ((f.call.alone whole f.meanwhile).run first.before).1 = .ok (.returned f.count) := by
  rw [← carryOut_body]
  cases hcall : f.call with
  | stop =>
    rw [hcall] at hc hp
    simp only [Call.body, List.map_eq_cons_iff, List.map_eq_nil_iff] at hc
    obtain ⟨d₁, _, hf, h₁, d₂, _, rfl, h₂, d₃, _, rfl, h₃, d₄, _, rfl, h₄, rfl⟩ := hc
    simp only [hf, Passes, h₁, h₂, h₃, h₄] at hp
    obtain ⟨_, p₁, _, p₂, _, p₃, _, p₄, rfl⟩ := hp
    obtain rfl := eq_of_act_host p₂
    obtain rfl := eq_of_act_host p₃
    obtain rfl : d₁ = first := by rw [hf] at hd; cases hd; rfl
    have m₂ := meanwhile_run (f := f) [d₁] hf (by simp [h₁]) h₂
    have m₃ := meanwhile_run (f := f) [d₁, d₂] hf (by simp [h₁, h₂]) h₃
    rw [Call.body, run_carryOut_on (by simp) p₁, run_carryOut_host (m₂ _), run_carryOut_host (m₃ _),
      run_carryOut_on (by simp) p₄]
    rfl
  | start =>
    rw [hcall] at hc hp
    simp only [Call.body, List.map_eq_cons_iff, List.map_eq_nil_iff] at hc
    obtain ⟨d₁, _, hf, h₁, d₂, _, rfl, h₂, d₃, _, rfl, h₃, d₄, _, rfl, h₄, d₅, _, rfl, h₅, d₆, _, rfl, h₆,
      d₇, _, rfl, h₇, rfl⟩ := hc
    simp only [hf, Passes, h₁, h₂, h₃, h₄, h₅, h₆, h₇] at hp
    obtain ⟨_, p₁, _, p₂, _, p₃, _, p₄, _, p₅, _, p₆, _, p₇, rfl⟩ := hp
    obtain rfl := eq_of_act_host p₂
    obtain rfl := eq_of_act_host p₄
    obtain rfl : d₁ = first := by rw [hf] at hd; cases hd; rfl
    have m₂ := meanwhile_run (f := f) [d₁] hf (by simp [h₁]) h₂
    have m₄ := meanwhile_run (f := f) [d₁, d₂, d₃] hf (by simp [h₁, h₂, h₃]) h₄
    rw [Call.body, run_carryOut_on (by simp) p₁, run_carryOut_host (m₂ _), run_carryOut_on (by simp) p₃,
      run_carryOut_host (m₄ _), run_carryOut_on (by simp) p₅, carryOut_settle, carryOut_wake]
    cases congrArg Prod.fst p₆
    cases congrArg Prod.fst p₇
    rfl
  | _ => simp [hcall, Call.source] at hs

end Frame

/-- A call that was refused by its first transition, `first`. Its own function then gives the
same answer whatever the host's code would have done. -/
structure Frame.TurnedAway (f : Frame) (source : WorldState) (first : Deed) : Prop where
  only : f.deeds = [first]
  ended : f.rest = []
  unchanged : first.after = first.before
  outcome : f.outcome = some (.refused (.illegalTransition first.before.state source.successor))
  alone : ∀ host : HostCode → Act Coordinator Unit, (f.call.alone whole host).run first.before =
    (.ok (.refused (.illegalTransition first.before.state source.successor)), first.before)

/-- A call that was let in by its first transition, `first`. -/
structure Frame.LetIn (f : Frame) (source : WorldState) (first : Deed) (s : Crowd) : Prop where
  /-- It does what its body says, in that order. -/
  order : f.deeds.map Deed.stretch ++ f.rest = f.call.body
  /-- It returns at the end of its body, and nothing refuses it before. -/
  outcome : f.outcome = if f.rest = [] then some (.returned f.count) else none
  /-- The world is the call's own between its transitions, -/
  held : f.isBetween → s.world.state = source.successor
  /-- so the next transition is let through as well. -/
  through : ∀ target rest, f.rest = .transition target :: rest →
    s.world.advance target = .ok { s.world with state := target }
  steady : ∀ d ∈ f.deeds.tail, d.stretch ≠ .settle → d.stretch ≠ .wake → d.before.state = source.successor
  /-- A bump counts one cycle, and nothing else in the call counts any. -/
  counted : ∀ d ∈ f.deeds, d.after.generation.toNat =
    d.before.generation.toNat + if d.stretch = .bump then 1 else 0
  /-- While there is another cycle to count, its thread can go on whenever no call is open inside. -/
  goesOn : f.rest ≠ [] → s.world.generation.toNat + 1 < wordLimit →
    (∃ newer older, s.pick f.thread = some (newer, f, older)) → ∃ s', s.move (.go f.thread) = some s'
  alone : f.rest = [] → ((f.call.alone whole f.meanwhile).run first.before).1 = .ok (.returned f.count)

theorem Call.body_head {call : Call} {source : WorldState} (h : call.source = some source) :
    ∃ rest, call.body = .transition source.successor :: rest := by
  cases call <;> simp only [Call.source, Option.some.injEq, reduceCtorEq] at h <;> subst h <;> exact ⟨_, rfl⟩

/-- The stretches of a stop or a start are let through, but for a bump past the last count. -/
theorem Call.act_ok {call : Call} {source : WorldState} (h : call.source = some source) {done rest : List Stretch}
    {stretch : Stretch} (hb : done ++ stretch :: rest = call.body) (count : UInt64) {c : Coordinator}
    (hlt : c.generation.toNat + 1 < wordLimit) :
    stretch ≠ .wait ∧ ∃ turn c', (stretch.act whole count).run c = (.ok turn, c') := by
  have hne : stretch ≠ .wait ∧ stretch ≠ .departLater := by
    cases call <;> simp [Call.source] at h <;>
      simp [Call.body, List.append_eq_cons_iff, List.cons_eq_append_iff] at hb <;> grind
  refine ⟨hne.1, ?_⟩
  cases stretch with
  | transition target =>
    rw [act_transition]
    split <;> exact ⟨_, _, rfl⟩
  | bump => exact ⟨_, _, by rw [act_bump, if_pos hlt]⟩
  | departNow =>
    rw [act_departNow]
    split <;> exact ⟨_, _, rfl⟩
  | wait => exact absurd rfl hne.1
  | departLater => exact absurd rfl hne.2
  | note | settle | wake | host code => exact ⟨_, _, rfl⟩

theorem Crowd.Orderly.go {s : Crowd} (h : s.Orderly) {f : Frame} (hf : f ∈ s.frames) {source : WorldState}
    (hs : f.call.source = some source) (hr : f.rest ≠ []) (hlt : s.world.generation.toNat + 1 < wordLimit)
    {newer older : List Frame} (hp : s.pick f.thread = some (newer, f, older)) :
    ∃ s', s.move (.go f.thread) = some s' := by
  match hrest : f.rest, hr with
  | stretch :: rest, _ =>
    obtain ⟨hw, turn, c', hact⟩ := Call.act_ok hs ((h.course f hf).ofRest hrest).1 f.count hlt
    have ha := (h.course f hf).awake hrest hw
    have hn : ∃ r, f.next s.world = some r := by
      unfold Frame.next
      simp only [hrest, hact]
      cases turn <;> exact ⟨_, rfl⟩
    obtain ⟨r, hn⟩ := hn
    simp [Crowd.move, hp, ha, hn]

/-- Whatever calls any threads make, nested to any depth and in any order: a stop is turned away
if its first transition finds the world anywhere but running, a start if it finds it anywhere but
suspended, and then nothing was done. Otherwise the call is let in: the world is its own until
its second transition, which is let through, and a start counts one cycle between the host's
callback and the release of the mutators. -/
theorem handshake_under_interference {c : Coordinator} {s : Crowd} (h : Crowd.Reachable c s) {f : Frame}
    (hf : f ∈ s.frames) {source : WorldState} (hs : f.call.source = some source) {first : Deed}
    {later : List Deed} (hd : f.deeds = first :: later) :
    first.stretch = .transition source.successor ∧
    (first.before.state ≠ source → f.TurnedAway source first) ∧
    (first.before.state = source → f.LetIn source first s) := by
  have ho := h.orderly
  obtain ⟨body, hbody⟩ := Call.body_head hs
  cases ho.course f hf with
  | departed c call => simp [call, Call.source] at hs
  | refused source' c call found deeds rest outcome =>
    cases hs.symm.trans call
    cases hd.symm.trans deeds
    refine ⟨rfl, fun _ => ⟨deeds, rest, rfl, outcome, fun host => ?_⟩, fun he => absurd he found⟩
    rw [← carryOut_body, hbody]
    refine run_carryOut_off (by simp) ?_
    rw [act_transition, if_neg fun he => found (successor_injective he)]
  | under course passes outcome =>
    have hfirst : first.stretch = .transition source.successor := by
      rw [hd, hbody] at course
      exact (List.cons.inj course).1
    have hfound : first.before.state = source := by
      obtain ⟨_, _, hact⟩ := passes.act (d := first) (by simp [hd])
      rw [hfirst, act_transition] at hact
      split at hact
      · exact successor_injective ‹_›
      · cases hact
    have hheld : f.isBetween → s.world.state = source.successor := fun hb => by
      obtain ⟨source', hs', hw⟩ := ho.held f hf hb
      cases hs.symm.trans hs'
      exact hw
    refine ⟨hfirst, fun he => absurd hfound he, fun _ =>
      ⟨course, outcome, hheld, ?_, ho.steady f hf source hs, ?_, ?_, ?_⟩⟩
    · intro target rest hr
      obtain ⟨source', hs', ⟨hnil, -⟩ | ⟨-, rfl, -⟩⟩ := Call.body_transition (hr ▸ course)
      · simp [hd] at hnil
      · cases hs.symm.trans hs'
        have hw := hheld (by simp [Frame.isBetween, hd, hr, Stretch.isTransition])
        simp [Coordinator.advance, hw]
    · intro d hmem
      obtain ⟨_, _, hact⟩ := passes.act hmem
      exact Stretch.act_generation hact
    · rintro hr hlt ⟨newer, older, hp⟩
      exact ho.go hf hs hr hlt hp
    · intro hr
      exact Frame.alone_of_done (by simpa [hr] using course) passes hs hd

/-- A stop goes on while its own callback asks for a start and another thread for a stop, and
both are turned away. -/
theorem stop_among_others : ∃ s f first later refused found,
    Crowd.Reachable {} s ∧ f ∈ s.frames ∧ f.call = .stop ∧ f.deeds = first :: later ∧
    f.LetIn .running first s ∧
    refused ∈ s.frames ∧ refused.call = .start ∧ refused.deeds = [found] ∧
    refused.TurnedAway .suspended found := by
  let moves : List Move := [.call ⟨"a"⟩ .stop, .go ⟨"a"⟩, .call ⟨"a"⟩ .start, .call ⟨"b"⟩ .stop, .go ⟨"b"⟩,
    .go ⟨"a"⟩, .go ⟨"a"⟩]
  obtain ⟨s, hs⟩ : ∃ s, Crowd.run moves ⟨{}, []⟩ = some s := ⟨_, rfl⟩
  have hr : Crowd.Reachable {} s := ⟨moves, hs⟩
  cases hs
  refine ⟨_, _, _, _, _, _, hr, .tail _ (.tail _ (.head _)), rfl, rfl, ?_, .tail _ (.head _), rfl, rfl, ?_⟩
  · exact (handshake_under_interference hr (.tail _ (.tail _ (.head _))) rfl rfl).2.2 rfl
  · exact (handshake_under_interference hr (.tail _ (.head _)) rfl rfl).2.1 (by decide)

end Safepoint.Handshake
