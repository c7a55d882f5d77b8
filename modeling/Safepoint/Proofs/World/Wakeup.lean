import Safepoint.Proofs.World.Ownership

/-!
# Counting cycles and waking those who wait for them

A start counts its cycle some steps before it wakes anyone. A thread that looks at the count in
between is let through; one that fell asleep before has somebody to wake it, for a start past its
bump still has its wakeup to come. So nobody sleeps through a cycle that nobody will announce.
-/
namespace Safepoint.Handshake

/-- Whether a call that goes on after this stretch holds the count it held before. -/
def Stretch.keepsCount : Stretch → Bool
  | .bump | .note | .wait => false
  | _ => true

/-- A start bumps the count once, and wakes the others after that. -/
theorem Call.body_bump {call : Call} {done rest : List Stretch} (h : done ++ .bump :: rest = call.body) :
    call = .start ∧ .bump ∉ done ∧ .wake ∈ rest ∧ rest.all Stretch.keepsCount := by
  cases call <;> simp [Call.body, List.append_eq_cons_iff, List.cons_eq_append_iff] at h <;>
    grind [Stretch.keepsCount]

/-- A call waits to get past the count it was given or the one it noted first of all. -/
theorem Call.body_wait {call : Call} {done rest : List Stretch} (h : done ++ .wait :: rest = call.body) :
    ((∃ snapshot, call = .waitPast snapshot ∧ done = []) ∨
      ((call = .awaitNext ∨ call = .block) ∧ ∃ more, done = .note :: more ∧ more.all Stretch.keepsCount)) ∧
    rest.all Stretch.keepsCount := by
  cases call <;> simp [Call.body, List.append_eq_cons_iff, List.cons_eq_append_iff] at h <;>
    grind [Stretch.keepsCount]

theorem Stretch.act_count {stretch : Stretch} {count next : UInt64} {c c' : Coordinator}
    (h : (stretch.act whole count).run c = (.ok (.on next), c')) (hk : stretch.keepsCount) : next = count := by
  cases stretch with
  | transition target =>
    rw [act_transition] at h
    split at h <;> cases h
    rfl
  | departNow =>
    rw [act_departNow] at h
    split at h <;> cases h
    rfl
  | departLater =>
    rw [act_departLater] at h
    split at h <;> cases h
    rfl
  | settle | wake | host code =>
    cases h
    rfl
  | bump | note | wait => simp [keepsCount] at hk

theorem Passes.keeps {count last : UInt64} {ds : List Deed} (h : Passes count ds last)
    (hk : (ds.map Deed.stretch).all Stretch.keepsCount) : last = count := by
  induction ds generalizing count with
  | nil => exact h.symm
  | cons d ds ih =>
    obtain ⟨next, hact, hds⟩ := h
    obtain ⟨hd, hk⟩ : d.stretch.keepsCount ∧ (ds.map Deed.stretch).all Stretch.keepsCount := by simpa using hk
    rw [ih hds hk]
    exact Stretch.act_count hact hd

/-- A wait that is over saw the count past the one held, and now holds what it saw. -/
theorem act_wait_on {count next : UInt64} {c c' : Coordinator}
    (h : (Stretch.wait.act whole count).run c = (.ok (.on next), c')) : count < next ∧ next = c'.generation := by
  rw [act_wait] at h
  split at h <;> cases h
  rename_i hp
  exact ⟨by simpa [Coordinator.isPast] using hp, rfl⟩

theorem act_bump_on {count next : UInt64} {c c' : Coordinator}
    (h : (Stretch.bump.act whole count).run c = (.ok (.on next), c')) : next = c'.generation := by
  rw [act_bump] at h
  split at h <;> cases h
  rfl

theorem act_note_on {count next : UInt64} {c c' : Coordinator}
    (h : (Stretch.note.act whole count).run c = (.ok (.on next), c')) : next = c.generation := by
  cases congrArg Prod.fst h
  rfl

namespace Frame

/-- The count a start got from its bump, once it is past it. -/
def ticket (f : Frame) : Option UInt64 :=
  (f.deeds.find? (·.stretch = .bump)).map fun d => d.after.generation

def isPastBump (f : Frame) : Bool := f.ticket.isSome

/-- The count a waiting call is to get past, once it has it. -/
def snapshot (f : Frame) : Option UInt64 :=
  match f.call with
  | .waitPast snapshot => some snapshot
  | .block | .awaitNext => f.deeds.head?.map fun d => d.before.generation
  | _ => none

/-- The count a call returned. -/
def result (f : Frame) : Option UInt64 :=
  match f.outcome with
  | some (.returned count) => some count
  | _ => none

variable {f : Frame} {stretch : Stretch} {rest : List Stretch} {count : UInt64} {c c' : Coordinator}

theorem ticket_onward (deed : Deed) (h : deed.stretch ≠ .bump) : (f.onward deed rest count).ticket = f.ticket := by
  simp [ticket, onward, h]

theorem ticket_bump (h : f.Course) (hr : f.rest = .bump :: rest) (before after : Coordinator) (count : UInt64) :
    f.ticket = none ∧ (f.onward ⟨.bump, before, after⟩ rest count).ticket = some after.generation := by
  have hnot := (Call.body_bump (h.ofRest hr).1).2.1
  have hnone : f.deeds.find? (·.stretch = .bump) = none := by
    rw [List.find?_eq_none]
    intro d hd
    have : d.stretch ≠ .bump := fun he => hnot (List.mem_map.2 ⟨d, hd, he⟩)
    simpa using this
  simp [ticket, onward, hnone]

theorem snapshot_of_passes {before after : List Deed} (hd : f.deeds = before ++ after)
    (hb : before.map Deed.stretch ++ .wait :: rest = f.call.body) (hp : Passes f.call.count before count) :
    f.snapshot = some count := by
  obtain ⟨⟨n, hcall, hnil⟩ | ⟨hcall, more, hcons, hk⟩, -⟩ := Call.body_wait hb
  · rw [List.map_eq_nil_iff.1 hnil, hcall] at hp
    simp [snapshot, hcall, show n = count from hp]
  · obtain ⟨d, ds, rfl, hnote, rfl⟩ := List.map_eq_cons_iff.1 hcons
    obtain ⟨next, hact, hds⟩ := hp
    rw [hnote] at hact
    rw [hds.keeps hk, act_note_on hact]
    obtain hcall | hcall := hcall <;> simp [snapshot, hcall, hd]

/-- A call that is about to wait holds the count it is to get past. -/
theorem Course.snapshot_of_wait (h : f.Course) (hr : f.rest = .wait :: rest) : f.snapshot = some f.count := by
  obtain ⟨course, passes⟩ := h.ofRest hr
  exact snapshot_of_passes (List.append_nil f.deeds).symm course passes

/-- A call that waited saw the count past the one it was to get past, and returns what it saw. -/
theorem Course.waited (h : f.Course) (hw : .wait ∈ f.call.body) {g : UInt64} (hg : f.result = some g) :
    ∃ n d, f.snapshot = some n ∧ n < g ∧ d ∈ f.deeds ∧ g = d.after.generation := by
  cases h with
  | under course passes outcome =>
    have hr : f.rest = [] ∧ f.count = g := by
      rw [result, outcome] at hg
      by_cases hr : f.rest = [] <;> simp [hr] at hg
      exact ⟨hr, hg⟩
    obtain ⟨done, rest, hbody⟩ := List.append_of_mem hw
    rw [hr.1, List.append_nil, hbody] at course
    obtain ⟨before, later, hd, hdone, hlater⟩ := List.map_eq_append_iff.1 course
    obtain ⟨d, after, rfl, hwait, hrest⟩ := List.map_eq_cons_iff.1 hlater
    rw [hd] at passes
    obtain ⟨held, hbefore, next, hact, hafter⟩ := passes_append.1 passes
    rw [hwait] at hact
    obtain ⟨hlt, hnext⟩ := act_wait_on hact
    have hb : before.map Deed.stretch ++ .wait :: rest = f.call.body := by rw [hdone, hbody]
    have hkeep := hafter.keeps (by simpa [hrest] using (Call.body_wait hb).2)
    refine ⟨held, d, snapshot_of_passes hd hb hbefore, ?_, by simp [hd], ?_⟩
    · rw [← hr.2, hkeep]
      exact hlt
    · rw [← hr.2, hkeep, hnext]
  | refused source c call _ _ _ outcome => simp [result, outcome] at hg
  | departed c call => simp [call, Call.body] at hw

/-- A start that is over returned the count it got from its bump, or was refused without one. -/
theorem Course.result_eq_ticket (h : f.Course) (hs : f.call = .start) (ho : f.isOpen = false) :
    f.result = f.ticket := by
  cases h with
  | under course passes outcome =>
    have hr : f.rest = [] := by
      by_cases hr : f.rest = []
      · exact hr
      · simp [isOpen, outcome, hr] at ho
    obtain ⟨done, rest, hbody⟩ := List.append_of_mem (show Stretch.bump ∈ Call.start.body by decide)
    rw [hr, List.append_nil, hs, hbody] at course
    obtain ⟨before, later, hd, hdone, hlater⟩ := List.map_eq_append_iff.1 course
    obtain ⟨d, after, rfl, hbump, hrest⟩ := List.map_eq_cons_iff.1 hlater
    obtain ⟨-, hnot, -, hkeeps⟩ := Call.body_bump hbody.symm
    rw [hd] at passes
    obtain ⟨held, -, next, hact, hafter⟩ := passes_append.1 passes
    rw [hbump] at hact
    have hfind : before.find? (·.stretch = .bump) = none := by
      rw [List.find?_eq_none]
      intro e he
      have : e.stretch ≠ .bump := fun hb => hnot (hdone ▸ List.mem_map.2 ⟨e, he, hb⟩)
      simpa using this
    have hcount : f.count = d.after.generation :=
      (hafter.keeps (by simpa [hrest] using hkeeps)).trans (act_bump_on hact)
    simp [result, outcome, hr, ticket, hd, hfind, hbump, hcount]
  | refused source c call _ deeds _ outcome => simp [result, outcome, ticket, deeds]
  | departed c call => simp [hs] at call

end Frame

/-- Every cycle counted so far was counted by a start of its own. -/
structure Crowd.Counted (s : Crowd) : Prop where
  numbered : ((s.frames.filterMap Frame.ticket).map UInt64.toNat).Perm (List.range' 1 s.world.generation.toNat)
  seen : ∀ f ∈ s.frames, ∀ d ∈ f.deeds, d.after.generation ≤ s.world.generation

/-- Whoever sleeps though the cycle waited for is counted will still be woken by a start that
counted one. -/
def Crowd.Woken (s : Crowd) : Prop :=
  ∀ f ∈ s.frames, f.asleep → f.count < s.world.generation → ∃ g ∈ s.frames, g.isPastBump ∧ .wake ∈ g.rest

section

variable {s : Crowd} {newer older : List Frame} {f f' : Frame} {stretch : Stretch} {rest : List Stretch}
  {count : UInt64} {world : Coordinator}

theorem Frame.mem_onward {d : Deed} (hd : d ∈ (f.onward ⟨stretch, s.world, world⟩ rest count).deeds) :
    d ∈ f.deeds ∨ d.after = world := by
  obtain hd | hd := List.mem_append.1 (show d ∈ f.deeds ++ [_] from hd)
  · exact .inl hd
  · exact .inr (by rw [List.mem_singleton.1 hd])

theorem act_generation_eq (hact : (stretch.act whole count).run s.world = (.ok turn, world))
    (hb : stretch ≠ .bump) : world.generation = s.world.generation := by
  have := Stretch.act_generation hact
  simp only [hb, if_false] at this
  exact UInt64.toNat_inj.1 this

namespace Crowd.Counted

theorem begin (h : s.Counted) (thread : ThreadId) (call : Call) : (s.begin thread call).Counted where
  numbered := h.numbered
  seen := List.forall_mem_cons.2 ⟨fun d hd => by simp [Frame.begun] at hd, h.seen⟩

theorem rousedAll (h : s.Counted) : Counted ⟨s.world, s.frames.map Frame.roused⟩ where
  numbered := by
    rw [List.filterMap_map]
    exact h.numbered
  seen g hg := by
    obtain ⟨f, hf, rfl⟩ := List.mem_map.1 hg
    exact h.seen f hf

theorem replace (h : s.Counted) (hf : s.frames = newer ++ f :: older) (hw : world.generation = s.world.generation)
    (ht : f'.ticket = f.ticket) (hd : ∀ d ∈ f'.deeds, d ∈ f.deeds ∨ d.after = world) :
    Counted ⟨world, newer ++ f' :: older⟩ where
  numbered := by
    have hnumbered := h.numbered
    simp only [hf, List.filterMap_append, List.filterMap_cons, ← ht, ← hw] at hnumbered
    simpa only [List.filterMap_append, List.filterMap_cons] using hnumbered
  seen := by
    refine forall_mem_replace (a := f) (fun g hg d hd => hw ▸ h.seen g (hf ▸ hg) d hd) fun d hmem => ?_
    obtain hmem | rfl := hd d hmem
    · exact hw ▸ h.seen f (by simp [hf]) d hmem
    · exact UInt64.le_refl _

/-- The bump of a start gives it the next number. -/
theorem bump (h : s.Counted) (hf : s.frames = newer ++ f :: older) (hc : f.Course) (hr : f.rest = .bump :: rest)
    (hact : (Stretch.bump.act whole f.count).run s.world = (.ok (.on count), world)) :
    Counted ⟨world, newer ++ f.onward ⟨.bump, s.world, world⟩ rest count :: older⟩ := by
  obtain ⟨hnone, hticket⟩ := Frame.ticket_bump hc hr s.world world count
  have hnext : world.generation.toNat = 1 + s.world.generation.toNat := by
    rw [Stretch.act_generation hact, if_pos rfl, Nat.add_comm]
  constructor
  · have hnumbered := h.numbered
    simp only [hf, List.filterMap_append, List.filterMap_cons, hnone] at hnumbered
    simp only [List.filterMap_append, List.filterMap_cons, hticket]
    rw [hnext, Nat.add_comm 1, List.range'_1_concat, ← hnext]
    refine (List.perm_middle.map _).trans ?_
    exact (hnumbered.cons _).trans (List.perm_append_singleton _ _).symm
  · have hle : s.world.generation ≤ world.generation := by
      rw [UInt64.le_iff_toNat_le]
      omega
    refine forall_mem_replace (a := f) (fun g hg d hd => ?_) fun d hd => ?_
    · exact UInt64.le_trans (h.seen g (hf ▸ hg) d hd) hle
    · obtain hd | hd := Frame.mem_onward hd
      · exact UInt64.le_trans (h.seen f (by simp [hf]) d hd) hle
      · exact hd ▸ UInt64.le_refl _

end Crowd.Counted

namespace Crowd.Woken

theorem begin (h : s.Woken) (thread : ThreadId) (call : Call) : (s.begin thread call).Woken := by
  refine List.forall_mem_cons.2 ⟨fun ha => by simp [Frame.begun] at ha, fun g hg ha hlt => ?_⟩
  obtain ⟨k, hk, hpast⟩ := h g hg ha hlt
  exact ⟨k, .tail _ hk, hpast⟩

theorem rousedAll (frames : List Frame) : Woken ⟨world, frames.map Frame.roused⟩ := by
  intro g hg ha
  obtain ⟨f, hf, rfl⟩ := List.mem_map.1 hg
  simp [Frame.roused] at ha

/-- A call changed without a cycle being counted. If it was to wake others it still is, and if it
sleeps it saw that its cycle is not counted or slept before. -/
theorem replace (h : s.Woken) (hf : s.frames = newer ++ f :: older) (hw : world.generation = s.world.generation)
    (hwake : f.isPastBump → .wake ∈ f.rest → f'.isPastBump ∧ .wake ∈ f'.rest)
    (ha : f'.asleep → f'.count < s.world.generation → f.asleep ∧ f'.count = f.count) :
    Woken ⟨world, newer ++ f' :: older⟩ := by
  have waker : ∀ g ∈ s.frames, g.isPastBump → .wake ∈ g.rest →
      ∃ k ∈ newer ++ f' :: older, k.isPastBump ∧ .wake ∈ k.rest := by
    rw [hf]
    intro g hg hpast hrest
    simp only [List.mem_append, List.mem_cons] at hg
    obtain hg | rfl | hg := hg
    · exact ⟨g, by simp [hg], hpast, hrest⟩
    · exact ⟨f', by simp, hwake hpast hrest⟩
    · exact ⟨g, by simp [hg], hpast, hrest⟩
  refine forall_mem_replace (a := f) (fun g hg hga hlt => ?_) fun hfa hlt => ?_
  · obtain ⟨k, hk, hpast, hrest⟩ := h g (hf ▸ hg) hga (hw ▸ hlt)
    exact waker k hk hpast hrest
  · obtain ⟨hfa, hcount⟩ := ha hfa (hw ▸ hlt)
    obtain ⟨k, hk, hpast, hrest⟩ := h f (by simp [hf]) hfa (hcount ▸ hw ▸ hlt)
    exact waker k hk hpast hrest

/-- From its bump on, a start has yet to wake whoever sleeps. -/
theorem bump (frames : List Frame) (hmem : f' ∈ frames) (hpast : f'.isPastBump) (hwake : .wake ∈ f'.rest) :
    Woken ⟨world, frames⟩ := fun _ _ _ _ => ⟨f', hmem, hpast, hwake⟩

end Crowd.Woken

theorem Crowd.tallied_move {s' : Crowd} {m : Move} (ho : s.Orderly) (hc : s.Counted) (hw : s.Woken)
    (hm : s.move m = some s') : s'.Counted ∧ s'.Woken := by
  obtain ⟨thread, call, rfl⟩ | ⟨newer, f, older, hf, rfl⟩ | ⟨newer, f, older, f', c', hf, ha, hn, rfl⟩ :=
    move_cases hm
  · exact ⟨hc.begin thread call, hw.begin thread call⟩
  · refine ⟨hc.replace hf rfl rfl fun d hd => .inl hd, hw.replace hf rfl (fun hp hr => ⟨hp, hr⟩) fun hfa => ?_⟩
    simp [Frame.roused] at hfa
  have hmem : f ∈ s.frames := by simp [hf]
  have hcourse := ho.course f hmem
  obtain ⟨rest, hr, hpast, rfl, rfl⟩ | ⟨stretch, rest, count, hr, hact, rfl⟩ |
    ⟨stretch, rest, outcome, hr, hact, rfl⟩ := Frame.next_cases hn
  · -- asleep, for the count was not past the one held
    have hwake : f.rest.head? ≠ some .wake := by simp [hr]
    rw [if_neg hwake]
    refine ⟨hc.replace hf rfl rfl fun d hd => .inl hd, hw.replace hf rfl (fun hp hr => ⟨hp, hr⟩) fun _ hlt => ?_⟩
    simp only [Coordinator.isPast, decide_eq_false_iff_not] at hpast
    exact absurd hlt hpast
  · by_cases hb : stretch = .bump
    · subst hb
      rw [hr, if_neg (by simp)]
      refine ⟨hc.bump hf hcourse hr hact, .bump _ (List.mem_append_right _ (.head _)) ?_ ?_⟩
      · simp [Frame.isPastBump, Frame.ticket_bump hcourse hr]
      · exact (Call.body_bump (hcourse.ofRest hr).1).2.2.1
    have hgen := act_generation_eq hact hb
    have hcounted : Counted ⟨c', newer ++ f.onward ⟨stretch, s.world, c'⟩ rest count :: older⟩ :=
      hc.replace hf hgen (Frame.ticket_onward _ hb) fun d hd => Frame.mem_onward hd
    split
    · exact ⟨hcounted.rousedAll, .rousedAll _⟩
    · rename_i hwake
      refine ⟨hcounted, hw.replace hf hgen (fun hp hrest => ⟨?_, ?_⟩) fun hfa => ?_⟩
      · rwa [Frame.isPastBump, Frame.ticket_onward _ hb]
      · rw [hr] at hrest hwake
        exact (List.mem_cons.1 hrest).resolve_left fun he => hwake (by simp [he])
      · simp [Frame.onward, ha] at hfa
  · -- over after its first stretch, so it was not to wake anyone
    have hb : stretch ≠ .bump := by
      rintro rfl
      rw [act_bump] at hact
      split at hact <;> cases hact
    have hgen := act_generation_eq hact hb
    obtain ⟨hd, -⟩ := ho.first_of_off hmem hr hact
    have hnone : f.ticket = none := by simp [Frame.ticket, hd]
    have hcounted : Counted ⟨c', newer ++ f.quit ⟨stretch, s.world, c'⟩ outcome :: older⟩ := by
      refine hc.replace hf hgen (by simp [Frame.ticket, Frame.quit, hd, hb]) fun d hd' => .inr ?_
      rw [Frame.quit, hd] at hd'
      rw [List.mem_singleton.1 hd']
    split
    · exact ⟨hcounted.rousedAll, .rousedAll _⟩
    · refine ⟨hcounted, hw.replace hf hgen (fun hp => ?_) fun hfa => ?_⟩
      · simp [Frame.isPastBump, hnone] at hp
      · simp [Frame.quit, ha] at hfa

theorem Crowd.Reachable.tallied (h : Reachable {} s) : s.Orderly ∧ s.Counted ∧ s.Woken := by
  refine h.induct (P := fun s => s.Orderly ∧ s.Counted ∧ s.Woken) ⟨⟨?_, ?_, ?_, ?_⟩, ⟨?_, ?_⟩, ?_⟩
    fun _ _ _ ⟨ho, hc, hw⟩ hm => ⟨ho.move hm, tallied_move ho hc hw hm⟩
  all_goals simp [Woken]

theorem Frame.Course.start_of_isPastBump (h : f.Course) (hp : f.isPastBump) : f.call = .start := by
  obtain ⟨d, hd⟩ : ∃ d, f.deeds.find? (·.stretch = .bump) = some d := by
    simpa [isPastBump, ticket, Option.isSome_iff_exists] using hp
  have hmem := List.mem_of_find?_eq_some hd
  have hbump : d.stretch = .bump := by simpa using List.find?_some hd
  cases h with
  | under course =>
    obtain ⟨before, after, hds⟩ := List.append_of_mem hmem
    rw [hds, List.map_append, List.map_cons, hbump, List.append_assoc] at course
    exact (Call.body_bump course).1
  | refused _ _ _ _ deeds | departed _ _ deeds =>
    rw [deeds] at hmem
    rw [List.mem_singleton.1 hmem] at hbump
    cases hbump

/-- A thread that is awake when its wait is over goes on with the count it finds. -/
theorem Crowd.Orderly.wake (h : s.Orderly) (hf : f ∈ s.frames) (hr : f.rest = .wait :: rest) (ha : f.asleep = false)
    {snapshot : UInt64} (hs : f.snapshot = some snapshot) (hlt : snapshot < s.world.generation)
    (hp : s.pick f.thread = some (newer, f, older)) :
    s.move (.go f.thread) = some
      ⟨s.world, newer ++ f.onward ⟨.wait, s.world, s.world⟩ rest s.world.generation :: older⟩ := by
  have hcount : f.count = snapshot := by simpa [(h.course f hf).snapshot_of_wait hr] using hs
  have hpast : s.world.isPast f.count = true := by simpa [Coordinator.isPast, hcount] using hlt
  simp [Crowd.move, hp, ha, Frame.next, hr, act_wait, hpast]

end

/-- What the count tells the threads. -/
structure Crowd.CountsCycles (s : Crowd) : Prop where
  /-- The count is the number of starts past their bump, -/
  total : s.world.generation.toNat = s.frames.countP Frame.isPastBump
  starts : ∀ f ∈ s.frames, f.isPastBump → f.call = .start
  /-- which got the numbers from one on from it, each exactly once, -/
  numbered : ((s.frames.filterMap Frame.ticket).map UInt64.toNat).Perm (List.range' 1 s.world.generation.toNat)
  /-- and return them. A start that is refused got none. -/
  returned : ∀ f ∈ s.frames, f.call = .start → f.isOpen = false → f.result = f.ticket
  waited : ∀ f ∈ s.frames, .wait ∈ f.call.body → ∀ g, f.result = some g →
    ∃ n, f.snapshot = some n ∧ n < g ∧ g ≤ s.world.generation
  /-- Whoever sleeps though its cycle is complete has a start to wake it. -/
  woken : ∀ f ∈ s.frames, f.asleep → ∀ n, f.snapshot = some n → n < s.world.generation →
    ∃ g ∈ s.frames, g.call = .start ∧ g.isPastBump ∧ .wake ∈ g.rest
  /-- Whoever is awake by then goes on. -/
  goesOn : ∀ f ∈ s.frames, ∀ rest, f.rest = .wait :: rest → f.asleep = false →
    ∀ n, f.snapshot = some n → n < s.world.generation →
    ∀ newer older, s.pick f.thread = some (newer, f, older) → s.move (.go f.thread) = some
      ⟨s.world, newer ++ f.onward ⟨.wait, s.world, s.world⟩ rest s.world.generation :: older⟩

/-- Wherever calls of any threads lead from a fresh coordinator, the count is that of the starts
past their bump, which return one number each; whoever waits returns a number past the one
noted; and no wakeup is lost: somebody who sleeps though there is nothing left to wait for will
be woken by a start that is past its bump. -/
theorem counts_cycles_without_lost_wakeups {s : Crowd} (h : Crowd.Reachable {} s) : s.CountsCycles := by
  obtain ⟨ho, hc, hw⟩ := h.tallied
  refine ⟨?_, fun f hf => (ho.course f hf).start_of_isPastBump, hc.numbered,
    fun f hf => (ho.course f hf).result_eq_ticket, ?_, ?_, ?_⟩
  · have hlength := hc.numbered.length_eq
    rw [List.length_map, List.length_range'] at hlength
    rw [← hlength, List.length_filterMap_eq_countP]
    rfl
  · intro f hf hwait g hg
    obtain ⟨n, d, hn, hlt, hd, rfl⟩ := (ho.course f hf).waited hwait hg
    exact ⟨n, hn, hlt, hc.seen f hf d hd⟩
  · intro f hf ha n hn hlt
    obtain ⟨rest, hr⟩ : ∃ rest, f.rest = .wait :: rest := by
      cases ho.course f hf with
      | under _ _ _ asleep => exact asleep ha
      | refused source c call => cases hcall : f.call <;> simp_all [Frame.snapshot, Call.source]
      | departed c call => simp [Frame.snapshot, call] at hn
    have hcount : f.count = n := by simpa [(ho.course f hf).snapshot_of_wait hr] using hn
    obtain ⟨g, hg, hpast, hwake⟩ := hw f hf ha (hcount ▸ hlt)
    exact ⟨g, hg, (ho.course g hg).start_of_isPastBump hpast, hpast, hwake⟩
  · intro f hf rest hr ha n hn hlt newer older hp
    exact ho.wake hf hr ha hn hlt hp

/-- A thread that went to sleep before the bump sleeps on after it, and the start is yet to wake it. -/
theorem sleeper_with_a_waker : ∃ s f g, Crowd.Reachable {} s ∧ s.CountsCycles ∧ f ∈ s.frames ∧ f.asleep ∧
    f.snapshot = some 0 ∧ s.world.generation = 1 ∧ g ∈ s.frames ∧ g.ticket = some 1 ∧ g.isOpen := by
  let waiter : ThreadId := ⟨"waiter"⟩
  let collector : ThreadId := ⟨"collector"⟩
  let moves : List Move := [.call waiter .awaitNext, .go waiter, .go waiter, .go waiter] ++
    .call collector .stop :: List.replicate 4 (.go collector) ++
    .call collector .start :: List.replicate 5 (.go collector)
  obtain ⟨s, hs⟩ : ∃ s, Crowd.run moves ⟨{}, []⟩ = some s := ⟨_, rfl⟩
  have hr : Crowd.Reachable {} s := ⟨moves, hs⟩
  cases hs
  exact ⟨_, _, _, hr, counts_cycles_without_lost_wakeups hr, .tail _ (.tail _ (.head _)), rfl, rfl, rfl,
    .head _, rfl, rfl⟩

end Safepoint.Handshake
