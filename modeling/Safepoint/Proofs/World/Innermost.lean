import Mathlib.Data.List.TakeWhile
import Safepoint.Proofs.World.Ownership

/-!
# The innermost call of a thread

A thread goes on with the last call it has begun and not ended. What the others do leaves that call where it is.
-/
namespace Safepoint.Handshake

def Move.thread : Move → ThreadId
  | .call thread _ | .go thread | .rouse thread => thread

theorem head?_dropWhile {α : Type} (p : α → Bool) (as : List α) : (as.dropWhile fun a => !p a).head? = as.find? p := by
  induction as with
  | nil => rfl
  | cons a as ih => cases hp : p a <;> simp [hp, ih]

namespace Frame

variable {f f' : Frame} {c c' : Coordinator}

theorem thread_next (h : f.next c = some (f', c')) : f'.thread = f.thread := by
  obtain ⟨rest, -, -, rfl, -⟩ | ⟨stretch, rest, count, -, -, rfl⟩ | ⟨stretch, rest, outcome, -, -, rfl⟩ :=
    next_cases h <;> rfl

end Frame

namespace Crowd

variable {s s' : Crowd} {thread other : ThreadId} {f : Frame}

/-- The innermost open call of a thread. -/
def current (s : Crowd) (thread : ThreadId) : Option Frame := s.frames.find? fun f => f.thread = thread && f.isOpen

theorem current_of_pick {newer older : List Frame} (h : s.pick thread = some (newer, f, older)) :
    s.current thread = some f := by
  rw [current, ← head?_dropWhile]
  unfold pick at h
  dsimp only at h
  split at h
  · cases h
  · rename_i g rest hcons
    rw [hcons]
    cases h
    rfl

theorem mem_of_current (h : s.current thread = some f) : f ∈ s.frames := List.mem_of_find?_eq_some h

theorem thread_of_current (h : s.current thread = some f) : f.thread = thread ∧ f.isOpen := by
  have hfound := List.find?_some h
  simpa using hfound

theorem go_cases (h : s.move (.go thread) = some s') : ∃ newer f older f' c',
    s.pick thread = some (newer, f, older) ∧ f.asleep = false ∧ f.next s.world = some (f', c') ∧
    s' = ⟨c', if f.rest.head? = some .wake then (newer ++ f' :: older).map Frame.roused
      else newer ++ f' :: older⟩ := by
  simp only [move] at h
  split at h
  · cases h
  · rename_i newer f older hp
    split at h
    · cases h
    · rename_i ha
      obtain ⟨⟨f', c'⟩, hn, rfl⟩ := Option.map_eq_some_iff.1 h
      exact ⟨newer, f, older, f', c', hp, by simpa using ha, hn, rfl⟩

theorem begin_of_call {call : Call} (h : s.move (.call thread call) = some s') : s' = s.begin thread call := by
  simp only [move] at h
  split at h
  · split at h
    · exact (Option.some.inj h).symm
    · cases h
  · exact (Option.some.inj h).symm

theorem current_replace {newer older : List Frame} {g g' : Frame} {c : Coordinator}
    (hs : s.frames = newer ++ g :: older) (hg : g.thread ≠ other) (hg' : g'.thread ≠ other) :
    current ⟨c, newer ++ g' :: older⟩ other = s.current other := by
  simp [current, hs, hg, hg']

theorem current_roused (c : Coordinator) (frames : List Frame) :
    current ⟨c, frames.map Frame.roused⟩ other = (current ⟨c, frames⟩ other).map Frame.roused := by
  simp only [current, List.find?_map]
  rfl

/-- A move leaves the calls of other threads where they are. It may wake them. -/
theorem current_of_move {m : Move} (h : s.move m = some s') (hother : m.thread ≠ other) :
    s'.current other = s.current other ∨ s'.current other = (s.current other).map Frame.roused := by
  cases m with
  | call thread call =>
    left
    have hthread : (Frame.begun thread call).thread ≠ other := hother
    simp [begin_of_call h, current, begin, hthread]
  | go thread =>
    obtain ⟨newer, f, older, f', c', hp, -, hn, rfl⟩ := go_cases h
    obtain ⟨hs, hf, -⟩ := pick_eq hp
    have hold : f.thread ≠ other := by
      rw [hf]
      exact hother
    have hnew : f'.thread ≠ other := by
      rw [Frame.thread_next hn]
      exact hold
    have hsame : current ⟨c', newer ++ f' :: older⟩ other = s.current other := current_replace hs hold hnew
    split
    · right
      rw [current_roused, hsame]
    · left
      exact hsame
  | rouse thread =>
    left
    obtain ⟨⟨newer, f, older⟩, hp, rfl⟩ := Option.map_eq_some_iff.1 h
    obtain ⟨hs, hf, -⟩ := pick_eq hp
    have hold : f.thread ≠ other := by
      rw [hf]
      exact hother
    exact current_replace hs hold hold

/-- What a thread does next in its innermost call. -/
def ahead (s : Crowd) (thread : ThreadId) : Option Stretch := (s.current thread).bind fun f => f.rest.head?

theorem ahead_of_move {m : Move} (h : s.move m = some s') (hother : m.thread ≠ other) :
    s'.ahead other = s.ahead other := by
  obtain hsame | hroused := current_of_move h hother
  · rw [ahead, hsame, ahead]
  · rw [ahead, hroused, ahead]
    cases s.current other <;> rfl

/-- Calls and wakeups leave the world where it is. -/
theorem state_of_move {m : Move} (h : s.move m = some s') (hgo : m ≠ .go m.thread) :
    s'.world.state = s.world.state := by
  cases m with
  | call thread call => rw [begin_of_call h, begin]
  | go thread => exact absurd rfl hgo
  | rouse thread =>
    obtain ⟨picked, -, rfl⟩ := Option.map_eq_some_iff.1 h
    rfl

/-- A thread leaves the world where it is unless its next stretch is a transition that may be made. -/
theorem state_of_go (h : s.move (.go thread) = some s') : s'.world.state = match s.ahead thread with
    | some (.transition target) => if s.world.state.successor = target then target else s.world.state
    | _ => s.world.state := by
  obtain ⟨newer, f, older, f', c', hp, -, hn, rfl⟩ := go_cases h
  have hahead : s.ahead thread = f.rest.head? := by rw [ahead, current_of_pick hp, Option.bind_some]
  rw [hahead]
  have hturn {stretch : Stretch} {rest : List Stretch} {turn : Turn} (hr : f.rest = stretch :: rest)
      (hact : (stretch.act whole f.count).run s.world = (.ok turn, c')) : c'.state = match f.rest.head? with
        | some (.transition target) => if s.world.state.successor = target then target else s.world.state
        | _ => s.world.state := by
    rw [hr, List.head?_cons]
    cases hinside : stretch.isTransition with
    | false =>
      rw [Stretch.act_state hact hinside]
      cases stretch <;> first | rfl | cases hinside
    | true =>
      cases stretch with
      | transition target =>
        rw [act_transition] at hact
        by_cases hsucc : s.world.state.successor = target
        · rw [if_pos hsucc] at hact
          cases hact
          simp only [if_pos hsucc]
        · rw [if_neg hsucc] at hact
          cases hact
          simp only [if_neg hsucc]
      | _ => cases hinside
  obtain ⟨rest, hr, -, -, rfl⟩ | ⟨stretch, rest, count, hr, hact, -⟩ | ⟨stretch, rest, outcome, hr, hact, -⟩ :=
    Frame.next_cases hn
  · rw [hr]
    rfl
  · exact hturn hr hact
  · exact hturn hr hact

section Nesting

variable {newer older : List Frame} {f' : Frame} {rest : List Stretch} {world : Coordinator}

/-- A thread makes further calls only while code of the host runs in those it has open. -/
def Nested (s : Crowd) : Prop :=
  s.frames.Pairwise fun inner outer => inner.thread = outer.thread → inner.isOpen → outer.isOpen → outer.atHost

theorem pick_newer (hp : s.pick thread = some (newer, f, older)) :
    ∀ g ∈ newer, g.thread = thread → g.isOpen = false := by
  intro g hg hthread
  simp only [pick] at hp
  split at hp
  · cases hp
  · cases hp
    have hother := List.mem_takeWhile_imp hg
    simpa [hthread] using hother

theorem pick_eq_none (hp : s.pick thread = none) : ∀ g ∈ s.frames, g.thread = thread → g.isOpen = false := by
  intro g hg hthread
  simp only [pick] at hp
  split at hp
  · rename_i hnil
    have hother := List.dropWhile_eq_nil_iff.1 hnil g hg
    simpa [hthread] using hother
  · cases hp

theorem pick_of (hf : s.frames = newer ++ f :: older) (hopen : f.isOpen)
    (hnewer : ∀ g ∈ newer, g.thread = f.thread → g.isOpen = false) : s.pick f.thread = some (newer, f, older) := by
  have hall : ∀ g ∈ newer, (!(decide (g.thread = f.thread) && g.isOpen)) = true := by
    intro g hg
    by_cases hthread : g.thread = f.thread
    · simp [hnewer g hg hthread]
    · simp [hthread]
  simp only [pick, hf]
  rw [List.dropWhile_append_of_pos hall, List.dropWhile_cons_of_neg (by simp [hopen]),
    List.takeWhile_append_of_pos hall, List.takeWhile_cons_of_neg (by simp [hopen]), List.append_nil]

theorem exists_pick (h : s.current thread = some f) : ∃ newer older, s.pick thread = some (newer, f, older) := by
  rw [current, ← head?_dropWhile] at h
  obtain ⟨older, hcons⟩ := List.head?_eq_some_iff.1 h
  refine ⟨s.frames.takeWhile fun f => !(f.thread = thread && f.isOpen), older, ?_⟩
  simp only [pick, hcons]

namespace Nested

theorem replace (h : s.Nested) (hp : s.pick thread = some (newer, f, older)) (hthread : f'.thread = f.thread)
    (c : Coordinator) : Nested ⟨c, newer ++ f' :: older⟩ := by
  obtain ⟨hf, hme, hopen⟩ := pick_eq hp
  unfold Nested at h ⊢
  rw [hf, List.pairwise_append, List.pairwise_cons] at h
  obtain ⟨hnewer, ⟨hmiddle, holder⟩, hacross⟩ := h
  refine List.pairwise_append.2 ⟨hnewer, List.pairwise_cons.2 ⟨fun outer houter hsame _ => ?_, holder⟩, ?_⟩
  · exact hmiddle outer houter (hthread.symm.trans hsame) hopen
  · intro inner hinner outer houter
    obtain rfl | houter := List.mem_cons.1 houter
    · -- the thread has no call open inside the one it goes on with
      intro hsame hinnerOpen
      rw [pick_newer hp inner hinner (hsame.trans (hthread.trans hme))] at hinnerOpen
      cases hinnerOpen
    · exact hacross inner hinner outer (List.mem_cons_of_mem _ houter)

theorem rousedAll {frames : List Frame} (h : Nested ⟨world, frames⟩) : Nested ⟨world, frames.map Frame.roused⟩ :=
  List.pairwise_map.2 h

theorem move {m : Move} (h : s.Nested) (hm : s.move m = some s') : s'.Nested := by
  cases m with
  | call thread call =>
    rw [begin_of_call hm]
    refine List.pairwise_cons.2 ⟨fun outer houter hthread _ houterOpen => ?_, h⟩
    change thread = outer.thread at hthread
    simp only [Crowd.move] at hm
    split at hm
    · rename_i newer f older hp
      split at hm
      · rename_i hhost
        obtain ⟨hf, hme, hopen⟩ := pick_eq hp
        rw [hf] at houter
        obtain hnewer | houter := List.mem_append.1 houter
        · rw [pick_newer hp outer hnewer hthread.symm] at houterOpen
          cases houterOpen
        · obtain rfl | holder := List.mem_cons.1 houter
          · exact hhost
          · unfold Nested at h
            rw [hf, List.pairwise_append, List.pairwise_cons] at h
            exact h.2.1.1 outer holder (hme.trans hthread) hopen houterOpen
      · cases hm
    · rw [pick_eq_none ‹_› outer houter hthread.symm] at houterOpen
      cases houterOpen
  | go thread =>
    obtain ⟨newer, f, older, f', c', hp, -, hn, rfl⟩ := go_cases hm
    have hnested := h.replace hp (Frame.thread_next hn) c'
    split
    · exact hnested.rousedAll
    · exact hnested
  | rouse thread =>
    obtain ⟨⟨newer, f, older⟩, hp, rfl⟩ := Option.map_eq_some_iff.1 hm
    have hthread : f.roused.thread = f.thread := rfl
    exact h.replace hp hthread s.world

/-- A call that is open and not at code of the host is the innermost of its thread. -/
theorem pick (h : s.Nested) (hf : s.frames = newer ++ f :: older) (hopen : f.isOpen) (hhost : f.atHost = false) :
    s.pick f.thread = some (newer, f, older) := by
  refine pick_of hf hopen fun g hg hthread => ?_
  unfold Nested at h
  rw [hf, List.pairwise_append] at h
  cases hgopen : g.isOpen with
  | false => rfl
  | true =>
    have hat := h.2.2 g hg f List.mem_cons_self hthread hgopen hopen
    rw [hhost] at hat
    cases hat

end Nested

theorem Reachable.nested {c : Coordinator} (h : Reachable c s) : s.Nested :=
  h.induct (P := Nested) .nil fun _ _ _ hs hm => hs.move hm

/-- A thread at a transition makes it if it may, and is turned away otherwise. -/
theorem go_transition (hp : s.pick thread = some (newer, f, older)) (ha : f.asleep = false) {target : WorldState}
    (hr : f.rest = .transition target :: rest) :
    s.move (.go thread) = some (
      if s.world.state.successor = target then
        ⟨{ s.world with state := target },
          newer ++ f.onward ⟨.transition target, s.world, { s.world with state := target }⟩ rest f.count :: older⟩
      else ⟨s.world, newer ++ f.quit ⟨.transition target, s.world, s.world⟩
        (.refused (.illegalTransition s.world.state target)) :: older⟩) := by
  have hwake : ¬f.rest.head? = some .wake := by simp [hr]
  by_cases hsucc : s.world.state.successor = target
  · have hnext : f.next s.world = some
        (f.onward ⟨.transition target, s.world, { s.world with state := target }⟩ rest f.count,
          { s.world with state := target }) := by
      simp only [Frame.next, hr, act_transition, if_pos hsucc]
    simp only [Crowd.move, hp, ha, hnext, hwake, hsucc, Bool.false_eq_true, if_false, if_true, Option.map_some]
  · have hnext : f.next s.world = some (f.quit ⟨.transition target, s.world, s.world⟩
        (.refused (.illegalTransition s.world.state target)), s.world) := by
      simp only [Frame.next, hr, act_transition, if_neg hsucc]
    simp only [Crowd.move, hp, ha, hnext, hwake, hsucc, Bool.false_eq_true, if_false, Option.map_some]

end Nesting

end Crowd

end Safepoint.Handshake
