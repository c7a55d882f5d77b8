import Mathlib.Data.List.Nodup
import Safepoint.Proofs.Basic
import Safepoint.Roots.CodeTable

/-!
# The race for a claim

A thread claims a blob in steps: it looks at the mark of the blob, and as long as it has seen an older cycle there it
tries to put its own in the place of what it saw. Other threads may come between, with claims for this cycle or for
others. A look need not show the last mark but may show any that the blob has had, and an attempt may fail for no
reason. Still the marks only grow, and each is the claim of one call that won it. Who loses has seen a mark that is not
older than its own.

A call that nobody comes between does what `CodeEntry.claim` does in one step.
-/
namespace Safepoint

/-- Where a call that claims a blob stands: it is to look at the mark, or to replace the older one it has seen. -/
inductive ClaimStage where
  | looking (epoch : UInt64)
  | replacing (epoch seen : UInt64)
  deriving DecidableEq

/-- The cycle for which the call claims the blob. -/
def ClaimStage.epoch : ClaimStage → UInt64
  | looking epoch | replacing epoch _ => epoch

/-- What became of a call. -/
structure ClaimReturn where
  thread : ThreadId
  epoch : UInt64
  won : Bool
  deriving DecidableEq

/-- A blob and the calls that claim it. -/
structure ClaimRace where
  entry : CodeEntry
  /-- The marks the blob had before, the last first. -/
  past : List UInt64 := []
  stages : ThreadId → Option ClaimStage := fun _ => none
  returned : List ClaimReturn := []

/-- What can happen in a race. A look and an attempt that fails show a mark. -/
inductive ClaimMove where
  | call (thread : ThreadId) (epoch : UInt64)
  | look (thread : ThreadId) (seen : UInt64)
  | replace (thread : ThreadId)
  | fail (thread : ThreadId) (seen : UInt64)
  deriving DecidableEq

/-- The thread is within its call. -/
def ClaimMove.GoesOn (thread : ThreadId) : ClaimMove → Prop
  | call .. => False
  | look other _ | replace other | fail other _ => other = thread

namespace ClaimRace

/-- All marks the blob has had. -/
def marks (s : ClaimRace) : List UInt64 := s.entry.claimed :: s.past

/-- No call is in progress. -/
def Idle (s : ClaimRace) : Prop := ∀ thread, s.stages thread = none

def stand (s : ClaimRace) (thread : ThreadId) (stage : ClaimStage) : ClaimRace :=
  { s with stages := Function.update s.stages thread (some stage) }

def leave (s : ClaimRace) (thread : ThreadId) (epoch : UInt64) (won : Bool) : ClaimRace :=
  { s with stages := Function.update s.stages thread none, returned := s.returned ++ [⟨thread, epoch, won⟩] }

/-- A thread that has seen an older mark goes on to replace it, and otherwise it has lost. -/
def see (s : ClaimRace) (thread : ThreadId) (epoch seen : UInt64) : ClaimRace :=
  if seen < epoch then s.stand thread (.replacing epoch seen) else s.leave thread epoch false

/-- A thread replaces the mark by its own. -/
def win (s : ClaimRace) (thread : ThreadId) (epoch : UInt64) : ClaimRace :=
  { s.leave thread epoch true with entry := { s.entry with claimed := epoch }, past := s.marks }

def move (s : ClaimRace) : ClaimMove → Option ClaimRace
  | .call thread epoch => if s.stages thread = none then some (s.stand thread (.looking epoch)) else none
  | .look thread seen =>
    match s.stages thread with
    | some (.looking epoch) => if seen ∈ s.marks then some (s.see thread epoch seen) else none
    | _ => none
  | .replace thread =>
    match s.stages thread with
    | some (.replacing epoch seen) => if s.entry.claimed = seen then some (s.win thread epoch) else none
    | _ => none
  | .fail thread seen =>
    match s.stages thread with
    | some (.replacing epoch _) => if seen ∈ s.marks then some (s.see thread epoch seen) else none
    | _ => none

def run (moves : List ClaimMove) (s : ClaimRace) : Option ClaimRace := moves.foldlM move s

/-- How many calls have won the claim for a cycle. -/
def wins (s : ClaimRace) (epoch : UInt64) : Nat := s.returned.countP fun c => c.epoch = epoch ∧ c.won

/-- The cycles whose claims were won, in this order. -/
def won (s : ClaimRace) : List UInt64 := (s.returned.filter ClaimReturn.won).map ClaimReturn.epoch

/-- The cycles for which the blob was claimed, won or not. -/
def asked (moves : List ClaimMove) : List UInt64 :=
  moves.filterMap fun
    | .call _ epoch => some epoch
    | _ => none

variable {s s' : ClaimRace} {m : ClaimMove} {moves : List ClaimMove} {thread other : ThreadId}
  {stage : ClaimStage} {epoch seen first : UInt64}

/-- What a move can do: begin a call, show a mark to a thread, or replace the mark that a thread has seen last. -/
theorem move_cases (h : s.move m = some s') :
    (∃ thread epoch, m = .call thread epoch ∧ s.stages thread = none ∧ s' = s.stand thread (.looking epoch)) ∨
    (∃ thread stage seen, m.GoesOn thread ∧ s.stages thread = some stage ∧ seen ∈ s.marks ∧
      s' = s.see thread stage.epoch seen) ∨
    ∃ thread epoch, m.GoesOn thread ∧ s.stages thread = some (.replacing epoch s.entry.claimed) ∧
      s' = s.win thread epoch := by
  cases m with
  | call thread epoch =>
    obtain ⟨hnone, rfl⟩ : s.stages thread = none ∧ s.stand thread (.looking epoch) = s' := by simpa [move] using h
    exact .inl ⟨thread, epoch, rfl, hnone, rfl⟩
  | look thread seen =>
    rw [move] at h
    split at h
    · rename_i epoch hstage
      obtain ⟨hseen, rfl⟩ : seen ∈ s.marks ∧ s.see thread epoch seen = s' := by simpa using h
      exact .inr (.inl ⟨thread, _, seen, rfl, hstage, hseen, rfl⟩)
    · cases h
  | replace thread =>
    rw [move] at h
    split at h
    · rename_i epoch seen hstage
      obtain ⟨rfl, rfl⟩ : s.entry.claimed = seen ∧ s.win thread epoch = s' := by simpa using h
      exact .inr (.inr ⟨thread, epoch, rfl, hstage, rfl⟩)
    · cases h
  | fail thread seen =>
    rw [move] at h
    split at h
    · rename_i epoch old hstage
      obtain ⟨hseen, rfl⟩ : seen ∈ s.marks ∧ s.see thread epoch seen = s' := by simpa using h
      exact .inr (.inl ⟨thread, _, seen, rfl, hstage, hseen, rfl⟩)
    · cases h

theorem stages_stand (s : ClaimRace) (thread : ThreadId) (stage : ClaimStage) :
    (s.stand thread stage).stages = Function.update s.stages thread (some stage) := rfl

theorem stages_leave (s : ClaimRace) (thread : ThreadId) (epoch : UInt64) (won : Bool) :
    (s.leave thread epoch won).stages = Function.update s.stages thread none := rfl

theorem run_concat (moves : List ClaimMove) (m : ClaimMove) (s : ClaimRace) :
    run (moves ++ [m]) s = (run moves s).bind (·.move m) := by
  simp [run, List.foldlM_append, Option.bind_eq_bind]

theorem run_append (moves more : List ClaimMove) (s : ClaimRace) :
    run (moves ++ more) s = (run moves s).bind (run more) := List.foldlM_append

theorem run_cons_of_move (h : s.move m = some s') (moves : List ClaimMove) : run (m :: moves) s = run moves s' := by
  simp [run, h]

/-- The marks the blob has had are kept. -/
theorem marks_subset_of_move (h : s.move m = some s') : s.marks ⊆ s'.marks := by
  obtain ⟨thread, epoch, -, -, rfl⟩ | ⟨thread, stage, seen, -, -, -, rfl⟩ | ⟨thread, epoch, -, -, rfl⟩ := move_cases h
  · exact List.Subset.refl _
  · unfold see
    split <;> exact List.Subset.refl _
  · exact List.subset_cons_self ..

theorem marks_subset_of_run (h : run moves s = some s') : s.marks ⊆ s'.marks :=
  foldlM_keeps (P := fun s' => s.marks ⊆ s'.marks)
    (fun _ _ _ hsub hmove => List.Subset.trans hsub (marks_subset_of_move hmove)) (List.Subset.refl _) h

@[simp] theorem won_leave (s : ClaimRace) (thread : ThreadId) (epoch : UInt64) (won : Bool) :
    (s.leave thread epoch won).won = if won then s.won ++ [epoch] else s.won := by
  cases won <;> simp [leave, ClaimRace.won, List.filter_append]

/-- A call for the cycle was made, whether it is over or not. -/
def Made (s : ClaimRace) (epoch : UInt64) : Prop :=
  (∃ thread stage, s.stages thread = some stage ∧ stage.epoch = epoch) ∨ ∃ c ∈ s.returned, c.epoch = epoch

/-- Another thread is in a call for the cycle, or such a call is over. -/
def MadeBeside (s : ClaimRace) (thread : ThreadId) (epoch : UInt64) : Prop :=
  (∃ other stage, other ≠ thread ∧ s.stages other = some stage ∧ stage.epoch = epoch) ∨
    ∃ c ∈ s.returned, c.epoch = epoch

theorem made_iff (s : ClaimRace) (thread : ThreadId) (epoch : UInt64) :
    s.Made epoch ↔ (s.stages thread).map ClaimStage.epoch = some epoch ∨ s.MadeBeside thread epoch := by
  rw [Made, MadeBeside, ← or_assoc]
  refine or_congr_left ⟨?_, ?_⟩
  · rintro ⟨other, stage, hstage, hepoch⟩
    by_cases hother : other = thread
    · left
      rw [← hother, hstage, Option.map_some, hepoch]
    · exact .inr ⟨other, stage, hother, hstage, hepoch⟩
  · rintro (hmap | ⟨other, stage, -, hstage, hepoch⟩)
    · obtain ⟨stage, hstage, hepoch⟩ := Option.map_eq_some_iff.1 hmap
      exact ⟨thread, stage, hstage, hepoch⟩
    · exact ⟨other, stage, hstage, hepoch⟩

theorem madeBeside_stand (s : ClaimRace) (thread : ThreadId) (stage : ClaimStage) (epoch : UInt64) :
    (s.stand thread stage).MadeBeside thread epoch ↔ s.MadeBeside thread epoch := by
  refine or_congr_left (exists_congr fun other => exists_congr fun stage => and_congr_right fun hne => ?_)
  rw [stages_stand, Function.update_of_ne hne]

theorem madeBeside_leave (s : ClaimRace) (thread : ThreadId) (old : UInt64) (won : Bool) (epoch : UInt64) :
    (s.leave thread old won).MadeBeside thread epoch ↔ old = epoch ∨ s.MadeBeside thread epoch := by
  have hstages : (∃ other stage, other ≠ thread ∧ (s.leave thread old won).stages other = some stage ∧
      stage.epoch = epoch) ↔ ∃ other stage, other ≠ thread ∧ s.stages other = some stage ∧ stage.epoch = epoch := by
    refine exists_congr fun other => exists_congr fun stage => and_congr_right fun hne => ?_
    rw [stages_leave, Function.update_of_ne hne]
  have hreturned : (∃ c ∈ (s.leave thread old won).returned, c.epoch = epoch) ↔
      (∃ c ∈ s.returned, c.epoch = epoch) ∨ old = epoch := by
    simp only [leave, List.mem_append, List.mem_singleton, or_and_right, exists_or, exists_eq_left]
  rw [MadeBeside, MadeBeside, hstages, hreturned, ← or_assoc, or_comm]

theorem made_stand (s : ClaimRace) (thread : ThreadId) (stage : ClaimStage) (epoch : UInt64) :
    (s.stand thread stage).Made epoch ↔ stage.epoch = epoch ∨ s.MadeBeside thread epoch := by
  rw [made_iff _ thread, madeBeside_stand]
  simp [stand]

theorem made_leave (s : ClaimRace) (thread : ThreadId) (old : UInt64) (won : Bool) (epoch : UInt64) :
    (s.leave thread old won).Made epoch ↔ old = epoch ∨ s.MadeBeside thread epoch := by
  rw [made_iff _ thread, madeBeside_leave]
  simp [leave]

theorem made_of_stage (h : s.stages thread = some stage) (epoch : UInt64) :
    s.Made epoch ↔ stage.epoch = epoch ∨ s.MadeBeside thread epoch := by
  rw [made_iff s thread, h, Option.map_some, Option.some.injEq]

theorem made_of_none (h : s.stages thread = none) (epoch : UInt64) : s.Made epoch ↔ s.MadeBeside thread epoch := by
  rw [made_iff s thread, h]
  simp

theorem asked_concat (moves : List ClaimMove) (m : ClaimMove) (epoch : UInt64) :
    epoch ∈ asked (moves ++ [m]) ↔ epoch ∈ asked moves ∨ ∃ thread, m = .call thread epoch := by
  rw [asked, List.filterMap_append, List.mem_append]
  refine or_congr_right ?_
  cases m <;> simp [eq_comm]

theorem mem_asked : epoch ∈ asked moves ↔ ∃ thread, .call thread epoch ∈ moves := by
  rw [asked, List.mem_filterMap]
  constructor
  · rintro ⟨m, hm, hepoch⟩
    cases m <;> cases hepoch
    exact ⟨_, hm⟩
  · rintro ⟨thread, hm⟩
    exact ⟨_, hm, rfl⟩

/-- What holds of a race that began with the mark `first`, after certain moves. -/
structure Fair (first : UInt64) (moves : List ClaimMove) (s : ClaimRace) : Prop where
  /-- The marks after the first are the claims that were won. -/
  marks : s.marks = (first :: s.won).reverse
  growing : s.marks.Pairwise (· > ·)
  hopeful : ∀ thread epoch seen, s.stages thread = some (.replacing epoch seen) → seen < epoch
  beaten : ∀ c ∈ s.returned, c.won = false → ∃ seen ∈ s.marks, c.epoch ≤ seen
  made : ∀ epoch, epoch ∈ asked moves ↔ s.Made epoch

namespace Fair

theorem fresh (entry : CodeEntry) : Fair entry.claimed [] { entry } where
  marks := rfl
  growing := List.pairwise_singleton ..
  hopeful _ _ _ h := by cases h
  beaten _ h := by cases h
  made epoch := by simp [asked, Made]

/-- The last mark is the latest. -/
theorem le_claimed (h : Fair first moves s) (hseen : seen ∈ s.marks) : seen ≤ s.entry.claimed := by
  obtain rfl | hpast := List.mem_cons.1 hseen
  · exact UInt64.le_refl _
  · exact UInt64.le_of_lt (List.rel_of_pairwise_cons h.growing hpast)

theorem call (h : Fair first moves s) (hthread : s.stages thread = none) (epoch : UInt64) :
    Fair first (moves ++ [.call thread epoch]) (s.stand thread (.looking epoch)) where
  marks := h.marks
  growing := h.growing
  hopeful other epoch' seen hstage := by
    obtain ⟨-, heq⟩ | ⟨-, hstage⟩ := update_eq_some.1 hstage
    · cases heq
    · exact h.hopeful other epoch' seen hstage
  beaten := h.beaten
  made asked := by
    rw [asked_concat, h.made, made_of_none hthread, made_stand]
    simp [ClaimStage.epoch, or_comm]

theorem not_call (hm : m.GoesOn thread) (epoch : UInt64) : ¬∃ other, m = .call other epoch := by
  rintro ⟨other, rfl⟩
  exact hm

theorem see (h : Fair first moves s) (hm : m.GoesOn thread) (hstage : s.stages thread = some stage)
    (hseen : seen ∈ s.marks) : Fair first (moves ++ [m]) (s.see thread stage.epoch seen) := by
  have hasked (epoch : UInt64) : epoch ∈ asked (moves ++ [m]) ↔ s.Made epoch := by
    rw [asked_concat, h.made, or_iff_left (not_call hm epoch)]
  unfold ClaimRace.see
  split
  · rename_i hlt
    refine ⟨h.marks, h.growing, fun other epoch' seen' hother => ?_, h.beaten, fun epoch => ?_⟩
    · obtain ⟨-, heq⟩ | ⟨-, hother⟩ := update_eq_some.1 hother
      · cases heq
        exact hlt
      · exact h.hopeful other epoch' seen' hother
    · rw [hasked, made_of_stage hstage, made_stand]
      rfl
  · rename_i hge
    refine ⟨?_, h.growing, fun other epoch' seen' hother => ?_, fun c hc hlost => ?_, fun epoch => ?_⟩
    · rw [won_leave]
      exact h.marks
    · obtain ⟨-, heq⟩ | ⟨-, hother⟩ := update_eq_some.1 hother
      · cases heq
      · exact h.hopeful other epoch' seen' hother
    · obtain hc | hc := List.mem_append.1 hc
      · exact h.beaten c hc hlost
      · rw [List.mem_singleton.1 hc]
        exact ⟨seen, hseen, UInt64.not_lt.1 hge⟩
    · rw [hasked, made_of_stage hstage, made_leave]

theorem win (h : Fair first moves s) (hm : m.GoesOn thread)
    (hstage : s.stages thread = some (.replacing epoch s.entry.claimed)) :
    Fair first (moves ++ [m]) (s.win thread epoch) := by
  have hlt := h.hopeful thread epoch _ hstage
  have hmarks : (s.win thread epoch).marks = epoch :: s.marks := rfl
  have hwon : (s.win thread epoch).won = s.won ++ [epoch] := won_leave s thread epoch true
  refine ⟨?_, ?_, fun other epoch' seen' hother => ?_, fun c hc hlost => ?_, fun asked => ?_⟩
  · rw [hmarks, hwon, h.marks]
    simp
  · rw [hmarks, List.pairwise_cons]
    exact ⟨fun seen hseen => UInt64.lt_of_le_of_lt (h.le_claimed hseen) hlt, h.growing⟩
  · obtain ⟨-, heq⟩ | ⟨-, hother⟩ := update_eq_some.1 hother
    · cases heq
    · exact h.hopeful other epoch' seen' hother
  · obtain hc | hc := List.mem_append.1 hc
    · obtain ⟨seen, hseen, hle⟩ := h.beaten c hc hlost
      exact ⟨seen, List.mem_cons_of_mem _ hseen, hle⟩
    · rw [List.mem_singleton.1 hc] at hlost
      cases hlost
  · have hmade : (s.win thread epoch).Made asked ↔ (s.leave thread epoch true).Made asked := Iff.rfl
    rw [asked_concat, h.made, or_iff_left (not_call hm asked), made_of_stage hstage, hmade, made_leave]
    rfl

theorem move (h : Fair first moves s) (hmove : s.move m = some s') : Fair first (moves ++ [m]) s' := by
  obtain ⟨thread, epoch, rfl, hthread, rfl⟩ | ⟨thread, stage, seen, hm, hstage, hseen, rfl⟩ |
    ⟨thread, epoch, hm, hstage, rfl⟩ := move_cases hmove
  · exact h.call hthread epoch
  · exact h.see hm hstage hseen
  · exact h.win hm hstage

theorem run {entry : CodeEntry} (h : run moves { entry } = some s) : Fair entry.claimed moves s := by
  induction moves using List.reverseRecOn generalizing s with
  | nil =>
    cases h
    exact .fresh entry
  | append_singleton moves m ih =>
    rw [run_concat] at h
    obtain ⟨before, hbefore, hmove⟩ := Option.bind_eq_some_iff.1 h
    exact (ih hbefore).move hmove

theorem nodup_won (h : Fair first moves s) : s.won.Nodup := by
  have hall : (first :: s.won).reverse.Nodup := by
    rw [← h.marks]
    exact h.growing.imp fun hgt => (UInt64.ne_of_lt hgt).symm
  exact (List.nodup_cons.1 (List.nodup_reverse.1 hall)).2

/-- A cycle for which a call was made, and none for a later one: it has a winner once the calls are over, if the blob
was not claimed for it before. -/
theorem mem_won (h : Fair first moves s) (hidle : s.Idle) (hasked : epoch ∈ asked moves)
    (hlast : ∀ other ∈ asked moves, other ≤ epoch) (hfirst : first < epoch) : epoch ∈ s.won := by
  have hreturned {other : UInt64} (hother : s.Made other) : ∃ c ∈ s.returned, c.epoch = other := by
    refine hother.resolve_left ?_
    rintro ⟨thread, stage, hstage, -⟩
    rw [hidle] at hstage
    cases hstage
  -- A call for the cycle that lost has seen a mark that is not older, and only a claim for this cycle can have set it.
  obtain ⟨c, hc, rfl⟩ := hreturned ((h.made epoch).1 hasked)
  by_cases hwon : c.won
  · exact List.mem_map.2 ⟨c, List.mem_filter.2 ⟨hc, hwon⟩, rfl⟩
  · obtain ⟨seen, hseen, hle⟩ := h.beaten c hc (Bool.eq_false_iff.2 hwon)
    rw [h.marks, List.mem_reverse, List.mem_cons] at hseen
    obtain rfl | hseen := hseen
    · exact absurd hfirst (UInt64.not_lt.2 hle)
    · obtain ⟨c', hc', rfl⟩ := List.mem_map.1 hseen
      have hmade : s.Made c'.epoch := .inr ⟨c', List.mem_of_mem_filter hc', rfl⟩
      rwa [UInt64.le_antisymm hle (hlast _ ((h.made _).2 hmade))]

end Fair

theorem wins_eq_count (s : ClaimRace) (epoch : UInt64) : s.wins epoch = s.won.count epoch := by
  rw [wins, won, List.count, List.countP_map, List.countP_filter]
  refine List.countP_congr fun c _ => ?_
  simp

/-- However many threads claim a blob, for whatever cycles and however their steps follow one another: the mark of the
blob never goes back, and a claim is won by one call at most. If there was a call for a cycle that the blob was not
claimed for at first, and none for a later one, then that claim has one winner as soon as all calls are over. -/
theorem claim_won_once {entry : CodeEntry} (h : run moves { entry } = some s) :
    (∀ more s', run more s = some s' → s.entry.claimed ≤ s'.entry.claimed) ∧
    (∀ epoch, s.wins epoch ≤ 1) ∧
    ∀ epoch, (∀ thread other, .call thread other ∈ moves → other ≤ epoch) → entry.claimed < epoch → s.Idle →
      (∃ thread, .call thread epoch ∈ moves) → s.wins epoch = 1 := by
  have hfair := Fair.run h
  refine ⟨fun more s' hmore => ?_, fun epoch => ?_, fun epoch hlast hfirst hidle hasked => ?_⟩
  · have hlater : Fair entry.claimed (moves ++ more) s' := .run (by rw [run_append, h]; exact hmore)
    exact hlater.le_claimed (marks_subset_of_run hmore (List.mem_cons_self ..))
  · rw [wins_eq_count]
    exact List.nodup_iff_count_le_one.1 hfair.nodup_won epoch
  · have hlast : ∀ other ∈ asked moves, other ≤ epoch := fun other hother => by
      obtain ⟨thread, hcall⟩ := mem_asked.1 hother
      exact hlast thread other hcall
    rw [wins_eq_count]
    exact List.count_eq_one_of_mem hfair.nodup_won (hfair.mem_won hidle (mem_asked.2 hasked) hlast hfirst)

/-- Who is in a call has begun one. -/
theorem called_of_stage {entry : CodeEntry} (h : run moves { entry } = some s) (hstage : s.stages thread = some stage) :
    ∃ epoch, .call thread epoch ∈ moves := by
  induction moves using List.reverseRecOn generalizing s stage with
  | nil =>
    cases h
    cases hstage
  | append_singleton moves m ih =>
    rw [run_concat] at h
    obtain ⟨before, hbefore, hmove⟩ := Option.bind_eq_some_iff.1 h
    by_cases hold : ∃ old, before.stages thread = some old
    · obtain ⟨old, hold⟩ := hold
      obtain ⟨epoch, hcall⟩ := ih hbefore hold
      exact ⟨epoch, List.mem_append_left _ hcall⟩
    · have hother {other : ThreadId} {old : ClaimStage} (hother : before.stages other = some old) : thread ≠ other := by
        rintro rfl
        exact hold ⟨old, hother⟩
      obtain ⟨other, epoch, rfl, -, rfl⟩ | ⟨other, old, seen, -, hbusy, -, rfl⟩ | ⟨other, epoch, -, hbusy, rfl⟩ :=
        move_cases hmove
      · obtain ⟨rfl, -⟩ | ⟨-, hsame⟩ := update_eq_some.1 hstage
        · exact ⟨epoch, by simp⟩
        · exact absurd ⟨stage, hsame⟩ hold
      · refine absurd ⟨stage, ?_⟩ hold
        unfold see at hstage
        split at hstage
        · rwa [stages_stand, Function.update_of_ne (hother hbusy)] at hstage
        · rwa [stages_leave, Function.update_of_ne (hother hbusy)] at hstage
      · refine absurd ⟨stage, ?_⟩ hold
        have hstages : (before.win other epoch).stages = (before.leave other epoch true).stages := rfl
        rwa [hstages, stages_leave, Function.update_of_ne (hother hbusy)] at hstage

/-- Two threads claim a blob for a cycle, and a third for the one before. One of the two fails without cause, and again
because the third was faster; it is shown an old mark once more and then finds that the other has won. -/
theorem three_threads_one_winner :
    let a : ThreadId := ⟨"a"⟩
    let b : ThreadId := ⟨"b"⟩
    let c : ThreadId := ⟨"c"⟩
    let moves : List ClaimMove :=
      [.call a 2, .call b 2, .call c 1, .look a 0, .look b 0, .look c 0, .fail a 0, .replace c, .fail b 1, .fail a 1,
        .replace b, .fail a 0, .fail a 2]
    ∃ s, run moves { entry := ⟨[⟨0x1000⟩], 0⟩ } = some s ∧ s.entry.claimed = 2 ∧ s.wins 1 ≤ 1 ∧ s.wins 2 = 1 := by
  intro a b c moves
  have hrun : (run moves { entry := ⟨[⟨0x1000⟩], 0⟩ }).map
      (fun s => (s.stages a, s.stages b, s.stages c, s.entry.claimed)) = some (none, none, none, 2) := by decide +kernel
  obtain ⟨s, hmoves, hs⟩ := Option.map_eq_some_iff.1 hrun
  simp only [Prod.mk.injEq] at hs
  obtain ⟨ha, hb, hc, hclaimed⟩ := hs
  have hidle : s.Idle := fun thread => by
    by_contra hbusy
    obtain ⟨stage, hstage⟩ := Option.ne_none_iff_exists'.1 hbusy
    obtain ⟨epoch, hcall⟩ := called_of_stage hmoves hstage
    have hthread : thread = a ∨ thread = b ∨ thread = c := by simp [moves] at hcall; tauto
    obtain rfl | rfl | rfl := hthread <;> simp_all
  obtain ⟨-, hone, hlast⟩ := claim_won_once hmoves
  have hmost : ∀ thread other, .call thread other ∈ moves → other ≤ 2 := fun thread other hcall => by
    have hother : other = 2 ∨ other = 1 := by simp [moves] at hcall; tauto
    obtain rfl | rfl := hother <;> decide
  exact ⟨s, hmoves, hclaimed, hone 1, hlast 2 hmost (by decide) hidle ⟨a, .head _⟩⟩

section Alone

theorem goesOn_unique (h : m.GoesOn thread) (h' : m.GoesOn other) : other = thread := by
  cases m with
  | call => cases h
  | look | replace | fail => exact h'.symm.trans h

/-- Nobody goes on who is in no call. -/
theorem eq_of_run (hmoves : ∀ m ∈ moves, m.GoesOn thread) (hthread : s.stages thread = none)
    (h : run moves s = some s') : s' = s := by
  cases moves with
  | nil =>
    cases h
    rfl
  | cons m moves =>
    obtain ⟨middle, hmove, -⟩ := Option.bind_eq_some_iff.1 h
    have hgoes := hmoves m List.mem_cons_self
    obtain ⟨other, epoch, rfl, -, -⟩ | ⟨other, stage, seen, hother, hstage, -, -⟩ | ⟨other, epoch, hother, hstage, -⟩ :=
      move_cases hmove
    · cases hgoes
    · rw [goesOn_unique hgoes hother, hthread] at hstage
      cases hstage
    · rw [goesOn_unique hgoes hother, hthread] at hstage
      cases hstage

theorem stand_stand (s : ClaimRace) (thread : ThreadId) (stage next : ClaimStage) :
    (s.stand thread stage).stand thread next = s.stand thread next := by
  rw [stand, stand, stand, Function.update_idem]

theorem leave_stand (s : ClaimRace) (thread : ThreadId) (stage : ClaimStage) (epoch : UInt64) (won : Bool) :
    (s.stand thread stage).leave thread epoch won = s.leave thread epoch won := by
  rw [leave, leave, stand, Function.update_idem]

/-- What is left of a call comes to a claim in one step, if nobody comes between. -/
theorem claim_of_stage (stage : ClaimStage) (hlatest : ∀ seen ∈ s.marks, seen ≤ s.entry.claimed)
    (hhopeful : ∀ seen, stage = .replacing stage.epoch seen → seen < stage.epoch)
    (hmoves : ∀ m ∈ moves, m.GoesOn thread) (h : run moves (s.stand thread stage) = some s')
    (hover : s'.stages thread = none) : s'.entry = s.entry.claim stage.epoch ∧
      s'.returned = s.returned ++ [⟨thread, stage.epoch, s.entry.isFree stage.epoch⟩] := by
  induction moves generalizing stage with
  | nil =>
    cases h
    simp [stand] at hover
  | cons m moves ih =>
    obtain ⟨hgoes, hmoves⟩ := List.forall_mem_cons.1 hmoves
    obtain ⟨middle, hmove, hrest⟩ := Option.bind_eq_some_iff.1 h
    obtain ⟨other, epoch, rfl, -, -⟩ | ⟨other, found, seen, hother, hstage, hseen, rfl⟩ |
      ⟨other, epoch, hother, hstage, rfl⟩ := move_cases hmove
    · cases hgoes
    · obtain rfl := goesOn_unique hgoes hother
      obtain rfl : stage = found := by simpa [stand] using hstage
      unfold see at hrest
      split at hrest
      · rename_i hlt
        rw [stand_stand] at hrest
        exact ih (.replacing stage.epoch seen) (fun old hold => by cases hold; exact hlt) hmoves hrest
      · rename_i hge
        rw [leave_stand] at hrest
        obtain rfl := eq_of_run hmoves (by simp [leave]) hrest
        have hnot : s.entry.isFree stage.epoch = false := by
          have hle := UInt64.le_trans (UInt64.not_lt.1 hge) (hlatest seen hseen)
          simpa [CodeEntry.isFree] using hle
        simp [leave, CodeEntry.claim, hnot]
    · obtain rfl := goesOn_unique hgoes hother
      obtain rfl : stage = .replacing epoch s.entry.claimed := by simpa [stand] using hstage
      have hlt : s.entry.claimed < epoch := hhopeful _ rfl
      obtain rfl := eq_of_run hmoves (by simp [win, leave]) hrest
      have hfree : s.entry.isFree epoch = true := by simpa [CodeEntry.isFree] using hlt
      simp [win, leave, stand, CodeEntry.claim, hfree, ClaimStage.epoch]

/-- A call that nobody comes between can come to its end, and however it does, it has done what a claim in one step
does. -/
theorem claim_of_undisturbed {entry : CodeEntry} (h : run moves { entry } = some s) (hthread : s.stages thread = none)
    (epoch : UInt64) :
    (∃ own s', (∀ m ∈ own, m.GoesOn thread) ∧ run (.call thread epoch :: own) s = some s' ∧
      s'.stages thread = none) ∧
    ∀ own s', (∀ m ∈ own, m.GoesOn thread) → run (.call thread epoch :: own) s = some s' → s'.stages thread = none →
      s'.entry = s.entry.claim epoch ∧ s'.returned = s.returned ++ [⟨thread, epoch, s.entry.isFree epoch⟩] := by
  have hcall : s.move (.call thread epoch) = some (s.stand thread (.looking epoch)) := if_pos hthread
  have hlook : (s.stand thread (.looking epoch)).move (.look thread s.entry.claimed) =
      some ((s.stand thread (.looking epoch)).see thread epoch s.entry.claimed) := by
    simp [move, stand, marks]
  constructor
  · by_cases hlt : s.entry.claimed < epoch
    · rw [see, if_pos hlt, stand_stand] at hlook
      have hreplace : (s.stand thread (.replacing epoch s.entry.claimed)).move (.replace thread) =
          some ((s.stand thread (.replacing epoch s.entry.claimed)).win thread epoch) := by simp [move, stand]
      refine ⟨[.look thread s.entry.claimed, .replace thread],
        (s.stand thread (.replacing epoch s.entry.claimed)).win thread epoch, by simp [ClaimMove.GoesOn], ?_, ?_⟩
      · rw [run_cons_of_move hcall, run_cons_of_move hlook, run_cons_of_move hreplace]
        rfl
      · simp [win, leave]
    · rw [see, if_neg hlt, leave_stand] at hlook
      refine ⟨[.look thread s.entry.claimed], s.leave thread epoch false, by simp [ClaimMove.GoesOn], ?_, ?_⟩
      · rw [run_cons_of_move hcall, run_cons_of_move hlook]
        rfl
      · simp [leave]
  · intro own s' hown hrun hover
    obtain ⟨middle, hmove, hrest⟩ := Option.bind_eq_some_iff.1 hrun
    obtain rfl : s.stand thread (.looking epoch) = middle := by simpa [hcall] using hmove
    exact claim_of_stage (.looking epoch) (fun _ => (Fair.run h).le_claimed) (fun _ hstage => by cases hstage)
      hown hrest hover

end Alone

end ClaimRace

end Safepoint
