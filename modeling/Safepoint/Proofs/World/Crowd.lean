import Safepoint.Proofs.Basic
import Safepoint.World.Coordinator

/-!
# Calls of many threads on one coordinator

A call is a list of stretches: sections under a lock of the coordinator, and code of the host
between them. Between two stretches every other thread may go on, and while code of the host
runs its own thread may make further calls, to any depth. A thread that waits for the count
sleeps until it is woken, and may also wake for no reason.

Nothing here says what a section does: that is in the calls of `Handshake`, which are shown to
be their lists of stretches, carried out with nobody else around.
-/
namespace Safepoint.Handshake

/-- Code of the host that runs inside a call with no lock held. -/
inductive HostCode where
  | callback | suspendAll | resumeAll | enterSafeRegion | leaveSafeRegion
  deriving DecidableEq

/-- What a call does between two points at which other threads may go on. -/
inductive Stretch where
  | transition (target : WorldState)
  | bump
  /-- Note the count. -/
  | note
  /-- See whether the count is past the one noted, and sleep if it is not. -/
  | wait
  /-- Take the lock of the count and give it back. -/
  | settle
  /-- Wake everyone who sleeps. -/
  | wake
  /-- Depart under the lock if the world is running; the call is then over. -/
  | departNow
  /-- Depart under the lock once the world is running. -/
  | departLater
  | host (code : HostCode)
  deriving DecidableEq

inductive Call where
  | stop | start | leave | block | awaitNext
  | waitPast (snapshot : UInt64)
  /-- Any reading of the coordinator. -/
  | look
  deriving DecidableEq

def Call.body : Call → List Stretch
  | .stop => [.transition .suspendRequested, .host .callback, .host .suspendAll,
      .transition .suspended]
  | .start => [.transition .resumeRequested, .host .callback, .bump, .host .resumeAll,
      .transition .running, .settle, .wake]
  | .leave => [.departNow, .host .enterSafeRegion, .departLater, .host .leaveSafeRegion]
  | .block => [.note, .host .callback, .host .enterSafeRegion, .wait, .host .leaveSafeRegion]
  | .awaitNext => [.note, .host .callback, .wait]
  | .waitPast _ => [.wait]
  | .look => [.note]

/-- The count a call holds when it begins. -/
def Call.count : Call → UInt64
  | .waitPast snapshot => snapshot
  | _ => 0

/-- Where a call has to find the world; other calls may find it anywhere. -/
def Call.source : Call → Option WorldState
  | .stop => some .running
  | .start => some .suspended
  | _ => none

inductive Outcome where
  | returned (count : UInt64)
  | refused (violation : Violation)
  deriving DecidableEq

/-- How a stretch leaves the call it belongs to. -/
inductive Turn where
  | on (count : UInt64)
  | off (outcome : Outcome)
  deriving DecidableEq

section Alone

variable {σ : Type} (world : Place σ Coordinator) (host : HostCode → Act σ Unit)

/-- A stretch of a call that holds `count`. Code of the host does nothing by itself. -/
def Stretch.act (count : UInt64) : Stretch → Act σ Turn
  | .transition target => do
    match ← Handshake.transition world target with
    | .ok () => return .on count
    | .error violation => return .off (.refused violation)
  | .bump => do return .on (← Act.within world (Act.update Coordinator.bump))
  | .note => do return .on (← Act.query world.get).generation
  | .wait => do return .on (← waitPast world count)
  | .departNow => do
    if (← Act.query world.get).state = .running then return .off (.returned count)
    return .on count
  | .departLater => do
    if (← Act.query world.get).isStopped then Act.fault .stuck
    return .on count
  | .settle | .wake | .host _ => return .on count

/-- Carry out stretches one after another with nobody else around. -/
def carryOut : List Stretch → UInt64 → Act σ Outcome
  | [], count => return .returned count
  | stretch :: rest, count => do
    if let .host code := stretch then host code
    match ← stretch.act world count with
    | .on count => carryOut rest count
    | .off outcome => return outcome

/-- The host's control over threads, read off its code. -/
def control : ThreadControl σ where
  suspendAll := host .suspendAll
  resumeAll := host .resumeAll
  enterSafeRegion := host .enterSafeRegion
  leaveSafeRegion := host .leaveSafeRegion

def Outcome.ofResult {α : Type} (count : α → UInt64) : Except Violation α → Outcome
  | .ok a => .returned (count a)
  | .error violation => .refused violation

@[simp] theorem carryOut_nil (count : UInt64) : carryOut world host [] count = pure (.returned count) := rfl

section Stretches

attribute [local simp] carryOut Stretch.act

theorem carryOut_transition (target : WorldState) (rest : List Stretch) (count : UInt64) :
    carryOut world host (.transition target :: rest) count = do
      match ← Handshake.transition world target with
      | .ok () => carryOut world host rest count
      | .error violation => return .refused violation := by
  simp only [carryOut, Stretch.act, bind_assoc]
  refine bind_congr fun result => ?_
  cases result <;> rfl

theorem carryOut_bump (rest : List Stretch) (count : UInt64) :
    carryOut world host (.bump :: rest) count =
      Act.within world (Act.update Coordinator.bump) >>= carryOut world host rest := by
  simp

theorem carryOut_note (rest : List Stretch) (count : UInt64) :
    carryOut world host (.note :: rest) count =
      Act.query world.get >>= fun c => carryOut world host rest c.generation := by
  simp

theorem carryOut_wait (rest : List Stretch) (count : UInt64) :
    carryOut world host (.wait :: rest) count = waitPast world count >>= carryOut world host rest := by
  simp

theorem carryOut_host (code : HostCode) (rest : List Stretch) (count : UInt64) :
    carryOut world host (.host code :: rest) count =
      host code >>= fun () => carryOut world host rest count := by
  simp

/-- Waking has no effect where nobody else is around. -/
theorem carryOut_settle (rest : List Stretch) (count : UInt64) :
    carryOut world host (.settle :: rest) count = carryOut world host rest count := by
  simp

theorem carryOut_wake (rest : List Stretch) (count : UInt64) :
    carryOut world host (.wake :: rest) count = carryOut world host rest count := by
  simp

end Stretches

theorem carryOut_stop : carryOut world host Call.stop.body 0 =
    Outcome.ofResult (fun () => 0) <$> stop world (control host) (host .callback) := by
  simp only [Call.body, carryOut_transition, carryOut_host, stop, control, map_bind]
  refine bind_congr fun first => ?_
  cases first with
  | error violation => simp [Outcome.ofResult]
  | ok =>
    simp only [map_bind]
    refine bind_congr fun _ => bind_congr fun _ => ?_
    rw [map_eq_pure_bind]
    refine bind_congr fun second => ?_
    cases second <;> simp [Outcome.ofResult]

theorem carryOut_start : carryOut world host Call.start.body 0 =
    Outcome.ofResult id <$> start world (control host) (host .callback) := by
  simp only [Call.body, carryOut_transition, carryOut_host, carryOut_bump, start, control, map_bind]
  refine bind_congr fun first => ?_
  cases first with
  | error violation => simp [Outcome.ofResult]
  | ok =>
    simp only [map_bind]
    refine bind_congr fun _ => bind_congr fun generation => ?_
    rw [carryOut_host]
    refine bind_congr fun _ => ?_
    rw [carryOut_transition]
    refine bind_congr fun second => ?_
    cases second <;> simp [Outcome.ofResult, carryOut_settle, carryOut_wake]

theorem carryOut_block : carryOut world host Call.block.body 0 = do
    let snapshot ← block world (control host) (host .callback)
    return .returned (← finishBlock world (control host) snapshot) := by
  simp only [Call.body, carryOut_note, carryOut_host, carryOut_wait, block, finishBlock, control, bind_assoc,
    pure_bind]
  refine bind_congr fun _ => bind_congr fun _ => bind_congr fun _ => bind_congr fun _ => ?_
  rw [carryOut_host]
  simp

theorem carryOut_awaitNext : carryOut world host Call.awaitNext.body 0 =
    .returned <$> awaitNext world (host .callback) := by
  simp only [Call.body, carryOut_note, carryOut_host, carryOut_wait, awaitNext, map_bind]
  refine bind_congr fun _ => bind_congr fun _ => ?_
  rw [map_eq_pure_bind]
  rfl

theorem carryOut_waitPast (snapshot : UInt64) :
    carryOut world host (Call.waitPast snapshot).body (Call.waitPast snapshot).count =
      .returned <$> waitPast world snapshot := by
  rw [Call.body, Call.count, carryOut_wait, map_eq_pure_bind]
  rfl

theorem carryOut_leave : carryOut world host Call.leave.body 0 = do
    if (← leave world (control host) (pure ())).isNone then finishLeave world (control host) (pure ())
    return .returned 0 := by
  simp only [Call.body, carryOut, Stretch.act, leave, finishLeave, control, bind_assoc, pure_bind]
  refine bind_congr fun c => ?_
  by_cases h : c.state = .running
  · simp [h]
  · simp only [h, if_false, bind_assoc, pure_bind]
    refine bind_congr fun _ => ?_
    rw [if_pos (by rfl)]
    refine bind_congr fun later => ?_
    by_cases hs : later.isStopped
    · simp only [hs, if_true]
      rfl
    · simp [hs]

/-- A call as its own function has it. -/
def Call.alone : Call → Act σ Outcome
  | .stop => Outcome.ofResult (fun () => 0) <$> Handshake.stop world (control host) (host .callback)
  | .start => Outcome.ofResult id <$> Handshake.start world (control host) (host .callback)
  | .leave => do
    if (← Handshake.leave world (control host) (pure ())).isNone then
      Handshake.finishLeave world (control host) (pure ())
    return .returned 0
  | .block => do
    let snapshot ← Handshake.block world (control host) (host .callback)
    return .returned (← Handshake.finishBlock world (control host) snapshot)
  | .awaitNext => .returned <$> Handshake.awaitNext world (host .callback)
  | .waitPast snapshot => .returned <$> Handshake.waitPast world snapshot
  | .look => do return .returned (← Act.query world.get).generation

/-- Every call is its stretches, one after another. -/
theorem carryOut_body (call : Call) : carryOut world host call.body call.count = call.alone world host := by
  cases call with
  | stop => exact carryOut_stop world host
  | start => exact carryOut_start world host
  | leave => exact carryOut_leave world host
  | block => exact carryOut_block world host
  | awaitNext => exact carryOut_awaitNext world host
  | waitPast snapshot => exact carryOut_waitPast world host snapshot
  | look => exact carryOut_note world host [] 0

end Alone

/-- The coordinator, as a part of itself. -/
def whole : Place Coordinator Coordinator := ⟨id, fun c _ => c⟩

/-- A stretch that was carried out, with the coordinator as it was found and as it was left. -/
structure Deed where
  stretch : Stretch
  before : Coordinator
  after : Coordinator
  deriving DecidableEq

/-- A call of a thread: what is left of it, the count it holds, and what it did so far. -/
structure Frame where
  thread : ThreadId
  call : Call
  rest : List Stretch
  count : UInt64
  deeds : List Deed := []
  asleep : Bool := false
  outcome : Option Outcome := none
  deriving DecidableEq

namespace Frame

def begun (thread : ThreadId) (call : Call) : Frame :=
  { thread, call, rest := call.body, count := call.count }

def isOpen (f : Frame) : Bool := f.outcome.isNone

/-- Whether code of the host is running, which may make further calls. -/
def atHost (f : Frame) : Bool :=
  match f.rest with
  | .host _ :: _ => true
  | _ => false

/-- The frame after a stretch that leaves `rest` to be done. -/
def onward (f : Frame) (deed : Deed) (rest : List Stretch) (count : UInt64) : Frame :=
  { f with
    rest, count
    deeds := f.deeds ++ [deed]
    outcome := if rest = [] then some (.returned count) else none }

/-- The frame after a stretch that ends the call. -/
def quit (f : Frame) (deed : Deed) (outcome : Outcome) : Frame :=
  { f with
    rest := []
    deeds := f.deeds ++ [deed]
    outcome := some outcome }

/-- Carry out one stretch. A wait that is not over puts the thread to sleep. A check that
breaks, or a departure that is too early, leaves the call where it is. -/
def next (f : Frame) (world : Coordinator) : Option (Frame × Coordinator) :=
  match f.rest with
  | [] => none
  | stretch :: rest =>
    match (stretch.act whole f.count).run world with
    | (.ok (.on count), after) => some (f.onward ⟨stretch, world, after⟩ rest count, after)
    | (.ok (.off outcome), after) => some (f.quit ⟨stretch, world, after⟩ outcome, after)
    | (.error _, _) => if stretch = .wait then some ({ f with asleep := true }, world) else none

def roused (f : Frame) : Frame := { f with asleep := false }

end Frame

/-- A coordinator, and every call made on it, the latest first. -/
structure Crowd where
  world : Coordinator
  frames : List Frame := []
  deriving DecidableEq

inductive Move where
  /-- A thread begins a call, from outside or from code of the host. -/
  | call (thread : ThreadId) (call : Call)
  /-- A thread carries out the next stretch of its innermost call. -/
  | go (thread : ThreadId)
  /-- A thread wakes for no reason. -/
  | rouse (thread : ThreadId)
  deriving DecidableEq

namespace Crowd

/-- The innermost open call of a thread, with the calls made after and before it. -/
def pick (s : Crowd) (thread : ThreadId) : Option (List Frame × Frame × List Frame) :=
  let other (f : Frame) : Bool := !(f.thread = thread && f.isOpen)
  match s.frames.dropWhile other with
  | [] => none
  | f :: older => some (s.frames.takeWhile other, f, older)

def begin (s : Crowd) (thread : ThreadId) (call : Call) : Crowd :=
  { s with frames := .begun thread call :: s.frames }

def move (s : Crowd) : Move → Option Crowd
  | .call thread call =>
    match s.pick thread with
    | some (_, f, _) => if f.atHost then some (s.begin thread call) else none
    | none => some (s.begin thread call)
  | .go thread =>
    match s.pick thread with
    | none => none
    | some (newer, f, older) =>
      if f.asleep then none
      else (f.next s.world).map fun r =>
        let frames := newer ++ r.1 :: older
        ⟨r.2, if f.rest.head? = some .wake then frames.map Frame.roused else frames⟩
  | .rouse thread => (s.pick thread).map fun (newer, f, older) =>
      { s with frames := newer ++ f.roused :: older }

def run : List Move → Crowd → Option Crowd
  | [], s => some s
  | m :: rest, s => (s.move m).bind (run rest)

/-- What calls of any threads lead to, in any order, if none was under way when the coordinator
was `c`. -/
def Reachable (c : Coordinator) (s : Crowd) : Prop := ∃ moves, run moves ⟨c, []⟩ = some s

end Crowd

section Sections

variable (count : UInt64) (c : Coordinator)

theorem run_transition (target : WorldState) :
    (transition whole target).run c =
      if c.state.successor = target then (.ok (.ok ()), { c with state := target })
      else (.ok (.error (.illegalTransition c.state target)), c) := by
  by_cases h : c.state.successor = target <;> simp [transition, whole, Coordinator.advance, Act.run, h]

theorem act_transition (target : WorldState) :
    ((Stretch.transition target).act whole count).run c =
      if c.state.successor = target then (.ok (.on count), { c with state := target })
      else (.ok (.off (.refused (.illegalTransition c.state target))), c) := by
  rw [Stretch.act, Act.run_bind, run_transition]
  by_cases h : c.state.successor = target <;> simp [h]

theorem bump_eq :
    c.bump = if c.generation.toNat + 1 < wordLimit then
        .ok (c.generation + 1, { c with generation := c.generation + 1 })
      else .error .addOverflow := by
  by_cases h : c.generation.toNat + 1 < wordLimit <;>
    simp [Coordinator.bump, addChecked, h, bind, Except.bind, pure, Except.pure]

theorem act_bump :
    (Stretch.bump.act whole count).run c =
      if c.generation.toNat + 1 < wordLimit then
        (.ok (.on (c.generation + 1)), { c with generation := c.generation + 1 })
      else (.error (.panic .addOverflow), c) := by
  by_cases h : c.generation.toNat + 1 < wordLimit <;> simp [Stretch.act, whole, bump_eq, h, Except.map]

theorem act_wait :
    (Stretch.wait.act whole count).run c =
      if c.isPast count then (.ok (.on c.generation), c) else (.error .stuck, c) := by
  by_cases h : c.isPast count <;> simp [Stretch.act, waitPast, Act.run_bind, whole, h, Except.map]

theorem act_departNow :
    (Stretch.departNow.act whole count).run c =
      if c.state = .running then (.ok (.off (.returned count)), c) else (.ok (.on count), c) := by
  by_cases h : c.state = .running <;> simp [Stretch.act, Act.run_bind, whole, h]

theorem act_departLater :
    (Stretch.departLater.act whole count).run c =
      if c.state = .running then (.ok (.on count), c) else (.error .stuck, c) := by
  by_cases h : c.state = .running <;>
    simp [Stretch.act, Act.run_bind, whole, Coordinator.isStopped, h, Except.map]

end Sections

namespace Frame

/-- What one stretch can do to a call: put it to sleep, bring it on, or end it. -/
theorem next_cases {f f' : Frame} {c c' : Coordinator} (h : f.next c = some (f', c')) :
    (∃ rest, f.rest = .wait :: rest ∧ c.isPast f.count = false ∧ f' = { f with asleep := true } ∧ c' = c) ∨
    (∃ stretch rest count, f.rest = stretch :: rest ∧
      (stretch.act whole f.count).run c = (.ok (.on count), c') ∧
      f' = f.onward ⟨stretch, c, c'⟩ rest count) ∨
    (∃ stretch rest outcome, f.rest = stretch :: rest ∧
      (stretch.act whole f.count).run c = (.ok (.off outcome), c') ∧
      f' = f.quit ⟨stretch, c, c'⟩ outcome) := by
  unfold next at h
  split at h
  · cases h
  rename_i stretch rest hr
  split at h
  · rename_i count after ha
    cases h
    exact .inr (.inl ⟨stretch, rest, count, hr, ha, rfl⟩)
  · rename_i outcome after ha
    cases h
    exact .inr (.inr ⟨stretch, rest, outcome, hr, ha, rfl⟩)
  · rename_i fault after ha
    split at h
    · rename_i hw
      cases h
      subst hw
      refine .inl ⟨rest, hr, ?_, rfl, rfl⟩
      cases hp : c.isPast f.count with
      | false => rfl
      | true => simp [act_wait, hp] at ha
    · cases h

end Frame

namespace Crowd

theorem pick_eq {s : Crowd} {thread : ThreadId} {newer older : List Frame} {f : Frame}
    (h : s.pick thread = some (newer, f, older)) :
    s.frames = newer ++ f :: older ∧ f.thread = thread ∧ f.isOpen := by
  simp only [pick] at h
  split at h
  · cases h
  rename_i g rest hd
  cases h
  have hs := List.takeWhile_append_dropWhile (p := fun f : Frame => !(f.thread = thread && f.isOpen)) (l := s.frames)
  rw [hd] at hs
  have hg := List.head?_dropWhile_not (fun f : Frame => !(f.thread = thread && f.isOpen)) s.frames
  rw [hd] at hg
  exact ⟨hs.symm, by simpa using hg⟩

/-- What one move can do: begin a call, wake a thread for no reason, or carry out a stretch. -/
theorem move_cases {s s' : Crowd} {m : Move} (h : s.move m = some s') :
    (∃ thread call, s' = s.begin thread call) ∨
    (∃ newer f older, s.frames = newer ++ f :: older ∧ s' = ⟨s.world, newer ++ f.roused :: older⟩) ∨
    (∃ newer f older f' c', s.frames = newer ++ f :: older ∧ f.asleep = false ∧
      f.next s.world = some (f', c') ∧
      s' = ⟨c', if f.rest.head? = some .wake then (newer ++ f' :: older).map Frame.roused
        else newer ++ f' :: older⟩) := by
  cases m with
  | call thread call =>
    simp only [move] at h
    split at h
    · split at h
      · cases h
        exact .inl ⟨thread, call, rfl⟩
      · cases h
    · cases h
      exact .inl ⟨thread, call, rfl⟩
  | go thread =>
    simp only [move] at h
    split at h
    · cases h
    rename_i newer f older hp
    split at h
    · cases h
    rename_i ha
    obtain ⟨⟨f', c'⟩, hn, rfl⟩ := Option.map_eq_some_iff.1 h
    exact .inr (.inr ⟨newer, f, older, f', c', (pick_eq hp).1, by simpa using ha, hn, rfl⟩)
  | rouse thread =>
    obtain ⟨⟨newer, f, older⟩, hp, rfl⟩ := Option.map_eq_some_iff.1 h
    exact .inr (.inl ⟨newer, f, older, (pick_eq hp).1, rfl⟩)

/-- A property holds after a move if it is kept whenever a call is begun, wakes, falls asleep, goes on or is over, and
when all calls wake. -/
theorem move_keeps {P : Crowd → Prop} {s s' : Crowd} {m : Move} (h : s.move m = some s')
    (begin : ∀ thread call, P (s.begin thread call))
    (roused : ∀ newer f older, s.frames = newer ++ f :: older → P ⟨s.world, newer ++ f.roused :: older⟩)
    (asleep : ∀ newer f older rest, s.frames = newer ++ f :: older → f.rest = .wait :: rest →
      P ⟨s.world, newer ++ { f with asleep := true } :: older⟩)
    (onward : ∀ newer f older stretch rest count world, s.frames = newer ++ f :: older → f.asleep = false →
      f.rest = stretch :: rest → (stretch.act whole f.count).run s.world = (.ok (.on count), world) →
      P ⟨world, newer ++ f.onward ⟨stretch, s.world, world⟩ rest count :: older⟩)
    (quit : ∀ newer f older stretch rest outcome world, s.frames = newer ++ f :: older →
      f.rest = stretch :: rest → (stretch.act whole f.count).run s.world = (.ok (.off outcome), world) →
      P ⟨world, newer ++ f.quit ⟨stretch, s.world, world⟩ outcome :: older⟩)
    (rousedAll : ∀ world frames, P ⟨world, frames⟩ → P ⟨world, frames.map Frame.roused⟩) : P s' := by
  obtain ⟨thread, call, rfl⟩ | ⟨newer, f, older, hf, rfl⟩ | ⟨newer, f, older, f', c', hf, ha, hn, rfl⟩ := move_cases h
  · exact begin thread call
  · exact roused newer f older hf
  · suffices hcarried : P ⟨c', newer ++ f' :: older⟩ by
      split
      · exact rousedAll _ _ hcarried
      · exact hcarried
    obtain ⟨rest, hr, -, rfl, rfl⟩ | ⟨stretch, rest, count, hr, hact, rfl⟩ | ⟨stretch, rest, outcome, hr, hact, rfl⟩ :=
      Frame.next_cases hn
    · exact asleep newer f older rest hf hr
    · exact onward newer f older stretch rest count c' hf ha hr hact
    · exact quit newer f older stretch rest outcome c' hf hr hact

/-- What holds with no call under way and is kept by every move holds wherever calls lead. -/
theorem Reachable.induct {P : Crowd → Prop} {c : Coordinator} (start : P ⟨c, []⟩)
    (keep : ∀ s s' m, P s → s.move m = some s' → P s') {s : Crowd} (h : Reachable c s) : P s := by
  obtain ⟨moves, hm⟩ := h
  suffices hrun : ∀ moves s₀, P s₀ → ∀ s, run moves s₀ = some s → P s from hrun moves _ start s hm
  intro moves
  induction moves with
  | nil =>
    intro s₀ h₀ s hs
    cases hs
    exact h₀
  | cons m rest ih =>
    intro s₀ h₀ s hs
    obtain ⟨s₁, hm, hr⟩ := Option.bind_eq_some_iff.1 hs
    exact ih s₁ (keep s₀ s₁ m h₀ hm) s hr

end Crowd

end Safepoint.Handshake
