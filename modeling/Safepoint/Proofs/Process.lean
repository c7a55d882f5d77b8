import Mathlib.Data.List.Induction
import Safepoint.Process
import Safepoint.Proofs.Binding.RootSplits

/-!
# What calls install in a process

A process takes its codec and its binding once each. A binding that needs a codec brings its own; where another codec
was installed first, that one stays, and the call that made the binding fails with the binding installed.
-/
namespace Safepoint.Process

variable {μ ε : Type}

/-- A call that may install something. -/
inductive Install (μ ε : Type) where
  | pick (codec : PointerCodec)
  | start (supply : Supply μ ε) (options : Options) (layout : Layout) (host : Host ε)

namespace Install

def act : Install μ ε → Act (Process μ ε) (Except Error Unit)
  | .pick codec => installCodec codec
  | .start supply options layout host => do
    let started ← Process.start supply options layout host
    return started.map fun _ => ()

/-- The codec that the call installs by itself, if it does. -/
def codec? : Install μ ε → Option PointerCodec
  | .pick codec => some codec
  | .start .. => none

end Install

/-- A process in which nothing was installed, after some calls. -/
def after (state : Binding.State μ ε) (calls : List (Install μ ε)) : Process μ ε :=
  calls.foldl (fun p call => (call.act.run p).2) { state }

/-- The codec that the calls before a binding was made leave in the process. -/
def picked (calls : List (Install μ ε)) : Option PointerCodec := calls.findSome? Install.codec?

theorem after_concat (state : Binding.State μ ε) (calls : List (Install μ ε)) (call : Install μ ε) :
    after state (calls ++ [call]) = (call.act.run (after state calls)).2 := by
  simp [after]

theorem picked_concat (calls : List (Install μ ε)) (call : Install μ ε) :
    picked (calls ++ [call]) = (picked calls).or call.codec? := by
  simp [picked, List.findSome?_append]

variable {p p' : Process μ ε} {codec : PointerCodec} {supply : Supply μ ε} {options : Options} {layout : Layout}
  {host : Host ε} {b : Binding μ ε} {e : Error}

/-- The first codec stays. -/
theorem run_installCodec (codec : PointerCodec) (p : Process μ ε) : (installCodec codec).run p =
    (.ok (if p.codec?.isSome then .error .alreadyInstalled else .ok ()),
      { p with codec? := p.codec?.or (some codec) }) := by
  obtain ⟨binding?, _ | installed, state⟩ := p <;> rfl

theorem options_of_ofCodec {engine : Engine μ ε} (h : Binding.ofCodec options layout host engine codec = .ok b) :
    b.options = options := by
  unfold Binding.ofCodec at h
  cases hvalid : options.validate with
  | error fault =>
    rw [hvalid] at h
    cases h
  | ok _ =>
    rw [hvalid] at h
    cases h
    rfl

theorem options_of_prepare (h : prepare supply options layout host = .ok b) : b.options = options := by
  obtain ⟨-, -, h⟩ := except_bind_eq_ok.1 h
  split at h
  · cases h
  · unfold Binding.make at h
    split at h
    · split at h
      · exact options_of_ofCodec h
      · cases h
    · exact options_of_ofCodec h

theorem run_start_of_installed (h : p.isInstalled) :
    (start supply options layout host).run p = (.ok (.error .alreadyInstalled), p) := by
  unfold start
  rw [Act.run_bind_ok (Act.run_get p), if_pos h]
  rfl

theorem run_start_of_unprepared (hnone : p.isInstalled = false) (h : prepare supply options layout host = .error e) :
    (start supply options layout host).run p = (.ok (.error e), p) := by
  unfold start
  rw [Act.run_bind_ok (Act.run_get p)]
  simp [hnone, h]

/-- What is left of a start once the codec is settled. -/
def finish (b : Binding μ ε) : Act (Process μ ε) (Except Error (Binding μ ε)) := do
  Act.within statePlace (startWorker b)
  return .ok b

theorem run_start_of_prepared (hnone : p.isInstalled = false)
    (h : prepare supply options layout host = .ok b) :
    (start supply options layout host).run p =
      if options.compressedPointers then
        if p.codec?.isSome then (.ok (.error .alreadyInstalled), { p with binding? := some b })
        else (finish b).run { p with binding? := some b, codec? := some b.codec }
      else (finish b).run { p with binding? := some b } := by
  unfold start
  rw [Act.run_bind_ok (Act.run_get p)]
  simp only [hnone, Bool.false_eq_true, if_false, h]
  rw [Act.run_bind_ok (Act.run_modify _ p)]
  split
  · rw [Act.run_bind_ok (run_installCodec _ _)]
    cases hcodec : p.codec? <;> simp [finish]
  · rw [Act.run_bind_ok (Act.run_pure _ _)]
    simp [finish]

theorem finish_spec (b : Binding μ ε) (p : Process μ ε) : (∃ state, ((finish b).run p).2 = { p with state }) ∧
    ∀ e, ((finish b).run p).1 ≠ .ok (.error e) := by
  unfold finish
  rw [Act.run_bind, Act.run_within]
  rcases (startWorker b).run (statePlace.get p) with ⟨cause | ⟨⟩, state⟩
  · exact ⟨⟨state, rfl⟩, by simp⟩
  · exact ⟨⟨state, rfl⟩, by simp⟩

/-- A start that makes a binding installs it, whatever else comes of it, with a codec if it needs one. -/
theorem start_spec (hnone : p.isInstalled = false) (h : prepare supply options layout host = .ok b) :
    ((start supply options layout host).run p).2.binding? = some b ∧
      ((start supply options layout host).run p).2.codec? =
        if options.compressedPointers then p.codec?.or (some b.codec) else p.codec? := by
  rw [run_start_of_prepared hnone h]
  by_cases hcompressed : options.compressedPointers
  · cases hcodec : p.codec? with
    | some installed => simp [hcompressed]
    | none =>
      obtain ⟨⟨state, hstate⟩, -⟩ := finish_spec b { p with binding? := some b, codec? := some b.codec }
      simp [hcompressed, hstate]
  · obtain ⟨⟨state, hstate⟩, -⟩ := finish_spec b { p with binding? := some b }
    simp [hcompressed, hstate]

theorem failed_eq_iff {α : Type} {cause : Error} :
    ((.ok (.error cause), p) : Except Fault (Except Error α) × Process μ ε) = (.ok (.error e), p') ↔
      p' = p ∧ e = cause := by
  rw [Prod.mk.injEq, Except.ok.injEq, Except.error.injEq, and_comm, eq_comm, @eq_comm _ cause]

/-- The starts that fail: there is a binding, or none can be made, or it needs a codec and there is one. -/
theorem start_fails_iff : (start supply options layout host).run p = (.ok (.error e), p') ↔
    p' = p ∧ (p.isInstalled ∧ e = .alreadyInstalled ∨
      p.isInstalled = false ∧ prepare supply options layout host = .error e) ∨
    p.isInstalled = false ∧ ∃ b, prepare supply options layout host = .ok b ∧ options.compressedPointers ∧
      p.codec?.isSome ∧ e = .alreadyInstalled ∧ p' = { p with binding? := some b } := by
  cases hinstalled : p.isInstalled with
  | true =>
    rw [run_start_of_installed hinstalled, failed_eq_iff]
    simp
  | false =>
    cases hprepare : prepare supply options layout host with
    | error cause =>
      rw [run_start_of_unprepared hinstalled hprepare, failed_eq_iff, @eq_comm _ e]
      simp
    | ok b =>
      rw [run_start_of_prepared hinstalled hprepare]
      have hfinish (q : Process μ ε) : (finish b).run q ≠ (.ok (.error e), p') := fun hrun =>
        (finish_spec b q).2 e (congrArg Prod.fst hrun)
      by_cases hcompressed : options.compressedPointers
      · cases hcodec : p.codec? <;> simp [hcompressed, hfinish, failed_eq_iff, and_comm, -Prod.mk.injEq]
      · simp [hcompressed, hfinish]

/-- What calls have left installed: as long as there is no binding, the codec that was picked; then the binding that
the first successful call made, with the codec that was picked before, or its own if it needs one. -/
structure Installed (state : Binding.State μ ε) (calls : List (Install μ ε)) (p : Process μ ε) : Prop where
  alone : p.binding? = none → p.codec? = picked calls
  bound : ∀ b, p.binding? = some b → b.options.compressedPointers → ∃ earlier call later,
    calls = earlier ++ call :: later ∧ (after state earlier).binding? = none ∧
      (after state (earlier ++ [call])).binding? = some b ∧ p.codec? = some ((picked earlier).getD b.codec)

namespace Installed

variable {state : Binding.State μ ε} {calls : List (Install μ ε)} {call : Install μ ε}

/-- A call that installs no binding and replaces no codec. -/
theorem keep (h : Installed state calls p) (hbinding : p'.binding? = p.binding?)
    (hcodec : p'.codec? = p.codec?.or call.codec?) : Installed state (calls ++ [call]) p' where
  alone hnone := by rw [hcodec, h.alone (hbinding ▸ hnone), picked_concat]
  bound b hb hcompressed := by
    obtain ⟨earlier, made, later, hcalls, hnone, hmade, hpicked⟩ := h.bound b (hbinding ▸ hb) hcompressed
    refine ⟨earlier, made, later ++ [call], by simp [hcalls], hnone, hmade, ?_⟩
    rw [hcodec, hpicked, Option.some_or]

theorem pick (h : Installed state calls p) (codec : PointerCodec) :
    Installed state (calls ++ [.pick codec]) ((installCodec codec).run p).2 := by
  rw [run_installCodec]
  exact h.keep rfl rfl

theorem start (h : Installed state calls (after state calls)) (supply : Supply μ ε) (options : Options)
    (layout : Layout) (host : Host ε) : Installed state (calls ++ [.start supply options layout host])
      (((Install.start supply options layout host).act).run (after state calls)).2 := by
  have hact : ((Install.start supply options layout host).act.run (after state calls)).2 =
      ((Process.start supply options layout host).run (after state calls)).2 := by
    rw [Install.act, Act.run_bind]
    rcases (Process.start supply options layout host).run (after state calls) with ⟨_ | _, _⟩ <;> rfl
  have hrefused {outcome : Except Fault (Except Error (Binding μ ε))}
      (hrun : (Process.start supply options layout host).run (after state calls) = (outcome, after state calls)) :
      Installed state (calls ++ [.start supply options layout host])
        ((Install.start supply options layout host).act.run (after state calls)).2 := by
    rw [hact, hrun]
    exact h.keep rfl (by simp [Install.codec?])
  cases hinstalled : (after state calls).isInstalled with
  | true => exact hrefused (run_start_of_installed hinstalled)
  | false =>
    cases hprepare : prepare supply options layout host with
    | error e => exact hrefused (run_start_of_unprepared hinstalled hprepare)
    | ok b =>
      have hnone : (after state calls).binding? = none := by simpa [isInstalled] using hinstalled
      obtain ⟨hmade, hcodec⟩ := start_spec hinstalled hprepare
      refine ⟨fun hgone => ?_, fun b' hb hcompressed => ?_⟩
      · rw [hact, hmade] at hgone
        cases hgone
      · rw [hact, hmade] at hb
        cases hb
        rw [options_of_prepare hprepare] at hcompressed
        refine ⟨calls, _, [], rfl, hnone, ?_, ?_⟩
        · rw [after_concat, hact, hmade]
        · rw [hact, hcodec, if_pos hcompressed, h.alone hnone]
          cases picked calls <;> rfl

theorem after_all (state : Binding.State μ ε) (calls : List (Install μ ε)) :
    Installed state calls (after state calls) := by
  induction calls using List.reverseRecOn with
  | nil => exact ⟨fun _ => rfl, by simp [after]⟩
  | append_singleton calls call ih =>
    rw [after_concat]
    cases call with
    | pick codec => exact ih.pick codec
    | start supply options layout host => exact ih.start supply options layout host

end Installed

/-- A start that fails leaves the process as it was, but for one case: there was no binding, one was made that needs a
codec, and a codec was picked before. Then the start fails as if there were a binding, and leaves the one it made. A
binding that needs a codec finds its own in the process, unless one was picked before it was made: then the first of
those stays. -/
theorem what_is_installed (state : Binding.State μ ε) (calls : List (Install μ ε)) :
    (∀ supply options layout host e p', let p := after state calls
      (start supply options layout host).run p = (.ok (.error e), p') ↔
        p' = p ∧ (p.isInstalled ∧ e = .alreadyInstalled ∨
          p.isInstalled = false ∧ prepare supply options layout host = .error e) ∨
        p.isInstalled = false ∧ ∃ b, prepare supply options layout host = .ok b ∧ options.compressedPointers ∧
          (picked calls).isSome ∧ e = .alreadyInstalled ∧ p' = { p with binding? := some b }) ∧
    ∀ b, (after state calls).binding? = some b → b.options.compressedPointers → ∃ earlier call later,
      calls = earlier ++ call :: later ∧ (after state earlier).isInstalled = false ∧
        (after state (earlier ++ [call])).binding? = some b ∧
        (after state calls).codec = (picked earlier).getD b.codec := by
  have hall := Installed.after_all state calls
  constructor
  · intro supply options layout host e p' p
    rw [start_fails_iff]
    refine or_congr_right (and_congr_right fun hnone => ?_)
    rw [hall.alone (by simpa [isInstalled] using hnone)]
  · intro b hb hcompressed
    obtain ⟨earlier, call, later, hcalls, hnone, hmade, hcodec⟩ := hall.bound b hb hcompressed
    refine ⟨earlier, call, later, hcalls, by simp [isInstalled, hnone], hmade, ?_⟩
    rw [Process.codec, hcodec, Option.getD_some]

section

open Binding (twoThreads)

/-- A collector that takes all options, with a heap whose references are narrow as they are. -/
def lowHeap : Supply Unit Unit where
  accepts _ _ := true
  engine _ := { (twoThreads.binding {}).engine with heapRange := some (0x10000000, 0x20000000) }

/-- What it is bound to where references are narrow. -/
def lowBinding : Binding Unit Unit :=
  { twoThreads.binding { compressedPointers := true } with engine := lowHeap.engine {} }

theorem prepare_lowHeap : prepare lowHeap { compressedPointers := true } lowBinding.layout lowBinding.host =
    .ok lowBinding := rfl

/-- The call that binds to it. -/
def startLow : Install Unit Unit :=
  .start lowHeap { compressedPointers := true } lowBinding.layout lowBinding.host

/-- A codec was picked before: the start fails, leaves the binding, and the process keeps the codec. -/
theorem start_after_pick : let state : Binding.State Unit Unit := { machine := ⟨.zero, ()⟩ }
    let p := after state [.pick ⟨0, 3⟩]
    (start lowHeap { compressedPointers := true } lowBinding.layout lowBinding.host).run p =
        (.ok (.error .alreadyInstalled), { p with binding? := some lowBinding }) ∧
      ∃ earlier call later, [.pick ⟨0, 3⟩, startLow] = earlier ++ call :: later ∧
        (after state earlier).isInstalled = false ∧
        (after state (earlier ++ [call])).binding? = some lowBinding ∧
        (after state [.pick ⟨0, 3⟩, startLow]).codec = (picked earlier).getD lowBinding.codec := by
  intro state p
  have hfails := (what_is_installed state [.pick ⟨0, 3⟩]).1 lowHeap { compressedPointers := true } lowBinding.layout
    lowBinding.host .alreadyInstalled { p with binding? := some lowBinding }
  have hcodec := (what_is_installed state [.pick ⟨0, 3⟩, startLow]).2 lowBinding rfl rfl
  exact ⟨hfails.2 (.inr ⟨rfl, lowBinding, prepare_lowHeap, rfl, rfl, rfl, rfl⟩), hcodec⟩

/-- So a start that fails installs a binding, and the process has not the codec of the binding it has. -/
theorem binding_of_failed_start : let state : Binding.State Unit Unit := { machine := ⟨.zero, ()⟩ }
    let p := after state [.pick ⟨0, 3⟩]
    let r := (start lowHeap { compressedPointers := true } lowBinding.layout lowBinding.host).run p
    p.isInstalled = false ∧ r.1 = .ok (.error .alreadyInstalled) ∧ r.2.isInstalled = true ∧
      r.2.binding? = some lowBinding ∧ lowBinding.options.compressedPointers = true ∧ r.2.codec ≠ lowBinding.codec := by
  intro state p r
  exact ⟨rfl, rfl, rfl, rfl, rfl, by decide⟩

end

end Safepoint.Process
