import Safepoint.Proofs.Binding.CodeClaims
import Safepoint.Proofs.Binding.Journal

/-!
# What is fixed up after a cycle

Where objects may move, the code that was claimed in a cycle is fixed up before the mutators go on. A blob is, if a scan
claimed it and it is still known as it was then. It is not known any more if it was forgotten, or if a scan of the code
table has faulted that had taken it out of the nursery.
-/
namespace Safepoint

/-- What happens between a stop of the mutators and their release. -/
inductive CycleCall where
  | threads {τ : Type} (sink : Sink τ) (start : τ) (selector : Binding.ThreadSelector)
  | scan {τ : Type} (sink : Sink τ) (start : τ) (category : RootCategory)
  | register (code : CodeId) (slots : List Slot)
  | unregister (code : CodeId)

namespace CycleCall

variable {μ ε : Type}

/-- What a call leaves, also where it faults. -/
def after (b : Binding μ ε) (s : Binding.State μ ε) : CycleCall → Binding.State μ ε
  | threads sink start selector => ((b.scanThreads sink selector).run (s, start)).2.1
  | scan sink start category => ((b.scan sink category).run (s, start)).2.1
  | register code slots => { s with codeTable := s.codeTable.register code slots }
  | unregister code => { s with codeTable := (s.codeTable.unregister code).2 }

def IsScan : CycleCall → Prop
  | threads .. | scan .. => True
  | register .. | unregister .. => False

/-- The blob is registered anew, or forgotten. -/
def Renews (code : CodeId) : CycleCall → Prop
  | register other _ | unregister other => other = code
  | threads .. | scan .. => False

/-- A scan claims the blob, which nobody has claimed before it in this cycle. -/
def Claims (b : Binding μ ε) (code : CodeId) (s : Binding.State μ ε) (call : CycleCall) : Prop :=
  call.IsScan ∧ s.codeTable.IsFree code ∧ (call.after b s).codeTable.IsClaimed code

/-- A scan of the code table takes the blob out of the nursery, and faults. -/
def Loses (b : Binding μ ε) (code : CodeId) (s : Binding.State μ ε) : CycleCall → Prop
  | scan sink start .codeCache =>
    sink.HasRoom start ∧ (b.scan sink .codeCache).faultOf (s, start) ≠ none ∧ code ∈ s.codeTable.nursery
  | _ => False

end CycleCall

namespace Binding

variable {μ ε τ : Type} {b : Binding μ ε} {s₀ s s' : State μ ε} {code : CodeId}

/-- What calls leave one after another. -/
def inCycle (b : Binding μ ε) (s : State μ ε) (calls : List CycleCall) : State μ ε :=
  calls.foldl (CycleCall.after b) s

theorem inCycle_concat (calls : List CycleCall) (call : CycleCall) :
    b.inCycle s (calls ++ [call]) = call.after b (b.inCycle s calls) := List.foldl_concat ..

/-- There was a call with `P`, and none with `Q` after it. -/
def Since (b : Binding μ ε) (P : State μ ε → CycleCall → Prop) (Q : CycleCall → Prop) (s : State μ ε)
    (calls : List CycleCall) : Prop :=
  ∃ earlier call later, calls = earlier ++ call :: later ∧ P (b.inCycle s earlier) call ∧ ∀ other ∈ later, ¬Q other

theorem not_since_nil {P : State μ ε → CycleCall → Prop} {Q : CycleCall → Prop} : ¬b.Since P Q s [] :=
  Safepoint.not_since_nil

theorem since_concat {P : State μ ε → CycleCall → Prop} {Q : CycleCall → Prop} {calls : List CycleCall}
    {last : CycleCall} :
    b.Since P Q s (calls ++ [last]) ↔ P (b.inCycle s calls) last ∨ b.Since P Q s calls ∧ ¬Q last :=
  Safepoint.since_concat (P := fun earlier => P (b.inCycle s earlier))

/-- A scan of this cycle has claimed the blob as it is registered. -/
def ClaimedIn (b : Binding μ ε) (s : State μ ε) (calls : List CycleCall) (code : CodeId) : Prop :=
  b.Since (CycleCall.Claims b code) (CycleCall.Renews code) s calls

/-- A scan of this cycle has lost the blob as it is registered. -/
def LostIn (b : Binding μ ε) (s : State μ ε) (calls : List CycleCall) (code : CodeId) : Prop :=
  b.Since (CycleCall.Loses b code) (CycleCall.Renews code) s calls

theorem claimedIn_concat (calls : List CycleCall) (last : CycleCall) : b.ClaimedIn s (calls ++ [last]) code ↔
    last.Claims b code (b.inCycle s calls) ∨ b.ClaimedIn s calls code ∧ ¬last.Renews code := since_concat

theorem lostIn_concat (calls : List CycleCall) (last : CycleCall) : b.LostIn s (calls ++ [last]) code ↔
    last.Loses b code (b.inCycle s calls) ∨ b.LostIn s calls code ∧ ¬last.Renews code := since_concat

/-- What the calls of a cycle leave alone. -/
structure Aside (journal : ε → List HostEntry) (s s' : State μ ε) : Prop where
  registry : s'.registry = s.registry
  world : s'.world = s.world
  journal : journal s'.machine.env = journal s.machine.env

theorem Aside.trans {journal : ε → List HostEntry} {s₁ s₂ s₃ : State μ ε} (h : Aside journal s₁ s₂)
    (h' : Aside journal s₂ s₃) : Aside journal s₁ s₃ :=
  ⟨h'.registry.trans h.registry, h'.world.trans h.world, h'.journal.trans h.journal⟩

theorem scanSteps_aside {journal : ε → List HostEntry} (hjournal : b.host.Journals journal) :
    b.ScanSteps (Aside journal) where
  refl _ := ⟨rfl, rfl, rfl⟩
  trans _ _ _ := .trans
  walks :=
    { stack := fun id s => ⟨rfl, rfl, hjournal.walks.stack id s.machine⟩
      code := fun id s => ⟨rfl, rfl, hjournal.walks.code id s.machine⟩
      globals := fun table s => ⟨rfl, rfl, hjournal.walks.globals table s.machine⟩
      strings := fun filter s => ⟨rfl, rfl, hjournal.walks.strings filter s.machine⟩
      loaders := fun policy s => ⟨rfl, rfl, hjournal.walks.loaders policy s.machine⟩
      weak := fun filter s => ⟨rfl, rfl, hjournal.walks.weak filter s.machine⟩ }
  code _ _ := ⟨rfl, rfl, rfl⟩
  nursery _ := ⟨rfl, rfl, rfl⟩

theorem aside_after {journal : ε → List HostEntry} (hjournal : b.host.Journals journal) (s : State μ ε)
    (call : CycleCall) : Aside journal s (call.after b s) := by
  cases call with
  | threads sink start selector => exact (scanSteps_aside hjournal).claims.scanThreads selector (s, start)
  | scan sink start category => exact (scanSteps_aside hjournal).scan category (s, start)
  | register code slots => exact ⟨rfl, rfl, rfl⟩
  | unregister code => exact ⟨rfl, rfl, rfl⟩

theorem aside_inCycle {journal : ε → List HostEntry} (hjournal : b.host.Journals journal) (s : State μ ε)
    (calls : List CycleCall) : Aside journal s (b.inCycle s calls) := by
  induction calls using List.reverseRecOn with
  | nil => exact ⟨rfl, rfl, rfl⟩
  | append_singleton calls call ih =>
    rw [inCycle_concat]
    exact ih.trans (aside_after hjournal _ call)

/-- A scan of threads that returns has claimed, of what was free, what has frames on their stacks. -/
theorem claims_threads_iff {codes : MutatorId → List CodeId} (hcodes : b.host.FindsCode codes) {sink : Sink τ}
    {start t' : τ} {selector : ThreadSelector} {n : Nat}
    (hrun : (b.scanThreads sink selector).run (s, start) = (.ok (.ok n), s', t')) :
    (CycleCall.threads sink start selector).Claims b code s ↔
      s.codeTable.IsFree code ∧ ∃ id ∈ selector.ids s.registry, code ∈ codes id := by
  have hreaches := reaches_of_scanThreads hcodes hrun
  have hafter : (CycleCall.threads sink start selector).after b s = s' := by rw [CycleCall.after, hrun]
  rw [CycleCall.Claims, hafter]
  exact (and_iff_right trivial).trans (and_congr_right hreaches.isClaimed_iff)

/-- A scan of the code table that returns has claimed whatever was free. -/
theorem claims_scanCode_iff (hsound : s.codeTable.Sound) {sink : Sink τ} {start : τ}
    (hreturns : (b.scan sink .codeCache).faultOf (s, start) = none) :
    (CycleCall.scan sink start .codeCache).Claims b code s ↔ s.codeTable.IsFree code := by
  have hreaches := reaches_of_scanCode hsound hreturns
  refine (and_iff_right trivial).trans (and_iff_left_of_imp fun hfree => ?_)
  exact (hreaches.isClaimed_iff hfree).2 trivial

/-- What one call does to the claims of a cycle, and to the blobs that are known. -/
structure Onward (b : Binding μ ε) (s : State μ ε) (call : CycleCall) : Prop where
  sound : (call.after b s).codeTable.Sound
  epoch : (call.after b s).codeTable.epoch = s.codeTable.epoch
  claimed : ∀ code, (call.after b s).codeTable.IsClaimed code ↔
    call.Claims b code s ∨ s.codeTable.IsClaimed code ∧ ¬call.Renews code ∧ ¬call.Loses b code s
  lost : ∀ code, call.Loses b code s → (call.after b s).codeTable.lookup code = none
  unknown : ∀ code, s.codeTable.lookup code = none → ¬call.Renews code → (call.after b s).codeTable.lookup code = none

theorem not_renews_of_scan {call : CycleCall} (hscan : call.IsScan) : ¬call.Renews code := by
  cases call <;> simp_all [CycleCall.IsScan, CycleCall.Renews]

/-- A scan loses blobs, or claims some. -/
theorem onward_of_scan {call : CycleCall} (hscan : call.IsScan) (hsound : (call.after b s).codeTable.Sound)
    (hepoch : (call.after b s).codeTable.epoch = s.codeTable.epoch)
    (hlost : ∀ code, call.Loses b code s → (call.after b s).codeTable.lookup code = none)
    (hkept : ∀ code, ¬call.Loses b code s → s.codeTable.AdvancesAt (call.after b s).codeTable code) :
    b.Onward s call where
  sound := hsound
  epoch := hepoch
  claimed code := by
    by_cases hloses : call.Loses b code s
    · have hnot : ¬(call.after b s).codeTable.IsClaimed code := by simp [CodeTable.IsClaimed, hlost code hloses]
      simp [hnot, hloses, CycleCall.Claims]
    · rw [(hkept code hloses).isClaimed_iff hepoch, or_comm]
      simp [hloses, hscan, not_renews_of_scan hscan, CycleCall.Claims]
  lost := hlost
  unknown code hnone _ := by
    by_cases hloses : call.Loses b code s
    · exact hlost code hloses
    · exact (hkept code hloses).lookup_eq_none hnone

theorem onward_of_scanCode (hsound : s.codeTable.Sound) (sink : Sink τ) (start : τ) :
    b.Onward s (.scan sink start .codeCache) := by
  have hafter : ((b.scan sink .codeCache).run (s, start)).2.1.codeTable.Sound := moves_sound sink _ (s, start) hsound
  by_cases hfaults : sink.HasRoom start ∧ (b.scan sink .codeCache).faultOf (s, start) ≠ none
  · have hscanning := scanning_of_scanCode hfaults.1 hfaults.2
    refine onward_of_scan trivial hafter hscanning.epoch (fun code hloses => ?_) fun code hloses => ?_
    · have hentry := hscanning.lost hsound code
      rwa [if_pos hloses.2.2] at hentry
    · have hentry := hscanning.lost hsound code
      rwa [if_neg fun hnursery => hloses ⟨hfaults.1, hfaults.2, hnursery⟩] at hentry
  · have hadvances := advances_of_scanCode (b := b) hsound sink start fun hroom => by
      by_contra hfault
      exact hfaults ⟨hroom, hfault⟩
    exact onward_of_scan trivial hafter hadvances.epoch (fun code hloses => absurd ⟨hloses.1, hloses.2.1⟩ hfaults)
      fun code _ => hadvances.lookup code

/-- An edit of the table claims nothing and loses nothing. -/
theorem onward_of_edit {call : CycleCall} (hedit : ¬call.IsScan) (hsound : (call.after b s).codeTable.Sound)
    (hepoch : (call.after b s).codeTable.epoch = s.codeTable.epoch)
    (hclaimed : ∀ code, (call.after b s).codeTable.IsClaimed code ↔ s.codeTable.IsClaimed code ∧ ¬call.Renews code)
    (hunknown : ∀ code, s.codeTable.lookup code = none → ¬call.Renews code →
      (call.after b s).codeTable.lookup code = none) : b.Onward s call := by
  have hloses (code : CodeId) : ¬call.Loses b code s := by
    cases call <;> first | exact id | exact absurd trivial hedit
  exact ⟨hsound, hepoch, fun code => by simp [hclaimed code, CycleCall.Claims, hedit, hloses],
    fun code h => absurd h (hloses code), hunknown⟩

theorem onward (hsound : s.codeTable.Sound) (hepoch : s.codeTable.epoch ≠ 0) (call : CycleCall) :
    b.Onward s call := by
  cases call with
  | threads sink start selector =>
    have hadvances := advances_of_scanThreads (b := b) hsound sink start selector
    exact onward_of_scan trivial hadvances.1 hadvances.2.epoch (fun _ h => h.elim) fun code _ => hadvances.2.lookup code
  | scan sink start category =>
    by_cases hcategory : category = .codeCache
    · subst hcategory
      exact onward_of_scanCode hsound sink start
    · have hadvances := advances_of_scan (b := b) hsound sink start hcategory
      refine onward_of_scan trivial hadvances.1 hadvances.2.epoch (fun code hloses => ?_) fun code _ =>
        hadvances.2.lookup code
      cases category <;> first | exact hloses.elim | exact absurd rfl hcategory
  | register other slots =>
    exact onward_of_edit id (hsound.register other slots) rfl
      (fun code => CodeTable.isClaimed_register hepoch other slots code)
      fun code hnone hrenews => (CodeTable.lookup_register ..).trans ((if_neg hrenews).trans hnone)
  | unregister other =>
    exact onward_of_edit id (hsound.unregister other) rfl
      (fun code => CodeTable.isClaimed_unregister s.codeTable other code)
      fun code hnone hrenews => (CodeTable.lookup_unregister ..).trans ((if_neg hrenews).trans hnone)

/-- What the calls of a cycle do to its claims. -/
structure Run (b : Binding μ ε) (s : State μ ε) (calls : List CycleCall) : Prop where
  sound : (b.inCycle s calls).codeTable.Sound
  epoch : (b.inCycle s calls).codeTable.epoch = s.codeTable.epoch
  claimed : ∀ code, (b.inCycle s calls).codeTable.IsClaimed code ↔
    b.ClaimedIn s calls code ∧ ¬b.LostIn s calls code
  lost : ∀ code, b.LostIn s calls code → (b.inCycle s calls).codeTable.lookup code = none

theorem run_calls (hsound : s.codeTable.Sound) (hepoch : s.codeTable.epoch ≠ 0)
    (hbegun : ∀ code, ¬s.codeTable.IsClaimed code) (calls : List CycleCall) : b.Run s calls := by
  induction calls using List.reverseRecOn with
  | nil => exact ⟨hsound, rfl, fun code => iff_of_false (hbegun code) fun h => not_since_nil h.1,
      fun _ h => absurd h not_since_nil⟩
  | append_singleton calls call ih =>
    have honward : b.Onward (b.inCycle s calls) call := onward ih.sound (ih.epoch ▸ hepoch) call
    constructor
    · exact inCycle_concat calls call ▸ honward.sound
    · exact inCycle_concat calls call ▸ honward.epoch.trans ih.epoch
    · intro code
      have hfresh : call.Claims b code (b.inCycle s calls) →
          ¬call.Loses b code (b.inCycle s calls) ∧ ¬b.LostIn s calls code := by
        rintro ⟨-, ⟨entry, hentry, -⟩, ⟨left, hleft, -⟩⟩
        exact ⟨fun h => by simp [honward.lost code h] at hleft, fun h => by simp [ih.lost code h] at hentry⟩
      rw [inCycle_concat, honward.claimed, ih.claimed, claimedIn_concat, lostIn_concat]
      tauto
    · intro code hlost
      rw [inCycle_concat]
      obtain hloses | ⟨hlost, hrenews⟩ := (lostIn_concat ..).1 hlost
      · exact honward.lost code hloses
      · exact honward.unknown code (ih.lost code hlost) hrenews

/-- What a scan of this cycle has claimed is known as long as it is not lost. -/
theorem Run.known_iff {calls : List CycleCall} (run : b.Run s calls) (hclaimed : b.ClaimedIn s calls code) :
    ((b.inCycle s calls).codeTable.lookup code).isSome ↔ ¬b.LostIn s calls code := by
  constructor
  · intro hknown hlost
    rw [run.lost code hlost] at hknown
    cases hknown
  · intro hkept
    obtain ⟨entry, hentry, -⟩ := (run.claimed code).2 ⟨hclaimed, hkept⟩
    rw [hentry]
    rfl

/-- Between a stop and the release after it, whatever scans and edits of the code table there are: the release fixes up
once each, in ascending order, the blobs that are known and that a scan of this cycle has claimed as they are
registered. It does so after the mutators were suspended, while the cycle is not counted yet, before the rest of the
bookkeeping, and before it releases them. Where code is not relocated there are none. Of the blobs claimed, those are
not known any more that a scan of the code table has lost. -/
theorem fixups_of_cycle {journal : ε → List HostEntry} (reached : s₀.Reached) (hjournal : b.host.Journals journal)
    {me : ThreadId} {unload : Bool} {mutators : List Mutator}
    (stopped : (b.stopAllMutators me unload).run s₀ = (.ok mutators, s)) (calls : List CycleCall) (you : ThreadId) :
    ∃ fixups : List CodeId, fixups.Pairwise (·.value < ·.value) ∧
      (∀ code, code ∈ fixups ↔ b.options.relocateCode ∧ b.ClaimedIn s calls code ∧
        ((b.inCycle s calls).codeTable.lookup code).isSome) ∧
      (∀ code, b.ClaimedIn s calls code →
        (((b.inCycle s calls).codeTable.lookup code).isSome ↔ ¬b.LostIn s calls code)) ∧
      journal s.machine.env = journal s₀.machine.env ++ stopEntries unload s₀.world.generation ∧
      journal (b.inCycle s calls).machine.env = journal s.machine.env ∧
      Act.Logs (fun s => journal s.machine.env) (b.resumeMutators you) (b.inCycle s calls)
        (resumeEntries fixups s₀.world.generation) ∧
      ∀ kind, s₀.registry.requireCollector you = .ok kind → s₀.world.generation.toNat + 1 < wordLimit →
        (b.host.Releases fun service => ∀ m, ∃ a m', service.run m = (.ok a, m')) →
        ∃ s', (b.resumeMutators you).run (b.inCycle s calls) = (.ok (s₀.world.generation + 1), s') := by
  obtain ⟨-, hsound, -⟩ := reached.sound
  have hstopped := stopped_of_returns hjournal stopped
  have hcounted := toNat_add_one_lt hstopped.counted
  have hrun : b.Run s calls := by
    refine run_calls ?_ ?_ (fun code => ?_) calls <;> rw [hstopped.table]
    · exact hsound.beginCycle hcounted
    · exact hstopped.counted
    · exact CodeTable.not_isClaimed_begun hsound hcounted code
  have haside := aside_inCycle hjournal s calls
  have hworld : (b.inCycle s calls).world = ⟨.suspended, s₀.world.generation⟩ :=
    haside.world.trans hstopped.world
  refine ⟨b.fixups (b.inCycle s calls).codeTable, ?_, fun code => ?_, fun code => hrun.known_iff, hstopped.journal,
    haside.journal, logs_resume hjournal hworld, fun kind hkind hlt hreturns => ?_⟩
  · unfold fixups
    split
    · exact CodeTable.claimed_ascending hrun.sound
    · exact .nil
  · have hknown : b.ClaimedIn s calls code ∧ ((b.inCycle s calls).codeTable.lookup code).isSome ↔
        b.ClaimedIn s calls code ∧ ¬b.LostIn s calls code := and_congr_right hrun.known_iff
    rw [hknown]
    unfold fixups
    cases b.options.relocateCode with
    | false => simp
    | true => simpa [CodeTable.mem_claimed hrun.sound] using hrun.claimed code
  · have hstill : (b.inCycle s calls).registry.requireCollector you = .ok kind := by
      rw [haside.registry, hstopped.registry]
      exact hkind
    exact resume_returns hreturns hstill hworld hlt

namespace HostRoots

/-- A host that gives its roots, keeps the journal, and does nothing else. -/
def journaling (roots : HostRoots) : Host (List HostEntry) :=
  { roots.host with
    suspendAll := fun c => enter ⟨.suspendAll, c⟩
    resumeAll := fun c => enter ⟨.resumeAll, c⟩
    hook := fun hook c => enter ⟨.hook hook, c⟩ }
where
  enter (entry : HostEntry) : Act (Machine (List HostEntry)) Unit :=
    modify fun m => { m with env := m.env ++ [entry] }

variable (roots : HostRoots)

theorem journals : roots.journaling.Journals id where
  hook _ _ _ := rfl
  suspendAll _ _ := rfl
  resumeAll _ _ := rfl
  walks := ⟨fun _ _ => rfl, fun _ _ => rfl, fun _ _ => rfl, fun _ _ => rfl, fun _ _ => rfl, fun _ _ => rfl⟩

theorem releases : roots.journaling.Releases fun service => ∀ m, ∃ a m', service.run m = (.ok a, m') :=
  ⟨fun _ _ _ => ⟨(), _, rfl⟩, fun _ _ => ⟨(), _, rfl⟩⟩

theorem findsCode : roots.journaling.FindsCode roots.code := by
  rintro id m found m' hrun
  cases hrun
  rfl

/-- A binding of such a host, with relocated code, to a collector that does nothing. -/
def relocating : Binding Unit (List HostEntry) where
  options := { relocateCode := true }
  layout := ⟨16, 24, 8, 8, 24, 16, 0⟩
  codec := .identity
  host := roots.journaling
  engine :=
    { bind := fun _ => pure ()
      writePre := fun _ => pure ()
      writePost := fun _ => pure ()
      copyPre := fun _ => pure ()
      copyPost := fun _ => pure ()
      requestCollection := fun _ => pure ()
      isLive := fun _ _ => true }

end HostRoots

/-- Two mutators, a collector, and a blob for each of the mutators to run. -/
def twoBlobs : State Unit (List HostEntry) :=
  ((enterCollector ⟨"c"⟩ .controller).run
    { machine := ⟨.zero, []⟩
      registry := (twoMutators []).registry
      codeTable := (({} : CodeTable).register ⟨7⟩ [⟨0x7000⟩]).register ⟨8⟩ [⟨0x8000⟩] }).2

theorem twoBlobs_reached : twoBlobs.Reached := by
  have hmutators : ({ machine := ⟨.zero, []⟩, registry := (twoMutators []).registry } :
      State Unit (List HostEntry)).Reached := .mutator (.mutator (.fresh _) _ _) _ _
  have hblobs := (hmutators.code (.register ⟨7⟩ [⟨0x7000⟩]) (fun _ => pure ()) () (by simp)).code
    (.register ⟨8⟩ [⟨0x8000⟩]) (fun _ => pure ()) () (by simp)
  exact .other hblobs rfl rfl rfl

/-- The blob that a mutator runs is fixed up. The other, claimed too and then registered anew, is not, though it is
known. -/
theorem running_blob_fixed_up :
    let b := twoThreads.relocating
    let s := ((b.stopAllMutators ⟨"c"⟩ false).run twoBlobs).2
    let scans : List CycleCall := [.threads (.collecting 4) [] (.one ⟨1⟩), .scan (.collecting 4) [] .codeCache]
    let calls := scans ++ [.register ⟨8⟩ [⟨0x8008⟩]]
    b.ClaimedIn s scans ⟨8⟩ ∧ ((b.inCycle s calls).codeTable.lookup ⟨8⟩).isSome ∧
      ∃ fixups s', ⟨7⟩ ∈ fixups ∧ ⟨8⟩ ∉ fixups ∧ (b.resumeMutators ⟨"c"⟩).run (b.inCycle s calls) = (.ok 1, s') ∧
        s'.machine.env = stopEntries false 0 ++ resumeEntries fixups 0 := by
  intro b s scans calls
  have hstopped : (b.stopAllMutators ⟨"c"⟩ false).run twoBlobs = (.ok twoBlobs.registry.mutators, s) := rfl
  obtain ⟨fixups, -, hfixups, -, hstop, hcalls, hresume, hreturns⟩ :=
    fixups_of_cycle (b := b) twoBlobs_reached twoThreads.journals hstopped calls ⟨"c"⟩
  obtain ⟨s', hrun⟩ := hreturns .controller (by decide +kernel) (by decide +kernel) twoThreads.releases
  have hthread : (b.scanThreads (.collecting 4) (.one ⟨1⟩)).run (s, []) = (.ok (.ok 3), _, _) := rfl
  have hclaims : (CycleCall.threads (.collecting 4) [] (.one ⟨1⟩)).Claims b ⟨7⟩ s :=
    (claims_threads_iff twoThreads.findsCode hthread).2 ⟨⟨⟨[⟨0x7000⟩], 0⟩, rfl, rfl⟩, ⟨1⟩, .head _, by decide⟩
  have hclaimed : b.ClaimedIn s calls ⟨7⟩ := ⟨[], _, _, rfl, hclaims, by simp [CycleCall.Renews]⟩
  have hother : b.ClaimedIn s scans ⟨8⟩ := by
    refine ⟨[_], _, [], rfl, ⟨trivial, ⟨⟨[⟨0x8000⟩], 0⟩, ?_, ?_⟩, ⟨[⟨0x8000⟩], 1⟩, ?_, ?_⟩, by simp⟩ <;> decide +kernel
  refine ⟨hother, by decide +kernel, fixups, s', (hfixups ⟨7⟩).2 ⟨rfl, hclaimed, by decide +kernel⟩, fun h8 => ?_,
    hrun, ?_⟩
  · obtain hclaims | ⟨-, hkept⟩ := (claimedIn_concat scans _).1 ((hfixups ⟨8⟩).1 h8).2.1
    · exact hclaims.1
    · exact hkept rfl
  · have hjournal := hresume.run hrun
    rw [hcalls, hstop] at hjournal
    exact hjournal

end Binding

end Safepoint
