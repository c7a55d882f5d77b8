import Safepoint.Binding.Categories
import Safepoint.Binding.Cycle
import Safepoint.Binding.Weak
import Safepoint.Proofs.Basic

/-!
# What scans and handshakes leave alone

Root scans work through the walks of the host, the code table and the nursery of weak handles; a handshake works through
the host and the coordinator. Whatever these keep, the whole of it keeps, also when it faults.
-/
namespace Safepoint

open Act (Moves)

namespace Handshake

variable {σ κ : Type} {R : κ → κ → Prop} {view : σ → κ} {world : Place σ Coordinator} {threads : ThreadControl σ}

theorem moves_transition (hrefl : ∀ k, R k k) (hworld : ∀ c s, view (world.put c s) = view s) (target : WorldState) :
    Moves R view (transition world target) := by
  apply Moves.unmoved hrefl
  intro s
  simp only [Act.run, transition]
  split
  · exact hworld _ _
  · rfl

theorem moves_stop (hrefl : ∀ k, R k k) (htrans : ∀ a b c, R a b → R b c → R a c)
    (hworld : ∀ c s, view (world.put c s) = view s) {prologue : Act σ Unit} (hprologue : Moves R view prologue)
    (hsuspend : Moves R view threads.suspendAll) : Moves R view (stop world threads prologue) := by
  apply Moves.bind htrans (moves_transition hrefl hworld _)
  intro refused
  cases refused with
  | error breach => exact .unmoved hrefl fun _ => rfl
  | ok _ =>
    apply Moves.bind htrans hprologue
    intro _
    apply Moves.bind htrans hsuspend
    intro _
    exact moves_transition hrefl hworld _

theorem moves_start (hrefl : ∀ k, R k k) (htrans : ∀ a b c, R a b → R b c → R a c)
    (hworld : ∀ c s, view (world.put c s) = view s) {epilogue : Act σ Unit} (hepilogue : Moves R view epilogue)
    (hresume : Moves R view threads.resumeAll) : Moves R view (start world threads epilogue) := by
  apply Moves.bind htrans (moves_transition hrefl hworld _)
  intro refused
  cases refused with
  | error breach => exact .unmoved hrefl fun _ => rfl
  | ok _ =>
    apply Moves.bind htrans hepilogue
    intro _
    apply Moves.bind htrans (Moves.aside hrefl hworld)
    intro generation
    apply Moves.bind htrans hresume
    intro _
    apply Moves.bind htrans (moves_transition hrefl hworld _)
    intro refused
    cases refused <;> exact .unmoved hrefl fun _ => rfl

end Handshake

/-- What holds of every walk over roots. -/
structure Host.Walks {ε : Type} (host : Host ε) (Q : ∀ {α : Type}, Act (Machine ε) α → Prop) : Prop where
  stack : ∀ id, Q (host.threadStack id)
  code : ∀ id, Q (host.threadCode id)
  globals : ∀ table, Q (host.globals table)
  strings : ∀ filter, Q (host.stringTable filter)
  loaders : ∀ policy, Q (host.classLoaderGraph policy)
  weak : ∀ filter, Q (host.weakProcessor filter)

/-- What holds of the services that a host does for a cycle once its roots are known. -/
structure Host.Releases {ε : Type} (host : Host ε) (Q : ∀ {α : Type}, Act (Machine ε) α → Prop) : Prop where
  hook : ∀ hook c, Q (host.hook hook c)
  resumeAll : ∀ c, Q (host.resumeAll c)

namespace Binding

variable {μ ε τ ρ α : Type}

/-- The steps of which root scans are made go along `R`. -/
structure ScanSteps (b : Binding μ ε) (R : State μ ε → State μ ε → Prop) : Prop where
  refl : ∀ s, R s s
  trans : ∀ s₁ s₂ s₃, R s₁ s₂ → R s₂ s₃ → R s₁ s₃
  walks : b.host.Walks fun walk => Moves R id (onMachine walk)
  code : ∀ (s : State μ ε) codeTable, R s { s with codeTable }
  nursery : ∀ s : State μ ε, R s { s with weakHandles := s.weakHandles.takeNursery.2 }

/-- The same of the scans that do no more to the code table than to claim blobs. -/
structure ClaimSteps (b : Binding μ ε) (R : State μ ε → State μ ε → Prop) : Prop where
  refl : ∀ s, R s s
  trans : ∀ s₁ s₂ s₃, R s₁ s₂ → R s₂ s₃ → R s₁ s₃
  walks : b.host.Walks fun walk => Moves R id (onMachine walk)
  claim : ∀ (s : State μ ε) (code : CodeId), R s { s with codeTable := (s.codeTable.claim code).2 }
  nursery : ∀ s : State μ ε, R s { s with weakHandles := s.weakHandles.takeNursery.2 }

theorem ScanSteps.claims {b : Binding μ ε} {R : State μ ε → State μ ε → Prop} (h : b.ScanSteps R) :
    b.ClaimSteps R :=
  ⟨h.refl, h.trans, h.walks, fun s _ => h.code s _, h.nursery⟩

theorem moves_reporting {σ κ : Type} {R : κ → κ → Prop} (view : σ → κ) (hrefl : ∀ k, R k k) {sink : Sink τ}
    {scan : Act (σ × Reporter τ) Unit} (h : Moves R (fun p => view p.1) scan) :
    Moves R (fun p => view p.1) (reporting sink scan) := by
  intro s
  simp only [reporting, Act.run]
  cases hstart : Reporter.start sink s.2 with
  | error cause => exact hrefl _
  | ok reporter =>
    have hscan := h (s.1, reporter)
    simp only [Act.run] at hscan
    dsimp only
    split <;> rename_i hrun <;> rw [hrun] at hscan <;> exact hscan

theorem moves_walk {R : State μ ε → State μ ε → Prop} {act : Act (Machine ε) α} (h : Moves R id (onMachine act)) :
    Moves R Prod.fst (Scan.walk act : Scan μ ε τ α) :=
  Moves.within h (fun _ => rfl) fun _ _ => rfl

theorem moves_gather {R : State μ ε → State μ ε → Prop} {scan : Act (State μ ε × τ) α} (h : Moves R Prod.fst scan)
    (start : τ) : Moves R id (gather start scan) := by
  intro s
  have hscan := h (s, start)
  simp only [gather, Act.run] at hscan ⊢
  split <;> simp_all

theorem moves_inOrder {σ κ : Type} {R : κ → κ → Prop} {view : σ → κ} (hrefl : ∀ k, R k k)
    (htrans : ∀ a b c, R a b → R b c → R a c) {calls : List (Act σ (Except Violation α))}
    (h : ∀ call ∈ calls, Moves R view call) : Moves R view (inOrder calls) := by
  induction calls with
  | nil => exact .unmoved hrefl fun _ => rfl
  | cons call calls ih =>
    apply Moves.bind htrans (h call (List.mem_cons_self ..))
    intro first
    cases first with
    | error breach => exact .unmoved hrefl fun _ => rfl
    | ok first =>
      apply Moves.bind htrans (ih fun other hother => h other (List.mem_cons_of_mem _ hother))
      intro others
      cases others <;> exact .unmoved hrefl fun _ => rfl

namespace ClaimSteps

variable {b : Binding μ ε} {R : State μ ε → State μ ε → Prop} (h : b.ClaimSteps R) {sink : Sink τ} {weakSink : Sink ρ}
include h

theorem report (slots : List Slot) : Moves R Prod.fst (Scan.report sink slots : Scan μ ε τ Unit) :=
  Moves.aside h.refl fun _ _ => rfl

theorem walkReport {act : Act (Machine ε) (List Slot)} (hact : Moves R id (onMachine act)) :
    Moves R Prod.fst (do Scan.report sink (← Scan.walk act) : Scan μ ε τ Unit) := by
  apply Moves.bind h.trans (moves_walk hact)
  intro slots
  exact h.report slots

theorem visitBlob (code : CodeId) : Moves R Prod.fst (visitBlob sink code : Scan μ ε τ Unit) := by
  apply Moves.bind h.trans
  · intro s
    exact h.claim s.1 code
  · intro claimed
    cases claimed with
    | none => exact .unmoved h.refl fun _ => rfl
    | some slots => exact h.report slots

theorem visitThreadCode (id : MutatorId) : Moves R Prod.fst (visitThreadCode b sink id) := by
  apply Moves.bind h.trans (moves_walk (h.walks.code id))
  intro codes
  exact Moves.forM h.refl h.trans h.visitBlob codes

theorem visitStack (id : MutatorId) : Moves R Prod.fst (visitStack b sink id) := h.walkReport (h.walks.stack id)

theorem visitThread (id : MutatorId) : Moves R Prod.fst (visitThread b sink id) := by
  unfold Binding.visitThread
  split
  · exact .bind h.trans (h.visitStack id) fun _ => h.visitThreadCode id
  · exact .bind h.trans (h.visitThreadCode id) fun _ => h.visitStack id

theorem turn (leg : Leg) : Moves R Prod.fst (leg.turn b sink) := by
  cases leg with
  | stack id => exact .bind h.trans (h.visitStack id) fun _ => .unmoved h.refl fun _ => rfl
  | code id => exact .bind h.trans (moves_walk (h.walks.code id)) fun _ => .unmoved h.refl fun _ => rfl
  | blob found => exact .bind h.trans (h.visitBlob found) fun _ => .unmoved h.refl fun _ => rfl

theorem whole (leg : Leg) : Moves R Prod.fst (leg.whole b sink) := by
  cases leg with
  | stack id => exact h.visitStack id
  | code id => exact h.visitThreadCode id
  | blob found => exact h.visitBlob found

theorem scanThreads (selector : ThreadSelector) : Moves R Prod.fst (b.scanThreads sink selector) := by
  apply Moves.bind h.trans (.unmoved h.refl fun _ => rfl)
  intro p
  dsimp only
  split
  · exact .unmoved h.refl fun _ => rfl
  · apply Moves.bind h.trans
    · apply moves_reporting id h.refl
      exact Moves.forM h.refl h.trans h.visitThread _
    · intro count
      exact .unmoved h.refl fun _ => rfl

theorem scanWeak (filter : LiveFilter) : Moves R Prod.fst (b.scanWeak sink filter) := by
  apply moves_reporting id h.refl
  apply Moves.bind h.trans (moves_walk (h.walks.weak filter))
  intro slots
  apply Moves.bind h.trans (h.report slots)
  intro _
  split
  · apply Moves.bind h.trans
    · intro s
      exact h.nursery s.1
    · intro handles
      exact h.report handles
  · exact .unmoved h.refl fun _ => rfl

theorem walkEdges (policy : LoaderScan) :
    Moves R (fun p => p.1.1) (scanLoaders.walkEdges b sink weakSink policy) := by
  apply Moves.bind h.trans
  · exact Moves.within (h.walks.loaders policy) (fun _ => rfl) fun _ _ => rfl
  · intro edges
    apply Moves.forM h.refl h.trans
    intro edge
    split <;> exact Moves.aside h.refl fun _ _ => rfl

theorem scanLoaders (policy : LoaderScan) : Moves R (fun p => p.1.1) (b.scanLoaders sink weakSink policy) := by
  apply moves_reporting Prod.fst h.refl
  have hedges : Moves R (fun q : (State μ ε × Reporter τ) × ρ => q.1.1)
      (do let _ ← reporting weakSink (scanLoaders.walkEdges b sink weakSink policy)) := by
    apply Moves.bind h.trans
    · exact moves_reporting Prod.fst h.refl (h.walkEdges policy)
    · intro _
      exact .unmoved h.refl fun _ => rfl
  exact Moves.within hedges (fun _ => rfl) fun _ _ => rfl

theorem scanLoaderRoots : Moves R Prod.fst (b.scanLoaderRoots sink) := by
  unfold Binding.scanLoaderRoots
  split
  · exact Moves.within (h.scanLoaders .liveFiltered) (fun _ => rfl) fun _ _ => rfl
  · apply moves_reporting id h.refl
    apply Moves.bind h.trans (moves_walk (h.walks.loaders .allStrong))
    intro edges
    exact h.report _

/-- Every scan but that of the code table. -/
theorem scan {category : RootCategory} (hcategory : category ≠ .codeCache) :
    Moves R Prod.fst (b.scan sink category) := by
  have hsingle {act : Act (State μ ε × τ) Nat} (hact : Moves R Prod.fst act) :
      Moves R Prod.fst (do return .ok (← act) : Act (State μ ε × τ) (Except Violation Nat)) :=
    .bind h.trans hact fun _ => .unmoved h.refl fun _ => rfl
  cases category with
  | threadStacks => exact h.scanThreads .all
  | global table => exact hsingle (moves_reporting id h.refl (h.walkReport (h.walks.globals table)))
  | codeCache => exact absurd rfl hcategory
  | stringTable => exact hsingle (moves_reporting id h.refl (h.walkReport (h.walks.strings _)))
  | classLoaderGraph => exact hsingle h.scanLoaderRoots
  | weakProcessor => exact hsingle (h.scanWeak _)

end ClaimSteps

namespace ScanSteps

variable {b : Binding μ ε} {R : State μ ε → State μ ε → Prop} (h : b.ScanSteps R) {sink : Sink τ}
include h

theorem scanCode : Moves R Prod.fst (scanCode sink : Act (State μ ε × τ) Nat) := by
  apply moves_reporting id h.refl
  apply Moves.bind h.trans
  · intro s
    exact h.code s.1 _
  · intro _
    exact .unmoved h.refl fun _ => rfl

theorem scan (category : RootCategory) : Moves R Prod.fst (b.scan sink category) := by
  by_cases hcategory : category = .codeCache
  · subst hcategory
    exact .bind h.trans h.scanCode fun _ => .unmoved h.refl fun _ => rfl
  · exact h.claims.scan hcategory

theorem scanInto (start : τ) (category : RootCategory) : Moves R id (b.scanInto sink start category) := by
  intro s
  have hscan : R s ((b.scan sink category).run (s, start)).2.1 := h.scan category (s, start)
  simp only [Binding.scanInto, Act.run] at hscan ⊢
  split <;> simp_all

theorem scanInOrder (start : τ) (categories : List RootCategory) :
    Moves R id (b.scanInOrder sink start categories) :=
  moves_inOrder h.refl h.trans fun _ hcall => by
    obtain ⟨category, -, rfl⟩ := List.mem_map.1 hcall
    exact h.scanInto start category

theorem advance (start : τ) (job : ScanJob τ) : Moves R id (b.advance sink start job) := by
  have hinto (category : RootCategory) (s : State μ ε) : R s ((b.scanInto sink start category).run s).2 :=
    h.scanInto start category s
  cases job with
  | ahead category =>
    cases category with
    | threadStacks =>
      apply Moves.bind h.trans (.unmoved h.refl fun _ => rfl)
      intro s
      dsimp only
      split
      · exact .unmoved h.refl fun _ => rfl
      · split <;> exact .unmoved h.refl fun _ => rfl
    | global | codeCache | stringTable | classLoaderGraph | weakProcessor => exact hinto _
  | walking legs reporter =>
    cases legs with
    | nil => exact .unmoved h.refl fun _ => rfl
    | cons leg legs =>
      intro s
      have hleg : R s ((leg.turn b sink).run (s, reporter)).2.1 := h.claims.turn leg (s, reporter)
      simp only [Binding.advance, Act.run] at hleg ⊢
      split <;> simp_all
  | ended outcome => exact .unmoved h.refl fun _ => rfl

theorem finishJob (start : τ) (job : ScanJob τ) : Moves R id (b.finishJob sink start job) := by
  cases job with
  | ahead category => exact h.scanInto start category
  | walking legs reporter =>
    intro s
    have hlegs : R s ((legs.forM (Leg.whole b sink)).run (s, reporter)).2.1 :=
      Moves.forM h.refl h.trans h.claims.whole legs (s, reporter)
    simp only [Binding.finishJob, Act.run] at hlegs ⊢
    split <;> simp_all
  | ended outcome => exact .unmoved h.refl fun _ => rfl

theorem takeTurn (start : τ) (place : Nat) (jobs : List (ScanJob τ)) :
    Moves R id (b.takeTurn sink start place jobs) := by
  induction jobs generalizing place with
  | nil => cases place <;> exact .unmoved h.refl fun _ => rfl
  | cons job jobs ih =>
    cases place with
    | zero => exact .bind h.trans (h.advance start job) fun _ => .unmoved h.refl fun _ => rfl
    | succ place => exact .bind h.trans (ih place) fun _ => .unmoved h.refl fun _ => rfl

theorem takeTurns (start : τ) (turns : List Nat) (jobs : List (ScanJob τ)) :
    Moves R id (b.takeTurns sink start turns jobs) := by
  induction turns generalizing jobs with
  | nil => exact .unmoved h.refl fun _ => rfl
  | cons place turns ih => exact .bind h.trans (h.takeTurn start place jobs) ih

theorem finishJobs (start : τ) (jobs : List (ScanJob τ)) :
    Moves R id (inOrder (jobs.map (b.finishJob sink start))) :=
  moves_inOrder h.refl h.trans fun _ hcall => by
    obtain ⟨job, -, rfl⟩ := List.mem_map.1 hcall
    exact h.finishJob start job

/-- Whatever the turns. -/
theorem scanCategories (start : τ) (turns : List Nat) (categories : List RootCategory) :
    Moves R id (b.scanCategories sink start turns categories) := by
  unfold Binding.scanCategories
  split
  · exact .bind h.trans (h.takeTurns start turns _) fun jobs => h.finishJobs start jobs
  · exact h.scanInOrder start categories

end ScanSteps

section Handshake

variable {b : Binding μ ε} {me : ThreadId}

theorem moves_insist {κ : Type} {R : κ → κ → Prop} {view : State μ ε → κ} (hrefl : ∀ k, R k k)
    (outcome : Except Violation α) : Moves R view (insist outcome) := by
  cases outcome <;> exact .unmoved hrefl fun _ => rfl

/-- A stop notes whether classes are to be unloaded. -/
theorem unloading_of_stop {s s' : State μ ε} {unload : Bool} {mutators : List Mutator}
    (hrun : (b.stopAllMutators me unload).run s = (.ok mutators, s')) : s'.unloading = unload := by
  have hrefl : ∀ k : Bool, k = k := fun _ => rfl
  have htrans : ∀ k₁ k₂ k₃ : Bool, k₁ = k₂ → k₂ = k₃ → k₁ = k₃ := fun _ _ _ => Eq.trans
  have hshown {β : Type} (service : Coordinator → Act (Machine ε) β) :
      Moves Eq (State.unloading (μ := μ)) (shown service) :=
    .bind htrans (.unmoved hrefl fun _ => rfl) fun _ => Moves.aside hrefl fun _ _ => rfl
  have hprologue : Moves Eq (State.unloading (μ := μ)) (b.prologue unload) := by
    apply Moves.bind htrans (Moves.aside hrefl fun _ _ => rfl)
    intro _
    apply Moves.bind htrans (hshown _)
    intro _
    dsimp only
    split
    · exact .bind htrans (hshown _) fun _ => hshown _
    · exact hshown _
  have hstop : Moves Eq (State.unloading (μ := μ))
      (Handshake.stop State.worldPlace (b.threads me) (b.prologue unload)) :=
    Handshake.moves_stop hrefl htrans (fun _ _ => rfl) hprologue (hshown _)
  have hrest : Moves Eq (State.unloading (μ := μ)) (do
      insist (← Handshake.stop State.worldPlace (b.threads me) (b.prologue unload))
      return (← get).registry.mutators) := by
    apply Moves.bind htrans hstop
    intro refused
    apply Moves.bind htrans (moves_insist hrefl refused)
    intro _
    exact .unmoved hrefl fun _ => rfl
  unfold stopAllMutators at hrun
  obtain ⟨_, s₁, -, hrun⟩ := Act.run_bind_eq_ok.1 hrun
  obtain ⟨_, s₂, -, hrun⟩ := Act.run_bind_eq_ok.1 hrun
  obtain ⟨_, s₃, hset, hrun⟩ := Act.run_bind_eq_ok.1 hrun
  rw [Act.run_modify] at hset
  cases hset
  exact (hrest.run hrun).symm

/-- What the services of the host keep of the machine, a release of the mutators keeps. -/
theorem moves_resumeMutators {R : Machine ε → Machine ε → Prop} (hrefl : ∀ m, R m m)
    (htrans : ∀ m₁ m₂ m₃, R m₁ m₂ → R m₂ m₃ → R m₁ m₃) (hhost : b.host.Releases fun service => Moves R id service) :
    Moves R State.machine (b.resumeMutators me) := by
  have hshown {β : Type} {service : Coordinator → Act (Machine ε) β} (hservice : ∀ c, Moves R id (service c)) :
      Moves R (State.machine (μ := μ)) (shown service) :=
    .bind htrans (.unmoved hrefl fun _ => rfl) fun s => .within (hservice s.world) (fun _ => rfl) fun _ _ => rfl
  have hepilogue : Moves R (State.machine (μ := μ)) b.epilogue := by
    have hafter : Moves R (State.machine (μ := μ)) (do
        shown (b.host.hook .codeCacheEpilogue)
        shown (b.host.hook .derivedPointersUpdate)) :=
      .bind htrans (hshown (hhost.hook _)) fun _ => hshown (hhost.hook _)
    unfold epilogue
    split
    · apply Moves.bind htrans (.unmoved hrefl fun _ => rfl)
      intro s
      apply Moves.bind htrans
      · apply Moves.forM hrefl htrans
        intro code
        exact hshown (hhost.hook _)
      · intro _
        exact hafter
    · exact hafter
  have hstart : Moves R (State.machine (μ := μ)) (Handshake.start State.worldPlace (b.threads me) b.epilogue) :=
    Handshake.moves_start hrefl htrans (fun _ _ => rfl) hepilogue (hshown hhost.resumeAll)
  apply Moves.bind htrans (.unmoved hrefl fun _ => rfl)
  intro s
  apply Moves.bind htrans (moves_insist hrefl _)
  intro _
  apply Moves.bind htrans hstart
  intro resumed
  apply Moves.bind htrans (.unmoved hrefl fun _ => rfl)
  intro _
  exact moves_insist hrefl resumed

end Handshake

end Binding

end Safepoint
