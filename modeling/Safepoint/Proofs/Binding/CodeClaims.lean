import Safepoint.Proofs.Binding.FailedScans
import Safepoint.Proofs.Roots.Progress

/-!
# Which blobs a scan claims

A scan of threads claims the blobs that have frames on their stacks, and a scan of the code table claims all. Both claim
what is free and leave the rest alone. A scan that faults has claimed some of these, and a scan of the code table has
lost the nursery if it faults.
-/
namespace Safepoint

/-- The host finds just these blobs on the stack of each mutator, if it finds anything. -/
def Host.FindsCode {ε : Type} (host : Host ε) (codes : MutatorId → List CodeId) : Prop :=
  ∀ id m found m', (host.threadCode id).run m = (.ok found, m') → found = codes id

namespace Binding

open CodeTable (Advances Reaches Scanning)

variable {μ ε τ α β : Type} {b : Binding μ ε} {sink : Sink τ} {s s' : State μ ε} {t t' : τ}

/-- Scans that do no more to the code table than to claim blobs. -/
theorem claimSteps_advances (b : Binding μ ε) :
    b.ClaimSteps fun s s' => s.codeTable.Sound → s'.codeTable.Sound ∧ Advances s.codeTable s'.codeTable where
  refl _ h := ⟨h, .refl _⟩
  trans _ _ _ h h' hsound := ⟨(h' (h hsound).1).1, (h hsound).2.trans (h' (h hsound).1).2⟩
  walks :=
    { stack := fun _ _ h => ⟨h, .refl _⟩
      code := fun _ _ h => ⟨h, .refl _⟩
      globals := fun _ _ h => ⟨h, .refl _⟩
      strings := fun _ _ h => ⟨h, .refl _⟩
      loaders := fun _ _ h => ⟨h, .refl _⟩
      weak := fun _ _ h => ⟨h, .refl _⟩ }
  claim s code h := ⟨h.claim code, (Reaches.claim s.codeTable code).advances⟩
  nursery _ h := ⟨h, .refl _⟩

theorem advances_of_scanThreads (hsound : s.codeTable.Sound) (sink : Sink τ) (t : τ) (selector : ThreadSelector) :
    ((b.scanThreads sink selector).run (s, t)).2.1.codeTable.Sound ∧
      Advances s.codeTable ((b.scanThreads sink selector).run (s, t)).2.1.codeTable :=
  (claimSteps_advances b).scanThreads selector (s, t) hsound

theorem advances_of_scan (hsound : s.codeTable.Sound) (sink : Sink τ) (t : τ) {category : RootCategory}
    (hcategory : category ≠ .codeCache) : ((b.scan sink category).run (s, t)).2.1.codeTable.Sound ∧
      Advances s.codeTable ((b.scan sink category).run (s, t)).2.1.codeTable :=
  (claimSteps_advances b).scan hcategory (s, t) hsound

/-- A scan that has a buffer ends as it does with the reporter that it starts. -/
theorem reporting_of_room {σ : Type} {sink : Sink τ} {t : τ} (hroom : sink.HasRoom t) :
    ∃ reporter : Reporter τ, ∀ (scan : Act (σ × Reporter τ) Unit) (s : σ),
      (reporting sink scan).faultOf (s, t) = scan.faultOf (s, reporter) ∧
      ((reporting sink scan).run (s, t)).2.1 = (scan.run (s, reporter)).2.1 := by
  refine ⟨⟨t, .ofCapacity (max (sink.capacity t) 1), []⟩, fun scan s => ?_⟩
  simp only [Act.faultOf, reporting, Act.run, Reporter.start_of_le hroom]
  rcases scan (s, ⟨t, .ofCapacity (max (sink.capacity t) 1), []⟩) with ⟨cause | ⟨⟩, s', r⟩ <;> exact ⟨rfl, rfl⟩

theorem faultOf_map {σ α β : Type} (f : α → β) (act : Act σ α) (s : σ) : (f <$> act).faultOf s = act.faultOf s := by
  simp only [Act.faultOf, Act.run_map]
  rcases act.run s with ⟨cause | a, s'⟩ <;> rfl

/-- A scan of the code table that has a buffer ends as it does on the table. -/
theorem scanCode_of_room {sink : Sink τ} {t : τ} (hroom : sink.HasRoom t) :
    ∃ reporter : Reporter τ, (b.scan sink .codeCache).faultOf (s, t) =
        (CodeTable.scan (Reporter.visitAll sink)).faultOf (s.codeTable, reporter) ∧
      ((b.scan sink .codeCache).run (s, t)).2.1 = { s with codeTable :=
        ((CodeTable.scan (Reporter.visitAll sink)).run (s.codeTable, reporter)).2.1 } := by
  have hscan : b.scan sink .codeCache = Except.ok <$> (scanCode sink : Act (State μ ε × τ) Nat) := bind_pure_comp ..
  obtain ⟨reporter, hreporter⟩ := reporting_of_room (σ := State μ ε) hroom
  obtain ⟨hfault, hleft⟩ := hreporter
    ((fun _ => ()) <$> Act.within Scan.codePlace (CodeTable.scan (Reporter.visitAll sink))) s
  rw [faultOf_map] at hfault
  rw [Act.run_map] at hleft
  rw [hscan, faultOf_map, Act.run_map, scanCode, bind_pure_comp]
  exact ⟨reporter, hfault, hleft⟩

theorem run_scanCode_of_no_room (hroom : ¬sink.HasRoom t) :
    (b.scan sink .codeCache).run (s, t) = (.error (.panic .capacityOverflow), s, t) :=
  Act.run_bind_error (Reporter.run_reporting_of_lt (Nat.lt_of_not_le hroom) _)

/-- A scan of the code table that returns has claimed everything. -/
theorem reaches_of_scanCode (hsound : s.codeTable.Sound)
    (hreturns : (b.scan sink .codeCache).faultOf (s, t) = none) :
    s.codeTable.Reaches (fun _ => True) ((b.scan sink .codeCache).run (s, t)).2.1.codeTable := by
  have hroom : sink.HasRoom t := by
    by_contra hroom
    simp [Act.faultOf, run_scanCode_of_no_room hroom] at hreturns
  obtain ⟨reporter, hfault, hleft⟩ := scanCode_of_room (b := b) (s := s) hroom
  rw [hleft, CodeTable.scanned_of_returns (hfault ▸ hreturns)]
  exact .scanned hsound

/-- A scan of the code table that faults when it has a buffer has taken the nursery out. -/
theorem scanning_of_scanCode (hroom : sink.HasRoom t) (hfault : (b.scan sink .codeCache).faultOf (s, t) ≠ none) :
    Scanning s.codeTable ((b.scan sink .codeCache).run (s, t)).2.1.codeTable := by
  obtain ⟨reporter, hfaults, hleft⟩ := scanCode_of_room (b := b) (s := s) hroom
  rw [hleft]
  exact CodeTable.scanning_of_fault (hfaults ▸ hfault)

/-- A scan of the code table that faults for want of a buffer has done nothing. -/
theorem advances_of_scanCode (hsound : s.codeTable.Sound) (sink : Sink τ) (t : τ)
    (hkept : sink.HasRoom t → (b.scan sink .codeCache).faultOf (s, t) = none) :
    Advances s.codeTable ((b.scan sink .codeCache).run (s, t)).2.1.codeTable := by
  by_cases hroom : sink.HasRoom t
  · exact (reaches_of_scanCode hsound (hkept hroom)).advances
  · rw [run_scanCode_of_no_room hroom]
    exact .refl _

/-- If the call returns, it has claimed the blobs with `P`, and no others. -/
def Reaching (act : Scan μ ε τ α) (P : CodeId → Prop) : Prop :=
  ∀ p a p', act.run p = (.ok a, p') → p.1.codeTable.Reaches P p'.1.codeTable

namespace Reaching

variable {act : Scan μ ε τ α} {P Q : CodeId → Prop}

theorem nothing (h : ∀ p, (act.run p).2.1.codeTable = p.1.codeTable) : Reaching act fun _ => False := by
  intro p a p' hrun
  have hsame := h p
  rw [hrun] at hsame
  rw [hsame]
  exact .refl _

theorem bind {next : α → Scan μ ε τ β} (h : Reaching act P) (hnext : ∀ a, Reaching (next a) Q) :
    Reaching (act >>= next) fun code => P code ∨ Q code := by
  intro p c p' hrun
  obtain ⟨a, p₁, hact, hrest⟩ := Act.run_bind_eq_ok.1 hrun
  exact (h p a p₁ hact).trans (hnext a p₁ c p' hrest)

theorem congr (h : Reaching act P) (hiff : ∀ code, P code ↔ Q code) : Reaching act Q :=
  fun p a p' hrun => (h p a p' hrun).congr hiff

theorem forM {call : β → Scan μ ε τ Unit} {reach : β → CodeId → Prop} (h : ∀ c, Reaching (call c) (reach c))
    (cs : List β) : Reaching (cs.forM call) fun code => ∃ c ∈ cs, reach c code := by
  induction cs with
  | nil => exact (nothing fun _ => rfl).congr fun code => by simp
  | cons c cs ih =>
    rw [List.forM_eq_forM, List.forM_cons]
    exact ((h c).bind fun _ => ih).congr fun code => by simp

theorem of_reporting {scan : Scan μ ε τ Unit} (h : Reaching scan P) {n : Nat}
    (hrun : (reporting sink scan).run (s, t) = (.ok n, s', t')) : s.codeTable.Reaches P s'.codeTable := by
  simp only [reporting, Act.run] at hrun
  split at hrun
  · cases hrun
  · split at hrun <;> cases hrun
    rename_i hscan
    exact h _ _ _ hscan

end Reaching

theorem reaching_report (slots : List Slot) : Reaching (Scan.report sink slots : Scan μ ε τ Unit) fun _ => False :=
  .nothing fun _ => rfl

theorem reaching_walk (walk : Act (Machine ε) α) : Reaching (Scan.walk walk : Scan μ ε τ α) fun _ => False :=
  .nothing fun _ => rfl

theorem reaching_visitBlob (code : CodeId) : Reaching (visitBlob sink code : Scan μ ε τ Unit) (· = code) := by
  have hclaim : Reaching (Act.within Scan.statePlace (Act.within State.codePlace (modifyGet (·.claim code))) :
      Scan μ ε τ (Option (List Slot))) (· = code) := by
    rintro p a p' hrun
    cases hrun
    exact .claim _ code
  refine (hclaim.bind (Q := fun _ => False) fun claimed => ?_).congr fun _ => by simp
  cases claimed with
  | none => exact .nothing fun _ => rfl
  | some slots => exact reaching_report slots

theorem reaching_visitThreadCode {codes : MutatorId → List CodeId} (hcodes : b.host.FindsCode codes) (id : MutatorId) :
    Reaching (visitThreadCode b sink id) (· ∈ codes id) := by
  intro p a p' hrun
  obtain ⟨found, p₁, hwalk, hrest⟩ := Act.run_bind_eq_ok.1 hrun
  obtain rfl : found = codes id := by
    obtain ⟨s₁, hmachine, -⟩ := Act.run_within_eq_ok.1 hwalk
    obtain ⟨m, hcode, -⟩ := Act.run_within_eq_ok.1 hmachine
    exact hcodes id _ found m hcode
  have hblobs : Reaching ((codes id).forM (visitBlob sink) : Scan μ ε τ Unit) (· ∈ codes id) :=
    (Reaching.forM reaching_visitBlob (codes id)).congr fun code => by simp
  have hboth := (reaching_walk (b.host.threadCode id) p (codes id) p₁ hwalk).trans (hblobs p₁ a p' hrest)
  simpa using hboth

theorem reaching_visitThread {codes : MutatorId → List CodeId} (hcodes : b.host.FindsCode codes) (id : MutatorId) :
    Reaching (visitThread b sink id) (· ∈ codes id) := by
  have hstack : Reaching (visitStack b sink id) fun _ => False :=
    ((reaching_walk _).bind fun _ => reaching_report _).congr fun _ => by simp
  unfold visitThread
  split
  · exact (hstack.bind fun _ => reaching_visitThreadCode hcodes id).congr fun _ => by simp
  · exact ((reaching_visitThreadCode hcodes id).bind fun _ => hstack).congr fun _ => by simp

/-- A scan of threads that returns has claimed just what has frames on their stacks. -/
theorem reaches_of_scanThreads {codes : MutatorId → List CodeId} (hcodes : b.host.FindsCode codes)
    {selector : ThreadSelector} {n : Nat} (hrun : (b.scanThreads sink selector).run (s, t) = (.ok (.ok n), s', t')) :
    s.codeTable.Reaches (fun code => ∃ id ∈ selector.ids s.registry, code ∈ codes id) s'.codeTable := by
  have hthreads : Reaching ((selector.ids s.registry).forM (visitThread b sink))
      fun code => ∃ id ∈ selector.ids s.registry, code ∈ codes id := .forM (reaching_visitThread hcodes) _
  obtain ⟨p, p₁, hget, hrest⟩ := Act.run_bind_eq_ok.1 hrun
  cases hget
  dsimp only at hrest
  split at hrest
  · cases hrest
  · obtain ⟨count, p₂, hreport, hdone⟩ := Act.run_bind_eq_ok.1 hrest
    cases hdone
    exact hthreads.of_reporting hreport

end Binding

end Safepoint
