import Safepoint.Proofs.Binding.RootSplits

/-!
# Root scans side by side

Where scans of categories take turns, a blob of code may go to a scan of stacks in one order and to the scan of the code
table in another. In every order they report the same slots between them, and leave the tables that scans one after
another leave.
-/
namespace Safepoint.Binding

variable {μ ε : Type}

/-- What a scan has shown so far, and what it has still to do. -/
inductive ScanStage where
  | ahead (category : RootCategory)
  | walking (legs : List Leg) (shown : List Slot)
  | ended (category : RootCategory) (shown : List Slot)
  deriving DecidableEq

def ScanStage.shown : ScanStage → List Slot
  | .ahead _ => []
  | .walking _ shown => shown
  | .ended _ shown => shown

section Effects

variable (b : Binding μ ε) (roots : HostRoots)

/-- The legs that are left after a turn. -/
def legLeft : Leg → List Leg
  | .code id => (roots.code id).map .blob
  | .stack _ | .blob _ => []

/-- What a leg shows in a turn, and the code table then. -/
def legTurn (table : CodeTable) : Leg → List Slot × CodeTable
  | .stack id => (roots.stack id, table)
  | .code _ => ([], table)
  | .blob found => table.claims [found]

/-- What all of a leg shows. -/
def legWhole (table : CodeTable) : Leg → List Slot × CodeTable
  | .code id => table.claims (roots.code id)
  | leg => legTurn roots table leg

def legsWhole (table : CodeTable) : List Leg → List Slot × CodeTable
  | [] => ([], table)
  | leg :: legs =>
    let first := legWhole roots table leg
    let others := legsWhole first.2 legs
    (first.1 ++ others.1, others.2)

/-- Where a turn takes a scan, and the tables then. -/
def stageTurn (t : Tables μ) : ScanStage → ScanStage × Tables μ
  | .ahead .threadStacks => (.walking (t.registry.mutatorIds.flatMap b.legs) [], t)
  | .ahead category =>
    let job := b.jobEffect roots t (.category category)
    (.ended category job.1, job.2)
  | .walking [] shown => (.ended .threadStacks shown, t)
  | .walking (leg :: legs) shown =>
    let first := legTurn roots t.code leg
    (.walking (legLeft roots leg ++ legs) (shown ++ first.1), { t with code := first.2 })
  | .ended category shown => (.ended category shown, t)

/-- What a scan has reported when it has done whatever was left, and the tables then. -/
def stageWhole (t : Tables μ) : ScanStage → (RootCategory × List Slot) × Tables μ
  | .ahead category =>
    let job := b.jobEffect roots t (.category category)
    ((category, job.1), job.2)
  | .walking legs shown =>
    let others := legsWhole roots t.code legs
    ((.threadStacks, shown ++ others.1), { t with code := others.2 })
  | .ended category shown => ((category, shown), t)

def placeTurn (t : Tables μ) : Nat → List ScanStage → List ScanStage × Tables μ
  | _, [] => ([], t)
  | 0, stage :: stages =>
    let first := b.stageTurn roots t stage
    (first.1 :: stages, first.2)
  | place + 1, stage :: stages =>
    let others := placeTurn t place stages
    (stage :: others.1, others.2)

def placeTurns (t : Tables μ) : List Nat → List ScanStage → List ScanStage × Tables μ
  | [], stages => (stages, t)
  | place :: turns, stages =>
    let first := b.placeTurn roots t place stages
    placeTurns first.2 turns first.1

def stagesWhole (t : Tables μ) : List ScanStage → List (RootCategory × List Slot) × Tables μ
  | [] => ([], t)
  | stage :: stages =>
    let first := b.stageWhole roots t stage
    let others := stagesWhole first.2 stages
    (first.1 :: others.1, others.2)

/-- What scans of categories report that take these turns if options let them, and the tables then. -/
def scansEffect (t : Tables μ) (turns : List Nat) (categories : List RootCategory) :
    List (RootCategory × List Slot) × Tables μ :=
  let taken := b.placeTurns roots t (if b.options.parallelRootScan then turns else []) (categories.map .ahead)
  b.stagesWhole roots taken.2 taken.1

end Effects

variable {b : Binding μ ε} {roots : HostRoots} {t : Tables μ} {stage : ScanStage} {stages : List ScanStage}
  {place : Nat} {turns : List Nat} {categories : List RootCategory}

/-- A turn is one of the scan at its place, if there is one. -/
theorem placeTurn_cases (b : Binding μ ε) (roots : HostRoots) (t : Tables μ) (place : Nat) (stages : List ScanStage) :
    b.placeTurn roots t place stages = (stages, t) ∨ ∃ before stage after, stages = before ++ stage :: after ∧
      b.placeTurn roots t place stages =
        (before ++ (b.stageTurn roots t stage).1 :: after, (b.stageTurn roots t stage).2) := by
  induction stages generalizing place with
  | nil => exact .inl (by cases place <;> rfl)
  | cons stage stages ih =>
    cases place with
    | zero => exact .inr ⟨[], stage, stages, rfl, rfl⟩
    | succ place =>
      obtain hsame | ⟨before, other, after, rfl, hturn⟩ := ih place
      · exact .inl (by simp only [placeTurn, hsame])
      · exact .inr ⟨stage :: before, other, after, rfl, by simp only [placeTurn, hturn, List.cons_append]⟩

@[simp] theorem registry_stageTurn : (b.stageTurn roots t stage).2.registry = t.registry := by
  cases stage with
  | ahead category => cases category <;> first | rfl | exact registry_jobEffect _
  | walking legs shown => cases legs <;> rfl
  | ended category shown => rfl

@[simp] theorem registry_stageWhole : (b.stageWhole roots t stage).2.registry = t.registry := by
  cases stage with
  | ahead category => exact registry_jobEffect _
  | walking legs shown => rfl
  | ended category shown => rfl

@[simp] theorem registry_placeTurn : (b.placeTurn roots t place stages).2.registry = t.registry := by
  obtain hsame | ⟨before, stage, after, -, hturn⟩ := placeTurn_cases b roots t place stages
  · rw [hsame]
  · rw [hturn, registry_stageTurn]

@[simp] theorem registry_placeTurns : (b.placeTurns roots t turns stages).2.registry = t.registry := by
  induction turns generalizing t stages with
  | nil => rfl
  | cons place turns ih => rw [placeTurns, ih, registry_placeTurn]

section Passing

/-- Claims take slots from the code table. -/
theorem passes_claims (h : t.code.Sound) (codes : List CodeId) :
    b.Passes t [] { t with code := (t.code.claims codes).2 } (t.code.claims codes).1 := by
  obtain ⟨hfree, hscanned, hsound⟩ := CodeTable.claims_spec h codes
  refine ⟨?_, by simp [Binding.finished, hscanned], hsound⟩
  rw [List.nil_append, ← List.append_assoc]
  exact hfree.append_right _

variable (b roots)

/-- What is shown in a leg whatever the tables hold. -/
def legOwn : Leg → List Slot
  | .stack id => roots.stack id
  | .code _ | .blob _ => []

theorem legOwn_legs (ids : List MutatorId) :
    (ids.flatMap b.legs).flatMap (legOwn roots) = ids.flatMap roots.stack := by
  rw [List.flatMap_assoc]
  have hown : (fun id => (b.legs id).flatMap (legOwn roots)) = roots.stack := by
    funext id
    unfold legs
    split <;> simp [legOwn]
  rw [hown]

/-- The legs left after a turn are blobs, if there are any. -/
theorem legOwn_left (leg : Leg) : (legLeft roots leg).flatMap (legOwn roots) = [] := by
  cases leg with
  | stack id => rfl
  | code id => simp [legLeft, legOwn]
  | blob found => rfl

theorem passes_legTurn (h : t.code.Sound) (leg : Leg) :
    b.Passes t (legOwn roots leg) { t with code := (legTurn roots t.code leg).2 }
      ((legTurn roots t.code leg).1 ++ (legLeft roots leg).flatMap (legOwn roots)) := by
  rw [legOwn_left, List.append_nil]
  cases leg with
  | stack id => exact .refl h
  | code id => exact .refl h
  | blob found => exact passes_claims h [found]

theorem passes_legWhole (h : t.code.Sound) (leg : Leg) :
    b.Passes t (legOwn roots leg) { t with code := (legWhole roots t.code leg).2 } (legWhole roots t.code leg).1 := by
  cases leg with
  | stack id => exact .refl h
  | code id => exact passes_claims h (roots.code id)
  | blob found => exact passes_claims h [found]

theorem passes_legsWhole (h : t.code.Sound) (legs : List Leg) :
    b.Passes t (legs.flatMap (legOwn roots)) { t with code := (legsWhole roots t.code legs).2 }
      (legsWhole roots t.code legs).1 := by
  induction legs generalizing t with
  | nil => exact .refl h
  | cons leg legs ih =>
    have hfirst := passes_legWhole b roots h leg
    exact hfirst.andThen (ih hfirst.sound)

/-- What a scan has shown or will show whatever the tables hold. -/
def ScanStage.due (registry : Registry μ) : ScanStage → List Slot
  | .ahead category => b.ownSlots roots registry (.category category)
  | .walking legs shown => shown ++ legs.flatMap (legOwn roots)
  | .ended _ shown => shown

theorem passes_stageTurn (h : t.code.Sound) (stage : ScanStage) : b.Passes t (stage.due b roots t.registry)
    (b.stageTurn roots t stage).2 ((b.stageTurn roots t stage).1.due b roots t.registry) := by
  cases stage with
  | ahead category =>
    obtain ⟨blobs, handles, htaking⟩ := exists_taking b roots h (.category category)
    cases category with
    | threadStacks =>
      simp only [stageTurn, ScanStage.due, legOwn_legs, ownSlots, List.nil_append]
      exact .refl h
    | global | codeCache | stringTable | classLoaderGraph | weakProcessor => exact .of_taking htaking
  | walking legs shown =>
    cases legs with
    | nil => simpa [stageTurn, ScanStage.due] using Passes.refl h
    | cons leg legs =>
      have hleg := (passes_legTurn b roots h leg).beside shown (legs.flatMap (legOwn roots))
      simpa [stageTurn, ScanStage.due] using hleg
  | ended category shown => exact .refl h

theorem passes_stageWhole (h : t.code.Sound) (stage : ScanStage) : b.Passes t (stage.due b roots t.registry)
    (b.stageWhole roots t stage).2 (b.stageWhole roots t stage).1.2 := by
  cases stage with
  | ahead category =>
    obtain ⟨blobs, handles, htaking⟩ := exists_taking b roots h (.category category)
    exact .of_taking htaking
  | walking legs shown => simpa [stageWhole, ScanStage.due] using (passes_legsWhole b roots h legs).beside shown []
  | ended category shown => exact .refl h

theorem passes_placeTurn (h : t.code.Sound) (place : Nat) (stages : List ScanStage) :
    b.Passes t (stages.flatMap (ScanStage.due b roots t.registry)) (b.placeTurn roots t place stages).2
      ((b.placeTurn roots t place stages).1.flatMap (ScanStage.due b roots t.registry)) := by
  obtain hsame | ⟨before, stage, after, rfl, hturn⟩ := placeTurn_cases b roots t place stages
  · rw [hsame]
    exact .refl h
  · rw [hturn]
    simpa using (passes_stageTurn b roots h stage).beside (before.flatMap _) (after.flatMap _)

/-- However many turns are taken, no slot is lost. -/
theorem passes_placeTurns (h : t.code.Sound) (turns : List Nat) (stages : List ScanStage) :
    b.Passes t (stages.flatMap (ScanStage.due b roots t.registry)) (b.placeTurns roots t turns stages).2
      ((b.placeTurns roots t turns stages).1.flatMap (ScanStage.due b roots t.registry)) := by
  induction turns generalizing t stages with
  | nil => exact .refl h
  | cons place turns ih =>
    have hfirst := passes_placeTurn b roots h place stages
    have hothers := ih hfirst.sound (b.placeTurn roots t place stages).1
    rw [registry_placeTurn] at hothers
    exact hfirst.trans hothers

theorem passes_stagesWhole (h : t.code.Sound) (stages : List ScanStage) :
    b.Passes t (stages.flatMap (ScanStage.due b roots t.registry)) (b.stagesWhole roots t stages).2
      ((b.stagesWhole roots t stages).1.flatMap Prod.snd) := by
  induction stages generalizing t with
  | nil => exact .refl h
  | cons stage stages ih =>
    have hfirst := passes_stageWhole b roots h stage
    have hothers := ih hfirst.sound
    rw [registry_stageWhole] at hothers
    exact hfirst.andThen hothers

theorem passes_scansEffect (h : t.code.Sound) (turns : List Nat) (categories : List RootCategory) :
    b.Passes t (categories.flatMap fun category => b.ownSlots roots t.registry (.category category))
      (b.scansEffect roots t turns categories).2 ((b.scansEffect roots t turns categories).1.flatMap Prod.snd) := by
  have hturns := passes_placeTurns b roots h
    (if b.options.parallelRootScan then turns else []) (categories.map .ahead)
  have hwhole := passes_stagesWhole b roots hturns.sound
    (b.placeTurns roots t (if b.options.parallelRootScan then turns else []) (categories.map .ahead)).1
  rw [registry_placeTurns] at hwhole
  have hall := hturns.trans hwhole
  rw [List.flatMap_map] at hall
  exact hall

end Passing

section Exhausting

/-- A scan that is ahead brings about what it is to bring about, in a turn or in what is left of it. -/
structure Brings (b : Binding μ ε) (roots : HostRoots) (category : RootCategory) (P : Tables μ → Prop) : Prop where
  turn : ∀ t stage, P t ∨ stage = .ahead category → P (b.stageTurn roots t stage).2
  whole : ∀ t stage, P t ∨ stage = .ahead category → P (b.stageWhole roots t stage).2

namespace Brings

variable {category : RootCategory} {P : Tables μ → Prop} (h : b.Brings roots category P)
include h

theorem placeTurn (hahead : P t ∨ .ahead category ∈ stages) :
    P (b.placeTurn roots t place stages).2 ∨ .ahead category ∈ (b.placeTurn roots t place stages).1 := by
  obtain hsame | ⟨before, stage, after, rfl, hturn⟩ := placeTurn_cases b roots t place stages
  · rwa [hsame]
  · rw [hturn]
    obtain hdone | hmem := hahead
    · exact .inl (h.turn t stage (.inl hdone))
    · simp only [List.mem_append, List.mem_cons] at hmem ⊢
      obtain hbefore | rfl | hafter := hmem
      · exact .inr (.inl hbefore)
      · exact .inl (h.turn t _ (.inr rfl))
      · exact .inr (.inr (.inr hafter))

theorem placeTurns (hahead : P t ∨ .ahead category ∈ stages) :
    P (b.placeTurns roots t turns stages).2 ∨ .ahead category ∈ (b.placeTurns roots t turns stages).1 := by
  induction turns generalizing t stages with
  | nil => exact hahead
  | cons place turns ih => exact ih (h.placeTurn hahead)

theorem stagesWhole (hahead : P t ∨ .ahead category ∈ stages) : P (b.stagesWhole roots t stages).2 := by
  induction stages generalizing t with
  | nil => exact hahead.resolve_right (by simp)
  | cons stage stages ih =>
    refine ih ?_
    obtain hdone | hmem := hahead
    · exact .inl (h.whole t stage (.inl hdone))
    · obtain hfirst | hrest := List.mem_cons.1 hmem
      · exact .inl (h.whole t stage (.inr hfirst.symm))
      · exact .inr hrest

theorem scansEffect (hmem : category ∈ categories) : P (b.scansEffect roots t turns categories).2 :=
  h.stagesWhole (h.placeTurns (.inr (List.mem_map_of_mem hmem)))

end Brings

theorem legTurn_settled {table : CodeTable} (h : table.Settled) (leg : Leg) : (legTurn roots table leg).2 = table := by
  cases leg with
  | stack id => rfl
  | code id => rfl
  | blob found => exact congrArg Prod.snd (CodeTable.claims_settled h [found])

theorem legWhole_settled {table : CodeTable} (h : table.Settled) (leg : Leg) :
    (legWhole roots table leg).2 = table := by
  cases leg with
  | code id => exact congrArg Prod.snd (CodeTable.claims_settled h (roots.code id))
  | stack | blob => exact legTurn_settled h _

theorem legsWhole_settled {table : CodeTable} (h : table.Settled) (legs : List Leg) :
    (legsWhole roots table legs).2 = table := by
  induction legs with
  | nil => rfl
  | cons leg legs ih => simp only [legsWhole, legWhole_settled h leg, ih]

/-- The scan of the code table leaves no blob to claim. -/
theorem brings_settled (b : Binding μ ε) (roots : HostRoots) :
    b.Brings roots .codeCache fun t => t.code.Settled where
  turn t stage h := by
    cases stage with
    | ahead category =>
      cases category with
      | threadStacks => exact h.resolve_right (by simp)
      | codeCache => exact settled_jobEffect (.inr rfl)
      | global | stringTable | classLoaderGraph | weakProcessor =>
        exact settled_jobEffect (.inl (h.resolve_right (by simp)))
    | walking legs shown =>
      have hsettled := h.resolve_right (by simp)
      cases legs with
      | nil => exact hsettled
      | cons leg legs =>
        simp only [stageTurn, legTurn_settled hsettled]
        exact hsettled
    | ended category shown => exact h.resolve_right (by simp)
  whole t stage h := by
    cases stage with
    | ahead category => exact settled_jobEffect (h.imp_right fun hahead => by cases hahead; rfl)
    | walking legs shown =>
      have hsettled := h.resolve_right (by simp)
      simp only [stageWhole, legsWhole_settled hsettled]
      exact hsettled
    | ended category shown => exact h.resolve_right (by simp)

/-- Where weak handles are roots for a while, the scan of weak storage takes them. -/
theorem brings_taken (roots : HostRoots) (hfilter : b.defaultFilter = .nonStuckOnly) :
    b.Brings roots .weakProcessor fun t => t.weak.nursery = [] where
  turn t stage h := by
    cases stage with
    | ahead category =>
      cases category with
      | threadStacks => exact h.resolve_right (by simp)
      | weakProcessor => exact taken_jobEffect hfilter (.inr rfl)
      | global | codeCache | stringTable | classLoaderGraph =>
        exact taken_jobEffect hfilter (.inl (h.resolve_right (by simp)))
    | walking legs shown =>
      have htaken := h.resolve_right (by simp)
      cases legs <;> exact htaken
    | ended category shown => exact h.resolve_right (by simp)
  whole t stage h := by
    cases stage with
    | ahead category => exact taken_jobEffect hfilter (h.imp_right fun hahead => by cases hahead; rfl)
    | walking legs shown => exact h.resolve_right (by simp)
    | ended category shown => exact h.resolve_right (by simp)

theorem exhausted_scansEffect (hcode : .codeCache ∈ categories)
    (hweak : b.defaultFilter = .nonStuckOnly → .weakProcessor ∈ categories) :
    b.Exhausted (b.scansEffect roots t turns categories).2 where
  code := (brings_settled b roots).scansEffect hcode
  weak hfilter := (brings_taken roots hfilter).scansEffect (hweak hfilter)

/-- Scans of the strong roots report, whatever their turns, what the walks find and what the tables have for them, and
leave what jobs one after another leave. -/
theorem scansEffect_strong (b : Binding μ ε) (roots : HostRoots) (h : t.code.Sound) (turns : List Nat) :
    ((b.scansEffect roots t turns (RootCategory.strong b.options.weakProcessing)).1.flatMap Prod.snd).Perm
        (b.jobsByCategory.flatMap (b.ownSlots roots t.registry) ++ (t.code.freeSlots ++ b.waiting t)) ∧
      (b.scansEffect roots t turns (RootCategory.strong b.options.weakProcessing)).2 = b.finished t := by
  have hpasses := passes_scansEffect b roots h turns (RootCategory.strong b.options.weakProcessing)
  have hexhausted : b.Exhausted
      (b.scansEffect roots t turns (RootCategory.strong b.options.weakProcessing)).2 := by
    refine exhausted_scansEffect ?_ fun hfilter => ?_
    · cases b.options.weakProcessing <;> decide
    · unfold defaultFilter at hfilter
      cases hmode : b.options.weakProcessing with
      | tracing => simp [hmode, LiveFilter.ofMode] at hfilter
      | referenceCounting => decide
  have hslots := hpasses.slots
  have hfinished := hpasses.finished
  rw [hexhausted.freeSlots, hexhausted.waiting, List.append_nil, List.append_nil] at hslots
  rw [hexhausted.finished] at hfinished
  rw [jobsByCategory, List.flatMap_map]
  exact ⟨hslots, hfinished⟩

end Exhausting

end Safepoint.Binding
