import Safepoint.Proofs.Roots.SharedCode

/-!
# How a registration replaces another

A registration replaces what was registered before, unless a scan takes the old entry out of the nursery while the
registration is between its sections. Then the old entry comes back among the mature blobs, where it is found first.
-/
namespace Safepoint.CodeThreads

open Shared CodeStage

/-- A scan takes the blob out of the nursery while a registration of it is between its sections. -/
def Revives (code : CodeId) (s : CodeThreads) (m : Move CodeCall) : Prop :=
  ∃ thread other start visits epoch slots, m = .go thread ∧
    s.stages thread = some (.taking start visits epoch) ∧ code ∈ s.value.nursery ∧
    s.stages other = some (.adding code slots)

variable {code other : CodeId} {v v' : SharedCode} {s s' : CodeThreads} {thread : ThreadId} {stage : CodeStage}
  {rest : Option CodeStage} {number start : Nat}

/-- The number is that of a registration of the id, and no other among the first `start` comes after it. -/
structure UpToDate (v : SharedCode) (start : Nat) (code : CodeId) (number : Nat) : Prop where
  started : start ≤ v.count
  known : number < v.count
  owner : v.owner number = code
  newest : ∀ earlier < start, v.owner earlier = code → earlier ≤ number

/-- No registration of the id comes after the one with the number. -/
abbrev Latest (v : SharedCode) (code : CodeId) (number : Nat) : Prop := UpToDate v v.count code number

/-- A report of the id was not out of date, and showed what was registered. -/
def Shown (code : CodeId) (v : SharedCode) (report : BlobReport) : Prop :=
  report.code = code → UpToDate v report.start code report.number ∧ report.slots = (v.entries report.number).slots

/-- Nothing is out of date in the table. -/
structure Current (code : CodeId) (v : SharedCode) : Prop where
  nursery : ∀ number, v.nursery[code]? = some number → Latest v code number ∧ v.mature[code]? = none
  mature : ∀ number, v.mature[code]? = some number → Latest v code number
  reports : ∀ report ∈ v.reports, Shown code v report

/-- Nothing is out of date that a thread has come upon. A registration past its first section finds no mature blob, and
a scan does not put one back that was replaced. -/
def Fits (code : CodeId) (v : SharedCode) : CodeStage → Prop
  | .adding other _ => other = code → v.mature[code]? = none
  | .looking start _ | .lookingOn start _ | .scanning start _ | .waiting start _ _ => start ≤ v.count
  | .found start other number | .claiming start other number _ => other = code → UpToDate v start code number
  | .taking start _ _ => v.locked ∧ start ≤ v.count
  | .visiting start _ _ rest taken => v.locked ∧ (∀ number, (code, number) ∈ rest → UpToDate v start code number) ∧
      ∀ number, taken[code]? = some number → Latest v code number ∧ v.nursery[code]? = none
  | .unwinding => v.locked
  | _ => True

/-- What holds of the registrations of an id as long as no scan revives one. -/
structure Guarded (code : CodeId) (s : CodeThreads) : Prop where
  current : Current code s.value
  fits : ∀ thread stage, s.stages thread = some stage → Fits code s.value stage
  alone : ∀ thread thread' stage stage', s.stages thread = some stage → s.stages thread' = some stage' →
    stage.Holds → stage'.Holds → thread = thread'
  untaken : ∀ thread thread' slots start visits epoch more taken, s.stages thread = some (.adding code slots) →
    s.stages thread' = some (.visiting start visits epoch more taken) → taken[code]? = none

theorem Latest.upToDate (h : Latest v code number) (hstart : start ≤ v.count) : UpToDate v start code number :=
  ⟨hstart, h.known, h.owner, fun earlier hearlier => h.newest earlier (Nat.lt_of_lt_of_le hearlier hstart)⟩

theorem owner_addNursery_of_lt (h : number < v.count) (code : CodeId) (slots : List Slot) :
    (v.addNursery code slots).owner number = v.owner number := Function.update_of_ne (Nat.ne_of_lt h) ..

theorem owner_addNursery (v : SharedCode) (code : CodeId) (slots : List Slot) :
    (v.addNursery code slots).owner v.count = code := Function.update_self ..

theorem entries_addNursery_of_lt (h : number < v.count) (code : CodeId) (slots : List Slot) :
    (v.addNursery code slots).entries number = v.entries number := Function.update_of_ne (Nat.ne_of_lt h) ..

theorem UpToDate.addNursery (h : UpToDate v start code number) (other : CodeId) (slots : List Slot) :
    UpToDate (v.addNursery other slots) start code number where
  started := Nat.le_succ_of_le h.started
  known := Nat.lt_succ_of_lt h.known
  owner := (owner_addNursery_of_lt h.known ..).trans h.owner
  newest earlier hearlier howner := by
    rw [owner_addNursery_of_lt (Nat.lt_of_lt_of_le hearlier h.started)] at howner
    exact h.newest earlier hearlier howner

theorem Latest.addNursery (h : Latest v code number) (hne : other ≠ code) (slots : List Slot) :
    Latest (v.addNursery other slots) code number where
  started := Nat.le_refl _
  known := (UpToDate.addNursery h other slots).known
  owner := (UpToDate.addNursery h other slots).owner
  newest earlier hearlier howner := by
    obtain hlt | rfl := Nat.lt_or_eq_of_le (Nat.le_of_lt_succ hearlier)
    · exact (UpToDate.addNursery h other slots).newest earlier hlt howner
    · rw [owner_addNursery] at howner
      exact absurd howner hne

theorem latest_addNursery (v : SharedCode) (code : CodeId) (slots : List Slot) :
    Latest (v.addNursery code slots) code v.count :=
  ⟨Nat.le_refl _, Nat.lt_succ_self _, owner_addNursery .., fun _ hearlier _ => Nat.le_of_lt_succ hearlier⟩

theorem UpToDate.promote (h : UpToDate v start code number) (taken : Std.ExtTreeMap CodeId Nat) :
    UpToDate (v.promote taken) start code number := ⟨h.started, h.known, h.owner, h.newest⟩

theorem Shown.addNursery {report : BlobReport} (h : Shown code v report) (other : CodeId) (slots : List Slot) :
    Shown code (v.addNursery other slots) report := by
  intro hcode
  obtain ⟨hdate, hslots⟩ := h hcode
  exact ⟨hdate.addNursery other slots, hslots.trans (by rw [entries_addNursery_of_lt hdate.known])⟩

/-- Whoever has the lock keeps others from getting it. -/
theorem Fits.locked (h : Fits code v stage) (hholds : stage.Holds) : v.locked := by
  cases stage with
  | taking => exact h.1
  | visiting => exact h.1
  | unwinding => exact h
  | _ => exact hholds.elim

/-- The blobs are no more than they were, and no blob is registered. -/
structure Shrinks (code : CodeId) (v v' : SharedCode) : Prop where
  count : v'.count = v.count
  owner : v'.owner = v.owner
  nursery : v'.nursery[code]? = v.nursery[code]? ∨ v'.nursery[code]? = none
  mature : v'.mature[code]? = v.mature[code]? ∨ v'.mature[code]? = none
  slots : ∀ number, (v'.entries number).slots = (v.entries number).slots

namespace Shrinks

theorem refl (v : SharedCode) : Shrinks code v v := ⟨rfl, rfl, .inl rfl, .inl rfl, fun _ => rfl⟩

theorem dropMature (v : SharedCode) (other : CodeId) : Shrinks code v (v.dropMature other) where
  count := rfl
  owner := rfl
  nursery := .inl rfl
  mature := by
    rw [SharedCode.dropMature, CodeTable.getElem?_erase]
    split
    · exact .inr rfl
    · exact .inl rfl
  slots _ := rfl

theorem dropNursery (v : SharedCode) (other : CodeId) : Shrinks code v (v.dropNursery other) where
  count := rfl
  owner := rfl
  nursery := by
    rw [SharedCode.dropNursery, CodeTable.getElem?_erase]
    split
    · exact .inr rfl
    · exact .inl rfl
  mature := .inl rfl
  slots _ := rfl

theorem report (v : SharedCode) (start : Nat) (other : CodeId) (number : Nat) (epoch : UInt64) :
    Shrinks code v (v.report start other number epoch) where
  count := rfl
  owner := rfl
  nursery := .inl rfl
  mature := .inl rfl
  slots _ := SharedCode.slots_report ..

theorem upToDate (h : Shrinks code v v') (hdate : UpToDate v start code number) : UpToDate v' start code number :=
  ⟨h.count ▸ hdate.started, h.count ▸ hdate.known, h.owner ▸ hdate.owner, h.owner ▸ hdate.newest⟩

theorem latest (h : Shrinks code v v') (hlatest : Latest v code number) : Latest v' code number := by
  rw [Latest, h.count]
  exact h.upToDate hlatest

theorem current (h : Shrinks code v v') (hcurrent : Current code v)
    (hreports : ∀ report ∈ v'.reports, report ∈ v.reports ∨ Shown code v report) : Current code v' where
  nursery number hnumber := by
    obtain heq | hnone := h.nursery
    · obtain ⟨hlatest, hmature⟩ := hcurrent.nursery number (heq ▸ hnumber)
      exact ⟨h.latest hlatest, h.mature.elim (·.trans hmature) id⟩
    · simp [hnone] at hnumber
  mature number hnumber := by
    obtain heq | hnone := h.mature
    · exact h.latest (hcurrent.mature number (heq ▸ hnumber))
    · simp [hnone] at hnumber
  reports report hreport hcode := by
    obtain ⟨hdate, hslots⟩ := (hreports report hreport).elim (hcurrent.reports report) id hcode
    exact ⟨h.upToDate hdate, hslots.trans (h.slots _).symm⟩

theorem fits (h : Shrinks code v v') (hlocked : stage.Holds → v'.locked) (hfits : Fits code v stage) :
    Fits code v' stage := by
  have hcount : v.count ≤ v'.count := Nat.le_of_eq h.count.symm
  cases stage with
  | adding other slots => exact fun heq => h.mature.elim (·.trans (hfits heq)) id
  | looking | lookingOn | scanning | waiting => exact Nat.le_trans hfits hcount
  | found | claiming => exact fun heq => h.upToDate (hfits heq)
  | taking => exact ⟨hlocked trivial, Nat.le_trans hfits.2 hcount⟩
  | visiting start visits epoch rest taken =>
    refine ⟨hlocked trivial, fun number hnumber => h.upToDate (hfits.2.1 number hnumber), fun number hnumber => ?_⟩
    obtain ⟨hlatest, hnursery⟩ := hfits.2.2 number hnumber
    exact ⟨h.latest hlatest, h.nursery.elim (·.trans hnursery) id⟩
  | unwinding => exact hlocked trivial
  | _ => trivial

end Shrinks

namespace Guarded

theorem fresh (code : CodeId) : Guarded code ⟨{}, fun _ => none⟩ where
  current := ⟨fun number h => by simp at h, fun number h => by simp at h, fun report h => by simp at h⟩
  fits _ _ h := by cases h
  alone _ _ _ _ h := by cases h
  untaken _ _ _ _ _ _ _ _ h := by cases h

/-- Nobody has the lock while it is free. -/
theorem not_holds (h : Guarded code s) (hfree : s.value.locked = false) (hstage : s.stages thread = some stage) :
    ¬stage.Holds := by
  intro hholds
  have hlocked := (h.fits thread stage hstage).locked hholds
  simp [hfree] at hlocked

/-- A thread comes to another stage. -/
theorem assign (h : Guarded code s) (hcurrent : Current code v')
    (hothers : ∀ other stage, other ≠ thread → s.stages other = some stage → Fits code v' stage)
    (hfits : ∀ stage, rest = some stage → Fits code v' stage)
    (hholds : ∀ stage, rest = some stage → stage.Holds →
      s.value.locked = false ∨ ∃ stage, s.stages thread = some stage ∧ stage.Holds)
    (hadding : ∀ slots, rest = some (.adding code slots) → s.value.locked = false)
    (hvisiting : ∀ start visits epoch more taken, rest = some (.visiting start visits epoch more taken) →
      ∀ other slots, s.stages other = some (.adding code slots) → taken[code]? = none) :
    Guarded code (s.assign thread v' rest) where
  current := hcurrent
  fits other stage hstage := by
    obtain ⟨-, hrest⟩ | ⟨hne, hstage⟩ := assign_eq_some.1 hstage
    · exact hfits stage hrest
    · exact hothers other stage hne hstage
  alone := by
    have honly {other : ThreadId} {stage stage' : CodeStage} (hrest : rest = some stage) (hstage : stage.Holds)
        (hother : s.stages other = some stage') (hother' : stage'.Holds) : thread = other := by
      obtain hfree | ⟨before, hbefore, hbefore'⟩ := hholds stage hrest hstage
      · exact absurd hother' (h.not_holds hfree hother)
      · exact h.alone _ _ _ _ hbefore hother hbefore' hother'
    intro first second stage stage' hfirst hsecond hstage hstage'
    obtain ⟨rfl, hrest⟩ | ⟨-, hbefore⟩ := assign_eq_some.1 hfirst
    · obtain ⟨rfl, -⟩ | ⟨-, hother⟩ := assign_eq_some.1 hsecond
      · rfl
      · exact honly hrest hstage hother hstage'
    · obtain ⟨rfl, hrest⟩ | ⟨-, hother⟩ := assign_eq_some.1 hsecond
      · exact (honly hrest hstage' hbefore hstage).symm
      · exact h.alone _ _ _ _ hbefore hother hstage hstage'
  untaken first second slots start visits epoch more taken hfirst hsecond := by
    obtain ⟨rfl, hrest⟩ | ⟨-, hbefore⟩ := assign_eq_some.1 hfirst
    · obtain ⟨-, hrest'⟩ | ⟨-, hother⟩ := assign_eq_some.1 hsecond
      · cases hrest.symm.trans hrest'
      · exact absurd trivial (h.not_holds (hadding slots hrest) hother)
    · obtain ⟨rfl, hrest⟩ | ⟨-, hother⟩ := assign_eq_some.1 hsecond
      · exact hvisiting start visits epoch more taken hrest first slots hbefore
      · exact h.untaken _ _ _ _ _ _ _ _ hbefore hother

/-- A thread that has no need of the lock comes to another stage, and no blob is added to the table. -/
theorem shrink (h : Guarded code s) (hshrinks : Shrinks code s.value v') (hlocked : v'.locked = s.value.locked)
    (hreports : ∀ report ∈ v'.reports, report ∈ s.value.reports ∨ Shown code s.value report)
    (hfits : ∀ stage, rest = some stage → Fits code v' stage ∧ ¬stage.Holds)
    (hadding : ∀ slots, rest = some (.adding code slots) → s.value.locked = false) :
    Guarded code (s.assign thread v' rest) := by
  refine h.assign (hshrinks.current h.current hreports) (fun other stage _ hother => ?_)
    (fun stage hrest => (hfits stage hrest).1) (fun stage hrest hholds => absurd hholds (hfits stage hrest).2) hadding
    fun start visits epoch more taken hrest => absurd trivial (hfits _ hrest).2
  have hfits := h.fits other stage hother
  exact hshrinks.fits (fun hholds => hlocked ▸ hfits.locked hholds) hfits

theorem mem_report {report : BlobReport} {epoch : UInt64} (h : report ∈ (v.report start other number epoch).reports)
    (hdate : other = code → UpToDate v start code number) :
    report ∈ v.reports ∨ Shown code v report := by
  obtain hold | hnew := List.mem_append.1 h
  · exact .inl hold
  · rw [List.mem_singleton.1 hnew]
    exact .inr fun hcode => ⟨hdate hcode, rfl⟩

/-- A registration is complete. -/
theorem register {slots : List Slot} (h : Guarded code s) (hstage : s.stages thread = some (.adding other slots)) :
    Guarded code (s.assign thread (s.value.addNursery other slots) none) := by
  have hmature (heq : other = code) : s.value.mature[code]? = none := h.fits _ _ hstage heq
  have hcurrent : Current code (s.value.addNursery other slots) := by
    refine ⟨fun number hnumber => ?_, fun number hnumber => ?_, fun report hreport =>
      (h.current.reports report hreport).addNursery other slots⟩
    · rw [SharedCode.addNursery, CodeTable.getElem?_insert] at hnumber
      split at hnumber
      · obtain rfl := ‹other = code›
        cases hnumber
        exact ⟨latest_addNursery .., hmature rfl⟩
      · obtain ⟨hlatest, hnone⟩ := h.current.nursery number hnumber
        exact ⟨hlatest.addNursery ‹_› slots, hnone⟩
    · refine (h.current.mature number hnumber).addNursery (fun heq => ?_) slots
      have hnumber : s.value.mature[code]? = some number := hnumber
      simp [hmature heq] at hnumber
  refine h.assign hcurrent (fun first stage _ hfirst => ?_) (by simp) (by simp) (by simp) (by simp)
  have hfits := h.fits first stage hfirst
  cases stage with
  | looking | lookingOn | scanning | waiting => exact Nat.le_succ_of_le hfits
  | found | claiming => exact fun heq => (hfits heq).addNursery other slots
  | taking => exact ⟨hfits.1, Nat.le_succ_of_le hfits.2⟩
  | visiting start visits epoch more taken =>
    refine ⟨hfits.1, fun number hnumber => (hfits.2.1 number hnumber).addNursery other slots, fun number hnumber => ?_⟩
    have hne : other ≠ code := by
      rintro rfl
      have hnone := h.untaken _ _ _ _ _ _ _ _ hstage hfirst
      simp [hnone] at hnumber
    obtain ⟨hlatest, hnone⟩ := hfits.2.2 number hnumber
    refine ⟨hlatest.addNursery hne slots, ?_⟩
    rw [SharedCode.addNursery, CodeTable.getElem?_insert, if_neg hne]
    exact hnone
  | _ => exact hfits

/-- A thread keeps the lock. -/
theorem hold {stage' : CodeStage} (h : Guarded code s) (hstage : s.stages thread = some stage) (hholds : stage.Holds)
    (hshrinks : Shrinks code s.value v') (hlocked : v'.locked = s.value.locked)
    (hreports : ∀ report ∈ v'.reports, report ∈ s.value.reports ∨ Shown code s.value report)
    (hfits : Fits code v' stage') (hholds' : stage'.Holds)
    (huntaken : ∀ start visits epoch more taken, stage' = .visiting start visits epoch more taken →
      ∀ other slots, s.stages other = some (.adding code slots) → taken[code]? = none) :
    Guarded code (s.assign thread v' (some stage')) := by
  have hfits' {other : ThreadId} {stage : CodeStage} (hother : s.stages other = some stage) : Fits code v' stage :=
    hshrinks.fits (fun hholds => hlocked ▸ (h.fits other stage hother).locked hholds) (h.fits other stage hother)
  refine h.assign (hshrinks.current h.current hreports) (fun other stage _ => hfits') ?_ ?_ ?_ ?_
  · rintro _ ⟨⟩
    exact hfits
  · exact fun _ _ _ => .inr ⟨stage, hstage, hholds⟩
  · rintro slots ⟨⟩
    exact hholds'.elim
  · rintro start visits epoch more taken ⟨⟩
    exact huntaken _ _ _ _ _ rfl

/-- A thread gives the lock back. -/
theorem release (h : Guarded code s) (hstage : s.stages thread = some stage) (hholds : stage.Holds)
    (hcurrent : Current code v')
    (hothers : ∀ other stage, s.stages other = some stage → ¬stage.Holds → Fits code v' stage) :
    Guarded code (s.assign thread v' none) := by
  refine h.assign hcurrent (fun other stage hne hother => hothers other stage hother fun hholds' => ?_)
    (by simp) (by simp) (by simp) (by simp)
  exact hne (h.alone _ _ _ _ hother hstage hholds' hholds)

/-- A scan takes the nursery. -/
theorem take {visits : Option Nat} {epoch : UInt64} (h : Guarded code s)
    (hstage : s.stages thread = some (.taking start visits epoch)) (hmay : ¬Revives code s (.go thread)) :
    Guarded code (s.assign thread { s.value with nursery := {} } (some (.visiting start visits epoch
      (s.value.mature.toList ++ s.value.nursery.toList) s.value.nursery))) := by
  have hshrinks : Shrinks code s.value { s.value with nursery := {} } :=
    ⟨rfl, rfl, .inr (by simp), .inl rfl, fun _ => rfl⟩
  obtain ⟨hlocked, hstart⟩ := h.fits _ _ hstage
  refine h.hold hstage trivial hshrinks rfl (fun _ => .inl) ⟨hlocked, fun number hnumber => ?_, fun number hnumber =>
    ⟨hshrinks.latest (h.current.nursery number hnumber).1, by simp⟩⟩ trivial ?_
  · have hlatest : Latest s.value code number := by
      rw [List.mem_append, Std.ExtTreeMap.mem_toList_iff_getElem?_eq_some,
        Std.ExtTreeMap.mem_toList_iff_getElem?_eq_some] at hnumber
      exact hnumber.elim (h.current.mature number) fun hnumber => (h.current.nursery number hnumber).1
    exact hshrinks.upToDate (hlatest.upToDate hstart)
  · rintro _ _ _ _ _ ⟨⟩ other slots hother
    by_contra hnone
    refine hmay ⟨thread, other, start, visits, epoch, slots, rfl, hstage, ?_, hother⟩
    rwa [Std.ExtTreeMap.mem_iff_isSome_getElem?, ← Option.ne_none_iff_isSome]

/-- What was in the nursery joins the rest. -/
theorem promote {visits : Option Nat} {epoch : UInt64} {taken : Std.ExtTreeMap CodeId Nat} (h : Guarded code s)
    (hstage : s.stages thread = some (.visiting start visits epoch [] taken)) :
    Guarded code (s.assign thread (s.value.promote taken) none) := by
  have hmature : (s.value.promote taken).mature[code]? = (taken[code]? <|> s.value.mature[code]?) :=
    CodeTable.getElem?_insertAll ..
  obtain ⟨-, -, htaken⟩ := h.fits _ _ hstage
  refine h.release hstage trivial ⟨fun number hnumber => ?_, fun number hnumber => ?_, fun report hreport hcode =>
      (h.current.reports report hreport hcode).imp_left (·.promote taken)⟩
    fun other stage hother hholds => ?_
  · obtain ⟨hlatest, hnone⟩ := h.current.nursery number hnumber
    refine ⟨hlatest.promote taken, ?_⟩
    rw [hmature, hnone]
    cases hcode : taken[code]? with
    | none => rfl
    | some old => cases (htaken old hcode).2.symm.trans hnumber
  · rw [hmature] at hnumber
    cases hcode : taken[code]? with
    | none => exact (h.current.mature number (by simpa [hcode] using hnumber)).promote taken
    | some old =>
      obtain rfl : old = number := by simpa [hcode] using hnumber
      exact (htaken old hcode).1.promote taken
  · have hfits := h.fits other stage hother
    cases stage with
    | adding code' slots =>
      rintro rfl
      rw [hmature, h.untaken _ _ _ _ _ _ _ _ hother hstage, hfits rfl]
      rfl
    | found | claiming => exact fun heq => (hfits heq).promote taken
    | taking | visiting | unwinding => exact absurd trivial hholds
    | _ => exact hfits

/-- A scan comes to the next blob. -/
theorem visit {visits : Option Nat} {epoch : UInt64} {more : List (CodeId × Nat)} {taken : Std.ExtTreeMap CodeId Nat}
    (h : Guarded code s)
    (hstage : s.stages thread = some (.visiting start visits epoch ((other, number) :: more) taken))
    (hnext : sections.next s.value (.visiting start visits epoch ((other, number) :: more) taken) = some (v', rest)) :
    Guarded code (s.assign thread v' rest) := by
  obtain ⟨hlocked, hrest, htaken⟩ := h.fits _ _ hstage
  have huntaken {visits' : Option Nat} (start' : Nat) (visits'' : Option Nat) (epoch' : UInt64)
      (more' : List (CodeId × Nat)) (taken' : Std.ExtTreeMap CodeId Nat)
      (heq : CodeStage.visiting start visits' epoch more taken = .visiting start' visits'' epoch' more' taken')
      (other : ThreadId) (slots : List Slot) (hother : s.stages other = some (.adding code slots)) :
      taken'[code]? = none := by
    cases heq
    exact h.untaken _ _ _ _ _ _ _ _ hother hstage
  have hfits {visits : Option Nat} : Fits code s.value (.visiting start visits epoch more taken) :=
    ⟨hlocked, fun number hnumber => hrest number (List.mem_cons_of_mem _ hnumber), htaken⟩
  have hreports {report : BlobReport} (hreport : report ∈ (s.value.report start other number epoch).reports) :=
    mem_report hreport fun heq => hrest number (by rw [heq]; exact List.mem_cons_self)
  have hshrinks : Shrinks code s.value (s.value.report start other number epoch) := .report ..
  simp only [sections, carryOut] at hnext
  split at hnext
  · cases hnext
    split
    · exact h.hold hstage trivial hshrinks rfl (fun _ => hreports) hlocked trivial (by simp)
    · exact h.hold hstage trivial hshrinks rfl (fun _ => hreports) (hshrinks.fits (fun _ => hlocked) hfits) trivial
        huntaken
  · cases hnext
    exact h.hold hstage trivial (.refl _) rfl (fun _ => .inl) hfits trivial huntaken

/-- What a thread does next in its call. -/
theorem go (h : Guarded code s) (hstage : s.stages thread = some stage) (hmay : ¬Revives code s (.go thread))
    (hnext : sections.next s.value stage = some (v', rest)) : Guarded code (s.assign thread v' rest) := by
  have hfits := h.fits thread stage hstage
  have hold {report : BlobReport} (hreport : report ∈ s.value.reports) :
      report ∈ s.value.reports ∨ Shown code s.value report := .inl hreport
  cases stage with
  | dropping other slots =>
    simp only [sections, carryOut, Option.ite_none_left_eq_some, Bool.not_eq_true] at hnext
    obtain ⟨hfree, hnext⟩ := hnext
    cases hnext
    refine h.shrink (.dropMature _ other) rfl (fun _ => hold) ?_ fun _ _ => hfree
    rintro _ ⟨⟩
    refine ⟨fun heq => ?_, id⟩
    rw [SharedCode.dropMature, CodeTable.getElem?_erase, if_pos heq]
  | adding other slots =>
    cases hnext
    exact h.register hstage
  | forgetting other =>
    cases hnext
    refine h.shrink (.dropNursery _ other) rfl (fun _ => hold) ?_ (by simp)
    rintro _ ⟨⟩
    exact ⟨trivial, id⟩
  | forgettingMature other =>
    simp only [sections, carryOut, Option.ite_none_left_eq_some, Bool.not_eq_true] at hnext
    obtain ⟨-, hnext⟩ := hnext
    cases hnext
    exact h.shrink (.dropMature _ other) rfl (fun _ => hold) (by simp) (by simp)
  | beginning =>
    cases hnext
    exact h.shrink ⟨rfl, rfl, .inl rfl, .inl rfl, fun _ => rfl⟩ rfl (fun _ => hold) (by simp) (by simp)
  | looking start other =>
    simp only [sections, carryOut, Option.ite_none_left_eq_some, Bool.not_eq_true] at hnext
    obtain ⟨-, hnext⟩ := hnext
    cases hnext
    refine h.shrink (.refl _) rfl (fun _ => hold) ?_ ?_
    · rintro stage ⟨⟩
      split
      · refine ⟨fun heq => ?_, id⟩
        subst heq
        exact (h.current.mature _ ‹_›).upToDate hfits
      · exact ⟨hfits, id⟩
    · intro slots heq
      split at heq <;> cases heq
  | lookingOn start other =>
    cases hnext
    refine h.shrink (.refl _) rfl (fun _ => hold) ?_ (by simp)
    intro stage hrest
    obtain ⟨number, hnumber, rfl⟩ := Option.map_eq_some_iff.1 hrest
    refine ⟨fun heq => ?_, id⟩
    subst heq
    exact (h.current.nursery number hnumber).1.upToDate hfits
  | found start other number =>
    cases hnext
    refine h.shrink (.refl _) rfl (fun _ => hold) ?_ (by simp)
    rintro _ ⟨⟩
    exact ⟨hfits, id⟩
  | claiming start other number epoch =>
    cases hnext
    split
    · exact h.shrink (.report _ start other number epoch) rfl (fun _ hreport => mem_report hreport hfits)
        (by simp) (by simp)
    · exact h.shrink (.refl _) rfl (fun _ => hold) (by simp) (by simp)
  | scanning start visits =>
    cases hnext
    refine h.shrink (.refl _) rfl (fun _ => hold) ?_ (by simp)
    rintro _ ⟨⟩
    exact ⟨hfits, id⟩
  | waiting start visits epoch =>
    simp only [sections, carryOut, Option.ite_none_left_eq_some, Bool.not_eq_true] at hnext
    obtain ⟨hfree, hnext⟩ := hnext
    cases hnext
    have hshrinks : Shrinks code s.value { s.value with locked := true } := ⟨rfl, rfl, .inl rfl, .inl rfl, fun _ => rfl⟩
    refine h.assign (hshrinks.current h.current fun _ => hold) (fun first stage _ hfirst =>
      hshrinks.fits (fun _ => rfl) (h.fits first stage hfirst)) ?_ (fun _ _ _ => .inl hfree) (by simp) (by simp)
    rintro _ ⟨⟩
    exact ⟨rfl, hfits⟩
  | taking start visits epoch =>
    cases hnext
    exact h.take hstage hmay
  | visiting start visits epoch more taken =>
    cases more with
    | nil =>
      cases hnext
      exact h.promote hstage
    | cons e more => exact h.visit hstage hnext
  | unwinding =>
    cases hnext
    have hshrinks : Shrinks code s.value { s.value with locked := false } :=
      ⟨rfl, rfl, .inl rfl, .inl rfl, fun _ => rfl⟩
    exact h.release hstage trivial (hshrinks.current h.current fun _ => hold) fun first stage hfirst hholds =>
      hshrinks.fits (fun hholds' => absurd hholds' hholds) (h.fits first stage hfirst)

theorem move {m : Move CodeCall} (h : Guarded code s) (hmay : ¬Revives code s m) (hmove : s.move sections m = some s') :
    Guarded code s' := by
  obtain ⟨thread, call, rfl, -, rfl⟩ | ⟨thread, stage, v', rest, rfl, hstage, hnext, rfl⟩ := move_cases hmove
  · refine h.shrink (.refl _) rfl (fun _ => .inl) ?_ ?_
    · rintro _ ⟨⟩
      obtain (code' | code' | _ | code' | _) | visits := call
      all_goals exact ⟨by first | trivial | exact Nat.le_refl _, id⟩
    · intro slots hrest
      obtain (code' | code' | _ | code' | _) | visits := call <;> cases hrest
  · exact h.go hstage hmay hnext

theorem of_reached (h : Reached sections (fun s m => ¬Revives code s m) {} s) : Guarded code s :=
  h.keeps (fresh code) fun _ _ _ hguarded hmay hmove => hguarded.move hmay hmove

end Guarded

/-- A scan takes the nursery, and goes through it, while a registration of a blob of the nursery is between its
sections. -/
theorem both_of_revived {scanner : ThreadId} {epoch : UInt64} {slots : List Slot}
    (hadding : s.stages thread = some (.adding code slots))
    (htaking : s.stages scanner = some (.taking start none epoch)) (hin : code ∈ s.value.nursery) :
    ∃ n s', run sections (List.replicate n (.go scanner) ++ [.go thread]) s = some s' ∧
      s'.value.nursery[code]? = some s.value.count ∧ s'.value.mature[code]? = s.value.nursery[code]? ∧
      ∀ other, s'.stages other = if other = thread ∨ other = scanner then none else s.stages other := by
  have hne : thread ≠ scanner := by
    rintro rfl
    cases hadding.symm.trans htaking
  let emptied : SharedCode := { s.value with nursery := {} }
  let all : List (CodeId × Nat) := s.value.mature.toList ++ s.value.nursery.toList
  let scanned : SharedCode := (claimEach emptied start epoch all).promote s.value.nursery
  have hleaves : sections.Leaves s.value (.taking start none epoch) scanned := .more rfl (leaves_visiting ..)
  obtain ⟨n, hscan⟩ := run_leaves hleaves s scanner
  rw [assign_self htaking] at hscan
  have hadd : (s.assign scanner scanned none).move sections (.go thread) =
      some ((s.assign scanner scanned none).assign thread (scanned.addNursery code slots) none) :=
    move_go (by rw [stages_assign, if_neg hne, hadding]) rfl
  obtain ⟨-, hcount⟩ := nursery_visited emptied start epoch all s.value.nursery
  obtain ⟨old, hold⟩ := Option.isSome_iff_exists.1 (Std.ExtTreeMap.mem_iff_isSome_getElem?.1 hin)
  refine ⟨n, (s.assign scanner scanned none).assign thread (scanned.addNursery code slots) none, ?_, ?_, ?_, ?_⟩
  · rw [run_append, hscan, Option.bind_some, run_cons_of_move hadd, run_nil]
  · change (scanned.nursery.insert code scanned.count)[code]? = _
    rw [CodeTable.getElem?_insert, if_pos rfl]
    exact congrArg some hcount
  · change scanned.mature[code]? = _
    rw [mature_visited, hold]
    rfl
  · intro other
    simp only [stages_assign]
    by_cases hthread : other = thread <;> by_cases hother : other = scanner <;> simp [hthread, hother]

/-- No scan takes the blob out of the nursery. -/
def leavesAlone (code : CodeId) (s : CodeThreads) : Move CodeCall → Bool
  | .call .. => true
  | .go thread => match s.stages thread with
    | some (.taking ..) => code ∉ s.value.nursery
    | _ => true

theorem not_revives_of_left_alone {m : Move CodeCall} (h : leavesAlone code s m = true) : ¬Revives code s m := by
  rintro ⟨thread, -, start, visits, epoch, -, rfl, htaking, hin, -⟩
  simp [leavesAlone, htaking, hin] at h

/-- What a thread is about to put into the nursery. -/
def added (s : CodeThreads) (thread : ThreadId) : Option (CodeId × List Slot) :=
  match s.stages thread with
  | some (.adding code slots) => some (code, slots)
  | _ => none

/-- Where a scan is about to take the nursery. -/
def taker (s : CodeThreads) (thread : ThreadId) : Option (Nat × UInt64) :=
  match s.stages thread with
  | some (.taking start none epoch) => some (start, epoch)
  | _ => none

theorem added_eq_some {slots : List Slot} (h : added s thread = some (code, slots)) :
    s.stages thread = some (.adding code slots) := by
  unfold added at h
  split at h <;> cases h
  assumption

theorem taker_eq_some {epoch : UInt64} (h : taker s thread = some (start, epoch)) :
    s.stages thread = some (.taking start none epoch) := by
  unfold taker at h
  split at h <;> cases h
  assumption

/-- Calls of any threads in any order: as long as no scan takes a blob out of the nursery while a registration of it is
between its sections, the blob is in one of the maps at most, and whoever reports it shows slots that were registered
for it, and no earlier ones than the last that were registered when its call began. If a scan does, the old registration
is among the mature blobs when both calls are over, and the new one in the nursery. -/
theorem replaced_unless_revived (code : CodeId) :
    (∀ s : CodeThreads, Reached sections (fun s m => ¬Revives code s m) {} s →
      ¬(code ∈ s.value.nursery ∧ code ∈ s.value.mature) ∧
      ∀ report ∈ s.value.reports, report.code = code → s.value.owner report.number = code ∧
        report.slots = (s.value.entries report.number).slots ∧
        ∀ number < report.start, s.value.owner number = code → number ≤ report.number) ∧
    ∀ (s : CodeThreads) (thread scanner : ThreadId) (start : Nat) (epoch : UInt64) (slots : List Slot),
      s.stages thread = some (.adding code slots) → s.stages scanner = some (.taking start none epoch) →
      code ∈ s.value.nursery →
      ∃ n s', run sections (List.replicate n (.go scanner) ++ [.go thread]) s = some s' ∧
        s'.value.nursery[code]? = some s.value.count ∧ s'.value.mature[code]? = s.value.nursery[code]? ∧
        ∀ other, s'.stages other = if other = thread ∨ other = scanner then none else s.stages other := by
  refine ⟨fun s hreached => ?_, fun s thread scanner start epoch slots => both_of_revived⟩
  obtain ⟨hnursery, -, hreports⟩ := (Guarded.of_reached hreached).current
  constructor
  · rintro ⟨hin, hmature⟩
    obtain ⟨number, hnumber⟩ := Option.isSome_iff_exists.1 (Std.ExtTreeMap.mem_iff_isSome_getElem?.1 hin)
    exact CodeTable.not_mem_of_getElem? (hnursery number hnumber).2 hmature
  · intro report hreport hcode
    obtain ⟨hdate, hslots⟩ := hreports report hreport hcode
    exact ⟨hdate.owner, hslots, hdate.newest⟩

/-- A scan comes between the sections of a registration. If the blob is new, it is registered and can be claimed; if it
was in the nursery before, it is in both maps in the end. -/
theorem scan_between_sections :
    let a : ThreadId := ⟨"a"⟩
    let b : ThreadId := ⟨"b"⟩
    let register (code : CodeId) (slots : List Slot) : Move CodeCall := .call a (.op (.register code slots))
    let claim : Move CodeCall := .call a (.op (.claim ⟨1⟩))
    (∃ s, run sections [register ⟨2⟩ [⟨0x2000⟩], .go a, .go a, .call a (.op .beginCycle), .go a,
          register ⟨1⟩ [⟨0x1000⟩], .go a, .call b (.op .scan), .go b, .go b, .go b, .go a, .go b, .go b,
          claim, .go a, .go a, .go a, .go a] ⟨{}, fun _ => none⟩ = some s ∧
        s.value.reports = [⟨1, ⟨2⟩, 0, [⟨0x2000⟩]⟩, ⟨2, ⟨1⟩, 1, [⟨0x1000⟩]⟩] ∧
        ¬(⟨1⟩ ∈ s.value.nursery ∧ ⟨1⟩ ∈ s.value.mature) ∧
        ∀ report ∈ s.value.reports, report.code = ⟨1⟩ → ∀ number < report.start, s.value.owner number = ⟨1⟩ →
          number ≤ report.number) ∧
    ∃ s n s', run sections [register ⟨1⟩ [⟨0x1000⟩], .go a, .go a, register ⟨1⟩ [⟨0x5000⟩], .go a,
          .call b (.op .scan), .go b, .go b] ⟨{}, fun _ => none⟩ = some s ∧
        run sections (List.replicate n (.go b) ++ [.go a]) s = some s' ∧ s'.value.nursery[(⟨1⟩ : CodeId)]? = some 1 ∧
        s'.value.mature[(⟨1⟩ : CodeId)]? = some 0 := by
  intro a b register claim
  constructor
  · let moves : List (Move CodeCall) := [register ⟨2⟩ [⟨0x2000⟩], .go a, .go a, .call a (.op .beginCycle), .go a,
      register ⟨1⟩ [⟨0x1000⟩], .go a, .call b (.op .scan), .go b, .go b, .go b, .go a, .go b, .go b,
      claim, .go a, .go a, .go a, .go a]
    have hrun : (runIf sections (leavesAlone ⟨1⟩) moves ⟨{}, fun _ => none⟩).map (·.value.reports) =
        some [⟨1, ⟨2⟩, 0, [⟨0x2000⟩]⟩, ⟨2, ⟨1⟩, 1, [⟨0x1000⟩]⟩] := by decide +kernel
    obtain ⟨s, hmoves, hreports⟩ := Option.map_eq_some_iff.1 hrun
    obtain ⟨hapart, hcurrent⟩ := (replaced_unless_revived ⟨1⟩).1 s
      (.of_runIf (fun _ _ => not_revives_of_left_alone) hmoves)
    exact ⟨s, run_of_runIf hmoves, hreports, hapart, fun report hreport hcode => (hcurrent report hreport hcode).2.2⟩
  · have hrun : (run sections [register ⟨1⟩ [⟨0x1000⟩], .go a, .go a, register ⟨1⟩ [⟨0x5000⟩], .go a,
        .call b (.op .scan), .go b, .go b] ⟨{}, fun _ => none⟩).map (fun s => (added s a, taker s b,
        decide (s.value.nursery[(⟨1⟩ : CodeId)]? = some 0 ∧ s.value.count = 1))) =
        some (some (⟨1⟩, [⟨0x5000⟩]), some (1, 0), true) := by decide +kernel
    obtain ⟨s, hmoves, hs⟩ := Option.map_eq_some_iff.1 hrun
    simp only [Prod.mk.injEq, decide_eq_true_eq] at hs
    obtain ⟨hadding, htaking, hnursery, hcount⟩ := hs
    obtain ⟨n, s', hrest, hnew, hold, -⟩ := (replaced_unless_revived ⟨1⟩).2 s a b 1 0 [⟨0x5000⟩]
      (added_eq_some hadding) (taker_eq_some htaking) (CodeTable.mem_of_getElem? hnursery)
    exact ⟨s, n, s', hmoves, hrest, hnew.trans (congrArg some hcount), hold.trans hnursery⟩

/-- A blob is registered anew, and a scan comes between the sections of that. When both calls are over, the blob is in
both maps, and it is the slots registered first that are reported when it is claimed in the next cycle. -/
theorem old_slots_reported :
    let a : ThreadId := ⟨"a"⟩
    let b : ThreadId := ⟨"b"⟩
    let register (slots : List Slot) : Move CodeCall := .call a (.op (.register ⟨1⟩ slots))
    let race : List (Move CodeCall) := [register [⟨0x1000⟩], .go a, .go a, register [⟨0x5000⟩, ⟨0x5008⟩], .go a,
      .call b (.op .scan), .go b, .go b, .go b, .go b, .go b, .go a]
    let later : List (Move CodeCall) := [.call b (.op .beginCycle), .go b, .call b (.op (.claim ⟨1⟩)), .go b, .go b, .go b]
    (∃ s, run sections race ⟨{}, fun _ => none⟩ = some s ∧ s.Idle ∧ s.value.nursery.toList = [(⟨1⟩, 1)] ∧
      s.value.mature.toList = [(⟨1⟩, 0)]) ∧
    ∃ s, run sections (race ++ later) ⟨{}, fun _ => none⟩ = some s ∧ s.Idle ∧
      s.value.reports = [⟨2, ⟨1⟩, 0, [⟨0x1000⟩]⟩] := by
  intro a b register race later
  have hrace : (run sections race ⟨{}, fun _ => none⟩).map (fun s => (race.all fun m => (s.stages m.thread).isNone,
      s.value.nursery.toList, s.value.mature.toList)) = some (true, [(⟨1⟩, 1)], [(⟨1⟩, 0)]) := by decide +kernel
  have hlater : (run sections (race ++ later) ⟨{}, fun _ => none⟩).map (fun s =>
      ((race ++ later).all fun m => (s.stages m.thread).isNone, s.value.reports)) =
      some (true, [⟨2, ⟨1⟩, 0, [⟨0x1000⟩]⟩]) := by decide +kernel
  obtain ⟨s, hmoves, hs⟩ := Option.map_eq_some_iff.1 hrace
  obtain ⟨s', hmoves', hs'⟩ := Option.map_eq_some_iff.1 hlater
  simp only [Prod.mk.injEq] at hs hs'
  exact ⟨⟨s, hmoves, idle_of_run hmoves hs.1, hs.2⟩, s', hmoves', idle_of_run hmoves' hs'.1, hs'.2⟩

end Safepoint.CodeThreads
