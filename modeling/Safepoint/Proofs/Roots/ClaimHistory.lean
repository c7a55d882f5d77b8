import Safepoint.Proofs.Roots.CodeLedger
import Safepoint.Proofs.Roots.Progress

/-!
# What a code table lists as claimed

Once a cycle has begun, the list of the claimed blobs tells what was reported: a blob is listed if it was reported since
the cycle began and since it was registered. Visitors may fault; what they have not been shown by then was not reported,
and a scan loses its nursery. Before the first cycle nothing can be claimed, but all blobs are listed, as the mark of a
blob that nobody has claimed is the number that the cycles start from.
-/
namespace Safepoint

namespace Act

variable {σ α β : Type} {call : α → Act σ Unit} {a : α} {as : List α} {s s' : σ} {cause : Fault}

/-- The members of a list that calls on them come to: all of them, or those up to the one where the call faults. -/
def reached (call : α → Act σ Unit) : List α → σ → List α
  | [], _ => []
  | a :: as, s =>
    match (call a).run s with
    | (.ok _, s') => a :: reached call as s'
    | (.error _, _) => [a]

theorem reached_cons_ok (call : α → Act σ Unit) (h : (call a).run s = (.ok (), s')) (as : List α) :
    reached call (a :: as) s = a :: reached call as s' := by
  rw [reached, h]

theorem reached_cons_error (call : α → Act σ Unit) (h : (call a).run s = (.error cause, s')) (as : List α) :
    reached call (a :: as) s = [a] := by
  rw [reached, h]

theorem reached_prefix (call : α → Act σ Unit) (as : List α) (s : σ) : reached call as s <+: as := by
  induction as generalizing s with
  | nil => exact List.prefix_rfl
  | cons a as ih =>
    rcases h : (call a).run s with ⟨cause | ⟨⟩, s'⟩
    · rw [reached_cons_error call h]
      exact ⟨as, rfl⟩
    · rw [reached_cons_ok call h, List.prefix_cons_inj]
      exact ih s'

theorem reached_singleton (call : α → Act σ Unit) (a : α) (s : σ) : reached call [a] s = [a] := by
  rcases h : (call a).run s with ⟨cause | ⟨⟩, s'⟩
  · exact reached_cons_error call h []
  · exact reached_cons_ok call h []

/-- The calls on what is reached are all the calls that are made. -/
theorem run_forM_reached (call : α → Act σ Unit) (as : List α) (s : σ) :
    ((reached call as s).forM call).run s = (as.forM call).run s := by
  induction as generalizing s with
  | nil => rfl
  | cons a as ih =>
    simp only [List.forM_eq_forM] at ih ⊢
    rcases h : (call a).run s with ⟨cause | ⟨⟩, s'⟩
    · rw [reached_cons_error call h, List.forM_cons, List.forM_cons, run_bind_error h, run_bind_error h]
    · rw [reached_cons_ok call h, List.forM_cons, List.forM_cons, run_bind_ok h, run_bind_ok h, ih]

theorem reached_map (f : α → β) (call : β → Act σ Unit) (as : List α) (s : σ) :
    reached call (as.map f) s = (reached (fun a => call (f a)) as s).map f := by
  induction as generalizing s with
  | nil => rfl
  | cons a as ih =>
    rw [List.map_cons]
    rcases h : (call (f a)).run s with ⟨cause | ⟨⟩, s'⟩
    · rw [reached_cons_error call h, reached_cons_error (fun a => call (f a)) h, List.map_singleton]
    · rw [reached_cons_ok call h, reached_cons_ok (fun a => call (f a)) h, List.map_cons, ih]

theorem reached_append_ok (h : (as.forM call).run s = (.ok (), s')) (bs : List α) :
    reached call (as ++ bs) s = as ++ reached call bs s' := by
  induction as generalizing s with
  | nil =>
    cases h
    rfl
  | cons a as ih =>
    rw [List.forM_eq_forM, List.forM_cons] at h
    obtain ⟨⟨⟩, s₁, ha, has⟩ := run_bind_eq_ok.1 h
    rw [List.cons_append, reached_cons_ok call ha, ih has, List.cons_append]

theorem reached_append_error (h : (as.forM call).run s = (.error cause, s')) (bs : List α) :
    reached call (as ++ bs) s = reached call as s := by
  induction as generalizing s with
  | nil => cases h
  | cons a as ih =>
    rw [List.forM_eq_forM, List.forM_cons] at h
    rw [List.cons_append]
    rcases ha : (call a).run s with ⟨cause | ⟨⟩, s₁⟩
    · rw [reached_cons_error call ha, reached_cons_error call ha]
    · rw [run_bind_ok ha] at h
      rw [reached_cons_ok call ha, reached_cons_ok call ha, ih h]

theorem reached_of_ok (h : (as.forM call).run s = (.ok (), s')) : reached call as s = as := by
  have hall := reached_append_ok h []
  rwa [List.append_nil, reached, List.append_nil] at hall

end Act

namespace CodeTable

variable {table left : CodeTable} {code : CodeId}

theorem lookup_of_nursery_none (h : table.nursery[code]? = none) : table.lookup code = table.mature[code]? := by
  rw [lookup, h]
  cases table.mature[code]? <;> rfl

section Scan

variable {ρ : Type} {visit : List Slot → Act ρ Unit} {epoch : UInt64} {r r' : ρ} {cause : Fault}

section Entries

variable {e : CodeId × CodeEntry} {entries : List (CodeId × CodeEntry)} {outcome : Except Fault Unit}

/-- A free entry is claimed before its visit, whatever comes of that. -/
theorem run_scanMature_free (hf : e.2.isFree epoch) (hv : (visit e.2.slots).run r = (outcome, r')) (table : CodeTable) :
    (scanMature visit epoch e).run (table, r) = (outcome.map fun _ => e.2.slots.length,
      { table with mature := table.mature.insert e.1 (e.2.claim epoch) }, r') := by
  cases outcome <;> simp [scanMature, hf, Act.run_bind, visitPlace, hv, Except.map]

theorem run_scanNursery_free (hf : e.2.isFree epoch) (hv : (visit e.2.slots).run r = (outcome, r'))
    (table : CodeTable) : (scanNursery visit epoch e).run (table, r) =
      (outcome.map fun _ => e.2.slots.length, table, r') := by
  cases outcome <;> simp [scanNursery, hf, visitPlace, hv, Except.map]

theorem filter_free_cons_of_neg (hf : ¬e.2.isFree epoch) (entries : List (CodeId × CodeEntry)) :
    ((e :: entries).filter fun e => e.2.isFree epoch) = entries.filter fun e => e.2.isFree epoch :=
  List.filter_cons_of_neg hf

/-- Where a visit faults, the entries up to that one are claimed. -/
theorem run_scanMature_of_error (table : CodeTable)
    (h : ((entries.filter fun e => e.2.isFree epoch).forM fun e => visit e.2.slots).run r = (.error cause, r')) :
    (entries.mapM (scanMature visit epoch)).run (table, r) =
      (.error cause, { table with
        mature := claimEach epoch table.mature
          (Act.reached (fun e => visit e.2.slots) (entries.filter fun e => e.2.isFree epoch) r) }, r') := by
  induction entries generalizing table r with
  | nil => cases h
  | cons e rest ih =>
    rw [List.mapM_cons]
    by_cases hf : e.2.isFree epoch
    · simp only [hf, List.filter_cons_of_pos, List.forM_eq_forM, List.forM_cons] at h ⊢
      rcases hv : (visit e.2.slots).run r with ⟨found | ⟨⟩, r₁⟩
      · rw [Act.run_bind_error hv] at h
        cases h
        rw [Act.run_bind_error (run_scanMature_free hf hv table),
          Act.reached_cons_error (fun e : CodeId × CodeEntry => visit e.2.slots) hv]
        simp [claimEach, hf]
      · rw [Act.run_bind_ok hv] at h
        rw [Act.run_bind_ok (run_scanMature_free hf hv table), Act.run_bind_error (ih _ h),
          Act.reached_cons_ok (fun e : CodeId × CodeEntry => visit e.2.slots) hv]
        simp [claimEach, hf]
    · have hstep : (scanMature visit epoch e).run (table, r) = (.ok 0, table, r) := by simp [scanMature, hf]
      rw [filter_free_cons_of_neg hf] at h ⊢
      rw [Act.run_bind_ok hstep, Act.run_bind_error (ih _ h)]

theorem run_scanNursery_of_error (table : CodeTable)
    (h : ((entries.filter fun e => e.2.isFree epoch).forM fun e => visit e.2.slots).run r = (.error cause, r')) :
    (entries.mapM (scanNursery visit epoch)).run (table, r) = (.error cause, table, r') := by
  induction entries generalizing r with
  | nil => cases h
  | cons e rest ih =>
    rw [List.mapM_cons]
    by_cases hf : e.2.isFree epoch
    · simp only [hf, List.filter_cons_of_pos, List.forM_eq_forM, List.forM_cons] at h
      rcases hv : (visit e.2.slots).run r with ⟨found | ⟨⟩, r₁⟩
      · rw [Act.run_bind_error hv] at h
        cases h
        exact Act.run_bind_error (run_scanNursery_free hf hv table)
      · rw [Act.run_bind_ok hv] at h
        rw [Act.run_bind_ok (run_scanNursery_free hf hv table), Act.run_bind_error (ih h)]
    · have hstep : (scanNursery visit epoch e).run (table, r) = (.ok 0, table, r) := by simp [scanNursery, hf]
      rw [filter_free_cons_of_neg hf] at h
      rw [Act.run_bind_ok hstep, Act.run_bind_error (ih h)]

end Entries

theorem claimEach_concat (epoch : UInt64) (map : CodeMap) (entries : List (CodeId × CodeEntry))
    (e : CodeId × CodeEntry) : claimEach epoch map (entries ++ [e]) =
      if e.2.isFree epoch then (claimEach epoch map entries).insert e.1 (e.2.claim epoch)
      else claimEach epoch map entries := by
  by_cases hf : e.2.isFree epoch <;> simp [claimEach, List.filter_append, hf]

/-- Entries of a map are claimed where they are. -/
theorem getElem?_claimEach {map : CodeMap} {entries : List (CodeId × CodeEntry)} (h : entries ⊆ map.toList)
    (epoch : UInt64) (code : CodeId) : (claimEach epoch map entries)[code]? =
      if code ∈ entries.map Prod.fst then map[code]?.map (·.claim epoch) else map[code]? := by
  induction entries using List.reverseRecOn with
  | nil => rfl
  | append_singleton entries e ih =>
    have ih := ih fun other hother => h (List.mem_append_left _ hother)
    have he : map[e.1]? = some e.2 :=
      Std.ExtTreeMap.mem_toList_iff_getElem?_eq_some.1 (h (List.mem_append_right entries (List.mem_singleton_self e)))
    rw [claimEach_concat]
    by_cases hcode : e.1 = code
    · subst hcode
      have hmem : e.1 ∈ (entries ++ [e]).map Prod.fst := by simp
      rw [if_pos hmem, he, Option.map_some]
      by_cases hf : e.2.isFree epoch
      · rw [if_pos hf, getElem?_insert, if_pos rfl]
      · have hclaim : e.2.claim epoch = e.2 := if_neg hf
        rw [if_neg hf, ih, he, Option.map_some, hclaim, ite_self]
    · have hother : ((claimEach epoch map entries).insert e.1 (e.2.claim epoch))[code]? =
          (claimEach epoch map entries)[code]? := by rw [getElem?_insert, if_neg hcode]
      have hmem : code ∈ (entries ++ [e]).map Prod.fst ↔ code ∈ entries.map Prod.fst := by simp [Ne.symm hcode]
      simp only [hmem]
      split
      · rw [hother, ih]
      · exact ih

/-- What a scan of the old entries comes to. -/
def reachedMature (table : CodeTable) (visit : List Slot → Act ρ Unit) (r : ρ) : List (CodeId × CodeEntry) :=
  Act.reached (fun e => visit e.2.slots) (table.mature.toList.filter fun e => e.2.isFree table.epoch) r

theorem reachedMature_subset (table : CodeTable) (visit : List Slot → Act ρ Unit) (r : ρ) :
    table.reachedMature visit r ⊆ table.mature.toList :=
  List.Subset.trans (Act.reached_prefix ..).subset (List.filter_sublist ..).subset

theorem forM_freeIn (visit : List Slot → Act ρ Unit) (epoch : UInt64) (map : CodeMap) :
    ((freeIn epoch map).forM fun e => visit e.2) =
      (map.toList.filter fun e => e.2.isFree epoch).forM fun e => visit e.2.slots := by
  rw [freeIn_toList]
  simp

/-- What a scan leaves when a visit faults: the old blobs up to there are claimed, and the nursery is out. -/
def interrupted (table : CodeTable) (visit : List Slot → Act ρ Unit) (r : ρ) : CodeTable :=
  { table with nursery := {}, mature := claimEach table.epoch table.mature (table.reachedMature visit r) }

theorem run_scan_of_error (h : (table.free.forM fun e => visit e.2).run r = (.error cause, r')) :
    (scan visit).run (table, r) = (.error cause, table.interrupted visit r, r') := by
  have htake : (Act.within tablePlace (modifyGet takeNursery) : Act (CodeTable × ρ) CodeMap).run (table, r) =
      (.ok table.nursery, { table with nursery := {} }, r) := rfl
  have hvisits : (table.free.forM fun e => visit e.2) = (do
      (freeIn table.epoch table.mature).forM fun e => visit e.2
      (freeIn table.epoch table.nursery).forM fun e => visit e.2) := List.forM_append
  rw [hvisits, forM_freeIn, forM_freeIn] at h
  rw [scan, Act.run_bind_ok (Act.run_get _), Act.run_bind_ok htake, Act.run_bind_ok (Act.run_get _)]
  rcases hmature : ((table.mature.toList.filter fun e => e.2.isFree table.epoch).forM fun e => visit e.2.slots).run r
    with ⟨found | ⟨⟩, r₁⟩
  · rw [Act.run_bind_error hmature] at h
    cases h
    rw [Act.run_bind_error (run_scanMature_of_error { table with nursery := {} } hmature)]
    rfl
  · rw [Act.run_bind_ok hmature] at h
    have hall : claimEach table.epoch table.mature (table.reachedMature visit r) =
        claimEach table.epoch table.mature table.mature.toList := by
      simp [reachedMature, Act.reached_of_ok hmature, claimEach]
    rw [interrupted, hall, Act.run_bind_ok (run_scanMature { table with nursery := {} } hmature),
      Act.run_bind_error (run_scanNursery_of_error _ h)]

theorem mem_nursery_of_freeIn {blob : CodeId × List Slot} (h : blob ∈ freeIn epoch table.nursery) :
    blob.1 ∈ table.nursery := by
  obtain ⟨entry, hentry, -, -⟩ := mem_freeIn.1 h
  exact mem_of_getElem? hentry

/-- Of the blobs that are not in the nursery, a scan comes to those it finds among the old entries. -/
theorem mem_reached_free (hcode : code ∉ table.nursery) :
    code ∈ (Act.reached (fun e => visit e.2) table.free r).map Prod.fst ↔
      code ∈ (table.reachedMature visit r).map Prod.fst := by
  have hmature : (Act.reached (fun e => visit e.2) (freeIn table.epoch table.mature) r).map Prod.fst =
      (table.reachedMature visit r).map Prod.fst := by
    rw [freeIn_toList, Act.reached_map, List.map_map]
    rfl
  rw [← hmature, free]
  -- The scan faults among the old entries, or comes to all of them and then to some of the nursery.
  rcases hvisits : ((freeIn table.epoch table.mature).forM fun e => visit e.2).run r with ⟨cause | ⟨⟩, r₁⟩
  · rw [Act.reached_append_error hvisits]
  · rw [Act.reached_append_ok hvisits, Act.reached_of_ok hvisits, List.map_append, List.mem_append, or_iff_left]
    rintro hmem
    obtain ⟨blob, hblob, rfl⟩ := List.mem_map.1 hmem
    exact hcode (mem_nursery_of_freeIn ((Act.reached_prefix ..).subset hblob))

/-- Of all blobs those that the scan came to are claimed then, and those of the nursery are lost. -/
theorem lookup_interrupted (hsound : table.Sound) (code : CodeId) : (table.interrupted visit r).lookup code =
      if code ∈ table.nursery then none
      else if code ∈ (Act.reached (fun e => visit e.2) table.free r).map Prod.fst then
        (table.lookup code).map (·.claim table.epoch)
      else table.lookup code := by
  have hleft : (table.interrupted visit r).lookup code =
      (claimEach table.epoch table.mature (table.reachedMature visit r))[code]? :=
    lookup_of_nursery_none Std.ExtTreeMap.getElem?_empty
  rw [hleft, getElem?_claimEach (reachedMature_subset table visit r)]
  by_cases hn : code ∈ table.nursery
  · have hm : table.mature[code]? = none := Std.ExtTreeMap.getElem?_eq_none (hsound.apart code hn)
    rw [if_pos hn, hm, Option.map_none, ite_self]
  · have hm : table.lookup code = table.mature[code]? := lookup_of_nursery_none (Std.ExtTreeMap.getElem?_eq_none hn)
    simp only [if_neg hn, mem_reached_free hn, hm]

end Scan

theorem map_claim_of_not_isFree (h : ¬table.IsFree code) :
    (table.lookup code).map (·.claim table.epoch) = table.lookup code := by
  cases hl : table.lookup code with
  | none => rfl
  | some entry =>
    have hf : ¬entry.isFree table.epoch := fun hf => h ⟨entry, hl, hf⟩
    have hclaim : entry.claim table.epoch = entry := if_neg hf
    rw [Option.map_some, hclaim]

end CodeTable

namespace CodeOp

variable {table : CodeTable} {code : CodeId}

/-- The blobs that a call is to show its visitor, if the visitor does not fault. -/
def due (table : CodeTable) : CodeOp → CodeReports
  | .claim code => ((table.claim code).1.map fun slots => (code, slots)).toList
  | .scan => table.free
  | _ => []

theorem due_of_not_claims {op : CodeOp} (h : op.claims = false) (table : CodeTable) : op.due table = [] := by
  cases op with
  | register | unregister | beginCycle => rfl
  | claim | scan => cases h

/-- Due is what is asked for and free. -/
theorem mem_due (hsound : table.Sound) (op : CodeOp) :
    code ∈ (op.due table).map Prod.fst ↔ op.asksFor code ∧ table.IsFree code := by
  cases op with
  | register | unregister | beginCycle => simp [due, asksFor]
  | claim other =>
    have hfree : (table.claim other).1.isSome ↔ table.IsFree other := by
      rw [CodeTable.claim_eq, CodeTable.IsFree]
      cases table.lookup other with
      | none => simp
      | some entry => by_cases hf : entry.isFree table.epoch <;> simp [hf]
    rw [due, asksFor, decide_eq_true_eq]
    cases hclaim : (table.claim other).1 with
    | none =>
      rw [hclaim] at hfree
      simp only [Option.map_none, Option.toList_none, List.map_nil, List.not_mem_nil, false_iff]
      rintro ⟨rfl, hother⟩
      cases hfree.2 hother
    | some slots =>
      have hother : table.IsFree other := by simp [← hfree, hclaim]
      simp only [Option.map_some, Option.toList_some, List.map_cons, List.map_nil, List.mem_singleton]
      constructor
      · rintro rfl
        exact ⟨rfl, hother⟩
      · rintro ⟨rfl, -⟩
        rfl
  | scan =>
    simp only [due, asksFor, true_and]
    constructor
    · intro h
      obtain ⟨blob, hblob, rfl⟩ := List.mem_map.1 h
      obtain hblob | hblob := List.mem_append.1 hblob
      · obtain ⟨entry, hentry, hf, -⟩ := CodeTable.mem_freeIn.1 hblob
        exact ⟨entry, (CodeTable.lookup_eq_some_iff hsound).2 (.inl hentry), hf⟩
      · obtain ⟨entry, hentry, hf, -⟩ := CodeTable.mem_freeIn.1 hblob
        exact ⟨entry, (CodeTable.lookup_eq_some_iff hsound).2 (.inr hentry), hf⟩
    · rintro ⟨entry, hl, hf⟩
      exact List.mem_map.2 ⟨_, CodeTable.mem_free hl hf, rfl⟩

/-- Before the first cycle nothing can be claimed. -/
theorem due_of_no_cycle (hsound : table.Sound) (hepoch : table.epoch = 0) (op : CodeOp) : op.due table = [] := by
  refine List.eq_nil_iff_forall_not_mem.2 fun blob hblob => ?_
  obtain ⟨-, entry, -, hf⟩ := (mem_due hsound op).1 (List.mem_map_of_mem hblob)
  simp [CodeEntry.isFree, hepoch] at hf

variable {ρ : Type} (visit : Slot → Act ρ Unit) (r : ρ)

theorem left_beginCycle (table : CodeTable) :
    ((beginCycle.act visit).run (table, r)).2 = ({ table with epoch := table.epoch + 1 }, r) := by
  rw [act, Act.run_map, Act.run_within]
  simp only [CodeTable.tablePlace, CodeTable.run_beginCycle]

/-- The claim stands also where the visitor faults, and the visitor keeps what it has made of the slots until then. -/
theorem left_claim (code : CodeId) (table : CodeTable) : (((claim code).act visit).run (table, r)).2 =
    ((table.claim code).2, ((((table.claim code).1.getD []).forM visit).run r).2) := by
  have hclaim : (Act.within CodeTable.tablePlace (modifyGet (·.claim code)) :
      Act (CodeTable × ρ) (Option (List Slot))).run (table, r) =
        (.ok (table.claim code).1, (table.claim code).2, r) := rfl
  rw [act, Act.run_map, CodeTable.claimAndVisit, Act.run_bind_ok hclaim]
  cases (table.claim code).1 with
  | none => rfl
  | some slots =>
    rw [Act.run_bind, Act.run_within, Option.getD_some, CodeTable.visitPlace]
    rcases (slots.forM visit).run r with ⟨cause | ⟨⟩, r'⟩ <;> rfl

variable {visit : Slot → Act ρ Unit} {r r' : ρ}

theorem run_scan (h : (table.free.forM fun blob => blob.2.forM visit).run r = (.ok (), r')) :
    (scan.act visit).run (table, r) = (.ok (.reported (table.free.flatMap Prod.snd).length), table.scanned, r') := by
  rw [act, Act.run_map, CodeTable.run_scan h]
  rfl

theorem run_scan_of_error {cause : Fault}
    (h : (table.free.forM fun blob => blob.2.forM visit).run r = (.error cause, r')) :
    (scan.act visit).run (table, r) = (.error cause, table.interrupted (·.forM visit) r, r') := by
  rw [act, Act.run_map, CodeTable.run_scan_of_error h]
  rfl

end CodeOp

/-- A call on a table, with the visitor that is at hand for it. -/
structure CodeUse where
  op : CodeOp
  {ρ : Type}
  visit : Slot → Act ρ Unit
  start : ρ

namespace CodeUse

/-- What the call leaves, also where its visitor faults. -/
def after (use : CodeUse) (table : CodeTable) : CodeTable := ((use.op.act use.visit).run (table, use.start)).2.1

/-- The blobs that the call claims and shows its visitor. A visitor that faults may not have been shown all slots of the
last of them. -/
def reports (use : CodeUse) (table : CodeTable) : CodeReports :=
  Act.reached (fun blob => blob.2.forM use.visit) (use.op.due table) use.start

/-- The call claims the blob. -/
def Reports (code : CodeId) (table : CodeTable) (use : CodeUse) : Prop := code ∈ (use.reports table).map Prod.fst

/-- A scan takes the blob out of the nursery, and faults. -/
def Loses (code : CodeId) (table : CodeTable) (use : CodeUse) : Prop :=
  use.op = .scan ∧ (use.op.act use.visit).faultOf (table, use.start) ≠ none ∧ code ∈ table.nursery

/-- The blob is registered anew or forgotten, or a cycle begins. -/
def Renews (code : CodeId) (use : CodeUse) : Prop := use.op.leaves code = false

variable {table : CodeTable} {use : CodeUse} {code : CodeId}

theorem reports_of_not_claims (h : use.op.claims = false) (table : CodeTable) : use.reports table = [] := by
  rw [reports, CodeOp.due_of_not_claims h]
  rfl

theorem isFree_of_reports (hsound : table.Sound) (h : use.Reports code table) : table.IsFree code := by
  obtain ⟨blob, hblob, rfl⟩ := List.mem_map.1 h
  have hdue : blob ∈ use.op.due table := (Act.reached_prefix ..).subset hblob
  exact ((CodeOp.mem_due hsound use.op).1 (List.mem_map_of_mem hdue)).2

/-- A call has shown its visitor what it reports, and no more. -/
theorem visitor_after (use : CodeUse) (table : CodeTable) :
    ((use.op.act use.visit).run (table, use.start)).2.2 =
      ((((use.reports table).flatMap Prod.snd).forM use.visit).run use.start).2 := by
  rw [Act.forM_flatMap, reports, Act.run_forM_reached]
  cases hop : use.op with
  | register | unregister => rfl
  | beginCycle =>
    rw [CodeOp.left_beginCycle]
    rfl
  | claim code =>
    rw [CodeOp.left_claim, CodeOp.due]
    cases (table.claim code).1 with
    | none => rfl
    | some slots => simp
  | scan =>
    rw [CodeOp.due]
    rcases hvisits : (table.free.forM fun blob => blob.2.forM use.visit).run use.start with ⟨cause | ⟨⟩, r'⟩
    · rw [CodeOp.run_scan_of_error hvisits]
    · rw [CodeOp.run_scan hvisits]

instance : Decidable (use.Reports code table) := inferInstanceAs (Decidable (_ ∈ _))

/-- Where a call reports all that is due, it claims what it was asked for. -/
theorem lookup_of_reaches (hsound : table.Sound) (h : table.Reaches (use.op.asksFor ·) (use.after table))
    (hall : use.reports table = use.op.due table) : (use.after table).lookup code =
      if use.Reports code table then (table.lookup code).map (·.claim table.epoch) else table.lookup code := by
  have hreports : use.Reports code table ↔ use.op.asksFor code ∧ table.IsFree code := by
    rw [Reports, hall, CodeOp.mem_due hsound]
  by_cases hasked : use.op.asksFor code
  · rw [h.claimed code hasked]
    split
    · rfl
    · rename_i hnot
      exact CodeTable.map_claim_of_not_isFree fun hfree => hnot (hreports.2 ⟨hasked, hfree⟩)
  · rw [h.others code hasked, if_neg fun hmem => hasked (hreports.1 hmem).1]

/-- A claim or a scan that does not lose the blob claims it if it reports it, and leaves it as it is if not. -/
theorem lookup_after (hsound : table.Sound) (hclaims : use.op.claims) (hkept : ¬use.Loses code table) :
    (use.after table).lookup code =
      if use.Reports code table then (table.lookup code).map (·.claim table.epoch) else table.lookup code := by
  cases hop : use.op with
  | register | unregister | beginCycle => simp [hop, CodeOp.claims] at hclaims
  | claim other =>
    refine lookup_of_reaches hsound ?_ ?_
    · rw [after, hop, CodeOp.left_claim]
      exact (CodeTable.Reaches.claim table other).congr fun code => by simp [CodeOp.asksFor, eq_comm]
    · rw [reports, hop, CodeOp.due]
      cases (table.claim other).1 with
      | none => rfl
      | some slots => exact Act.reached_singleton ..
  | scan =>
    rcases hvisits : (table.free.forM fun blob => blob.2.forM use.visit).run use.start with ⟨cause | ⟨⟩, r'⟩
    · have hrun := CodeOp.run_scan_of_error hvisits
      have hn : code ∉ table.nursery := fun hn => hkept ⟨hop, by simp [hop, Act.faultOf, hrun], hn⟩
      rw [after, hop, hrun, CodeTable.lookup_interrupted hsound, if_neg hn]
      simp only [Reports, reports, hop, CodeOp.due]
    · refine lookup_of_reaches hsound ?_ ?_
      · rw [after, hop, CodeOp.run_scan hvisits]
        exact (CodeTable.Reaches.scanned hsound).congr fun code => by simp [CodeOp.asksFor]
      · rw [reports, hop]
        exact Act.reached_of_ok hvisits

theorem epoch_after (use : CodeUse) (table : CodeTable) :
    (use.after table).epoch = if use.op = .beginCycle then table.epoch + 1 else table.epoch := by
  rw [after]
  cases hop : use.op with
  | register | unregister => rfl
  | beginCycle =>
    rw [CodeOp.left_beginCycle]
    rfl
  | claim code =>
    rw [CodeOp.left_claim]
    exact table.epoch_claim code
  | scan =>
    rcases hvisits : (table.free.forM fun blob => blob.2.forM use.visit).run use.start with ⟨cause | ⟨⟩, r'⟩
    · rw [CodeOp.run_scan_of_error hvisits]
      rfl
    · rw [CodeOp.run_scan hvisits]
      rfl

theorem sound_after (hsound : table.Sound) (hlt : use.op = .beginCycle → table.epoch.toNat + 1 < wordLimit) :
    (use.after table).Sound := by
  rw [after]
  cases hop : use.op with
  | register code slots => exact hsound.register code slots
  | unregister code => exact hsound.unregister code
  | beginCycle =>
    rw [CodeOp.left_beginCycle]
    exact hsound.beginCycle (hlt hop)
  | claim code =>
    rw [CodeOp.left_claim]
    exact hsound.claim code
  | scan =>
    rw [CodeOp.act, Act.run_map]
    exact hsound.run_scan _ _

/-- A scan that loses a blob leaves nothing of it. -/
theorem lookup_of_loses (hsound : table.Sound) (h : use.Loses code table) : (use.after table).lookup code = none := by
  obtain ⟨hop, hfault, hn⟩ := h
  rw [hop] at hfault
  rw [after, hop]
  rcases hvisits : (table.free.forM fun blob => blob.2.forM use.visit).run use.start with ⟨cause | ⟨⟩, r'⟩
  · rw [CodeOp.run_scan_of_error hvisits, CodeTable.lookup_interrupted hsound, if_pos hn]
  · refine absurd ?_ hfault
    rw [Act.faultOf, CodeOp.run_scan hvisits]

/-- What is unknown stays unknown until it is registered. -/
theorem lookup_of_unknown (hsound : table.Sound) (hnone : table.lookup code = none) (hrenews : ¬use.Renews code) :
    (use.after table).lookup code = none := by
  by_cases hclaims : use.op.claims
  · by_cases hloses : use.Loses code table
    · exact lookup_of_loses hsound hloses
    · rw [lookup_after hsound hclaims hloses, hnone, Option.map_none, ite_self]
  · rw [after]
    cases hop : use.op with
    | register other slots =>
      have hne : other ≠ code := by simpa [Renews, hop, CodeOp.leaves] using hrenews
      exact (CodeTable.lookup_register table other slots code).trans (by rw [if_neg hne, hnone])
    | unregister other =>
      have hne : other ≠ code := by simpa [Renews, hop, CodeOp.leaves] using hrenews
      exact (CodeTable.lookup_unregister table other code).trans (by rw [if_neg hne, hnone])
    | beginCycle => simp [Renews, hop, CodeOp.leaves] at hrenews
    | claim | scan => simp [hop, CodeOp.claims] at hclaims

theorem isClaimed_of_claims (hsound : table.Sound) (hclaims : use.op.claims) (hkept : ¬use.Loses code table) :
    (use.after table).IsClaimed code ↔ use.Reports code table ∨ table.IsClaimed code := by
  have hepoch : (use.after table).epoch = table.epoch := by
    rw [epoch_after, if_neg]
    intro hop
    simp [hop, CodeOp.claims] at hclaims
  rw [CodeTable.IsClaimed, CodeTable.IsClaimed, hepoch, lookup_after hsound hclaims hkept]
  by_cases hreports : use.Reports code table
  · obtain ⟨entry, hl, hf⟩ := isFree_of_reports hsound hreports
    simp [hreports, hl, CodeEntry.claim, hf]
  · simp [hreports]

theorem not_isClaimed_of_begin (hsound : table.Sound) (hop : use.op = .beginCycle)
    (hlt : table.epoch.toNat + 1 < wordLimit) : ¬(use.after table).IsClaimed code := by
  rw [after, hop, CodeOp.left_beginCycle]
  exact CodeTable.not_isClaimed_begun hsound hlt code

/-- What a call does to the claim on a blob, once a cycle has begun. -/
theorem isClaimed_after (hsound : table.Sound) (hepoch : table.epoch ≠ 0)
    (hop : use.op ≠ .beginCycle) : (use.after table).IsClaimed code ↔
      (use.Reports code table ∨ table.IsClaimed code ∧ ¬use.Renews code) ∧ ¬use.Loses code table := by
  by_cases hclaims : use.op.claims
  · have hrenews : ¬use.Renews code := by
      rw [Renews]
      cases hop : use.op <;> simp_all [CodeOp.claims, CodeOp.leaves]
    by_cases hloses : use.Loses code table
    · simp [CodeTable.IsClaimed, lookup_of_loses hsound hloses, hloses]
    · rw [isClaimed_of_claims hsound hclaims hloses]
      simp [hrenews, hloses]
  · have hreports : ¬use.Reports code table := by
      simp [Reports, reports_of_not_claims (Bool.eq_false_iff.2 hclaims)]
    have hloses : ¬use.Loses code table := by
      rintro ⟨hop, -⟩
      simp [hop, CodeOp.claims] at hclaims
    simp only [hreports, hloses, false_or, not_false_eq_true, and_true, Renews, after]
    cases hcall : use.op with
    | register other slots =>
      refine (CodeTable.isClaimed_register hepoch other slots code).trans ?_
      simp [CodeOp.leaves]
    | unregister other =>
      refine (CodeTable.isClaimed_unregister table other code).trans ?_
      simp [CodeOp.leaves]
    | beginCycle => exact absurd hcall hop
    | claim | scan => simp [hcall, CodeOp.claims] at hclaims

/-- The blob is registered, perhaps in place of another. -/
def Registers (code : CodeId) (use : CodeUse) : Prop := ∃ slots, use.op = .register code slots

/-- The blob is forgotten. -/
def Forgets (code : CodeId) (use : CodeUse) : Prop := use.op = .unregister code

/-- Before the first cycle no scan has a visit that could fault. -/
theorem not_loses_of_no_cycle (hsound : table.Sound) (hepoch : table.epoch = 0) : ¬use.Loses code table := by
  rintro ⟨hop, hfault, -⟩
  have hfree : table.free = [] := CodeOp.due_of_no_cycle hsound hepoch .scan
  have hvisits : (table.free.forM fun blob => blob.2.forM use.visit).run use.start = (.ok (), use.start) := by
    rw [hfree]
    rfl
  rw [hop, Act.faultOf, CodeOp.run_scan hvisits] at hfault
  exact hfault rfl

/-- Before the first cycle calls do no more than to register blobs and to forget them. -/
theorem known_after (hsound : table.Sound) (hepoch : table.epoch = 0) (hop : use.op ≠ .beginCycle) :
    ((use.after table).lookup code).isSome ↔
      use.Registers code ∨ (table.lookup code).isSome ∧ ¬use.Forgets code := by
  by_cases hclaims : use.op.claims
  · have hneither : ¬use.Registers code ∧ ¬use.Forgets code := by
      constructor
      · rintro ⟨slots, hop⟩
        simp [hop, CodeOp.claims] at hclaims
      · intro hop
        rw [Forgets] at hop
        simp [hop, CodeOp.claims] at hclaims
    rw [lookup_after hsound hclaims (not_loses_of_no_cycle hsound hepoch)]
    split <;> simp [hneither]
  · rw [after, Registers, Forgets]
    cases hcall : use.op with
    | register other slots =>
      refine (congrArg (·.isSome = true) (CodeTable.lookup_register table other slots code)).to_iff.trans ?_
      by_cases hcode : other = code <;> simp [hcode]
    | unregister other =>
      refine (congrArg (·.isSome = true) (CodeTable.lookup_unregister table other code)).to_iff.trans ?_
      by_cases hcode : other = code <;> simp [hcode]
    | beginCycle => exact absurd hcall hop
    | claim | scan => simp [hcall, CodeOp.claims] at hclaims

end CodeUse

namespace CodeTable

/-- What is left of a fresh table after some calls. -/
def used (uses : List CodeUse) : CodeTable := uses.foldl (fun table use => use.after table) {}

variable {uses : List CodeUse} {use : CodeUse} {code : CodeId}

theorem used_concat (uses : List CodeUse) (use : CodeUse) : used (uses ++ [use]) = use.after (used uses) :=
  List.foldl_concat ..

theorem short_of_concat (short : (uses ++ [use]).countP (·.op = .beginCycle) < wordLimit) :
    uses.countP (·.op = .beginCycle) < wordLimit := by
  rw [List.countP_append] at short
  omega

theorem short_of_begin (short : (uses ++ [use]).countP (·.op = .beginCycle) < wordLimit) (hop : use.op = .beginCycle) :
    uses.countP (·.op = .beginCycle) + 1 < wordLimit := by
  simpa [hop] using short

/-- Calls leave a sound table, whose epoch is the number of the cycles that were begun. -/
theorem sound_used (short : uses.countP (·.op = .beginCycle) < wordLimit) :
    (used uses).Sound ∧ (used uses).epoch.toNat = uses.countP (·.op = .beginCycle) := by
  induction uses using List.reverseRecOn with
  | nil => exact ⟨.empty, rfl⟩
  | append_singleton uses use ih =>
    obtain ⟨hsound, hepoch⟩ := ih (short_of_concat short)
    have hlt : use.op = .beginCycle → (used uses).epoch.toNat + 1 < wordLimit := fun hop => by
      rw [hepoch]
      exact short_of_begin short hop
    rw [used_concat, CodeUse.epoch_after, List.countP_append]
    refine ⟨CodeUse.sound_after hsound hlt, ?_⟩
    by_cases hop : use.op = .beginCycle
    · rw [if_pos hop, toNat_add_one (hlt hop), hepoch]
      simp [hop]
    · rw [if_neg hop, hepoch]
      simp [hop]

/-- Some call reported the blob since it was registered and the cycle began. -/
def ReportedIn (uses : List CodeUse) (code : CodeId) : Prop :=
  Since (fun earlier use => use.Reports code (used earlier)) (CodeUse.Renews code) uses

/-- Some scan lost the blob since it was registered and the cycle began. -/
def LostIn (uses : List CodeUse) (code : CodeId) : Prop :=
  Since (fun earlier use => use.Loses code (used earlier)) (CodeUse.Renews code) uses

theorem reportedIn_concat (uses : List CodeUse) (use : CodeUse) (code : CodeId) : ReportedIn (uses ++ [use]) code ↔
    use.Reports code (used uses) ∨ ReportedIn uses code ∧ ¬use.Renews code := since_concat

theorem lostIn_concat (uses : List CodeUse) (use : CodeUse) (code : CodeId) : LostIn (uses ++ [use]) code ↔
    use.Loses code (used uses) ∨ LostIn uses code ∧ ¬use.Renews code := since_concat

theorem lookup_of_lost (short : uses.countP (·.op = .beginCycle) < wordLimit) (h : LostIn uses code) :
    (used uses).lookup code = none := by
  induction uses using List.reverseRecOn with
  | nil => exact absurd h not_since_nil
  | append_singleton uses use ih =>
    have hsound := (sound_used (short_of_concat short)).1
    rw [used_concat]
    obtain hloses | ⟨hlost, hrenews⟩ := (lostIn_concat uses use code).1 h
    · exact CodeUse.lookup_of_loses hsound hloses
    · exact CodeUse.lookup_of_unknown hsound (ih (short_of_concat short) hlost) hrenews

/-- Once a cycle has begun, claimed is what was reported and not lost. -/
theorem isClaimed_used (short : uses.countP (·.op = .beginCycle) < wordLimit)
    (begun : ∃ use ∈ uses, use.op = .beginCycle) (code : CodeId) :
    (used uses).IsClaimed code ↔ ReportedIn uses code ∧ ¬LostIn uses code := by
  induction uses using List.reverseRecOn with
  | nil => simp at begun
  | append_singleton uses use ih =>
    have hshort := short_of_concat short
    obtain ⟨hsound, hepoch⟩ := sound_used hshort
    rw [used_concat, reportedIn_concat, lostIn_concat]
    by_cases hop : use.op = .beginCycle
    · have hlt : (used uses).epoch.toNat + 1 < wordLimit := by
        rw [hepoch]
        exact short_of_begin short hop
      have hclaims : use.op.claims = false := by
        rw [hop]
        rfl
      have hreports : ¬use.Reports code (used uses) := by
        simp [CodeUse.Reports, CodeUse.reports_of_not_claims hclaims]
      have hrenews : use.Renews code := by simp [CodeUse.Renews, hop, CodeOp.leaves]
      simp [CodeUse.not_isClaimed_of_begin hsound hop hlt, hreports, hrenews]
    · have hbegun : ∃ use ∈ uses, use.op = .beginCycle := by
        obtain ⟨first, hfirst, hbegin⟩ := begun
        obtain hfirst | hfirst := List.mem_append.1 hfirst
        · exact ⟨first, hfirst, hbegin⟩
        · exact absurd (List.mem_singleton.1 hfirst ▸ hbegin) hop
      have hne : (used uses).epoch ≠ 0 := by
        have hcount : 0 < uses.countP (·.op = .beginCycle) := List.countP_pos_iff.2 (by simpa using hbegun)
        intro hzero
        rw [← hepoch, hzero] at hcount
        exact Nat.lt_irrefl _ hcount
      -- What a scan has lost is unknown until it is registered again, so no call reports it before that.
      have hknown (hreports : use.Reports code (used uses)) : ¬LostIn uses code := fun hlost => by
        obtain ⟨entry, hl, -⟩ := CodeUse.isFree_of_reports hsound hreports
        rw [lookup_of_lost hshort hlost] at hl
        cases hl
      rw [CodeUse.isClaimed_after hsound hne hop, ih hshort hbegun]
      tauto

section Fresh

theorem sound_used_of_no_cycle (fresh : ∀ use ∈ uses, use.op ≠ .beginCycle) :
    (used uses).Sound ∧ (used uses).epoch = 0 := by
  have hcount : uses.countP (·.op = .beginCycle) = 0 :=
    List.countP_eq_zero.2 fun use huse => by simpa using fresh use huse
  have hshort : uses.countP (·.op = .beginCycle) < wordLimit := by
    rw [hcount]
    decide
  obtain ⟨hsound, hepoch⟩ := sound_used hshort
  exact ⟨hsound, UInt64.toNat_inj.1 (hepoch.trans hcount)⟩

theorem not_reportedIn_of_no_cycle (fresh : ∀ use ∈ uses, use.op ≠ .beginCycle) (code : CodeId) :
    ¬ReportedIn uses code := by
  rintro ⟨earlier, use, later, rfl, hreports, -⟩
  obtain ⟨hsound, hepoch⟩ := sound_used_of_no_cycle fun use huse => fresh use (List.mem_append_left _ huse)
  have hnone : use.reports (used earlier) = [] := by
    rw [CodeUse.reports, CodeOp.due_of_no_cycle hsound hepoch]
    rfl
  simp [CodeUse.Reports, hnone] at hreports

theorem known_of_no_cycle (fresh : ∀ use ∈ uses, use.op ≠ .beginCycle) (code : CodeId) :
    ((used uses).lookup code).isSome ↔ Since (fun _ use => use.Registers code) (CodeUse.Forgets code) uses := by
  induction uses using List.reverseRecOn with
  | nil => simp [used, lookup, not_since_nil]
  | append_singleton uses use ih =>
    rw [List.forall_mem_append, List.forall_mem_singleton] at fresh
    obtain ⟨hsound, hepoch⟩ := sound_used_of_no_cycle fresh.1
    rw [used_concat, since_concat, CodeUse.known_after hsound hepoch fresh.2, ih fresh.1]

/-- Before the first cycle the mark of every blob is the number of the cycle. -/
theorem isClaimed_iff_known {table : CodeTable} (hsound : table.Sound) (hepoch : table.epoch = 0) :
    table.IsClaimed code ↔ (table.lookup code).isSome := by
  rw [IsClaimed, Option.isSome_iff_exists]
  refine exists_congr fun entry => and_iff_left_of_imp fun hl => ?_
  have hpast := hsound.past code entry ((lookup_eq_some_iff hsound).1 hl)
  rw [hepoch] at hpast ⊢
  exact UInt64.le_antisymm hpast UInt64.zero_le

end Fresh

/-- Whatever calls are made on a fresh table, with whatever visitors: the list of the claimed blobs ascends. Once a
cycle has begun it has the blobs that some call reported since the last cycle began and since they were registered,
except those that a scan has lost. Before the first cycle no call reports anything, and the list has all the blobs there
are. What a call reports is what its visitor is shown, up to where that faults. -/
theorem claimed_lists_reported (uses : List CodeUse) (short : uses.countP (·.op = .beginCycle) < wordLimit) :
    (used uses).claimed.Pairwise (fun a b => a.value < b.value) ∧
    ((∃ use ∈ uses, use.op = .beginCycle) →
      ∀ code, code ∈ (used uses).claimed ↔ ReportedIn uses code ∧ ¬LostIn uses code) ∧
    ((∀ use ∈ uses, use.op ≠ .beginCycle) → ∀ code,
      ¬ReportedIn uses code ∧
      (code ∈ (used uses).claimed ↔ Since (fun _ use => use.Registers code) (CodeUse.Forgets code) uses)) ∧
    ∀ earlier use later, uses = earlier ++ use :: later →
      ((use.op.act use.visit).run (used earlier, use.start)).2.2 =
        ((((use.reports (used earlier)).flatMap Prod.snd).forM use.visit).run use.start).2 := by
  have hsound := (sound_used short).1
  refine ⟨claimed_ascending hsound, fun begun code => ?_, fun fresh code => ⟨?_, ?_⟩, fun earlier use later _ => ?_⟩
  · rw [mem_claimed hsound]
    exact isClaimed_used short begun code
  · exact not_reportedIn_of_no_cycle fresh code
  · rw [mem_claimed hsound, isClaimed_iff_known hsound (sound_used_of_no_cycle fresh).2]
    exact known_of_no_cycle fresh code
  · exact use.visitor_after (used earlier)

/-- A scan of a second cycle faults in the nursery. The old blob was reported and is listed. A new one had been claimed
before the scan and is not, as the scan has lost it. -/
theorem lost_blob_not_listed :
    let quiet (op : CodeOp) : CodeUse := ⟨op, fun _ => (pure () : Act Unit Unit), ()⟩
    let visit (slot : Slot) : Act Unit Unit := if slot = ⟨0x3000⟩ then Act.panic (.repeatedSlot slot) else pure ()
    let uses : List CodeUse :=
      [quiet (.register ⟨1⟩ [⟨0x1000⟩]), quiet .beginCycle, quiet .scan, quiet .beginCycle,
        quiet (.register ⟨2⟩ [⟨0x2000⟩]), quiet (.register ⟨3⟩ [⟨0x3000⟩]), quiet (.claim ⟨2⟩), ⟨.scan, visit, ()⟩]
    uses.countP (·.op = .beginCycle) < wordLimit ∧ (used uses).claimed = [⟨1⟩] ∧
      ReportedIn uses ⟨1⟩ ∧ ¬(ReportedIn uses ⟨2⟩ ∧ ¬LostIn uses ⟨2⟩) := by
  intro quiet visit uses
  have hshort : uses.countP (·.op = .beginCycle) < wordLimit := by decide
  have hclaimed : (used uses).claimed = [⟨1⟩] := by decide +kernel
  obtain ⟨-, hlisted, -, -⟩ := claimed_lists_reported uses hshort
  have hlisted := hlisted ⟨quiet .beginCycle, by simp [uses], rfl⟩
  simp only [hclaimed] at hlisted
  exact ⟨hshort, hclaimed, ((hlisted ⟨1⟩).1 (by simp)).1, fun hlost => absurd ((hlisted ⟨2⟩).2 hlost) (by decide)⟩

/-- A blob that nobody has claimed is listed when no cycle has begun yet. -/
theorem unclaimed_blob_listed :
    let uses : List CodeUse := [⟨.register ⟨1⟩ [⟨0x1000⟩], fun _ => (pure () : Act Unit Unit), ()⟩]
    (used uses).claimed = [⟨1⟩] ∧ ¬ReportedIn uses ⟨1⟩ := by
  intro uses
  have hclaimed : (used uses).claimed = [⟨1⟩] := by decide +kernel
  exact ⟨hclaimed, not_reportedIn_of_no_cycle (by simp [uses]) ⟨1⟩⟩

end CodeTable

end Safepoint
