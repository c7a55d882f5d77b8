import Mathlib.Algebra.Ring.Nat
import Safepoint.Proofs.Basic
import Safepoint.Roots.CodeTable

/-!
# What the calls of a code table do to it

A scan goes through two maps, changes one of them under way and adds the other in the end. In all
it claims every blob, reports those that were free, and leaves them in one map.
-/
namespace Safepoint.CodeTable

/-- No blob is in both maps, and none is claimed for a cycle to come. -/
structure Sound (table : CodeTable) : Prop where
  apart : ∀ code ∈ table.nursery, code ∉ table.mature
  past : ∀ (code : CodeId) (entry : CodeEntry), table.mature[code]? = some entry ∨ table.nursery[code]? = some entry →
    entry.claimed ≤ table.epoch

theorem Sound.apart? {table : CodeTable} (h : table.Sound) (code : CodeId) :
    table.nursery[code]? = none ∨ table.mature[code]? = none := by
  by_cases hn : code ∈ table.nursery
  · exact .inr (Std.ExtTreeMap.getElem?_eq_none (h.apart code hn))
  · exact .inl (Std.ExtTreeMap.getElem?_eq_none hn)

theorem mem_of_getElem? {β : Type} {map : Std.ExtTreeMap CodeId β} {code : CodeId} {b : β} (h : map[code]? = some b) :
    code ∈ map := by
  rw [Std.ExtTreeMap.mem_iff_isSome_getElem?, h]
  rfl

theorem not_mem_of_getElem? {β : Type} {map : Std.ExtTreeMap CodeId β} {code : CodeId} (h : map[code]? = none) :
    code ∉ map := by
  rw [Std.ExtTreeMap.mem_iff_isSome_getElem?, h]
  simp

theorem apart_of_getElem? {nursery mature : CodeMap}
    (h : ∀ code : CodeId, nursery[code]? = none ∨ mature[code]? = none) : ∀ code ∈ nursery, code ∉ mature := by
  intro code hn hm
  obtain hnone | hnone := h code
  · exact not_mem_of_getElem? hnone hn
  · exact not_mem_of_getElem? hnone hm

theorem getElem?_insert {β : Type} (map : Std.ExtTreeMap CodeId β) (code other : CodeId) (b : β) :
    (map.insert code b)[other]? = if code = other then some b else map[other]? := by
  rw [Std.ExtTreeMap.getElem?_insert]
  simp only [Std.LawfulEqCmp.compare_eq_iff_eq]

theorem getElem?_erase {β : Type} (map : Std.ExtTreeMap CodeId β) (code other : CodeId) :
    (map.erase code)[other]? = if code = other then none else map[other]? := by
  rw [Std.ExtTreeMap.getElem?_erase]
  simp only [Std.LawfulEqCmp.compare_eq_iff_eq]

theorem nursery_put (table : CodeTable) (code other : CodeId) (entry : CodeEntry) :
    (table.put code entry).nursery[other]? =
      if code = other ∧ code ∉ table.mature then some entry else table.nursery[other]? := by
  by_cases hm : code ∈ table.mature
  · rw [put, if_pos hm, if_neg fun h => h.2 hm]
  · rw [put, if_neg hm, getElem?_insert]
    simp [hm]

theorem mature_put (table : CodeTable) (code other : CodeId) (entry : CodeEntry) :
    (table.put code entry).mature[other]? =
      if code = other ∧ code ∈ table.mature then some entry else table.mature[other]? := by
  by_cases hm : code ∈ table.mature
  · rw [put, if_pos hm, getElem?_insert]
    simp [hm]
  · rw [put, if_neg hm, if_neg fun h => hm h.2]

/-- The free blobs of a map and their slots, ascending. -/
def freeIn (epoch : UInt64) (map : CodeMap) : List (CodeId × List Slot) :=
  (map.filterMap fun _ entry => if entry.isFree epoch then some entry.slots else none).toList

/-- What a scan reports. -/
def free (table : CodeTable) : List (CodeId × List Slot) :=
  freeIn table.epoch table.mature ++ freeIn table.epoch table.nursery

def claimAll (epoch : UInt64) (map : CodeMap) : CodeMap := map.map fun _ entry => entry.claim epoch

/-- What a scan leaves. -/
def scanned (table : CodeTable) : CodeTable :=
  promote { table with nursery := {}, mature := claimAll table.epoch table.mature }
    (claimAll table.epoch table.nursery).toList

theorem getElem?_insertAll {β : Type} (map more : Std.ExtTreeMap CodeId β) (code : CodeId) :
    (more.toList.foldl (fun m e => m.insert e.1 e.2) map)[code]? = (more[code]? <|> map[code]?) := by
  rw [← Std.ExtTreeMap.insertMany_list_eq_foldl]
  cases h : more[code]? with
  | some entry =>
    have hmem := Std.ExtTreeMap.mem_toList_iff_getElem?_eq_some.2 h
    exact Std.ExtTreeMap.getElem?_insertMany_list_of_mem Std.ReflCmp.compare_self more.distinct_keys_toList hmem
  | none =>
    rw [Std.ExtTreeMap.getElem?_insertMany_list_of_contains_eq_false]
    · rfl
    · simpa [Std.ExtTreeMap.map_fst_toList_eq_keys] using h

theorem freeIn_toList (epoch : UInt64) (map : CodeMap) :
    freeIn epoch map = (map.toList.filter fun e => e.2.isFree epoch).map fun e => (e.1, e.2.slots) := by
  rw [freeIn, Std.ExtTreeMap.toList_filterMap, ← List.filterMap_eq_map, ← List.filterMap_eq_filter,
    List.filterMap_filterMap]
  congr 1
  funext e
  by_cases h : e.2.isFree epoch <;> simp [h, Option.guard]

theorem run_beginCycle (table : CodeTable) : beginCycle.run table =
    (if table.epoch + 1 = 0 then .error (.panic .addOverflow) else .ok (table.epoch + 1),
      { table with epoch := table.epoch + 1 }) := by
  by_cases hzero : table.epoch + 1 = 0 <;> simp [beginCycle, Act.run_bind, hzero, Except.map]

/-- What a scan has made of a map when it is through with some entries. -/
def claimEach (epoch : UInt64) (map : CodeMap) (entries : List (CodeId × CodeEntry)) : CodeMap :=
  (entries.filter fun e => e.2.isFree epoch).foldl (fun map e => map.insert e.1 (e.2.claim epoch)) map

section Scan

variable {ρ : Type} {visit : List Slot → Act ρ Unit} {epoch : UInt64}

theorem run_scanMature {entries : List (CodeId × CodeEntry)} (table : CodeTable) {r r' : ρ}
    (h : ((entries.filter fun e => e.2.isFree epoch).forM fun e => visit e.2.slots).run r = (.ok (), r')) :
    (entries.mapM (scanMature visit epoch)).run (table, r) =
      (.ok (entries.map fun e => if e.2.isFree epoch then e.2.slots.length else 0),
        { table with mature := claimEach epoch table.mature entries }, r') := by
  induction entries generalizing table r with
  | nil =>
    cases h
    rfl
  | cons e rest ih =>
    rw [List.mapM_cons, Act.run_bind]
    by_cases hf : e.2.isFree epoch
    · simp only [hf, List.filter_cons_of_pos, List.forM_eq_forM, List.forM_cons] at h
      obtain ⟨⟨⟩, r₁, hv, hrest⟩ := Act.run_bind_eq_ok.1 h
      have hstep : (scanMature visit epoch e).run (table, r) = (.ok e.2.slots.length,
          { table with mature := table.mature.insert e.1 (e.2.claim epoch) }, r₁) := by
        simp [scanMature, hf, Act.run_bind, visitPlace, hv, Except.map]
      rw [hstep]
      simp only [Act.run_bind]
      rw [ih _ hrest]
      simp [hf, claimEach]
    · have hstep : (scanMature visit epoch e).run (table, r) = (.ok 0, table, r) := by simp [scanMature, hf]
      rw [hstep]
      simp only [Act.run_bind]
      rw [ih _ (by simpa [hf] using h)]
      simp [hf, claimEach]

theorem run_scanNursery {entries : List (CodeId × CodeEntry)} (table : CodeTable) {r r' : ρ}
    (h : ((entries.filter fun e => e.2.isFree epoch).forM fun e => visit e.2.slots).run r = (.ok (), r')) :
    (entries.mapM (scanNursery visit epoch)).run (table, r) =
      (.ok (entries.map fun e => if e.2.isFree epoch then e.2.slots.length else 0), table, r') := by
  induction entries generalizing r with
  | nil =>
    cases h
    rfl
  | cons e rest ih =>
    rw [List.mapM_cons, Act.run_bind]
    by_cases hf : e.2.isFree epoch
    · simp only [hf, List.filter_cons_of_pos, List.forM_eq_forM, List.forM_cons] at h
      obtain ⟨⟨⟩, r₁, hv, hrest⟩ := Act.run_bind_eq_ok.1 h
      have hstep : (scanNursery visit epoch e).run (table, r) = (.ok e.2.slots.length, table, r₁) := by
        simp [scanNursery, hf, visitPlace, hv, Except.map]
      rw [hstep]
      simp only [Act.run_bind]
      rw [ih hrest]
      simp [hf]
    · have hstep : (scanNursery visit epoch e).run (table, r) = (.ok 0, table, r) := by simp [scanNursery, hf]
      rw [hstep]
      simp only [Act.run_bind]
      rw [ih (by simpa [hf] using h)]
      simp [hf]

end Scan

/-- Entries of earlier cycles are claimed in place, and a claim of the rest changes nothing. -/
theorem claimEach_toList (epoch : UInt64) (map : CodeMap) : claimEach epoch map map.toList = claimAll epoch map := by
  have hmap : ((map.filter fun _ e => e.isFree epoch).map fun _ e => e.claim epoch).toList =
      (map.toList.filter fun e => e.2.isFree epoch).map fun e => (e.1, e.2.claim epoch) := by
    rw [Std.ExtTreeMap.toList_map, Std.ExtTreeMap.toList_filter]
  have hfold : claimEach epoch map map.toList =
      ((map.filter fun _ e => e.isFree epoch).map fun _ e => e.claim epoch).toList.foldl
        (fun m e => m.insert e.1 e.2) map := by
    rw [hmap, List.foldl_map, claimEach]
  apply Std.ExtTreeMap.ext_getElem?
  intro code
  rw [hfold, getElem?_insertAll, claimAll, Std.ExtTreeMap.getElem?_map, Std.ExtTreeMap.getElem?_map,
    Std.ExtTreeMap.getElem?_filter']
  cases map[code]? with
  | none => rfl
  | some entry => by_cases h : entry.isFree epoch <;> simp [h, CodeEntry.claim, Option.filter_some]

theorem length_freeIn (epoch : UInt64) (map : CodeMap) :
    ((freeIn epoch map).flatMap Prod.snd).length =
      (map.toList.map fun e => if e.2.isFree epoch then e.2.slots.length else 0).sum := by
  rw [freeIn_toList]
  induction map.toList with
  | nil => rfl
  | cons e rest ih => by_cases h : e.2.isFree epoch <;> simpa [h] using ih

/-- A scan whose visits all return reports what is free, in order. -/
theorem run_scan {ρ : Type} {visit : List Slot → Act ρ Unit} {table : CodeTable} {r r' : ρ}
    (h : (table.free.forM fun e => visit e.2).run r = (.ok (), r')) :
    (scan visit).run (table, r) = (.ok (table.free.flatMap Prod.snd).length, table.scanned, r') := by
  obtain ⟨r₁, hmature, hnursery⟩ := Act.run_forM_append.1 h
  rw [freeIn_toList] at hmature hnursery
  have hmature := run_scanMature { table with nursery := {} } (by simpa using hmature)
  have hnursery := run_scanNursery { table with nursery := {}, mature := claimAll table.epoch table.mature }
    (by simpa using hnursery)
  rw [claimEach_toList] at hmature
  have htake : (Act.within tablePlace (modifyGet takeNursery) : Act (CodeTable × ρ) CodeMap).run (table, r) =
      (.ok table.nursery, { table with nursery := {} }, r) := rfl
  have hclaims : (table.nursery.toList.map fun e => (e.1, e.2.claim table.epoch)) =
      (claimAll table.epoch table.nursery).toList := by rw [claimAll, Std.ExtTreeMap.toList_map]
  rw [scan, Act.run_bind_ok (Act.run_get _), Act.run_bind_ok htake, Act.run_bind_ok (Act.run_get _),
    Act.run_bind_ok hmature, Act.run_bind_ok hnursery, hclaims]
  rw [free, List.flatMap_append, List.length_append, length_freeIn, length_freeIn, ← List.sum_append_nat,
    List.sum_eq_foldl_nat]
  rfl

/-- Where each call makes the visit of its entry if that is free, calls that all return have made these visits. -/
theorem visits_of_mapM {ρ : Type} {visit : List Slot → Act ρ Unit} {epoch : UInt64}
    {call : CodeId × CodeEntry → Act (CodeTable × ρ) Nat} (hcall : ∀ e p n p', (call e).run p = (.ok n, p') →
      (if e.2.isFree epoch then visit e.2.slots else pure ()).run p.2 = (.ok (), p'.2))
    {entries : List (CodeId × CodeEntry)} {p p' : CodeTable × ρ} {counts : List Nat}
    (h : (entries.mapM call).run p = (.ok counts, p')) :
    ((entries.filter fun e => e.2.isFree epoch).forM fun e => visit e.2.slots).run p.2 = (.ok (), p'.2) := by
  induction entries generalizing p counts with
  | nil =>
    cases h
    rfl
  | cons e rest ih =>
    rw [List.mapM_cons] at h
    obtain ⟨n, p₁, hfirst, hrest⟩ := Act.run_bind_eq_ok.1 h
    obtain ⟨more, p₂, hmore, hdone⟩ := Act.run_bind_eq_ok.1 hrest
    cases hdone
    have hvisit := hcall e p n p₁ hfirst
    by_cases hfree : e.2.isFree epoch
    · rw [if_pos hfree] at hvisit
      simp only [hfree, List.filter_cons_of_pos, List.forM_eq_forM, List.forM_cons, Act.run_bind_ok hvisit]
      exact ih hmore
    · have hsame : p.2 = p₁.2 := by simpa [hfree] using hvisit
      simpa [hfree, hsame] using ih hmore

theorem visit_of_scanMature {ρ : Type} {visit : List Slot → Act ρ Unit} {epoch : UInt64} (e : CodeId × CodeEntry)
    (p : CodeTable × ρ) (n : Nat) (p' : CodeTable × ρ) (h : (scanMature visit epoch e).run p = (.ok n, p')) :
    (if e.2.isFree epoch then visit e.2.slots else pure ()).run p.2 = (.ok (), p'.2) := by
  by_cases hfree : e.2.isFree epoch
  · rcases hvisit : (visit e.2.slots).run p.2 with ⟨_ | ⟨⟩, r⟩
    · simp [scanMature, hfree, Act.run_bind, visitPlace, hvisit, Except.map] at h
    · simp only [scanMature, hfree, if_true, Act.run_bind, Act.run_modify, Act.run_within, visitPlace, hvisit] at h
      cases h
      simp [hfree, hvisit]
  · simp only [scanMature, hfree] at h
    cases h
    simp [hfree]

theorem visit_of_scanNursery {ρ : Type} {visit : List Slot → Act ρ Unit} {epoch : UInt64} (e : CodeId × CodeEntry)
    (p : CodeTable × ρ) (n : Nat) (p' : CodeTable × ρ) (h : (scanNursery visit epoch e).run p = (.ok n, p')) :
    (if e.2.isFree epoch then visit e.2.slots else pure ()).run p.2 = (.ok (), p'.2) := by
  by_cases hfree : e.2.isFree epoch
  · rcases hvisit : (visit e.2.slots).run p.2 with ⟨_ | ⟨⟩, r⟩
    · simp [scanNursery, hfree, visitPlace, hvisit, Except.map] at h
    · simp only [scanNursery, hfree, if_true, Act.run_bind, Act.run_within, visitPlace, hvisit] at h
      cases h
      simp [hfree, hvisit]
  · simp only [scanNursery, hfree] at h
    cases h
    simp [hfree]

/-- A scan that returns has made all visits. -/
theorem visits_of_scan {ρ : Type} {visit : List Slot → Act ρ Unit} {table left : CodeTable} {r r' : ρ} {count : Nat}
    (h : (scan visit).run (table, r) = (.ok count, left, r')) :
    (table.free.forM fun e => visit e.2).run r = (.ok (), r') := by
  have htake : (Act.within tablePlace (modifyGet takeNursery) : Act (CodeTable × ρ) CodeMap).run (table, r) =
      (.ok table.nursery, { table with nursery := {} }, r) := rfl
  rw [scan, Act.run_bind_ok (Act.run_get _), Act.run_bind_ok htake, Act.run_bind_ok (Act.run_get _)] at h
  obtain ⟨counts, p₁, hmature, h⟩ := Act.run_bind_eq_ok.1 h
  obtain ⟨more, p₂, hnursery, h⟩ := Act.run_bind_eq_ok.1 h
  have hlast : p₂.2 = r' := (congrArg (fun q : Except Fault Nat × CodeTable × ρ => q.2.2) h : _)
  have hmature := visits_of_mapM visit_of_scanMature hmature
  have hnursery := visits_of_mapM visit_of_scanNursery hnursery
  rw [hlast] at hnursery
  refine Act.run_forM_append.2 ⟨p₁.2, ?_, ?_⟩
  · rw [freeIn_toList]
    simpa using hmature
  · rw [freeIn_toList]
    simpa using hnursery

theorem getElem?_scanned (table : CodeTable) (code : CodeId) : table.scanned.mature[code]? =
    (table.nursery[code]? <|> table.mature[code]?).map fun entry => entry.claim table.epoch := by
  rw [scanned, promote]
  simp only [getElem?_insertAll, claimAll, Std.ExtTreeMap.getElem?_map]
  cases table.nursery[code]? <;> rfl

@[simp] theorem slots_claim (entry : CodeEntry) (epoch : UInt64) : (entry.claim epoch).slots = entry.slots := by
  unfold CodeEntry.claim
  split <;> rfl

@[simp] theorem isFree_claim (entry : CodeEntry) (epoch : UInt64) : (entry.claim epoch).isFree epoch = false := by
  unfold CodeEntry.claim
  split
  · simp [CodeEntry.isFree]
  · rename_i h
    simpa using h

theorem claimed_claim_le {entry : CodeEntry} {epoch : UInt64} (h : entry.claimed ≤ epoch) :
    (entry.claim epoch).claimed ≤ epoch := by
  unfold CodeEntry.claim
  split
  · exact UInt64.le_refl _
  · exact h

namespace Sound

variable {table : CodeTable}

theorem empty : ({} : CodeTable).Sound where
  apart := by simp
  past := by simp

theorem register (h : table.Sound) (code : CodeId) (slots : List Slot) : (table.register code slots).Sound where
  apart := by
    refine apart_of_getElem? fun other => ?_
    simp only [CodeTable.register, addNursery, dropMature, getElem?_insert, getElem?_erase]
    by_cases he : code = other
    · simp [he]
    · simpa [he] using h.apart? other
  past := by
    intro other entry hentry
    simp only [CodeTable.register, addNursery, dropMature, getElem?_insert, getElem?_erase] at hentry ⊢
    by_cases he : code = other
    · obtain rfl : ⟨slots, 0⟩ = entry := by simpa [he] using hentry
      exact UInt64.zero_le
    · exact h.past other entry (by simpa [he] using hentry)

theorem unregister (h : table.Sound) (code : CodeId) : (table.unregister code).2.Sound where
  apart := by
    refine apart_of_getElem? fun other => ?_
    simp only [CodeTable.unregister, dropNursery, dropMature, getElem?_erase]
    by_cases he : code = other
    · simp [he]
    · simpa [he] using h.apart? other
  past := by
    intro other entry hentry
    simp only [CodeTable.unregister, dropNursery, dropMature, getElem?_erase] at hentry ⊢
    by_cases he : code = other
    · simp [he] at hentry
    · exact h.past other entry (by simpa [he] using hentry)

theorem beginCycle (h : table.Sound) (hlt : table.epoch.toNat + 1 < wordLimit) :
    Sound { table with epoch := table.epoch + 1 } where
  apart := h.apart
  past code entry hentry := by
    have hle := h.past code entry hentry
    have hnext := toNat_add_one hlt
    rw [UInt64.le_iff_toNat_le] at hle ⊢
    simp only
    omega

theorem scanned (h : table.Sound) : table.scanned.Sound where
  apart := by simp [CodeTable.scanned, promote]
  past := by
    intro code entry hentry
    have hentry : table.scanned.mature[code]? = some entry := by
      obtain hentry | hentry := hentry
      · exact hentry
      · simp [CodeTable.scanned, promote] at hentry
    rw [getElem?_scanned] at hentry
    obtain ⟨old, hold, rfl⟩ := Option.map_eq_some_iff.1 hentry
    refine claimed_claim_le (h.past code old ?_)
    cases hn : table.nursery[code]? with
    | none => exact .inl (by simpa [hn] using hold)
    | some entry => exact .inr (by simpa [hn] using hold)

theorem nursery_none (h : table.Sound) {code : CodeId} (hm : code ∈ table.mature) : table.nursery[code]? = none :=
  Std.ExtTreeMap.getElem?_eq_none fun hn => h.apart code hn hm

theorem put (h : table.Sound) (code : CodeId) {entry : CodeEntry} (hle : entry.claimed ≤ table.epoch) :
    (table.put code entry).Sound := by
  by_cases hm : code ∈ table.mature
  · have hput : table.put code entry = { table with mature := table.mature.insert code entry } := if_pos hm
    rw [hput]
    refine ⟨apart_of_getElem? fun other => ?_, fun other old hold => ?_⟩
    · by_cases he : code = other
      · exact .inl (he ▸ h.nursery_none hm)
      · simpa [getElem?_insert, he] using h.apart? other
    · rw [getElem?_insert] at hold
      split at hold
      · obtain hold | hold := hold
        · cases hold
          exact hle
        · exact h.past other old (.inr hold)
      · exact h.past other old hold
  · have hput : table.put code entry = { table with nursery := table.nursery.insert code entry } := if_neg hm
    rw [hput]
    refine ⟨apart_of_getElem? fun other => ?_, fun other old hold => ?_⟩
    · by_cases he : code = other
      · exact .inr (he ▸ Std.ExtTreeMap.getElem?_eq_none hm)
      · simpa [getElem?_insert, he] using h.apart? other
    · rw [getElem?_insert] at hold
      split at hold
      · obtain hold | hold := hold
        · exact h.past other old (.inl hold)
        · cases hold
          exact hle
      · exact h.past other old hold

end Sound

/-- A table under a scan: its nursery is taken, and no claim is of a later cycle. -/
structure Emptied (table : CodeTable) (epoch : UInt64) : Prop where
  taken : table.nursery = {}
  current : table.epoch = epoch
  past : ∀ (code : CodeId) (entry : CodeEntry), table.mature[code]? = some entry → entry.claimed ≤ epoch

namespace Emptied

variable {table : CodeTable} {epoch : UInt64}

theorem sound (h : Emptied table epoch) : table.Sound where
  apart := by simp [h.taken]
  past := by
    intro code entry hentry
    rw [h.current]
    exact h.past code entry (by simpa [h.taken] using hentry)

theorem insert (h : Emptied table epoch) (code : CodeId) {entry : CodeEntry} (hle : entry.claimed ≤ epoch) :
    Emptied { table with mature := table.mature.insert code entry } epoch where
  taken := h.taken
  current := h.current
  past := by
    intro other old hold
    rw [getElem?_insert] at hold
    split at hold
    · cases hold
      exact hle
    · exact h.past other old hold

theorem promote (h : Emptied table epoch) {entries : List (CodeId × CodeEntry)}
    (hle : ∀ e ∈ entries, e.2.claimed ≤ epoch) : Emptied (table.promote entries) epoch := by
  induction entries generalizing table with
  | nil => exact h
  | cons e rest ih =>
    have hrest : ∀ other ∈ rest, other.2.claimed ≤ epoch := fun other hother =>
      hle other (List.mem_cons_of_mem _ hother)
    exact ih (h.insert e.1 (hle e (List.mem_cons_self ..))) hrest

end Emptied

section Scan

variable {table : CodeTable} {epoch : UInt64} {ρ : Type} {visit : List Slot → Act ρ Unit} {kept : CodeTable → Prop}
  {p : CodeTable × ρ}

theorem keeps_visit (h : kept p.1) (slots : List Slot) :
    kept ((do Act.within visitPlace (visit slots); return slots.length : Act (CodeTable × ρ) Nat).run p).2.1 := by
  refine Act.keeps_bind (fun p : CodeTable × ρ => kept p.1) h fun _ p' hrun => ?_
  obtain rfl := (congrArg Prod.snd hrun : visitPlace.put _ p = p')
  exact h

theorem keeps_scanMature {e : CodeId × CodeEntry}
    (hclaim : ∀ t, kept t → kept { t with mature := t.mature.insert e.1 (e.2.claim epoch) }) (h : kept p.1) :
    kept ((scanMature visit epoch e).run p).2.1 := by
  unfold scanMature
  split
  · refine Act.keeps_bind (fun p : CodeTable × ρ => kept p.1) (hclaim _ h) fun _ p' hrun => ?_
    cases hrun
    exact keeps_visit (hclaim _ h) e.2.slots
  · exact h

theorem keeps_scanNursery (h : kept p.1) (e : CodeId × CodeEntry) :
    kept ((scanNursery visit epoch e).run p).2.1 := by
  unfold scanNursery
  split
  · exact keeps_visit h e.2.slots
  · exact h

/-- How a scan ends: it faults before the nursery is put back, or puts it back last of all. What holds of the table
once its nursery is out, and after each claim, holds until then. -/
theorem scan_cases (kept : CodeTable → Prop) (hempty : kept { table with nursery := {} })
    (hclaim : ∀ e ∈ table.mature.toList, ∀ t, kept t →
      kept { t with mature := t.mature.insert e.1 (e.2.claim table.epoch) }) (visit : List Slot → Act ρ Unit) (r : ρ) :
    ∃ under : CodeTable × ρ, kept under.1 ∧
      ((∃ cause, (scan visit).run (table, r) = (.error cause, under)) ∨
      ∃ count, (scan visit).run (table, r) =
        (.ok count, under.1.promote (table.nursery.toList.map fun e => (e.1, e.2.claim table.epoch)), under.2)) := by
  let keeps (p : CodeTable × ρ) : Prop := kept p.1
  have htake : (Act.within tablePlace (modifyGet takeNursery) : Act (CodeTable × ρ) CodeMap).run (table, r) =
      (.ok table.nursery, { table with nursery := {} }, r) := rfl
  have hmature : keeps ((table.mature.toList.mapM (scanMature visit table.epoch)).run
      ({ table with nursery := {} }, r)).2 :=
    Act.keeps_mapM keeps (fun e he _ hp => keeps_scanMature (hclaim e he) hp) hempty
  rw [scan, Act.run_bind_ok (Act.run_get _), Act.run_bind_ok htake, Act.run_bind_ok (Act.run_get _)]
  rcases hrun : (table.mature.toList.mapM (scanMature visit table.epoch)).run ({ table with nursery := {} }, r) with
    ⟨cause | counts, p₁⟩
  · rw [hrun] at hmature
    exact ⟨p₁, hmature, .inl ⟨cause, Act.run_bind_error hrun⟩⟩
  · rw [hrun] at hmature
    have hnursery : keeps ((table.nursery.toList.mapM (scanNursery visit table.epoch)).run p₁).2 :=
      Act.keeps_mapM keeps (fun e _ _ hp => keeps_scanNursery hp e) hmature
    rw [Act.run_bind_ok hrun]
    rcases hrun₂ : (table.nursery.toList.mapM (scanNursery visit table.epoch)).run p₁ with ⟨cause | more, p₂⟩
    · rw [hrun₂] at hnursery
      exact ⟨p₂, hnursery, .inl ⟨cause, Act.run_bind_error hrun₂⟩⟩
    · rw [hrun₂] at hnursery
      exact ⟨p₂, hnursery, .inr ⟨_, Act.run_bind_ok hrun₂⟩⟩

/-- Scans of one table whose visitors do the same do the same. -/
theorem alike_scan {ρ' : Type} {related : ρ → ρ' → Prop} {visit' : List Slot → Act ρ' Unit}
    (hvisit : ∀ slots, Act.Alike related (visit slots) (visit' slots)) :
    Act.Alike (fun p q => p.1 = q.1 ∧ related p.2 q.2) (scan visit) (scan visit') := by
  have hvisits (slots : List Slot) : Act.Alike (fun (p : CodeTable × ρ) (q : CodeTable × ρ') =>
      p.1 = q.1 ∧ related p.2 q.2) (do Act.within visitPlace (visit slots); return slots.length)
        (do Act.within visitPlace (visit' slots); return slots.length) :=
    .bind (.within (hvisit slots) (fun _ _ h => h.2) fun _ _ _ _ h h' => ⟨h.1, h'⟩) fun _ => .pure _
  have htable {α : Type} (act : Act CodeTable α) : Act.Alike (fun (p : CodeTable × ρ) (q : CodeTable × ρ') =>
      p.1 = q.1 ∧ related p.2 q.2) (Act.within tablePlace act) (Act.within tablePlace act) :=
    .within (.same act) (fun _ _ h => h.1) fun _ _ _ _ h h' => ⟨h', h.2⟩
  refine .get fun p q hpq => ?_
  rw [hpq.1]
  refine .bind (htable _) fun nursery => .get fun p q hpq => ?_
  rw [hpq.1]
  refine .bind (.mapM _ fun e _ => ?_) fun counts => .bind (.mapM _ fun e _ => ?_) fun more =>
    .bind (htable _) fun _ => .pure _
  · unfold scanMature
    split
    · refine .bind (.modify fun p q h => ⟨?_, h.2⟩) fun _ => hvisits e.2.slots
      rw [h.1]
    · exact .pure 0
  · unfold scanNursery
    split
    · exact hvisits e.2.slots
    · exact .pure 0

/-- Whatever the visits come to, a scan leaves a sound table. -/
theorem Sound.run_scan (h : table.Sound) (visit : List Slot → Act ρ Unit) (r : ρ) :
    ((scan visit).run (table, r)).2.1.Sound := by
  have hpast {map : CodeMap} (hmap : map = table.mature ∨ map = table.nursery) {e : CodeId × CodeEntry}
      (he : e ∈ map.toList) : e.2.claimed ≤ table.epoch := by
    have hentry := Std.ExtTreeMap.mem_toList_iff_getElem?_eq_some.1 he
    obtain rfl | rfl := hmap
    · exact h.past e.1 e.2 (.inl hentry)
    · exact h.past e.1 e.2 (.inr hentry)
  have hempty : Emptied { table with nursery := {} } table.epoch :=
    ⟨rfl, rfl, fun code entry hentry => h.past code entry (.inl hentry)⟩
  obtain ⟨under, hunder, ⟨cause, hrun⟩ | ⟨count, hrun⟩⟩ := scan_cases (fun t => Emptied t table.epoch) hempty
    (fun e he _ ht => ht.insert e.1 (claimed_claim_le (hpast (.inl rfl) he))) visit r
  · rw [hrun]
    exact hunder.sound
  · rw [hrun]
    refine Emptied.sound (hunder.promote fun e he => ?_)
    obtain ⟨old, hold, rfl⟩ := List.mem_map.1 he
    exact claimed_claim_le (hpast (.inr rfl) hold)

end Scan

end Safepoint.CodeTable
