import Mathlib.Data.List.Nodup
import Safepoint.Proofs.Roots.Claims

/-!
# What a code table has on record

A table has the slots of every registered blob on record, in one of its maps. Claims leave the record as it is, and so
does a scan that returns. A scan that faults does not: it took the nursery out at its beginning and would have put it
back at its end.
-/
namespace Safepoint.CodeTable

/-- The slots a map has on record for a blob. -/
def slotsIn (map : CodeMap) (code : CodeId) : Option (List Slot) := map[code]?.map CodeEntry.slots

/-- The slots on record for a blob, wherever it is. -/
def recorded (table : CodeTable) (code : CodeId) : Option (List Slot) := (table.lookup code).map CodeEntry.slots

variable {table left : CodeTable}

theorem recorded_eq (table : CodeTable) (code : CodeId) :
    table.recorded code = (slotsIn table.mature code <|> slotsIn table.nursery code) := by
  unfold recorded lookup slotsIn
  cases table.mature[code]? <;> rfl

theorem recorded_of_nursery_empty (h : table.nursery = {}) : table.recorded = slotsIn table.mature := by
  funext code
  rw [recorded_eq, h]
  cases slotsIn table.mature code <;> simp [slotsIn]

theorem slotsIn_insert_claim {map : CodeMap} {code : CodeId} {entry : CodeEntry}
    (h : slotsIn map code = some entry.slots) (epoch : UInt64) :
    slotsIn (map.insert code (entry.claim epoch)) = slotsIn map := by
  funext other
  unfold slotsIn at h ⊢
  rw [getElem?_insert]
  by_cases he : code = other
  · subst he
    rw [if_pos rfl, h, Option.map_some, slots_claim]
  · rw [if_neg he]

theorem lookup_put (table : CodeTable) (code other : CodeId) (entry : CodeEntry) :
    (table.put code entry).lookup other = if code = other then some entry else table.lookup other := by
  by_cases hm : code ∈ table.mature
  · rw [put, if_pos hm, lookup, lookup, getElem?_insert]
    by_cases he : code = other <;> simp [he]
  · rw [put, if_neg hm, lookup, lookup, getElem?_insert]
    by_cases he : code = other
    · subst he
      simp [Std.ExtTreeMap.getElem?_eq_none hm]
    · simp [he]

theorem lookup_eq_some_iff (h : table.Sound) {code : CodeId} {entry : CodeEntry} :
    table.lookup code = some entry ↔ table.mature[code]? = some entry ∨ table.nursery[code]? = some entry := by
  rw [lookup]
  obtain hnone | hnone := h.apart? code
  · rw [hnone]
    cases table.mature[code]? <;> simp
  · rw [hnone]
    cases table.nursery[code]? <;> simp

theorem claim_eq (table : CodeTable) (code : CodeId) : (table.claim code).1 =
    (table.lookup code).bind fun entry => if entry.isFree table.epoch then some entry.slots else none := by
  unfold claim
  cases table.lookup code with
  | none => rfl
  | some entry => by_cases hfree : entry.isFree table.epoch <;> simp [hfree]

/-- A claim takes nothing off the record. -/
theorem recorded_claim (table : CodeTable) (code : CodeId) : (table.claim code).2.recorded = table.recorded := by
  obtain hnone | ⟨entry, hl, -, hsome⟩ := claim_cases table code
  · rw [hnone]
  · rw [hsome]
    funext other
    rw [recorded, lookup_put, recorded]
    by_cases he : code = other
    · subst he
      simp [hl]
    · rw [if_neg he]

theorem epoch_claim (table : CodeTable) (code : CodeId) : (table.claim code).2.epoch = table.epoch := by
  obtain hnone | ⟨entry, -, -, hsome⟩ := claim_cases table code
  · rw [hnone]
  · rw [hsome, epoch_put]

/-- A blob can be claimed once, and no claim stands in the way of another. -/
theorem claim_claim_eq (table : CodeTable) (code other : CodeId) :
    ((table.claim code).2.claim other).1 = if code = other then none else (table.claim other).1 := by
  rw [claim_eq, epoch_claim]
  obtain hnone | ⟨entry, -, -, hsome⟩ := claim_cases table code
  · rw [hnone, ← claim_eq]
    by_cases he : code = other
    · subst he
      rw [if_pos rfl, hnone]
    · rw [if_neg he]
  · rw [hsome, lookup_put]
    by_cases he : code = other
    · simp [he]
    · rw [if_neg he, if_neg he, ← claim_eq]

/-- In a new cycle a claim gives what is on record. -/
theorem claim_begun (h : table.Sound) (hlt : table.epoch.toNat + 1 < wordLimit) (code : CodeId) :
    (claim { table with epoch := table.epoch + 1 } code).1 = table.recorded code := by
  have hsame : lookup { table with epoch := table.epoch + 1 } code = table.lookup code := rfl
  rw [claim_eq, hsame, recorded]
  cases hl : table.lookup code with
  | none => rfl
  | some entry =>
    have hpast : entry.claimed ≤ table.epoch := by
      obtain ⟨-, hm, -⟩ | ⟨-, -, hn⟩ := lookup_cases h hl
      · exact h.past code entry (.inl hm)
      · exact h.past code entry (.inr hn)
    have hnext := toNat_add_one hlt
    have hfree : entry.isFree (table.epoch + 1) := by
      rw [UInt64.le_iff_toNat_le] at hpast
      simp only [CodeEntry.isFree, decide_eq_true_eq, UInt64.lt_iff_toNat_lt]
      omega
    simp [hfree]

theorem recorded_scanned (h : table.Sound) : table.scanned.recorded = table.recorded := by
  rw [recorded_of_nursery_empty rfl]
  funext code
  rw [recorded_eq]
  unfold slotsIn
  rw [getElem?_scanned]
  obtain hnone | hnone := h.apart? code
  · rw [hnone]
    cases table.mature[code]? <;> simp
  · rw [hnone]
    cases table.nursery[code]? <;> simp

/-- All blobs on record. -/
def blobs (table : CodeTable) : List (CodeId × List Slot) :=
  (table.mature.toList ++ table.nursery.toList).map fun e => (e.1, e.2.slots)

theorem slots_eq_blobs (table : CodeTable) : table.slots = table.blobs.flatMap Prod.snd := by
  rw [slots, blobs, List.flatMap_map]

theorem mem_blobs (h : table.Sound) {blob : CodeId × List Slot} :
    blob ∈ table.blobs ↔ table.recorded blob.1 = some blob.2 := by
  have hmem (e : CodeId × CodeEntry) : e ∈ table.mature.toList ++ table.nursery.toList ↔
      table.lookup e.1 = some e.2 := by
    rw [lookup_eq_some_iff h, List.mem_append, Std.ExtTreeMap.mem_toList_iff_getElem?_eq_some,
      Std.ExtTreeMap.mem_toList_iff_getElem?_eq_some]
  rw [blobs, List.mem_map, recorded, Option.map_eq_some_iff]
  constructor
  · rintro ⟨e, he, rfl⟩
    exact ⟨e.2, (hmem e).1 he, rfl⟩
  · rintro ⟨entry, hl, hslots⟩
    exact ⟨(blob.1, entry), (hmem _).2 hl, Prod.ext rfl hslots⟩

theorem nodup_blobs (h : table.Sound) : table.blobs.Nodup := by
  refine List.Nodup.of_map Prod.fst ?_
  have hkeys : table.blobs.map Prod.fst = table.mature.keys ++ table.nursery.keys := by
    rw [blobs, List.map_map, List.map_append, ← Std.ExtTreeMap.map_fst_toList_eq_keys,
      ← Std.ExtTreeMap.map_fst_toList_eq_keys]
    rfl
  rw [hkeys]
  refine List.nodup_append.2 ⟨Std.ExtTreeMap.nodup_keys, Std.ExtTreeMap.nodup_keys, fun code hm other hn => ?_⟩
  rintro rfl
  exact h.apart code (Std.ExtTreeMap.mem_keys.1 hn) (Std.ExtTreeMap.mem_keys.1 hm)

/-- Where the same is on record, the same slots are registered. -/
theorem slots_perm (h : table.Sound) (hleft : left.Sound) (heq : left.recorded = table.recorded) :
    left.slots.Perm table.slots := by
  rw [slots_eq_blobs, slots_eq_blobs]
  refine ((List.perm_ext_iff_of_nodup (nodup_blobs hleft) (nodup_blobs h)).2 fun blob => ?_).flatMap_right _
  rw [mem_blobs hleft, mem_blobs h, heq]

/-- A table under a scan that began in `start`: the nursery is out, and what was mature is on record. -/
structure Drained (start table : CodeTable) : Prop where
  taken : table.nursery = {}
  epoch : table.epoch = start.epoch
  mature : slotsIn table.mature = slotsIn start.mature

theorem Drained.claim {start : CodeTable} (h : Drained start table) {e : CodeId × CodeEntry}
    (he : e ∈ start.mature.toList) (epoch : UInt64) :
    Drained start { table with mature := table.mature.insert e.1 (e.2.claim epoch) } where
  taken := h.taken
  epoch := h.epoch
  mature := by
    have hslots : slotsIn table.mature e.1 = some e.2.slots := by
      rw [h.mature, slotsIn, Std.ExtTreeMap.mem_toList_iff_getElem?_eq_some.1 he, Option.map_some]
    exact (slotsIn_insert_claim hslots epoch).trans h.mature

/-- Beside the blobs that were in the nursery, all are on record that were. -/
theorem Drained.recorded_eq {start : CodeTable} (h : Drained start table) (hsound : start.Sound) (code : CodeId) :
    table.recorded code = if code ∈ start.nursery then none else start.recorded code := by
  rw [recorded_of_nursery_empty h.taken, h.mature]
  by_cases hn : code ∈ start.nursery
  · rw [if_pos hn, slotsIn, Std.ExtTreeMap.getElem?_eq_none (hsound.apart code hn), Option.map_none]
  · rw [if_neg hn, CodeTable.recorded_eq, slotsIn, slotsIn, Std.ExtTreeMap.getElem?_eq_none hn]
    cases start.mature[code]? <;> rfl

/-- A scan that faults, at whichever visit, leaves the table without its nursery. -/
theorem drained_of_fault {ρ : Type} {visit : List Slot → Act ρ Unit} {r r' : ρ} {cause : Fault}
    (h : (scan visit).run (table, r) = (.error cause, left, r')) : Drained table left := by
  obtain ⟨under, hunder, ⟨_, hrun⟩ | ⟨count, hrun⟩⟩ := scan_cases (Drained table) ⟨rfl, rfl, rfl⟩
    (fun e he _ ht => ht.claim he table.epoch) visit r
  · rw [h] at hrun
    cases hrun
    exact hunder
  · rw [h] at hrun
    cases hrun

end Safepoint.CodeTable
