import Safepoint.Proofs.Roots.CodeTable

/-!
# Claims one by one and all at once

Threads claim the blobs they come across, and a scan claims the rest. Whoever comes first, each
blob that was free is reported once, and what a scan leaves is the same.
-/
namespace Safepoint.CodeTable

/-- The slots that a scan reports. -/
def freeSlots (table : CodeTable) : List Slot := table.free.flatMap Prod.snd

/-- The slots of all registered blobs. -/
def slots (table : CodeTable) : List Slot := (table.mature.toList ++ table.nursery.toList).flatMap (·.2.slots)

/-- Claim blobs one after another. What each claim gives the claimer is its to report. -/
def claims (table : CodeTable) : List CodeId → List Slot × CodeTable
  | [] => ([], table)
  | code :: codes =>
    let first := table.claim code
    let others := first.2.claims codes
    (first.1.getD [] ++ others.1, others.2)

/-- What a claim can do: nothing, or take a free blob. -/
theorem claim_cases (table : CodeTable) (code : CodeId) :
    table.claim code = (none, table) ∨
    ∃ entry, table.lookup code = some entry ∧ entry.isFree table.epoch ∧
      table.claim code = (some entry.slots, table.put code (entry.claim table.epoch)) := by
  unfold claim
  cases hl : table.lookup code with
  | none => exact .inl rfl
  | some entry =>
    by_cases hf : entry.isFree table.epoch
    · exact .inr ⟨entry, rfl, hf, by simp [hf]⟩
    · exact .inl (by simp [hf])

theorem nodup_toList {β : Type} (map : Std.ExtTreeMap CodeId β) : map.toList.Nodup :=
  map.distinct_keys_toList.imp fun h he => h (by rw [he]; exact Std.ReflCmp.compare_self)

theorem nodup_freeIn (epoch : UInt64) (map : CodeMap) : (freeIn epoch map).Nodup := nodup_toList _

theorem mem_freeIn {epoch : UInt64} {map : CodeMap} {e : CodeId × List Slot} :
    e ∈ freeIn epoch map ↔ ∃ entry, map[e.1]? = some entry ∧ entry.isFree epoch ∧ entry.slots = e.2 := by
  rw [freeIn, Std.ExtTreeMap.mem_toList_iff_getElem?_eq_some, Std.ExtTreeMap.getElem?_filterMap']
  simp [Option.bind_eq_some_iff]

/-- A free blob that is claimed is no longer among those of its map that are free. -/
theorem freeIn_insert {epoch : UInt64} {map : CodeMap} {code : CodeId} {entry : CodeEntry}
    (h : map[code]? = some entry) (hf : entry.isFree epoch) :
    ((code, entry.slots) :: freeIn epoch (map.insert code (entry.claim epoch))).Perm (freeIn epoch map) := by
  have hnot : (code, entry.slots) ∉ freeIn epoch (map.insert code (entry.claim epoch)) := by
    rw [mem_freeIn]
    rintro ⟨old, hold, hfree, -⟩
    rw [getElem?_insert, if_pos rfl] at hold
    cases hold
    simp at hfree
  refine (List.perm_ext_iff_of_nodup (List.nodup_cons.2 ⟨hnot, nodup_freeIn _ _⟩) (nodup_freeIn _ _)).2 fun e => ?_
  rw [List.mem_cons, mem_freeIn, mem_freeIn, getElem?_insert]
  constructor
  · rintro (rfl | ⟨old, hold, hfree, hslots⟩)
    · exact ⟨entry, h, hf, rfl⟩
    · split at hold
      · cases hold
        simp at hfree
      · exact ⟨old, hold, hfree, hslots⟩
  · rintro ⟨old, hold, hfree, hslots⟩
    by_cases he : code = e.1
    · subst he
      cases h.symm.trans hold
      exact .inl (by rw [hslots])
    · exact .inr ⟨old, by rwa [if_neg he], hfree, hslots⟩

variable {table : CodeTable}

theorem lookup_cases (h : table.Sound) {code : CodeId} {entry : CodeEntry} (hl : table.lookup code = some entry) :
    (code ∈ table.mature ∧ table.mature[code]? = some entry ∧ table.nursery[code]? = none) ∨
    (code ∉ table.mature ∧ table.mature[code]? = none ∧ table.nursery[code]? = some entry) := by
  rw [lookup] at hl
  cases hm : table.mature[code]? with
  | some old =>
    have hmem := mem_of_getElem? hm
    exact .inl ⟨hmem, by simpa [hm] using hl, h.nursery_none hmem⟩
  | none => exact .inr ⟨not_mem_of_getElem? hm, rfl, by simpa [hm] using hl⟩

theorem freeSlots_put (h : table.Sound) {code : CodeId} {entry : CodeEntry} (hl : table.lookup code = some entry)
    (hf : entry.isFree table.epoch) :
    (entry.slots ++ (table.put code (entry.claim table.epoch)).freeSlots).Perm table.freeSlots := by
  simp only [freeSlots, free, List.flatMap_append]
  obtain ⟨hmem, hm, -⟩ | ⟨hmem, -, hn⟩ := lookup_cases h hl
  · simp only [put, if_pos hmem]
    rw [← List.append_assoc]
    exact ((freeIn_insert hm hf).flatMap_right Prod.snd).append_right _
  · simp only [put, if_neg hmem]
    refine (List.perm_append_comm_assoc _ _ _).trans ?_
    exact ((freeIn_insert hn hf).flatMap_right Prod.snd).append_left _

theorem claim_claim (entry : CodeEntry) (epoch : UInt64) : (entry.claim epoch).claim epoch = entry.claim epoch := by
  rw [CodeEntry.claim, if_neg (by simp)]

theorem ext_scanned {other : CodeTable} (hepoch : other.epoch = table.epoch)
    (h : ∀ code : CodeId, other.scanned.mature[code]? = table.scanned.mature[code]?) :
    other.scanned = table.scanned := by
  have hmature : other.scanned.mature = table.scanned.mature := Std.ExtTreeMap.ext_getElem? h
  simp only [scanned, promote] at hmature ⊢
  rw [hmature, hepoch]

/-- A scan after a claim leaves what it would have left without the claim. -/
theorem scanned_put (h : table.Sound) {code : CodeId} {entry : CodeEntry} (hl : table.lookup code = some entry) :
    (table.put code (entry.claim table.epoch)).scanned = table.scanned := by
  obtain ⟨hmem, hm, hn⟩ | ⟨hmem, hm, hn⟩ := lookup_cases h hl
  · simp only [put, if_pos hmem]
    refine ext_scanned rfl fun other => ?_
    simp only [getElem?_scanned, getElem?_insert]
    by_cases he : code = other
    · subst he
      simp [hm, hn, claim_claim]
    · simp [he]
  · simp only [put, if_neg hmem]
    refine ext_scanned rfl fun other => ?_
    simp only [getElem?_scanned, getElem?_insert]
    by_cases he : code = other
    · subst he
      simp [hn, claim_claim]
    · simp [he]

theorem epoch_put (code : CodeId) (entry : CodeEntry) : (table.put code entry).epoch = table.epoch := by
  unfold put
  split <;> rfl

theorem Sound.claim (h : table.Sound) (code : CodeId) : (table.claim code).2.Sound := by
  obtain hnone | ⟨entry, hl, -, hsome⟩ := claim_cases table code
  · rw [hnone]
    exact h
  · rw [hsome]
    refine h.put code (claimed_claim_le ?_)
    obtain ⟨-, hm, -⟩ | ⟨-, -, hn⟩ := lookup_cases h hl
    · exact h.past code entry (.inl hm)
    · exact h.past code entry (.inr hn)

/-- Claim a blob and show the visitor its slots. -/
def claimAndVisit {ρ : Type} (visit : Slot → Act ρ Unit) (code : CodeId) : Act (CodeTable × ρ) Nat := do
  match ← Act.within tablePlace (modifyGet (·.claim code)) with
  | none => return 0
  | some slots =>
    Act.within visitPlace (slots.forM visit)
    return slots.length

theorem run_claimAndVisit {ρ : Type} {visit : Slot → Act ρ Unit} {code : CodeId} {r r' : ρ}
    (h : (((table.claim code).1.getD []).forM visit).run r = (.ok (), r')) :
    (claimAndVisit visit code).run (table, r) =
      (.ok ((table.claim code).1.getD []).length, (table.claim code).2, r') := by
  have hclaim : (Act.within tablePlace (modifyGet (·.claim code)) : Act (CodeTable × ρ) (Option (List Slot))).run
      (table, r) = (.ok (table.claim code).1, (table.claim code).2, r) := rfl
  rw [claimAndVisit, Act.run_bind_ok hclaim]
  cases hc : (table.claim code).1 with
  | none =>
    rw [hc] at h
    cases h
    rfl
  | some slots =>
    rw [hc] at h
    have hvisit : (Act.within visitPlace (slots.forM visit)).run ((table.claim code).2, r) =
        (.ok (), (table.claim code).2, r') := by
      rw [Act.run_within]
      exact congrArg (fun p : Except Fault Unit × ρ => (p.1, (table.claim code).2, p.2)) h
    exact Act.run_bind_ok hvisit

theorem Sound.run_claimAndVisit (h : table.Sound) {ρ : Type} (visit : Slot → Act ρ Unit)
    (code : CodeId) (r : ρ) : ((claimAndVisit visit code).run (table, r)).2.1.Sound := by
  have hclaim : (Act.within tablePlace (modifyGet (·.claim code)) : Act (CodeTable × ρ) (Option (List Slot))).run
      (table, r) = (.ok (table.claim code).1, (table.claim code).2, r) := rfl
  rw [claimAndVisit, Act.run_bind_ok hclaim]
  cases (table.claim code).1 with
  | none => exact h.claim code
  | some slots =>
    refine Act.keeps_bind (fun p : CodeTable × ρ => p.1.Sound) (h.claim code) fun _ p hrun => ?_
    obtain rfl := (congrArg Prod.snd hrun : visitPlace.put _ ((table.claim code).2, r) = p)
    exact h.claim code

/-- Claims take free blobs and leave the others; a scan after them makes up for the difference. -/
theorem claims_spec (h : table.Sound) (codes : List CodeId) :
    ((table.claims codes).1 ++ (table.claims codes).2.freeSlots).Perm table.freeSlots ∧
    (table.claims codes).2.scanned = table.scanned ∧ (table.claims codes).2.Sound := by
  induction codes generalizing table with
  | nil => exact ⟨.refl _, rfl, h⟩
  | cons code codes ih =>
    obtain ⟨hperm, hscan, hsound⟩ := ih (h.claim code)
    simp only [claims]
    obtain hnone | ⟨entry, hl, hf, hsome⟩ := claim_cases table code
    · rw [hnone] at hperm hscan hsound ⊢
      exact ⟨hperm, hscan, hsound⟩
    · rw [hsome] at hperm hscan hsound ⊢
      refine ⟨?_, hscan.trans (scanned_put h hl), hsound⟩
      rw [List.append_assoc]
      exact (hperm.append_left _).trans (freeSlots_put h hl hf)

/-- A table in the state in which a scan leaves it. -/
def Settled (table : CodeTable) : Prop := table.scanned = table

theorem free_scanned (table : CodeTable) : table.scanned.free = [] := by
  refine List.eq_nil_iff_forall_not_mem.2 fun e he => ?_
  obtain he | he := List.mem_append.1 he
  · obtain ⟨entry, hentry, hfree, -⟩ := mem_freeIn.1 he
    rw [getElem?_scanned] at hentry
    obtain ⟨old, -, rfl⟩ := Option.map_eq_some_iff.1 hentry
    simp [scanned, promote] at hfree
  · obtain ⟨entry, hentry, -, -⟩ := mem_freeIn.1 he
    simp [scanned, promote] at hentry

theorem Settled.free (h : table.Settled) : table.free = [] := by
  rw [← h]
  exact free_scanned table

theorem mem_free {code : CodeId} {entry : CodeEntry} (hl : table.lookup code = some entry)
    (hf : entry.isFree table.epoch) : (code, entry.slots) ∈ table.free := by
  rw [lookup] at hl
  refine List.mem_append.2 ?_
  cases hm : table.mature[code]? with
  | some old => exact .inl (mem_freeIn.2 ⟨entry, by simpa [hm] using hl, hf, rfl⟩)
  | none => exact .inr (mem_freeIn.2 ⟨entry, by simpa [hm] using hl, hf, rfl⟩)

theorem settled_scanned (table : CodeTable) : table.scanned.Settled := by
  refine ext_scanned rfl fun code => ?_
  rw [getElem?_scanned table.scanned, getElem?_scanned]
  have hnone : table.scanned.nursery[code]? = none := Std.ExtTreeMap.getElem?_empty
  have hepoch : table.scanned.epoch = table.epoch := rfl
  rw [hnone, hepoch]
  cases table.nursery[code]? <;> cases table.mature[code]? <;> simp [claim_claim]

theorem claims_settled (h : table.Settled) (codes : List CodeId) : table.claims codes = ([], table) := by
  induction codes with
  | nil => rfl
  | cons code codes ih =>
    have hnone : table.claim code = (none, table) := by
      obtain hnone | ⟨entry, hl, hf, -⟩ := claim_cases table code
      · exact hnone
      · have := mem_free hl hf
        simp [h.free] at this
    simp [claims, hnone, ih]

/-- When a cycle begins every registered blob is free. -/
theorem freeSlots_begun (h : table.Sound) (hlt : table.epoch.toNat + 1 < wordLimit) :
    freeSlots { table with epoch := table.epoch + 1 } = table.slots := by
  have hfree (map : CodeMap)
      (hpast : ∀ (code : CodeId) (entry : CodeEntry), map[code]? = some entry → entry.claimed ≤ table.epoch) :
      (freeIn (table.epoch + 1) map).flatMap Prod.snd = map.toList.flatMap (·.2.slots) := by
    have hall : (map.toList.filter fun e => e.2.isFree (table.epoch + 1)) = map.toList := by
      refine List.filter_eq_self.2 fun e he => ?_
      have hle := hpast e.1 e.2 (Std.ExtTreeMap.mem_toList_iff_getElem?_eq_some.1 he)
      have hnext := toNat_add_one hlt
      rw [UInt64.le_iff_toNat_le] at hle
      simp only [CodeEntry.isFree, decide_eq_true_eq, UInt64.lt_iff_toNat_lt]
      omega
    rw [freeIn_toList, hall, List.flatMap_map]
  simp only [freeSlots, free, slots, List.flatMap_append]
  rw [hfree _ fun code entry he => h.past code entry (.inl he),
    hfree _ fun code entry he => h.past code entry (.inr he)]

theorem mem_slots {slot : Slot} : slot ∈ table.slots ↔ ∃ (code : CodeId) (entry : CodeEntry),
    (table.mature[code]? = some entry ∨ table.nursery[code]? = some entry) ∧ slot ∈ entry.slots := by
  simp only [slots, List.mem_flatMap, List.mem_append, Std.ExtTreeMap.mem_toList_iff_getElem?_eq_some, Prod.exists]

/-- A scan leaves no blob other slots than it had. -/
theorem slots_scanned (table : CodeTable) : table.scanned.slots ⊆ table.slots := by
  intro slot hslot
  obtain ⟨code, entry, hentry, hslot⟩ := mem_slots.1 hslot
  have hmature : table.scanned.mature[code]? = some entry := by
    obtain hmature | hnursery := hentry
    · exact hmature
    · simp [scanned, promote] at hnursery
  rw [getElem?_scanned] at hmature
  obtain ⟨old, hold, rfl⟩ := Option.map_eq_some_iff.1 hmature
  rw [slots_claim] at hslot
  refine mem_slots.2 ⟨code, old, ?_, hslot⟩
  cases hnursery : table.nursery[code]? with
  | none => exact .inl (by simpa [hnursery] using hold)
  | some entry => exact .inr (by simpa [hnursery] using hold)

end Safepoint.CodeTable
