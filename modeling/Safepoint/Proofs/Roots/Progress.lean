import Safepoint.Proofs.Roots.Records

/-!
# Claims as a cycle goes on

Within a cycle a claim is final: claims and scans turn entries that were free into claimed ones and change nothing else.
Only a scan that faults does more, as it loses its nursery. What bears the claim of the cycle is what the table lists as
claimed.
-/
namespace Safepoint.CodeTable

variable {table left : CodeTable} {code : CodeId}

/-- The blob is known, and nobody has claimed it in this cycle. -/
def IsFree (table : CodeTable) (code : CodeId) : Prop :=
  ∃ entry, table.lookup code = some entry ∧ entry.isFree table.epoch

/-- The blob is known, and was claimed in this cycle. -/
def IsClaimed (table : CodeTable) (code : CodeId) : Prop :=
  ∃ entry, table.lookup code = some entry ∧ entry.claimed = table.epoch

theorem mem_claimed (h : table.Sound) : code ∈ table.claimed ↔ table.IsClaimed code := by
  have hmap (map : CodeMap) : code ∈ (map.toList.filter fun e => e.2.claimed == table.epoch).map Prod.fst ↔
      ∃ entry, map[code]? = some entry ∧ entry.claimed = table.epoch := by
    simp only [List.mem_map, List.mem_filter, beq_iff_eq]
    constructor
    · rintro ⟨e, ⟨he, hepoch⟩, rfl⟩
      exact ⟨e.2, Std.ExtTreeMap.mem_toList_iff_getElem?_eq_some.1 he, hepoch⟩
    · rintro ⟨entry, hentry, hepoch⟩
      exact ⟨(code, entry), ⟨Std.ExtTreeMap.mem_toList_iff_getElem?_eq_some.2 hentry, hepoch⟩, rfl⟩
  rw [claimed, List.mem_mergeSort, List.mem_append, hmap, hmap, IsClaimed]
  simp only [lookup_eq_some_iff h, or_and_right, exists_or]

/-- The ids in a map, each once. -/
theorem nodup_filter_fst (map : CodeMap) (p : CodeId × CodeEntry → Bool) :
    ((map.toList.filter p).map Prod.fst).Nodup := by
  have hkeys : (map.toList.map Prod.fst).Nodup := by
    rw [Std.ExtTreeMap.map_fst_toList_eq_keys]
    exact Std.ExtTreeMap.nodup_keys
  exact hkeys.sublist (List.filter_sublist.map Prod.fst)

theorem nodup_claimed (h : table.Sound) : table.claimed.Nodup := by
  rw [claimed, (List.mergeSort_perm ..).nodup_iff]
  refine List.nodup_append.2 ⟨nodup_filter_fst _ _, nodup_filter_fst _ _, fun code hm other hn => ?_⟩
  rintro rfl
  obtain ⟨e, he, rfl⟩ := List.mem_map.1 hm
  obtain ⟨e', he', heq⟩ := List.mem_map.1 hn
  have hmature := mem_of_getElem? (Std.ExtTreeMap.mem_toList_iff_getElem?_eq_some.1 (List.mem_of_mem_filter he))
  have hnursery := mem_of_getElem? (Std.ExtTreeMap.mem_toList_iff_getElem?_eq_some.1 (List.mem_of_mem_filter he'))
  exact h.apart e.1 (heq ▸ hnursery) hmature

/-- Claimed blobs are listed once each, in ascending order. -/
theorem claimed_ascending (h : table.Sound) : table.claimed.Pairwise fun a b => a.value < b.value := by
  have hsorted : table.claimed.Pairwise fun a b => decide (a.value ≤ b.value) = true :=
    @List.pairwise_mergeSort CodeId (fun a b => decide (a.value ≤ b.value))
      (fun a b c hab hbc => by
        simp only [decide_eq_true_eq] at hab hbc ⊢
        exact UInt64.le_trans hab hbc)
      (fun a b => by
        simp only [Bool.or_eq_true, decide_eq_true_eq]
        exact UInt64.le_total ..) _
  refine (hsorted.and (nodup_claimed h)).imp fun {a b} ⟨hle, hne⟩ => ?_
  refine UInt64.lt_of_le_of_ne (by simpa using hle) fun hvalue => hne ?_
  exact CodeId.ext hvalue

/-- Just the blobs with `P` are claimed, those of them that are known and free. -/
structure Reaches (table : CodeTable) (P : CodeId → Prop) (left : CodeTable) : Prop where
  epoch : left.epoch = table.epoch
  claimed : ∀ code, P code → left.lookup code = (table.lookup code).map (·.claim table.epoch)
  others : ∀ code, ¬P code → left.lookup code = table.lookup code

namespace Reaches

variable {P Q : CodeId → Prop}

theorem refl (table : CodeTable) : table.Reaches (fun _ => False) table := ⟨rfl, fun _ h => h.elim, fun _ _ => rfl⟩

theorem trans {last : CodeTable} (h : table.Reaches P left) (h' : left.Reaches Q last) :
    table.Reaches (fun code => P code ∨ Q code) last where
  epoch := h'.epoch.trans h.epoch
  claimed code hcode := by
    have hclaims : (left.lookup code).map (·.claim left.epoch) = (table.lookup code).map (·.claim table.epoch) := by
      rw [h.epoch]
      by_cases hp : P code
      · rw [h.claimed code hp]
        cases table.lookup code with
        | none => rfl
        | some entry => exact congrArg some (claim_claim entry table.epoch)
      · rw [h.others code hp]
    by_cases hq : Q code
    · rw [h'.claimed code hq, hclaims]
    · rw [h'.others code hq, h.claimed code (hcode.resolve_right hq)]
  others code hcode := by
    rw [h'.others code fun hq => hcode (.inr hq), h.others code fun hp => hcode (.inl hp)]

theorem claim (table : CodeTable) (code : CodeId) : table.Reaches (· = code) (table.claim code).2 := by
  have hsame (other : CodeId) (hother : other ≠ code) : (table.claim code).2.lookup other = table.lookup other := by
    obtain hnone | ⟨entry, -, -, hsome⟩ := claim_cases table code
    · rw [hnone]
    · rw [hsome, lookup_put, if_neg hother.symm]
  have hclaimed : (table.claim code).2.lookup code = (table.lookup code).map (·.claim table.epoch) := by
    unfold CodeTable.claim
    cases hl : table.lookup code with
    | none => exact hl
    | some entry =>
      by_cases hfree : entry.isFree table.epoch
      · simp [hfree, lookup_put]
      · simp [hfree, hl, CodeEntry.claim]
  exact ⟨table.epoch_claim code, fun other hother => hother ▸ hclaimed, hsame⟩

/-- What is free is claimed if it is reached. -/
theorem isClaimed_iff (h : table.Reaches P left) (hfree : table.IsFree code) : left.IsClaimed code ↔ P code := by
  obtain ⟨entry, hl, hfree⟩ := hfree
  have hne : entry.claimed ≠ table.epoch := UInt64.ne_of_lt (by simpa [CodeEntry.isFree] using hfree)
  unfold IsClaimed
  rw [h.epoch]
  by_cases hp : P code
  · simp [h.claimed code hp, hl, CodeEntry.claim, hfree, hp]
  · simp [h.others code hp, hl, hne, hp]

/-- A scan of the table reaches every blob. -/
theorem scanned (h : table.Sound) : table.Reaches (fun _ => True) table.scanned where
  epoch := rfl
  claimed code _ := by
    have hleft : table.scanned.lookup code = table.scanned.mature[code]? := by
      have hnone : table.scanned.nursery[code]? = none := Std.ExtTreeMap.getElem?_empty
      rw [lookup, hnone]
      cases table.scanned.mature[code]? <;> rfl
    rw [hleft, getElem?_scanned, lookup]
    obtain hn | hm := h.apart? code
    · rw [hn]
      cases table.mature[code]? <;> rfl
    · rw [hm]
      cases table.nursery[code]? <;> rfl
  others _ h := absurd trivial h

end Reaches

/-- The entry of a blob stays as it is, or is claimed. -/
def AdvancesAt (table left : CodeTable) (code : CodeId) : Prop :=
  left.lookup code = table.lookup code ∨ left.lookup code = (table.lookup code).map (·.claim table.epoch)

/-- What claims do to a table, and scans that return. -/
structure Advances (table left : CodeTable) : Prop where
  epoch : left.epoch = table.epoch
  lookup : ∀ code, table.AdvancesAt left code

namespace Advances

theorem refl (table : CodeTable) : Advances table table := ⟨rfl, fun _ => .inl rfl⟩

theorem trans {last : CodeTable} (h : Advances table left) (h' : Advances left last) : Advances table last where
  epoch := h'.epoch.trans h.epoch
  lookup code := by
    have hlast := h'.lookup code
    unfold AdvancesAt at hlast ⊢
    rw [h.epoch] at hlast
    obtain hfirst | hfirst := h.lookup code
    · rwa [hfirst] at hlast
    · obtain hlast | hlast := hlast
      · exact .inr (hlast.trans hfirst)
      · rw [hlast, hfirst]
        refine .inr ?_
        cases table.lookup code with
        | none => rfl
        | some entry => exact congrArg some (claim_claim entry table.epoch)

end Advances

theorem Reaches.advances {P : CodeId → Prop} (h : table.Reaches P left) : Advances table left where
  epoch := h.epoch
  lookup code := by
    by_cases hp : P code
    · exact .inr (h.claimed code hp)
    · exact .inl (h.others code hp)

/-- A table under a scan: the nursery is out, and of the others some are claimed. -/
structure Scanning (start table : CodeTable) : Prop where
  taken : table.nursery = {}
  epoch : table.epoch = start.epoch
  mature : ∀ code : CodeId, table.mature[code]? = start.mature[code]? ∨
    table.mature[code]? = start.mature[code]?.map (·.claim start.epoch)

namespace Scanning

variable {start : CodeTable}

theorem insert (h : Scanning start table) {e : CodeId × CodeEntry} (he : e ∈ start.mature.toList) :
    Scanning start { table with mature := table.mature.insert e.1 (e.2.claim start.epoch) } where
  taken := h.taken
  epoch := h.epoch
  mature other := by
    rw [getElem?_insert]
    by_cases hcode : e.1 = other
    · subst hcode
      rw [if_pos rfl, Std.ExtTreeMap.mem_toList_iff_getElem?_eq_some.1 he]
      exact .inr rfl
    · rw [if_neg hcode]
      exact h.mature other

theorem lookup (h : Scanning start table) (code : CodeId) : table.lookup code = table.mature[code]? := by
  rw [CodeTable.lookup, h.taken]
  cases table.mature[code]? <;> rfl

/-- A scan that faults here has lost the nursery, and the others are as they were or claimed. -/
theorem lost (h : Scanning start table) (hsound : start.Sound) (code : CodeId) :
    if code ∈ start.nursery then table.lookup code = none
    else start.AdvancesAt table code := by
  rw [AdvancesAt, h.lookup]
  split
  · rename_i hn
    have hnone : start.mature[code]? = none := Std.ExtTreeMap.getElem?_eq_none (hsound.apart code hn)
    obtain hm | hm := h.mature code
    · rw [hm, hnone]
    · rw [hm, hnone]
      rfl
  · rename_i hn
    have hsame : start.lookup code = start.mature[code]? := by
      rw [CodeTable.lookup, Std.ExtTreeMap.getElem?_eq_none hn]
      cases start.mature[code]? <;> rfl
    rw [hsame]
    exact h.mature code

end Scanning

/-- A scan that returns has claimed all that was free. -/
theorem scanned_of_returns {ρ : Type} {visit : List Slot → Act ρ Unit} {r : ρ}
    (hreturns : (scan visit).faultOf (table, r) = none) : ((scan visit).run (table, r)).2.1 = table.scanned := by
  obtain ⟨count, ⟨left, r'⟩, hrun⟩ := Act.exists_run_eq_ok hreturns
  rw [run_scan (visits_of_scan hrun)]

/-- A scan that faults has claimed blobs, and its nursery is out. -/
theorem scanning_of_fault {ρ : Type} {visit : List Slot → Act ρ Unit} {r : ρ}
    (hfault : (scan visit).faultOf (table, r) ≠ none) : Scanning table ((scan visit).run (table, r)).2.1 := by
  obtain ⟨under, hunder, ⟨cause, hrun⟩ | ⟨count, hrun⟩⟩ := scan_cases (Scanning table) ⟨rfl, rfl, fun _ => .inl rfl⟩
    (fun e he _ ht => ht.insert he) visit r
  · rw [hrun]
    exact hunder
  · exact absurd (by simp [Act.faultOf, hrun]) hfault

namespace AdvancesAt

/-- A claim is final in its cycle, and only a free blob is claimed. -/
theorem isClaimed_iff (h : table.AdvancesAt left code) (hepoch : left.epoch = table.epoch) :
    left.IsClaimed code ↔ table.IsClaimed code ∨ table.IsFree code ∧ left.IsClaimed code := by
  unfold IsClaimed IsFree
  rw [hepoch]
  obtain h | h := h
  · rw [h]
    simp
  · rw [h]
    cases hl : table.lookup code with
    | none => simp
    | some entry => by_cases hfree : entry.isFree table.epoch <;> simp [CodeEntry.claim, hfree]

theorem lookup_eq_none (h : table.AdvancesAt left code) (hnone : table.lookup code = none) :
    left.lookup code = none := by
  obtain h | h := h
  · rw [h, hnone]
  · rw [h, hnone, Option.map_none]

end AdvancesAt

/-- When a cycle begins nothing is claimed in it yet. -/
theorem not_isClaimed_begun (h : table.Sound) (hlt : table.epoch.toNat + 1 < wordLimit) (code : CodeId) :
    ¬IsClaimed { table with epoch := table.epoch + 1 } code := by
  rintro ⟨entry, hl, hepoch⟩
  have hpast := h.past code entry ((lookup_eq_some_iff h).1 hl)
  rw [hepoch, UInt64.le_iff_toNat_le, toNat_add_one hlt] at hpast
  omega

theorem lookup_register (table : CodeTable) (code : CodeId) (slots : List Slot) (other : CodeId) :
    (table.register code slots).lookup other = if code = other then some ⟨slots, 0⟩ else table.lookup other := by
  simp only [lookup, register, addNursery, dropMature, getElem?_insert, getElem?_erase]
  by_cases he : code = other <;> simp [he]

theorem lookup_unregister (table : CodeTable) (code other : CodeId) :
    (table.unregister code).2.lookup other = if code = other then none else table.lookup other := by
  simp only [lookup, unregister, dropNursery, dropMature, getElem?_erase]
  by_cases he : code = other <;> simp [he]

/-- A blob registered anew is not claimed, whatever was claimed before under its id. -/
theorem isClaimed_register (h : table.epoch ≠ 0) (code : CodeId) (slots : List Slot) (other : CodeId) :
    (table.register code slots).IsClaimed other ↔ table.IsClaimed other ∧ code ≠ other := by
  unfold IsClaimed
  rw [lookup_register, show (table.register code slots).epoch = table.epoch from rfl]
  by_cases he : code = other <;> simp [he, h.symm]

theorem isClaimed_unregister (table : CodeTable) (code other : CodeId) :
    (table.unregister code).2.IsClaimed other ↔ table.IsClaimed other ∧ code ≠ other := by
  unfold IsClaimed
  rw [lookup_unregister, show (table.unregister code).2.epoch = table.epoch from rfl]
  by_cases he : code = other <;> simp [he]

/-- The slots on record for a blob that nobody has claimed in this cycle. -/
def unclaimed (table : CodeTable) (code : CodeId) : Option (List Slot) :=
  if code ∈ table.claimed then none else table.recorded code

/-- A claim gives the claimer what is on record, unless somebody was there before. -/
theorem claim_eq_unclaimed (h : table.Sound) (code : CodeId) : (table.claim code).1 = table.unclaimed code := by
  rw [claim_eq, unclaimed, recorded]
  cases hl : table.lookup code with
  | none => simp
  | some entry =>
    have hpast := h.past code entry ((lookup_eq_some_iff h).1 hl)
    by_cases hepoch : entry.claimed = table.epoch
    · have hclaimed : code ∈ table.claimed := (mem_claimed h).2 ⟨entry, hl, hepoch⟩
      simp [CodeEntry.isFree, hclaimed, hepoch]
    · have hfree : entry.isFree table.epoch := by
        simpa [CodeEntry.isFree] using UInt64.lt_of_le_of_ne hpast hepoch
      have hnot : code ∉ table.claimed := fun hclaimed => by
        obtain ⟨other, hother, hsame⟩ := (mem_claimed h).1 hclaimed
        rw [hl] at hother
        cases hother
        exact hepoch hsame
      simp [hfree, hnot]

/-- The members of a list that were not seen before, each where it comes first. -/
def unseen (seen : List CodeId) : List CodeId → List CodeId
  | [] => []
  | code :: codes => if code ∈ seen then unseen seen codes else code :: unseen (code :: seen) codes

theorem unseen_congr {seen others : List CodeId} (h : ∀ code, code ∈ others ↔ code ∈ seen) (codes : List CodeId) :
    unseen others codes = unseen seen codes := by
  induction codes generalizing seen others with
  | nil => rfl
  | cons code codes ih =>
    have hcons : ∀ other, other ∈ code :: others ↔ other ∈ code :: seen := by simp [h]
    simp only [unseen, h, ih h, ih hcons]

theorem unseen_append (seen codes more : List CodeId) :
    unseen seen (codes ++ more) = unseen seen codes ++ unseen (seen ++ codes) more := by
  induction codes generalizing seen with
  | nil => simp [unseen]
  | cons code codes ih =>
    simp only [List.cons_append, unseen, ih]
    split
    · have hsame : ∀ other, other ∈ seen ++ code :: codes ↔ other ∈ seen ++ codes := by grind
      rw [unseen_congr hsame]
    · have hsame : ∀ other, other ∈ seen ++ code :: codes ↔ other ∈ code :: seen ++ codes := by grind
      rw [unseen_congr hsame]
      rfl

/-- Each of the new members is there, and once. -/
theorem unseen_spec (seen codes : List CodeId) :
    (∀ code, code ∈ unseen seen codes ↔ code ∈ codes ∧ code ∉ seen) ∧ (unseen seen codes).Nodup := by
  induction codes generalizing seen with
  | nil => simp [unseen]
  | cons code codes ih =>
    rw [unseen]
    split
    · rename_i hseen
      exact ⟨fun other => by grind, (ih seen).2⟩
    · rename_i hseen
      obtain ⟨hmem, hnodup⟩ := ih (code :: seen)
      exact ⟨fun other => by grind, List.nodup_cons.2 ⟨by simp [hmem], hnodup⟩⟩

namespace Reaches

variable {P Q : CodeId → Prop} {seen : List CodeId}

theorem congr (h : table.Reaches P left) (hiff : ∀ code, P code ↔ Q code) : table.Reaches Q left :=
  (funext fun code => propext (hiff code) : P = Q) ▸ h

theorem recorded (h : table.Reaches P left) : left.recorded = table.recorded := by
  funext code
  unfold CodeTable.recorded
  by_cases hp : P code
  · rw [h.claimed code hp, Option.map_map]
    exact congrArg (fun slots => (table.lookup code).map slots) (funext fun entry => slots_claim entry _)
  · rw [h.others code hp]

/-- What was seen is claimed, and gives nothing any more. -/
theorem claim_eq (h : table.Reaches (· ∈ seen) left) (code : CodeId) :
    (left.claim code).1 = if code ∈ seen then none else (table.claim code).1 := by
  rw [CodeTable.claim_eq, CodeTable.claim_eq, h.epoch]
  by_cases hseen : code ∈ seen
  · rw [h.claimed code hseen, if_pos hseen]
    cases table.lookup code <;> simp
  · rw [h.others code hseen, if_neg hseen]

/-- Claims give the slots of the blobs that were not seen before, those of each blob once. -/
theorem claims (h : table.Reaches (· ∈ seen) left) (codes : List CodeId) :
    (left.claims codes).1 = (unseen seen codes).flatMap (fun code => (table.claim code).1.getD []) ∧
      table.Reaches (· ∈ seen ++ codes) (left.claims codes).2 := by
  induction codes generalizing seen left with
  | nil => exact ⟨rfl, h.congr fun code => by simp⟩
  | cons code codes ih =>
    have hfirst := h.trans (.claim left code)
    simp only [CodeTable.claims, unseen, h.claim_eq]
    by_cases hseen : code ∈ seen
    · have hagain : table.Reaches (· ∈ seen) (left.claim code).2 := hfirst.congr fun other => by grind
      obtain ⟨hslots, hreaches⟩ := ih hagain
      exact ⟨by simpa [hseen] using hslots, hreaches.congr fun other => by grind⟩
    · have hnew : table.Reaches (· ∈ code :: seen) (left.claim code).2 := hfirst.congr fun other => by grind
      obtain ⟨hslots, hreaches⟩ := ih hnew
      exact ⟨by simpa [hseen] using hslots, hreaches.congr fun other => by grind⟩

/-- What is claimed afterwards: what was, and what is known of the rest. -/
theorem mem_claimed (hsound : table.Sound) (hleft : left.Sound) (h : table.Reaches P left) (code : CodeId) :
    code ∈ left.claimed ↔ code ∈ table.claimed ∨ P code ∧ (table.recorded code).isSome := by
  rw [CodeTable.mem_claimed hsound, CodeTable.mem_claimed hleft, IsClaimed, IsClaimed, h.epoch, CodeTable.recorded]
  by_cases hp : P code
  · rw [h.claimed code hp]
    cases hl : table.lookup code with
    | none => simp
    | some entry =>
      have hpast := hsound.past code entry ((lookup_eq_some_iff hsound).1 hl)
      have hclaimed : (entry.claim table.epoch).claimed = table.epoch := by
        unfold CodeEntry.claim
        split
        · rfl
        · rename_i hfree
          exact UInt64.le_antisymm hpast (UInt64.not_lt.1 (by simpa [CodeEntry.isFree] using hfree))
      simp [hp, hclaimed]
  · rw [h.others code hp]
    simp [hp]

end Reaches

end Safepoint.CodeTable
