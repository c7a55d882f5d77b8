import Safepoint.Proofs.Interleaving
import Safepoint.Proofs.Roots.CodeLedger

/-!
# Registered code under many threads

To register a blob takes two sections: the old entry is dropped from the mature blobs, and the new one is put into the
nursery. A scan takes the lock of the mature blobs, and under it the nursery; it claims the blobs one by one, and in the
end those of the nursery join the others. Whoever comes upon a blob in between keeps its entry, whatever becomes of the
table, so entries are shared and known by numbers here.

A call that nobody comes between does to such a table what it does to one that has its entries to itself.
-/
namespace Safepoint

/-- A blob was claimed, and its slots reported, by a call that began when `start` blobs had been registered. -/
structure BlobReport where
  start : Nat
  code : CodeId
  number : Nat
  slots : List Slot
  deriving DecidableEq

/-- A table of registered code whose entries are shared. Blobs are numbered in the order of their registrations. -/
structure SharedCode where
  count : Nat := 0
  owner : Nat → CodeId := fun _ => ⟨0⟩
  entries : Nat → CodeEntry := fun _ => ⟨[], 0⟩
  nursery : Std.ExtTreeMap CodeId Nat := {}
  mature : Std.ExtTreeMap CodeId Nat := {}
  epoch : UInt64 := 0
  /-- A scan has the lock of the mature blobs. -/
  locked : Bool := false
  reports : List BlobReport := []

namespace SharedCode

def dropMature (s : SharedCode) (code : CodeId) : SharedCode := { s with mature := s.mature.erase code }

def addNursery (s : SharedCode) (code : CodeId) (slots : List Slot) : SharedCode :=
  { s with
    count := s.count + 1
    owner := Function.update s.owner s.count code
    entries := Function.update s.entries s.count ⟨slots, 0⟩
    nursery := s.nursery.insert code s.count }

def dropNursery (s : SharedCode) (code : CodeId) : SharedCode := { s with nursery := s.nursery.erase code }

/-- Claim a blob that is free, and report it. -/
def report (s : SharedCode) (start : Nat) (code : CodeId) (number : Nat) (epoch : UInt64) : SharedCode :=
  { s with
    entries := Function.update s.entries number ((s.entries number).claim epoch)
    reports := s.reports ++ [⟨start, code, number, (s.entries number).slots⟩] }

@[simp] theorem slots_report (s : SharedCode) (start : Nat) (code : CodeId) (number old : Nat) (epoch : UInt64) :
    ((s.report start code number epoch).entries old).slots = (s.entries old).slots := by
  simp only [report, Function.update_apply]
  split
  · rw [CodeTable.slots_claim, ‹old = number›]
  · rfl

/-- Add what was in the nursery to the rest, and give the lock back. -/
def promote (s : SharedCode) (taken : Std.ExtTreeMap CodeId Nat) : SharedCode :=
  { s with mature := taken.toList.foldl (fun mature e => mature.insert e.1 e.2) s.mature, locked := false }

/-- As a table that has its entries to itself. -/
def view (s : SharedCode) : CodeTable :=
  ⟨s.nursery.map fun _ number => s.entries number, s.mature.map fun _ number => s.entries number, s.epoch⟩

end SharedCode

/-- A call on a table of registered code. The visitor of a scan may fault, after it was through with `visits` blobs. -/
inductive CodeCall where
  | op (op : CodeOp)
  | faultingScan (visits : Nat)
  deriving DecidableEq

/-- What a thread does next in its call. A claim is over for the table when the blob is claimed. -/
inductive CodeStage where
  | dropping (code : CodeId) (slots : List Slot)
  | adding (code : CodeId) (slots : List Slot)
  | forgetting (code : CodeId)
  | forgettingMature (code : CodeId)
  | beginning
  | looking (start : Nat) (code : CodeId)
  | lookingOn (start : Nat) (code : CodeId)
  | found (start : Nat) (code : CodeId) (number : Nat)
  | claiming (start : Nat) (code : CodeId) (number : Nat) (epoch : UInt64)
  | scanning (start : Nat) (visits : Option Nat)
  | waiting (start : Nat) (visits : Option Nat) (epoch : UInt64)
  | taking (start : Nat) (visits : Option Nat) (epoch : UInt64)
  | visiting (start : Nat) (visits : Option Nat) (epoch : UInt64) (rest : List (CodeId × Nat))
      (taken : Std.ExtTreeMap CodeId Nat)
  | unwinding

namespace CodeStage

def ofCall (start : Nat) : CodeCall → CodeStage
  | .op (.register code slots) => .dropping code slots
  | .op (.unregister code) => .forgetting code
  | .op .beginCycle => .beginning
  | .op (.claim code) => .looking start code
  | .op .scan => .scanning start none
  | .faultingScan visits => .scanning start (some visits)

/-- Whether the thread has the lock of the mature blobs from one section to the next. -/
def Holds : CodeStage → Prop
  | taking .. | visiting .. | unwinding => True
  | _ => False

/-- One section, which may have to wait for the lock of the mature blobs, and what is left of the call. -/
def carryOut (s : SharedCode) : CodeStage → Option (SharedCode × Option CodeStage)
  | dropping code slots => if s.locked then none else some (s.dropMature code, some (.adding code slots))
  | adding code slots => some (s.addNursery code slots, none)
  | forgetting code => some (s.dropNursery code, some (.forgettingMature code))
  | forgettingMature code => if s.locked then none else some (s.dropMature code, none)
  | beginning => some ({ s with epoch := s.epoch + 1 }, none)
  | looking start code =>
    if s.locked then none
    else some (s, some (match s.mature[code]? with
      | some number => .found start code number
      | none => .lookingOn start code))
  | lookingOn start code => some (s, s.nursery[code]?.map (.found start code))
  | found start code number => some (s, some (.claiming start code number s.epoch))
  | claiming start code number epoch =>
    some (if (s.entries number).isFree epoch then s.report start code number epoch else s, none)
  | scanning start visits => some (s, some (.waiting start visits s.epoch))
  | waiting start visits epoch =>
    if s.locked then none else some ({ s with locked := true }, some (.taking start visits epoch))
  | taking start visits epoch =>
    some ({ s with nursery := {} },
      some (.visiting start visits epoch (s.mature.toList ++ s.nursery.toList) s.nursery))
  | visiting _ _ _ [] taken => some (s.promote taken, none)
  | visiting start visits epoch ((code, number) :: rest) taken =>
    if (s.entries number).isFree epoch then
      some (s.report start code number epoch, some (if visits = some 0 then .unwinding
        else .visiting start (visits.map Nat.pred) epoch rest taken))
    else some (s, some (.visiting start visits epoch rest taken))
  | unwinding => some ({ s with locked := false }, none)

end CodeStage

/-- A table of registered code, and where each thread stands in its call on it. A call that a visitor makes within a scan
is one of another thread here, which the scan may have to wait for. -/
abbrev CodeThreads := Shared SharedCode CodeStage

namespace CodeThreads

open Shared CodeStage

def sections : Sections CodeCall CodeStage SharedCode where
  enter s := ofCall s.count
  next s stage := stage.carryOut s

/-- A visitor that takes no notice of what it is shown. -/
def blind : Slot → Act Unit Unit := fun _ => pure ()

/-- What a call leaves of a table that has its entries to itself. -/
def afterOp (op : CodeOp) (table : CodeTable) : CodeTable := ((op.act blind).run (table, ())).2.1

section Alone

variable {v : SharedCode} {table : CodeTable} {code other : CodeId} {number start : Nat}

theorem blind_returns (slots : List Slot) (r : Unit) : ∃ r', (slots.forM blind).run r = (.ok (), r') :=
  Act.run_forM_returns (fun _ _ => ⟨(), rfl⟩) slots r

theorem afterOp_beginCycle : afterOp .beginCycle table = { table with epoch := table.epoch + 1 } := by
  simp [afterOp, CodeOp.act, CodeTable.tablePlace, CodeTable.run_beginCycle]

theorem afterOp_claim : afterOp (.claim code) table = (table.claim code).2 := by
  obtain ⟨_, hvisit⟩ := blind_returns ((table.claim code).1.getD []) ()
  rw [afterOp, CodeOp.act, Act.run_map, CodeTable.run_claimAndVisit hvisit]

theorem afterOp_scan : afterOp .scan table = table.scanned := by
  obtain ⟨_, hvisit⟩ := Act.run_forM_returns (fun e => blind_returns e.2) table.free ()
  rw [afterOp, CodeOp.act, Act.run_map, CodeTable.run_scan hvisit]

/-- The shared table stands for one that has its entries to itself, and nobody has its lock. -/
structure Mirrors (v : SharedCode) (table : CodeTable) : Prop where
  view : v.view = table
  numbered : ∀ (code : CodeId) (number : Nat), v.nursery[code]? = some number ∨ v.mature[code]? = some number →
    number < v.count ∧ v.owner number = code
  apart : ∀ code : CodeId, v.nursery[code]? = none ∨ v.mature[code]? = none
  free : v.locked = false

theorem view_ext (hnursery : ∀ code : CodeId, v.nursery[code]?.map v.entries = table.nursery[code]?)
    (hmature : ∀ code : CodeId, v.mature[code]?.map v.entries = table.mature[code]?) (hepoch : v.epoch = table.epoch) :
    v.view = table := by
  cases table
  simp only [SharedCode.view, CodeTable.mk.injEq]
  refine ⟨Std.ExtTreeMap.ext_getElem? fun code => ?_, Std.ExtTreeMap.ext_getElem? fun code => ?_, hepoch⟩
  · rw [Std.ExtTreeMap.getElem?_map]
    exact hnursery code
  · rw [Std.ExtTreeMap.getElem?_map]
    exact hmature code

namespace Mirrors

theorem nursery (h : Mirrors v table) (code : CodeId) : table.nursery[code]? = v.nursery[code]?.map v.entries := by
  rw [← h.view, SharedCode.view, Std.ExtTreeMap.getElem?_map]

theorem mature (h : Mirrors v table) (code : CodeId) : table.mature[code]? = v.mature[code]?.map v.entries := by
  rw [← h.view, SharedCode.view, Std.ExtTreeMap.getElem?_map]

theorem epoch (h : Mirrors v table) : v.epoch = table.epoch := by
  rw [← h.view]
  rfl

theorem fresh : Mirrors {} {} where
  view := view_ext (by simp) (by simp) rfl
  numbered code number h := by simp at h
  apart code := .inl (by simp)
  free := rfl

theorem numbered_nursery (h : Mirrors v table) (hnumber : v.nursery[code]? = some number) :
    number < v.count ∧ v.owner number = code := h.numbered code number (.inl hnumber)

theorem numbered_mature (h : Mirrors v table) (hnumber : v.mature[code]? = some number) :
    number < v.count ∧ v.owner number = code := h.numbered code number (.inr hnumber)

theorem register (h : Mirrors v table) (code : CodeId) (slots : List Slot) :
    Mirrors ((v.dropMature code).addNursery code slots) (table.register code slots) := by
  have hnursery (other : CodeId) : ((v.dropMature code).addNursery code slots).nursery[other]? =
      if code = other then some v.count else v.nursery[other]? := CodeTable.getElem?_insert ..
  have hmature (other : CodeId) : ((v.dropMature code).addNursery code slots).mature[other]? =
      if code = other then none else v.mature[other]? := CodeTable.getElem?_erase ..
  have hentry {number : Nat} (hnumber : number < v.count) :
      ((v.dropMature code).addNursery code slots).entries number = v.entries number :=
    Function.update_of_ne (Nat.ne_of_lt hnumber) ..
  have hnew : ((v.dropMature code).addNursery code slots).entries v.count = ⟨slots, 0⟩ := Function.update_self ..
  refine ⟨view_ext (fun other => ?_) (fun other => ?_) h.epoch, fun other number hnumber => ?_, fun other => ?_, h.free⟩
  · rw [hnursery, CodeTable.register, CodeTable.addNursery, CodeTable.getElem?_insert, CodeTable.dropMature, h.nursery]
    split
    · rw [Option.map_some, hnew]
    · exact Option.map_congr fun number hnumber => hentry (h.numbered_nursery hnumber).1
  · rw [hmature, CodeTable.register, CodeTable.addNursery, CodeTable.dropMature, CodeTable.getElem?_erase, h.mature]
    split
    · rfl
    · exact Option.map_congr fun number hnumber => hentry (h.numbered_mature hnumber).1
  · rw [hnursery, hmature] at hnumber
    by_cases he : code = other
    · subst he
      obtain rfl : v.count = number := by simpa using hnumber
      exact ⟨Nat.lt_succ_self _, Function.update_self ..⟩
    · rw [if_neg he, if_neg he] at hnumber
      obtain ⟨hlt, howner⟩ := h.numbered other number hnumber
      exact ⟨Nat.lt_succ_of_lt hlt, (Function.update_of_ne (Nat.ne_of_lt hlt) ..).trans howner⟩
  · rw [hnursery, hmature]
    split
    · exact .inr rfl
    · exact h.apart other

theorem unregister (h : Mirrors v table) (code : CodeId) :
    Mirrors ((v.dropNursery code).dropMature code) (table.unregister code).2 := by
  have hnursery (other : CodeId) : ((v.dropNursery code).dropMature code).nursery[other]? =
      if code = other then none else v.nursery[other]? := CodeTable.getElem?_erase ..
  have hmature (other : CodeId) : ((v.dropNursery code).dropMature code).mature[other]? =
      if code = other then none else v.mature[other]? := CodeTable.getElem?_erase ..
  refine ⟨view_ext (fun other => ?_) (fun other => ?_) h.epoch, fun other number hnumber => ?_, fun other => ?_, h.free⟩
  · rw [hnursery]
    simp only [CodeTable.unregister, CodeTable.dropMature, CodeTable.dropNursery, CodeTable.getElem?_erase, h.nursery]
    split <;> rfl
  · rw [hmature]
    simp only [CodeTable.unregister, CodeTable.dropMature, CodeTable.dropNursery, CodeTable.getElem?_erase, h.mature]
    split <;> rfl
  · rw [hnursery, hmature] at hnumber
    split at hnumber
    · simp at hnumber
    · exact h.numbered other number hnumber
  · rw [hnursery, hmature]
    split
    · exact .inl rfl
    · exact h.apart other

theorem lookup (h : Mirrors v table) (code : CodeId) :
    table.lookup code = (v.mature[code]? <|> v.nursery[code]?).map v.entries := by
  rw [CodeTable.lookup, h.mature, h.nursery]
  cases v.mature[code]? <;> rfl

theorem owner_of_found (h : Mirrors v table) (hnumber : (v.mature[code]? <|> v.nursery[code]?) = some number) :
    v.owner number = code := by
  cases hmature : v.mature[code]? with
  | some old =>
    obtain rfl : old = number := by simpa [hmature] using hnumber
    exact (h.numbered_mature hmature).2
  | none => exact (h.numbered_nursery (by simpa [hmature] using hnumber)).2

/-- What becomes of the entries of a map that has a blob, or none of its name, when the blob is claimed. -/
theorem map_report {map : Std.ExtTreeMap CodeId Nat} (howner : v.owner number = code)
    (hself : ∀ old, map[code]? = some old → old = number)
    (howned : ∀ old, map[other]? = some old → v.owner old = other) (start : Nat) (epoch : UInt64) :
    map[other]?.map (v.report start code number epoch).entries =
      if code = other ∧ code ∈ map then some ((v.entries number).claim epoch) else map[other]?.map v.entries := by
  by_cases he : code = other
  · subst he
    cases hold : map[code]? with
    | none => simp [CodeTable.not_mem_of_getElem? hold]
    | some old =>
      rw [if_pos ⟨rfl, CodeTable.mem_of_getElem? hold⟩, Option.map_some, hself old hold]
      exact congrArg some (Function.update_self ..)
  · rw [if_neg fun h => he h.1]
    refine Option.map_congr fun old hold => Function.update_of_ne ?_ ..
    rintro rfl
    exact he (howner.symm.trans (howned old hold))

theorem report (h : Mirrors v table) (hnumber : (v.mature[code]? <|> v.nursery[code]?) = some number) (start : Nat)
    (epoch : UInt64) :
    Mirrors (v.report start code number epoch) (table.put code ((v.entries number).claim epoch)) := by
  have howner : v.owner number = code := h.owner_of_found hnumber
  have hmature (old : Nat) (hold : v.mature[code]? = some old) : old = number := by simpa [hold] using hnumber
  have hnursery (old : Nat) (hold : v.nursery[code]? = some old) : old = number := by
    have hnone : v.mature[code]? = none := (h.apart code).resolve_left (by simp [hold])
    simpa [hnone, hold] using hnumber
  -- The blob is in one of the maps, and in the nursery exactly when it is not in the other.
  have hin : code ∈ v.nursery ↔ code ∉ table.mature := by
    rw [Std.ExtTreeMap.mem_iff_isSome_getElem?, Std.ExtTreeMap.mem_iff_isSome_getElem?, h.mature]
    obtain hnone | hnone := h.apart code
    · simp [show v.mature[code]? = some number by simpa [hnone] using hnumber, hnone]
    · simp [show v.nursery[code]? = some number by simpa [hnone] using hnumber, hnone]
  have hin' : code ∈ v.mature ↔ code ∈ table.mature := by
    rw [Std.ExtTreeMap.mem_iff_isSome_getElem?, Std.ExtTreeMap.mem_iff_isSome_getElem?, h.mature, Option.isSome_map]
  refine ⟨view_ext (fun other => ?_) (fun other => ?_) ?_, h.numbered, h.apart, h.free⟩
  · simp only [CodeTable.nursery_put, h.nursery, ← hin]
    exact map_report howner hnursery (fun _ hold => (h.numbered_nursery hold).2) ..
  · simp only [CodeTable.mature_put, h.mature, ← hin']
    exact map_report howner hmature (fun _ hold => (h.numbered_mature hold).2) ..
  · rw [CodeTable.epoch_put]
    exact h.epoch

end Mirrors

section Scan

variable {epoch : UInt64} {more : List (CodeId × Nat)}

/-- Claim and report blobs one after another, if they are free. -/
def claimEach (v : SharedCode) (start : Nat) (epoch : UInt64) (more : List (CodeId × Nat)) : SharedCode :=
  more.foldl (fun v e => if (v.entries e.2).isFree epoch then v.report start e.1 e.2 epoch else v) v

theorem leaves_visiting (v : SharedCode) (start : Nat) (epoch : UInt64) (more : List (CodeId × Nat))
    (taken : Std.ExtTreeMap CodeId Nat) :
    sections.Leaves v (.visiting start none epoch more taken) ((claimEach v start epoch more).promote taken) := by
  induction more generalizing v with
  | nil => exact .last rfl
  | cons e more ih =>
    refine .more ?_ (ih _)
    by_cases hfree : (v.entries e.2).isFree epoch <;> simp [sections, carryOut, hfree]

theorem claim_of_not_free {entry : CodeEntry} (h : ¬entry.isFree epoch) : entry.claim epoch = entry := if_neg h

/-- Nothing else changes, and each of the blobs is claimed in the end. -/
theorem claimEach_eq (v : SharedCode) (start : Nat) (epoch : UInt64) (more : List (CodeId × Nat)) :
    ∃ reports, claimEach v start epoch more = { v with
      entries := fun number => if number ∈ more.map Prod.snd then (v.entries number).claim epoch else v.entries number
      reports } := by
  induction more generalizing v with
  | nil => exact ⟨v.reports, by simp [claimEach]⟩
  | cons e more ih =>
    obtain ⟨first, hfirst⟩ : ∃ reports, (if (v.entries e.2).isFree epoch then v.report start e.1 e.2 epoch else v) =
        { v with entries := Function.update v.entries e.2 ((v.entries e.2).claim epoch), reports } := by
      split
      · exact ⟨_, rfl⟩
      · exact ⟨v.reports, by rw [claim_of_not_free ‹_›, Function.update_eq_self]⟩
    obtain ⟨reports, hrest⟩ := ih { v with
      entries := Function.update v.entries e.2 ((v.entries e.2).claim epoch), reports := first }
    refine ⟨reports, ?_⟩
    rw [claimEach, List.foldl_cons, hfirst, ← claimEach, hrest]
    congr 1
    funext number
    simp only [List.map_cons, List.mem_cons, Function.update_apply]
    by_cases he : number = e.2
    · simp [he, CodeTable.claim_claim]
    · simp only [he, false_or, if_false]

/-- What a scan leaves that took a nursery and went through some blobs. -/
theorem mature_visited (v : SharedCode) (start : Nat) (epoch : UInt64) (more : List (CodeId × Nat))
    (taken : Std.ExtTreeMap CodeId Nat) (code : CodeId) :
    ((claimEach v start epoch more).promote taken).mature[code]? = (taken[code]? <|> v.mature[code]?) := by
  obtain ⟨reports, hclaimed⟩ := claimEach_eq v start epoch more
  rw [hclaimed]
  exact CodeTable.getElem?_insertAll ..

theorem nursery_visited (v : SharedCode) (start : Nat) (epoch : UInt64) (more : List (CodeId × Nat))
    (taken : Std.ExtTreeMap CodeId Nat) :
    ((claimEach v start epoch more).promote taken).nursery = v.nursery ∧
      ((claimEach v start epoch more).promote taken).count = v.count := by
  obtain ⟨reports, hclaimed⟩ := claimEach_eq v start epoch more
  rw [hclaimed]
  exact ⟨rfl, rfl⟩

/-- What the maps have between them, a scan goes through. -/
theorem mem_all {v : SharedCode} {code : CodeId} {number : Nat}
    (h : (v.nursery[code]? <|> v.mature[code]?) = some number) :
    (code, number) ∈ v.mature.toList ++ v.nursery.toList := by
  rw [List.mem_append, Std.ExtTreeMap.mem_toList_iff_getElem?_eq_some, Std.ExtTreeMap.mem_toList_iff_getElem?_eq_some]
  cases hcode : v.nursery[code]? with
  | none => exact .inl (by simpa [hcode] using h)
  | some old => exact .inr (by simpa [hcode] using h)

/-- A scan that nobody comes between. -/
theorem Mirrors.scan {v : SharedCode} {table : CodeTable} (h : Mirrors v table) (start : Nat) :
    ∃ v', sections.Leaves v (.scanning start none) v' ∧ Mirrors v' table.scanned := by
  let emptied : SharedCode := { v with locked := true, nursery := {} }
  let all : List (CodeId × Nat) := v.mature.toList ++ v.nursery.toList
  obtain ⟨reports, hclaimed⟩ := claimEach_eq emptied start v.epoch all
  have hmature (code : CodeId) : ((claimEach emptied start v.epoch all).promote v.nursery).mature[code]? =
      (v.nursery[code]? <|> v.mature[code]?) := mature_visited ..
  have hentry {code : CodeId} {number : Nat} (hnumber : (v.nursery[code]? <|> v.mature[code]?) = some number) :
      ((claimEach emptied start v.epoch all).promote v.nursery).entries number = (v.entries number).claim v.epoch := by
    rw [hclaimed]
    exact if_pos (List.mem_map.2 ⟨_, mem_all hnumber, rfl⟩)
  have hnursery : ((claimEach emptied start v.epoch all).promote v.nursery).nursery = {} := (nursery_visited ..).1
  refine ⟨(claimEach emptied start v.epoch all).promote v.nursery,
    .more rfl (.more (if_neg (by simp [h.free])) (.more rfl (leaves_visiting ..))),
    view_ext (fun code => ?_) (fun code => ?_) ?_, fun code number hnumber => ?_, fun code => .inl (by simp [hnursery]),
    rfl⟩
  · simp [hnursery, CodeTable.scanned, CodeTable.promote]
  · rw [hmature, CodeTable.getElem?_scanned, h.nursery, h.mature, ← h.epoch, Option.map_congr fun _ => hentry]
    cases v.nursery[code]? <;> simp [Function.comp_def]
  · rw [hclaimed]
    exact h.epoch
  · rw [hnursery, hmature] at hnumber
    obtain hnone | hnumber := hnumber
    · simp at hnone
    · have hin := mem_all hnumber
      rw [List.mem_append, Std.ExtTreeMap.mem_toList_iff_getElem?_eq_some,
        Std.ExtTreeMap.mem_toList_iff_getElem?_eq_some] at hin
      rw [hclaimed]
      exact h.numbered code number hin.symm

end Scan

/-- A claim that nobody comes between, by a thread that has come upon the blob. -/
theorem Mirrors.claim (h : Mirrors v table) (hnumber : (v.mature[code]? <|> v.nursery[code]?) = some number)
    (start : Nat) :
    ∃ v', sections.Leaves v (.found start code number) v' ∧ Mirrors v' (table.claim code).2 := by
  have hlookup : table.lookup code = some (v.entries number) := by rw [h.lookup, hnumber, Option.map_some]
  refine ⟨_, .more rfl (.last rfl), ?_⟩
  rw [h.epoch]
  by_cases hfree : (v.entries number).isFree table.epoch
  · simpa [CodeTable.claim, hlookup, hfree] using h.report hnumber start table.epoch
  · simpa [CodeTable.claim, hlookup, hfree] using h

/-- A call that nobody comes between does what it does to a table that has its entries to itself. -/
theorem Mirrors.leaves (h : Mirrors v table) (op : CodeOp) :
    ∃ v', sections.Leaves v (sections.enter v (.op op)) v' ∧ Mirrors v' (afterOp op table) := by
  cases op with
  | register code slots =>
    exact ⟨_, .more (if_neg (by simp [h.free])) (.last rfl), h.register code slots⟩
  | unregister code =>
    exact ⟨_, .more rfl (.last (if_neg (by simp [SharedCode.dropNursery, h.free]))), h.unregister code⟩
  | beginCycle =>
    rw [afterOp_beginCycle]
    exact ⟨_, .last rfl, view_ext (fun code => (h.nursery code).symm) (fun code => (h.mature code).symm)
      (congrArg (· + 1) h.epoch), h.numbered, h.apart, h.free⟩
  | claim code =>
    rw [afterOp_claim]
    have hlook (found : CodeStage) (hfound : (match v.mature[code]? with
        | some number => .found v.count code number
        | none => .lookingOn v.count code) = found) :
        sections.next v (sections.enter v (.op (.claim code))) = some (v, some found) := by
      rw [← hfound]
      exact if_neg (by simp [h.free])
    cases hmature : v.mature[code]? with
    | some number =>
      have hnumber : (v.mature[code]? <|> v.nursery[code]?) = some number := by simp [hmature]
      obtain ⟨v', hleaves, hmirrors⟩ := h.claim hnumber v.count
      exact ⟨v', .more (hlook _ (by rw [hmature])) hleaves, hmirrors⟩
    | none =>
      have hnext := hlook _ (by rw [hmature])
      cases hnursery : v.nursery[code]? with
      | some number =>
        have hnumber : (v.mature[code]? <|> v.nursery[code]?) = some number := by simp [hmature, hnursery]
        obtain ⟨v', hleaves, hmirrors⟩ := h.claim hnumber v.count
        refine ⟨v', .more hnext (.more ?_ hleaves), hmirrors⟩
        simp [sections, carryOut, hnursery]
      | none =>
        refine ⟨v, .more hnext (.last ?_), ?_⟩
        · simp [sections, carryOut, hnursery]
        · rw [CodeTable.claim, h.lookup, hmature, hnursery]
          exact h
  | scan =>
    rw [afterOp_scan]
    exact h.scan _

/-- So it is with any call of a thread that comes to its end before others go on. -/
theorem Mirrors.run_call {s : CodeThreads} {thread : ThreadId} (h : Mirrors s.value table)
    (hthread : s.stages thread = none) (op : CodeOp) :
    ∃ n v', run sections (.call thread (.op op) :: List.replicate n (.go thread)) s = some { s with value := v' } ∧
      Mirrors v' (afterOp op table) := by
  obtain ⟨v', hleaves, hmirrors⟩ := h.leaves op
  obtain ⟨n, hrun⟩ := run_alone hleaves hthread
  exact ⟨n, v', hrun, hmirrors⟩

end Alone

end CodeThreads

end Safepoint
