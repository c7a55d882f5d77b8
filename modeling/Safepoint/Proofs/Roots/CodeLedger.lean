import Safepoint.Proofs.Roots.Claims

/-!
# A code table is one map

A ledger keeps all blobs in one map and says of each whether it is claimed and whether a scan has
passed since it was registered. A code table spreads the ledger over two maps and marks each blob
with the cycle of its last claim. Whatever is asked of it, it answers and reports as the ledger does.
-/
namespace Safepoint

/-- What may be asked of a table of registered code. -/
inductive CodeOp where
  | register (code : CodeId) (slots : List Slot)
  | unregister (code : CodeId)
  | beginCycle
  | claim (code : CodeId)
  | scan
  deriving DecidableEq

/-- What the one who asks is told, beside what the visitor is shown. -/
inductive CodeAnswer where
  | done
  | known (known : Bool)
  | cycle (number : Nat)
  | reported (slots : Nat)
  deriving DecidableEq

/-- The operations that depend on a cycle having begun. -/
def CodeOp.claims : CodeOp → Bool
  | .claim _ | .scan => true
  | _ => false

/-- The blobs shown to a visitor, with their slots. -/
abbrev CodeReports := List (CodeId × List Slot)

structure LedgerEntry where
  slots : List Slot
  claimed : Bool := false
  mature : Bool := false
  deriving DecidableEq

structure CodeLedger where
  entries : Std.ExtTreeMap CodeId LedgerEntry := {}
  cycles : Nat := 0

namespace CodeLedger

/-- The unclaimed blobs, mature or not, ascending. -/
def free (ledger : CodeLedger) (mature : Bool) : CodeReports :=
  (ledger.entries.filterMap fun _ e => if e.mature = mature && !e.claimed then some e.slots else none).toList

def step (ledger : CodeLedger) : CodeOp → CodeAnswer × CodeReports × CodeLedger
  | .register code slots => (.done, [], { ledger with entries := ledger.entries.insert code { slots } })
  | .unregister code =>
    (.known (code ∈ ledger.entries), [], { ledger with entries := ledger.entries.erase code })
  | .beginCycle =>
    (.cycle (ledger.cycles + 1), [],
      ⟨ledger.entries.map fun _ e => { e with claimed := false }, ledger.cycles + 1⟩)
  | .claim code =>
    match ledger.entries[code]? with
    | none => (.reported 0, [], ledger)
    | some e =>
      if e.claimed then (.reported 0, [], ledger)
      else (.reported e.slots.length, [(code, e.slots)],
        { ledger with entries := ledger.entries.insert code { e with claimed := true } })
  | .scan =>
    let reports := ledger.free true ++ ledger.free false
    (.reported (reports.flatMap Prod.snd).length, reports,
      { ledger with entries := ledger.entries.map fun _ e => { e with claimed := true, mature := true } })

def run (ledger : CodeLedger) : List CodeOp → List CodeAnswer × CodeReports × CodeLedger
  | [] => ([], [], ledger)
  | op :: ops =>
    let first := ledger.step op
    let others := first.2.2.run ops
    (first.1 :: others.1, first.2.1 ++ others.2.1, others.2.2)

end CodeLedger

section Table

variable {ρ : Type} (visit : Slot → Act ρ Unit)

/-- An operation on a table, with a visitor at hand. -/
def CodeOp.act : CodeOp → Act (CodeTable × ρ) CodeAnswer
  | .register code slots => do
    Act.within CodeTable.tablePlace (modify (·.register code slots))
    return .done
  | .unregister code => .known <$> Act.within CodeTable.tablePlace (modifyGet (·.unregister code))
  | .beginCycle => (fun cycle => .cycle cycle.toNat) <$> Act.within CodeTable.tablePlace CodeTable.beginCycle
  | .claim code => .reported <$> CodeTable.claimAndVisit visit code
  | .scan => .reported <$> CodeTable.scan (·.forM visit)

end Table

/-- What the ledger says of an entry of a table. Before the first cycle nothing is claimed. -/
def CodeEntry.seen (entry : CodeEntry) (epoch : UInt64) (mature : Bool) : LedgerEntry :=
  ⟨entry.slots, epoch ≠ 0 && !entry.isFree epoch, mature⟩

theorem seen_next {entry : CodeEntry} {epoch : UInt64} (hle : entry.claimed ≤ epoch)
    (hlt : epoch.toNat + 1 < wordLimit) (mature : Bool) :
    entry.seen (epoch + 1) mature = { entry.seen epoch mature with claimed := false } := by
  have hnext := toNat_add_one hlt
  have hfree : entry.claimed < epoch + 1 := by
    rw [UInt64.le_iff_toNat_le] at hle
    rw [UInt64.lt_iff_toNat_lt]
    omega
  simp [CodeEntry.seen, CodeEntry.isFree, hfree]

structure CodeTable.Represents (table : CodeTable) (ledger : CodeLedger) : Prop where
  sound : table.Sound
  entry : ∀ code : CodeId, ledger.entries[code]? =
    ((table.mature[code]?.map (·.seen table.epoch true)) <|> (table.nursery[code]?.map (·.seen table.epoch false)))
  cycles : ledger.cycles = table.epoch.toNat

namespace CodeTable.Represents

open CodeTable

variable {table : CodeTable} {ledger : CodeLedger}

theorem register (h : table.Represents ledger) (code : CodeId) (slots : List Slot) :
    (table.register code slots).Represents (ledger.step (.register code slots)).2.2 where
  sound := h.sound.register code slots
  cycles := h.cycles
  entry other := by
    simp only [CodeLedger.step, CodeTable.register, addNursery, dropMature, getElem?_insert, getElem?_erase]
    by_cases he : code = other
    · subst he
      by_cases h0 : table.epoch = 0 <;> simp [CodeEntry.seen, CodeEntry.isFree, UInt64.pos_iff_ne_zero, h0]
    · simpa [he] using h.entry other

theorem unregister (h : table.Represents ledger) (code : CodeId) :
    (table.unregister code).2.Represents (ledger.step (.unregister code)).2.2 where
  sound := h.sound.unregister code
  cycles := h.cycles
  entry other := by
    simp only [CodeLedger.step, CodeTable.unregister, dropNursery, dropMature, getElem?_erase]
    by_cases he : code = other
    · simp [he]
    · simpa [he] using h.entry other

theorem known (h : table.Represents ledger) (code : CodeId) :
    (table.unregister code).1 = decide (code ∈ ledger.entries) := by
  have := h.entry code
  simp only [CodeTable.unregister, Std.ExtTreeMap.mem_iff_isSome_getElem?, this]
  cases table.mature[code]? <;> cases table.nursery[code]? <;> rfl

theorem beginCycle (h : table.Represents ledger) (hlt : table.epoch.toNat + 1 < wordLimit) :
    Represents { table with epoch := table.epoch + 1 } (ledger.step .beginCycle).2.2 where
  sound := h.sound.beginCycle hlt
  cycles := by
    rw [toNat_add_one hlt, ← h.cycles]
    rfl
  entry code := by
    simp only [CodeLedger.step, Std.ExtTreeMap.getElem?_map, h.entry code]
    cases hm : table.mature[code]? with
    | some e => simp [seen_next (h.sound.past code e (.inl hm)) hlt]
    | none =>
      cases hn : table.nursery[code]? with
      | some e => simp [seen_next (h.sound.past code e (.inr hn)) hlt]
      | none => rfl

/-- A blob's entry in the ledger is read off the table as a claim reads it. -/
theorem lookup (h : table.Represents ledger) (code : CodeId) :
    ledger.entries[code]? = (table.lookup code).map (·.seen table.epoch (code ∈ table.mature)) := by
  rw [h.entry code, CodeTable.lookup]
  cases hm : table.mature[code]? with
  | some e => simp [mem_of_getElem? hm]
  | none => cases table.nursery[code]? <;> simp [not_mem_of_getElem? hm]

theorem put (h : table.Represents ledger) (h0 : table.epoch ≠ 0) {code : CodeId} {e : CodeEntry}
    (hl : table.lookup code = some e) : (table.put code (e.claim table.epoch)).Represents
      { ledger with entries := ledger.entries.insert code ⟨e.slots, true, code ∈ table.mature⟩ } := by
  have hpast : e.claimed ≤ table.epoch := h.sound.past code e (by
    rw [CodeTable.lookup] at hl
    cases hm : table.mature[code]? <;> simp_all)
  have hs := h.sound.put code (claimed_claim_le hpast)
  by_cases hm : code ∈ table.mature
  · have hput : table.put code (e.claim table.epoch) =
        { table with mature := table.mature.insert code (e.claim table.epoch) } := if_pos hm
    rw [hput] at hs ⊢
    refine ⟨hs, fun other => ?_, h.cycles⟩
    simp only [getElem?_insert]
    by_cases he : code = other
    · simp [← he, hm, CodeEntry.seen, h0]
    · simpa [he] using h.entry other
  · have hput : table.put code (e.claim table.epoch) =
        { table with nursery := table.nursery.insert code (e.claim table.epoch) } := if_neg hm
    rw [hput] at hs ⊢
    refine ⟨hs, fun other => ?_, h.cycles⟩
    simp only [getElem?_insert]
    by_cases he : code = other
    · simp [← he, hm, CodeEntry.seen, h0]
    · simpa [he] using h.entry other

theorem free (h : table.Represents ledger) (h0 : table.epoch ≠ 0) :
    table.free = ledger.free true ++ ledger.free false := by
  have hmature : freeIn table.epoch table.mature = ledger.free true := by
    refine congrArg Std.ExtTreeMap.toList (Std.ExtTreeMap.ext_getElem? fun code => ?_)
    simp only [Std.ExtTreeMap.getElem?_filterMap', h.entry code]
    cases table.mature[code]? <;> cases table.nursery[code]? <;> simp [CodeEntry.seen, h0]
  have hnursery : freeIn table.epoch table.nursery = ledger.free false := by
    refine congrArg Std.ExtTreeMap.toList (Std.ExtTreeMap.ext_getElem? fun code => ?_)
    simp only [Std.ExtTreeMap.getElem?_filterMap', h.entry code]
    obtain hn | hm := h.sound.apart? code
    · rw [hn]
      cases table.mature[code]? <;> simp [CodeEntry.seen]
    · rw [hm]
      cases table.nursery[code]? <;> simp [CodeEntry.seen, h0]
  rw [CodeTable.free, hmature, hnursery]

theorem scanned (h : table.Represents ledger) (h0 : table.epoch ≠ 0) :
    table.scanned.Represents (ledger.step .scan).2.2 where
  sound := h.sound.scanned
  cycles := h.cycles
  entry code := by
    have hnone : table.scanned.nursery[code]? = none := Std.ExtTreeMap.getElem?_empty
    have hepoch : table.scanned.epoch = table.epoch := rfl
    simp only [CodeLedger.step, Std.ExtTreeMap.getElem?_map, h.entry code, getElem?_scanned, hnone, hepoch]
    obtain hn | hm := h.sound.apart? code
    · rw [hn]
      cases table.mature[code]? <;> simp [CodeEntry.seen, h0]
    · rw [hm]
      cases table.nursery[code]? <;> simp [CodeEntry.seen, h0]

variable {ρ : Type} {visit : Slot → Act ρ Unit}

theorem claim (h : table.Represents ledger) (h0 : table.epoch ≠ 0)
    (returns : ∀ slot r, ∃ r', (visit slot).run r = (.ok (), r')) (code : CodeId) (r : ρ) :
    ∃ table' r', ((CodeOp.claim code).act visit).run (table, r) = (.ok (ledger.step (.claim code)).1, table', r') ∧
      (((ledger.step (.claim code)).2.1.flatMap Prod.snd).forM visit).run r = (.ok (), r') ∧
      table'.Represents (ledger.step (.claim code)).2.2 ∧ table'.epoch = table.epoch := by
  obtain ⟨r', hv⟩ := Act.run_forM_returns returns ((table.claim code).1.getD []) r
  have hact : ((CodeOp.claim code).act visit).run (table, r) =
      (.ok (.reported ((table.claim code).1.getD []).length), (table.claim code).2, r') := by
    rw [CodeOp.act, Act.run_map, run_claimAndVisit hv]
    rfl
  refine ⟨(table.claim code).2, r', ?_⟩
  rw [hact]
  obtain hnone | ⟨e, hl, hf, hsome⟩ := claim_cases table code
  · have hsame : ledger.step (.claim code) = (.reported 0, [], ledger) := by
      simp only [CodeLedger.step, h.lookup code]
      cases hl : table.lookup code with
      | none => rfl
      | some e =>
        by_cases hf : e.isFree table.epoch
        · simp [CodeTable.claim, hl, hf] at hnone
        · simp [CodeEntry.seen, h0, hf]
    rw [hnone] at hv ⊢
    rw [hsame]
    exact ⟨rfl, hv, h, rfl⟩
  · have htaken : ledger.step (.claim code) = (.reported e.slots.length, [(code, e.slots)],
        { ledger with entries := ledger.entries.insert code ⟨e.slots, true, code ∈ table.mature⟩ }) := by
      simp [CodeLedger.step, h.lookup code, hl, CodeEntry.seen, hf]
    rw [hsome] at hv ⊢
    rw [htaken]
    exact ⟨rfl, by simpa using hv, h.put h0 hl, epoch_put code _⟩

/-- Whatever is asked of the table, it answers and reports as the ledger does. -/
theorem step (h : table.Represents ledger) (returns : ∀ slot r, ∃ r', (visit slot).run r = (.ok (), r'))
    (op : CodeOp) (h0 : op.claims → table.epoch ≠ 0)
    (hlt : op = .beginCycle → table.epoch.toNat + 1 < wordLimit) (r : ρ) :
    ∃ table' r', (op.act visit).run (table, r) = (.ok (ledger.step op).1, table', r') ∧
      (((ledger.step op).2.1.flatMap Prod.snd).forM visit).run r = (.ok (), r') ∧
      table'.Represents (ledger.step op).2.2 ∧
      table'.epoch.toNat = table.epoch.toNat + if op = .beginCycle then 1 else 0 := by
  cases op with
  | register code slots => exact ⟨table.register code slots, r, rfl, rfl, h.register code slots, rfl⟩
  | unregister code =>
    refine ⟨(table.unregister code).2, r, ?_, rfl, h.unregister code, rfl⟩
    have hact : ((CodeOp.unregister code).act visit).run (table, r) =
        (.ok (.known (table.unregister code).1), (table.unregister code).2, r) := rfl
    rw [hact, h.known code]
    rfl
  | beginCycle =>
    have hnext := toNat_add_one (hlt rfl)
    have hne : table.epoch + 1 ≠ 0 := fun he => by simp [he] at hnext
    have hact : (CodeOp.beginCycle.act visit).run (table, r) =
        (.ok (.cycle (table.epoch + 1).toNat), { table with epoch := table.epoch + 1 }, r) := by
      simp [CodeOp.act, tablePlace, run_beginCycle, hne, Except.map]
    refine ⟨{ table with epoch := table.epoch + 1 }, r, ?_, rfl, h.beginCycle (hlt rfl), hnext⟩
    rw [hact, hnext, ← h.cycles]
    rfl
  | claim code =>
    obtain ⟨table', r', hact, hv, hrep, hepoch⟩ := h.claim (h0 rfl) returns code r
    exact ⟨table', r', hact, hv, hrep, by simp [hepoch]⟩
  | scan =>
    obtain ⟨r', hv⟩ := Act.run_forM_returns returns (table.free.flatMap Prod.snd) r
    have hscan : (CodeTable.scan (·.forM visit)).run (table, r) =
        (.ok (table.free.flatMap Prod.snd).length, table.scanned, r') := run_scan (by rwa [Act.forM_flatMap] at hv)
    refine ⟨table.scanned, r', ?_, ?_, h.scanned (h0 rfl), rfl⟩
    · rw [CodeOp.act, Act.run_map, hscan, h.free (h0 rfl)]
      rfl
    · rw [h.free (h0 rfl)] at hv
      exact hv

theorem run (returns : ∀ slot r, ∃ r', (visit slot).run r = (.ok (), r')) (ops : List CodeOp)
    {table : CodeTable} {ledger : CodeLedger} (h : table.Represents ledger)
    (h0 : table.epoch ≠ 0 ∨ ∀ op ∈ ops.takeWhile (· ≠ .beginCycle), op.claims = false)
    (hlt : table.epoch.toNat + ops.count .beginCycle < wordLimit) (r : ρ) :
    ∃ table' r', (ops.mapM (CodeOp.act visit)).run (table, r) = (.ok (ledger.run ops).1, table', r') ∧
      (((ledger.run ops).2.1.flatMap Prod.snd).forM visit).run r = (.ok (), r') ∧
      table'.Represents (ledger.run ops).2.2 := by
  induction ops generalizing table ledger r with
  | nil => exact ⟨table, r, rfl, rfl, h⟩
  | cons op ops ih =>
    have hclaims : op.claims → table.epoch ≠ 0 := fun hc => by
      refine h0.resolve_right fun hfirst => ?_
      have hne : op ≠ .beginCycle := by
        rintro rfl
        cases hc
      have := hfirst op (by simp [hne])
      simp [hc] at this
    obtain ⟨table₁, r₁, hact, hvisit, hrep, hepoch⟩ := h.step returns op hclaims
      (fun he => by simp [he] at hlt; omega) r
    have h0₁ : table₁.epoch ≠ 0 ∨ ∀ op ∈ ops.takeWhile (· ≠ .beginCycle), op.claims = false := by
      by_cases he : op = .beginCycle
      · refine .inl fun hz => ?_
        simp [hz, he] at hepoch
      · obtain h0 | hfirst := h0
        · refine .inl fun hz => h0 ?_
          simpa [hz, he, ← UInt64.toNat_inj] using hepoch.symm
        · refine .inr fun other hother => hfirst other ?_
          rw [List.takeWhile_cons_of_pos (by simpa using he)]
          exact .tail _ hother
    have hlt₁ : table₁.epoch.toNat + ops.count .beginCycle < wordLimit := by
      rw [List.count_cons] at hlt
      simp only [beq_iff_eq] at hlt
      omega
    obtain ⟨table', r', hacts, hvisits, hrep'⟩ := ih hrep h0₁ hlt₁ r₁
    refine ⟨table', r', ?_, ?_, hrep'⟩
    · rw [List.mapM_cons, Act.run_bind_ok hact, Act.run_bind_ok hacts]
      rfl
    · rw [CodeLedger.run, List.flatMap_append]
      exact Act.run_forM_append.2 ⟨r₁, hvisit, hvisits⟩

theorem empty : ({} : CodeTable).Represents {} where
  sound := .empty
  entry code := by simp
  cycles := rfl

end CodeTable.Represents

/-- The operations within one cycle that neither register nor forget a blob. -/
def CodeOp.leaves (code : CodeId) : CodeOp → Bool
  | .register other _ | .unregister other => other ≠ code
  | .beginCycle => false
  | .claim _ | .scan => true

/-- The operations that report a blob if it is unclaimed. -/
def CodeOp.asksFor (code : CodeId) : CodeOp → Bool
  | .claim other => other = code
  | .scan => true
  | _ => false

/-- The operations after which a blob is unclaimed, if it is registered. -/
def CodeOp.freshens (code : CodeId) : CodeOp → Bool
  | .register other _ => other = code
  | .beginCycle => true
  | _ => false

theorem filter_key_toList {β : Type} (map : Std.ExtTreeMap CodeId β) (code : CodeId) :
    map.toList.filter (·.1 = code) = (map[code]?.map fun b => (code, b)).toList := by
  have hdistinct := map.distinct_keys_toList
  cases hb : map[code]? with
  | none =>
    refine List.filter_eq_nil_iff.2 fun e he hcode => ?_
    have hsome := Std.ExtTreeMap.mem_toList_iff_getElem?_eq_some.1 he
    simp only [decide_eq_true_eq] at hcode
    simp [hcode, hb] at hsome
  | some b =>
    obtain ⟨before, after, hsplit⟩ := List.append_of_mem (Std.ExtTreeMap.mem_toList_iff_getElem?_eq_some.2 hb)
    rw [hsplit, List.pairwise_append, List.pairwise_cons] at hdistinct
    obtain ⟨-, ⟨hafter, -⟩, hbefore⟩ := hdistinct
    have hb₁ : before.filter (·.1 = code) = [] := List.filter_eq_nil_iff.2 fun e he hcode => by
      refine hbefore e he _ (.head _) ?_
      simp [of_decide_eq_true hcode]
    have hb₂ : after.filter (·.1 = code) = [] := List.filter_eq_nil_iff.2 fun e he hcode => by
      refine hafter e he ?_
      simp [of_decide_eq_true hcode]
    rw [hsplit, List.filter_append, hb₁, List.filter_cons_of_pos (by simp), hb₂]
    rfl

namespace CodeLedger

/-- What is reported of a blob when it is asked for, or not. -/
def due (ledger : CodeLedger) (code : CodeId) (asked : Bool) : CodeReports :=
  match ledger.entries[code]? with
  | some e => if !e.claimed && asked then [(code, e.slots)] else []
  | none => []

variable {code : CodeId}

theorem filter_free (ledger : CodeLedger) (mature : Bool) : (ledger.free mature).filter (·.1 = code) =
    match ledger.entries[code]? with
    | some e => if e.mature = mature && !e.claimed then [(code, e.slots)] else []
    | none => [] := by
  rw [free, filter_key_toList, Std.ExtTreeMap.getElem?_filterMap']
  cases ledger.entries[code]? with
  | none => rfl
  | some e =>
    by_cases h : e.mature = mature && !e.claimed <;> simp only [Option.bind_some, h] <;> rfl

@[simp] theorem due_false (ledger : CodeLedger) (code : CodeId) : ledger.due code false = [] := by
  unfold due
  cases ledger.entries[code]? <;> simp

/-- A blob is reported when it is first asked for, and is claimed from then on. -/
theorem step_of_leaves (ledger : CodeLedger) {op : CodeOp} (h : op.leaves code) :
    (ledger.step op).2.1.filter (·.1 = code) = ledger.due code (op.asksFor code) ∧
    (ledger.step op).2.2.entries[code]?.map (fun e => (e.slots, e.claimed)) =
      ledger.entries[code]?.map fun e => (e.slots, e.claimed || op.asksFor code) := by
  cases op with
  | register other slots =>
    have hne : other ≠ code := by simpa [CodeOp.leaves] using h
    simp [step, CodeOp.asksFor, CodeTable.getElem?_insert, hne]
  | unregister other =>
    have hne : other ≠ code := by simpa [CodeOp.leaves] using h
    simp [step, CodeOp.asksFor, CodeTable.getElem?_erase, hne]
  | beginCycle => cases h
  | claim other =>
    by_cases hcode : other = code
    · subst hcode
      simp only [step, due, CodeOp.asksFor]
      cases he : ledger.entries[other]? with
      | none => simp [he]
      | some e => by_cases hc : e.claimed <;> simp [hc, he]
    · simp only [step, CodeOp.asksFor, hcode, decide_false, due_false, Bool.or_false]
      cases ledger.entries[other]? with
      | none => simp
      | some e => by_cases hc : e.claimed <;> simp [hc, CodeTable.getElem?_insert, hcode]
  | scan =>
    simp only [step, CodeOp.asksFor, due, List.filter_append, filter_free, Std.ExtTreeMap.getElem?_map]
    cases ledger.entries[code]? with
    | none => simp
    | some e => cases hm : e.mature <;> cases hc : e.claimed <;> simp [hm, hc]

theorem reports_of_leaves (ledger : CodeLedger) (ops : List CodeOp) (h : ∀ op ∈ ops, op.leaves code) :
    (ledger.run ops).2.1.filter (·.1 = code) = ledger.due code (ops.any (·.asksFor code)) := by
  induction ops generalizing ledger with
  | nil => simp [run]
  | cons op ops ih =>
    obtain ⟨hop, hops⟩ := List.forall_mem_cons.1 h
    obtain ⟨hreports, hentries⟩ := step_of_leaves ledger hop
    rw [run, List.filter_append, hreports, ih _ hops, List.any_cons]
    simp only [due]
    cases he : ledger.entries[code]? with
    | none =>
      rw [he] at hentries
      simp [Option.map_eq_none_iff.1 hentries]
    | some e =>
      rw [he] at hentries
      obtain ⟨e', he', heq⟩ := Option.map_eq_some_iff.1 hentries
      obtain ⟨hslots, hclaimed⟩ := Prod.mk.inj heq
      simp only [he', hslots, hclaimed]
      cases e.claimed <;> cases op.asksFor code <;> simp

theorem run_append (ledger : CodeLedger) (before after : List CodeOp) : ledger.run (before ++ after) =
    ((ledger.run before).1 ++ ((ledger.run before).2.2.run after).1,
      (ledger.run before).2.1 ++ ((ledger.run before).2.2.run after).2.1,
      ((ledger.run before).2.2.run after).2.2) := by
  induction before generalizing ledger with
  | nil => rfl
  | cons op before ih => simp [run, ih]

theorem unclaimed_of_freshens {ledger : CodeLedger} {op : CodeOp} (h : op.freshens code) {e : LedgerEntry}
    (he : (ledger.step op).2.2.entries[code]? = some e) : e.claimed = false := by
  cases op with
  | register other slots =>
    obtain rfl : other = code := by simpa [CodeOp.freshens] using h
    simp only [step, CodeTable.getElem?_insert, if_true, Option.some.injEq] at he
    rw [← he]
  | beginCycle =>
    simp only [step, Std.ExtTreeMap.getElem?_map, Option.map_eq_some_iff] at he
    obtain ⟨old, -, rfl⟩ := he
    rfl
  | unregister | claim | scan => cases h

end CodeLedger

/-- Whatever is asked of a fresh table, as long as a cycle was begun before the first claim or scan:
it answers as a ledger does and shows the visitor the slots that the ledger reports, in the same
order, and no blob is in both its maps. From when a blob is registered or a cycle begins until one
of these happens again or the blob is forgotten, the blob is reported once if it is asked for,
and a scan asks for every blob. -/
theorem codeTable_refines_ledger {ρ : Type} (visit : Slot → Act ρ Unit)
    (returns : ∀ slot r, ∃ r', (visit slot).run r = (.ok (), r')) (ops : List CodeOp)
    (begun : ∀ op ∈ ops.takeWhile (· ≠ .beginCycle), op.claims = false)
    (short : ops.count .beginCycle < wordLimit) (r : ρ) :
    (∃ table r', (ops.mapM (CodeOp.act visit)).run ({}, r) = (.ok (CodeLedger.run {} ops).1, table, r') ∧
      (((CodeLedger.run {} ops).2.1.flatMap Prod.snd).forM visit).run r = (.ok (), r') ∧
      ∀ code ∈ table.nursery, code ∉ table.mature) ∧
    ∀ before op during after code, ops = before ++ op :: during ++ after → op.freshens code →
      (∀ o ∈ during, o.leaves code) →
      ∃ earlier reports later, (CodeLedger.run {} ops).2.1 = earlier ++ reports ++ later ∧
        reports = ((CodeLedger.run {} (before ++ [op])).2.2.run during).2.1 ∧
        reports.filter (·.1 = code) = if during.any (·.asksFor code) then
          ((CodeLedger.run {} (before ++ [op])).2.2.entries[code]?.map fun e => (code, e.slots)).toList else [] := by
  constructor
  · obtain ⟨table, r', hact, hvisit, hrep⟩ := CodeTable.Represents.empty.run returns ops (.inr begun)
      (by simpa using short) r
    exact ⟨table, r', hact, hvisit, hrep.sound.apart⟩
  · intro before op during after code hops hfresh hleaves
    have hsplit : ops = (before ++ [op]) ++ during ++ after := by simp [hops]
    refine ⟨_, _, _, by rw [hsplit, CodeLedger.run_append, CodeLedger.run_append], rfl, ?_⟩
    rw [CodeLedger.reports_of_leaves _ during hleaves, CodeLedger.due]
    cases he : (CodeLedger.run {} (before ++ [op])).2.2.entries[code]? with
    | none => simp
    | some e =>
      rw [CodeLedger.run_append] at he
      simp [CodeLedger.unclaimed_of_freshens hfresh he]

/-- A blob that a claim reported is left out by the scan after it. Registered again it is another
blob, and the next scan of the same cycle reports it. -/
theorem registered_twice_in_a_cycle : ∃ table : CodeTable, ∃ shown : List Slot,
    ((([.register ⟨7⟩ [⟨16⟩], .beginCycle, .claim ⟨7⟩, .scan, .register ⟨7⟩ [⟨24⟩], .scan] : List CodeOp).mapM
      (CodeOp.act fun slot => modify (· ++ [slot]))).run ({}, ([] : List Slot))) =
      (.ok [.done, .cycle 1, .reported 1, .reported 0, .done, .reported 1], table, shown) ∧
    shown = [⟨16⟩, ⟨24⟩] ∧ ∀ code ∈ table.nursery, code ∉ table.mature := by
  obtain ⟨table, shown, hact, hvisit, hapart⟩ := (codeTable_refines_ledger (ρ := List Slot)
    (fun slot => modify (· ++ [slot])) (fun slot r => ⟨r ++ [slot], rfl⟩)
    [.register ⟨7⟩ [⟨16⟩], .beginCycle, .claim ⟨7⟩, .scan, .register ⟨7⟩ [⟨24⟩], .scan] (by decide) (by decide) []).1
  refine ⟨table, shown, hact.trans ?_, ?_, hapart⟩
  · have : (CodeLedger.run {} [.register ⟨7⟩ [⟨16⟩], .beginCycle, .claim ⟨7⟩, .scan, .register ⟨7⟩ [⟨24⟩], .scan]).1 =
      [.done, .cycle 1, .reported 1, .reported 0, .done, .reported 1] := by decide +kernel
    rw [this]
  · exact (congrArg Prod.snd hvisit).symm.trans (by decide +kernel)

end Safepoint
