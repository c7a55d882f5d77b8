import Safepoint.Proofs.Barrier.Store
import Safepoint.Proofs.Barrier.Tiers
import Safepoint.Proofs.Slot

/-!
# What a store shows the collector

A collector that keeps a journal of its write hooks sees of a store just the hook that its barrier is for: the field
barrier before the write, over the memory as it was, or the object barrier after it, with the reference that is in the
slot by then.
-/
namespace Safepoint

variable {μ ε : Type}

/-- A call of one of the collector's write hooks. -/
inductive WriteHook where
  | pre (w : Write)
  | post (w : Write)
  | slow (w : Write)
  | copyPre (c : BulkCopy)
  | copyPost (c : BulkCopy)

/-- An entry of the journal: the call, and the memory that it found. -/
structure JournalEntry where
  hook : WriteHook
  memory : Memory

/-- The call returns, leaves memory alone, and enters `hook` into the journal. -/
def Act.Enters (act : Act (Attached μ ε) Unit) (journal : ε → List JournalEntry) (hook : WriteHook) : Prop :=
  ∀ a, ∃ a', act.run a = (.ok (), a') ∧ a'.machine.memory = a.machine.memory ∧
    journal a'.machine.env = journal a.machine.env ++ [⟨hook, a.machine.memory⟩]

/-- A collector whose write hooks do what they do, and keep a journal. -/
structure Engine.Journals (engine : Engine μ ε) (journal : ε → List JournalEntry) : Prop where
  writePre : ∀ w, (engine.writePre w).Enters journal (.pre w)
  writePost : ∀ w, (engine.writePost w).Enters journal (.post w)
  writeSlow : ∀ w, (engine.writeSlow w).Enters journal (.slow w)
  copyPre : ∀ c, (engine.copyPre c).Enters journal (.copyPre c)
  copyPost : ∀ c, (engine.copyPost c).Enters journal (.copyPost c)

namespace Barrier

variable {kind : BarrierKind} {engine : Engine μ ε} {journal : ε → List JournalEntry} {codec : PointerCodec}
  {d : Decorators} {source : ObjectRef} {slot : Slot} {operand : Operand}

/-- A store that needs no barrier: it is not in the heap, or is of a constant null that nobody logs. -/
def Elided (kind : BarrierKind) (d : Decorators) (operand : Operand) : Prop :=
  d.contains .inHeap = false ∨ operand = .constNull ∧ kind ≠ .field

instance : Decidable (Elided kind d operand) := inferInstanceAs (Decidable (_ ∨ _))

theorem elide_iff : kind.elide d operand = true ↔ Elided kind d operand := by
  cases kind <;> simp [BarrierKind.elide, canElide, BarrierKind.skipConstNull, Elided]

/-- The collector wants to note the old value before the write. -/
def ShownBefore (kind : BarrierKind) (engine : Engine μ ε) (d : Decorators) (slot : Slot) (operand : Operand)
    (m : Machine ε) : Prop :=
  ¬Elided kind d operand ∧ kind = .field ∧ d.contains .noKeepalive = false ∧ engine.fieldIsUnlogged m slot = true

instance (m : Machine ε) : Decidable (ShownBefore kind engine d slot operand m) :=
  inferInstanceAs (Decidable (_ ∧ _))

/-- The collector wants to note the new edge after the write. -/
def ShownAfter (kind : BarrierKind) (engine : Engine μ ε) (d : Decorators) (source : ObjectRef) (operand : Operand)
    (m : Machine ε) : Prop :=
  ¬Elided kind d operand ∧ kind = .object ∧ engine.objectIsUnlogged m source = true

instance (m : Machine ε) : Decidable (ShownAfter kind engine d source operand m) :=
  inferInstanceAs (Decidable (_ ∧ _))

/-- What the journal has of a store before the write. -/
def entriesBefore (kind : BarrierKind) (engine : Engine μ ε) (d : Decorators) (source : ObjectRef) (slot : Slot)
    (operand : Operand) (m : Machine ε) : List JournalEntry :=
  if ShownBefore kind engine d slot operand m then [⟨.pre ⟨source, slot, operand.object⟩, m.memory⟩] else []

/-- What it has after the write, where `back` is in the slot. -/
def entriesAfter (kind : BarrierKind) (engine : Engine μ ε) (d : Decorators) (source : ObjectRef) (slot : Slot)
    (operand : Operand) (back : Option ObjectRef) (m : Machine ε) : List JournalEntry :=
  if ShownAfter kind engine d source operand m then [⟨.post ⟨source, slot, back⟩, m.memory⟩] else []

/-- The hook before the write, where a store is not elided. -/
theorem run_before (hjournal : engine.Journals journal) (helided : ¬Elided kind d operand) (source : ObjectRef)
    (slot : Slot) (a : Attached μ ε) :
    ∃ a', (if !d.contains .noKeepalive then writePre kind engine ⟨source, slot, operand.object⟩ else pure ()).run a =
        (.ok (), a') ∧
      a'.machine.memory = a.machine.memory ∧
      journal a'.machine.env = journal a.machine.env ++ entriesBefore kind engine d source slot operand a.machine ∧
      (kind ≠ .field → a' = a) := by
  by_cases hfield : kind = .field
  · subst hfield
    cases hkeep : d.contains .noKeepalive with
    | true => exact ⟨a, rfl, rfl, by simp [entriesBefore, ShownBefore, hkeep], fun _ => rfl⟩
    | false =>
      rw [Bool.not_false, if_pos rfl, run_writePre_field]
      cases hlogged : engine.fieldIsUnlogged a.machine slot with
      | true =>
        obtain ⟨a', hrun, hmemory, henv⟩ := hjournal.writePre ⟨source, slot, operand.object⟩ a
        refine ⟨a', hrun, hmemory, ?_, fun h => absurd rfl h⟩
        rw [henv, entriesBefore, if_pos ⟨helided, rfl, hkeep, hlogged⟩]
      | false => exact ⟨a, rfl, rfl, by simp [entriesBefore, ShownBefore, hlogged], fun _ => rfl⟩
  · refine ⟨a, ?_, rfl, by simp [entriesBefore, ShownBefore, hfield], fun _ => rfl⟩
    split
    · cases kind with
      | field => exact absurd rfl hfield
      | none => rfl
      | object => rfl
    · rfl

/-- The hook after the write, where a store is not elided. -/
theorem run_after (hjournal : engine.Journals journal) (helided : ¬Elided kind d operand) (source : ObjectRef)
    (slot : Slot) (back : Option ObjectRef) (a : Attached μ ε) :
    ∃ a', (writePost kind engine ⟨source, slot, back⟩).run a = (.ok (), a') ∧
      a'.machine.memory = a.machine.memory ∧
      journal a'.machine.env =
        journal a.machine.env ++ entriesAfter kind engine d source slot operand back a.machine := by
  by_cases hobject : kind = .object
  · subst hobject
    rw [run_writePost_object]
    cases hlogged : engine.objectIsUnlogged a.machine source with
    | true =>
      obtain ⟨a', hrun, hmemory, henv⟩ := hjournal.writePost ⟨source, slot, back⟩ a
      refine ⟨a', hrun, hmemory, ?_⟩
      rw [henv, entriesAfter, if_pos ⟨helided, rfl, hlogged⟩]
    | false => exact ⟨a, rfl, rfl, by simp [entriesAfter, ShownAfter, hlogged]⟩
  · refine ⟨a, ?_, rfl, by simp [entriesAfter, ShownAfter, hobject]⟩
    cases kind with
    | object => exact absurd rfl hobject
    | none => rfl
    | field => rfl

/-- What comes of a store on the machine `m`, with the journal that the collector keeps. -/
structure Stores (kind : BarrierKind) (engine : Engine μ ε) (journal : ε → List JournalEntry) (codec : PointerCodec)
    (d : Decorators) (source : ObjectRef) (slot : Slot) (operand : Operand) (m : Machine ε)
    (outcome : Except Fault Unit) (m' : Machine ε) : Prop where
  /-- Nothing is written if the operand has no bits in the slot. -/
  unencoded : ∀ cause, slot.bits codec operand.object = .error cause → outcome = .error (.panic cause) ∧
    m'.memory = m.memory ∧ journal m'.env = journal m.env ++ entriesBefore kind engine d source slot operand m
  /-- Otherwise the bits are written, and nothing else. -/
  written : ∀ bits, slot.bits codec operand.object = .ok bits →
    slot.loadBits m'.memory = bits ∧ m.memory.SameOutside m'.memory slot.address.toNat slot.width
  /-- No hook is called if no barrier is needed. -/
  elided : ∀ bits, slot.bits codec operand.object = .ok bits → Elided kind d operand →
    outcome = .ok () ∧ journal m'.env = journal m.env
  /-- The store breaks off after the write if the slot cannot be read back. -/
  undecoded : ∀ bits cause, slot.bits codec operand.object = .ok bits → ¬Elided kind d operand →
    slot.load codec m'.memory = .error cause → outcome = .error (.panic cause) ∧
      journal m'.env = journal m.env ++ entriesBefore kind engine d source slot operand m
  /-- Otherwise the collector sees what is read back. What it is asked then, it is asked over the written memory. -/
  returned : ∀ bits back, slot.bits codec operand.object = .ok bits → ¬Elided kind d operand →
    slot.load codec m'.memory = .ok back → outcome = .ok () ∧
      journal m'.env = journal m.env ++ entriesBefore kind engine d source slot operand m ++
        entriesAfter kind engine d source slot operand back { m with memory := m'.memory }

namespace Stores

variable {m m' : Machine ε} {outcome : Except Fault Unit} {bits : UInt64} {cause : Panic}

theorem of_error (hbits : slot.bits codec operand.object = .error cause) (houtcome : outcome = .error (.panic cause))
    (hmemory : m'.memory = m.memory)
    (henv : journal m'.env = journal m.env ++ entriesBefore kind engine d source slot operand m) :
    Stores kind engine journal codec d source slot operand m outcome m' where
  unencoded other hother := by
    rw [hbits, Except.error.injEq] at hother
    rw [← hother]
    exact ⟨houtcome, hmemory, henv⟩
  written other hother := by simp [hbits] at hother
  elided other hother := by simp [hbits] at hother
  undecoded other _ hother := by simp [hbits] at hother
  returned other _ hother := by simp [hbits] at hother

theorem of_ok (hbits : slot.bits codec operand.object = .ok bits) (hmemory : m'.memory = slot.storeBits bits m.memory)
    (helided : Elided kind d operand → outcome = .ok () ∧ journal m'.env = journal m.env)
    (hundecoded : ∀ cause, ¬Elided kind d operand → slot.load codec m'.memory = .error cause →
      outcome = .error (.panic cause) ∧
        journal m'.env = journal m.env ++ entriesBefore kind engine d source slot operand m)
    (hreturned : ∀ back, ¬Elided kind d operand → slot.load codec m'.memory = .ok back → outcome = .ok () ∧
      journal m'.env = journal m.env ++ entriesBefore kind engine d source slot operand m ++
        entriesAfter kind engine d source slot operand back { m with memory := m'.memory }) :
    Stores kind engine journal codec d source slot operand m outcome m' where
  unencoded other hother := by simp [hbits] at hother
  written other hother := by
    rw [hbits, Except.ok.injEq] at hother
    rw [← hother, hmemory]
    exact ⟨Slot.loadBits_storeBits hbits _, m.memory.sameOutside_store slot.address slot.width bits⟩
  elided _ _ := helided
  undecoded _ cause _ := hundecoded cause
  returned _ back _ := hreturned back

end Stores

theorem store_of_elided (helided : Elided kind d operand) : store kind engine codec d source slot operand =
    Act.within Attached.machinePlace (plainStore codec slot operand.object) >>= fun _ => pure () := by
  unfold store
  simp only [elide_iff.2 helided, if_true]

theorem store_of_not_elided (helided : ¬Elided kind d operand) : store kind engine codec d source slot operand =
    (if !d.contains .noKeepalive then writePre kind engine ⟨source, slot, operand.object⟩ else pure ()) >>= fun _ =>
      Act.within Attached.machinePlace (plainStore codec slot operand.object) >>= fun stored =>
        Act.check (stored.decompress codec) >>= fun back => writePost kind engine ⟨source, slot, back⟩ := by
  unfold store
  simp only [mt elide_iff.1 helided, Bool.false_eq_true, if_false]
  cases d.contains .noKeepalive <;> rfl

theorem stores_of_elided (helided : Elided kind d operand) (a : Attached μ ε) :
    Stores kind engine journal codec d source slot operand a.machine
      ((store kind engine codec d source slot operand).run a).1
      ((store kind engine codec d source slot operand).run a).2.machine := by
  have hbefore : entriesBefore kind engine d source slot operand a.machine = [] := if_neg fun h => h.1 helided
  rw [store_of_elided helided, Act.run_bind, run_plainStore]
  cases hbits : slot.bits codec operand.object with
  | error cause => exact .of_error hbits rfl rfl (by rw [hbefore, List.append_nil])
  | ok bits =>
    exact .of_ok hbits rfl (fun _ => ⟨rfl, rfl⟩) (fun _ hnot => absurd helided hnot) fun _ hnot => absurd helided hnot

theorem stores_of_not_elided (hjournal : engine.Journals journal) (helided : ¬Elided kind d operand)
    (a : Attached μ ε) : Stores kind engine journal codec d source slot operand a.machine
      ((store kind engine codec d source slot operand).run a).1
      ((store kind engine codec d source slot operand).run a).2.machine := by
  obtain ⟨a₁, hpre, hmemory, henv, hsame⟩ := run_before hjournal helided source slot a
  rw [store_of_not_elided helided, Act.run_bind_ok hpre, Act.run_bind, run_plainStore]
  cases hbits : slot.bits codec operand.object with
  | error cause => exact .of_error hbits rfl hmemory henv
  | ok bits =>
    dsimp only
    have hload := Slot.load_storeBits_eq_decompress hbits a.machine.memory
    have hwritten : (written a₁ slot bits).machine.memory = slot.storeBits bits a.machine.memory := by
      rw [← hmemory]
      rfl
    cases hback : (⟨bits, slot.isNarrow⟩ : StoredValue).decompress codec with
    | error cause =>
      rw [Act.run_bind_error (Act.run_check_error cause _)]
      rw [hback, ← hwritten] at hload
      refine .of_ok hbits hwritten (fun h => absurd h helided) (fun other _ hother => ?_) fun back _ hother => ?_
      · rw [hload, Except.error.injEq] at hother
        rw [← hother]
        exact ⟨rfl, henv⟩
      · simp [hload] at hother
    | ok back =>
      obtain ⟨a₂, hpost, hmemory₂, henv₂⟩ := run_after hjournal helided source slot back
        (written a₁ slot bits)
      rw [Act.run_bind_ok (Act.run_check_ok back _), hpost]
      rw [hback, ← hwritten, ← hmemory₂] at hload
      refine .of_ok hbits (hmemory₂.trans hwritten) (fun h => absurd h helided) (fun other _ hother => ?_)
        fun other _ hother => ?_
      · simp [hload] at hother
      · rw [hload, Except.ok.injEq] at hother
        subst hother
        refine ⟨rfl, henv₂.trans (congrArg₂ (· ++ ·) henv ?_)⟩
        -- The object barrier did nothing before the write; no other asks anything after it.
        by_cases hobject : kind = .object
        · obtain rfl := hsame (by simp [hobject])
          rw [hmemory₂]
          rfl
        · simp [entriesAfter, ShownAfter, hobject]

/-- A store with the mutator at hand. -/
theorem run_store (hjournal : engine.Journals journal) (a : Attached μ ε) :
    Stores kind engine journal codec d source slot operand a.machine
      ((store kind engine codec d source slot operand).run a).1
      ((store kind engine codec d source slot operand).run a).2.machine := by
  by_cases helided : Elided kind d operand
  · exact stores_of_elided helided a
  · exact stores_of_not_elided hjournal helided a

end Barrier

namespace Binding

variable {b : Binding μ ε} {journal : ε → List JournalEntry} {s : State μ ε} {me : ThreadId}

/-- A store by a registered thread, whatever code runs it, shows the collector at most one write. The field barrier
shows it before it is done, unless the old value need not be kept or the field is logged already; the object barrier
shows it when it is done, with what is then in the slot, unless the object is logged already. A store that is not in the
heap is not shown, nor is that of a constant null except to the field barrier. The bits of the operand are written into
the slot, and nothing else is written; if it has none there, nothing at all is. -/
theorem store_shows (hjournal : b.engine.Journals journal) (hattached : s.registry.Attaches me) (tier : Tier)
    (d : Decorators) (source : ObjectRef) (slot : Slot) (operand : Operand) :
    Barrier.Stores b.options.barrier b.engine journal b.codec d source slot operand s.machine
      ((b.storeReference me tier d source slot operand).run s).1
      ((b.storeReference me tier d source slot operand).run s).2.machine := by
  obtain ⟨mutator, hcurrent, hmem⟩ := hattached
  obtain ⟨state, hstate⟩ := Option.isSome_iff_exists.1 (Std.ExtTreeMap.mem_iff_isSome_getElem?.1 hmem)
  have hmirror := mirrors_storeReference (b := b) hcurrent tier d source slot operand ⟨state, s.machine⟩
  rw [State.leave_self hstate] at hmirror
  rw [hmirror]
  exact Barrier.run_store hjournal ⟨state, s.machine⟩

/-- A collector that does nothing but keep its journal. -/
def journalKeeper : Engine Unit (List JournalEntry) where
  bind _ := pure ()
  writePre w := enter (.pre w)
  writePost w := enter (.post w)
  writeSlow w := enter (.slow w)
  copyPre c := enter (.copyPre c)
  copyPost c := enter (.copyPost c)
  requestCollection _ := pure ()
  isLive _ _ := true
where
  enter (hook : WriteHook) : Act (Attached Unit (List JournalEntry)) Unit :=
    Act.within Attached.machinePlace (modify fun m => { m with env := m.env ++ [⟨hook, m.memory⟩] })

theorem journalKeeper_journals : journalKeeper.Journals id := by
  have henters (hook : WriteHook) : (journalKeeper.enter hook).Enters id hook := fun a => ⟨_, rfl, rfl, rfl⟩
  exact ⟨fun _ => henters _, fun _ => henters _, fun _ => henters _, fun _ => henters _, fun _ => henters _⟩

/-- A narrow store under the object barrier is shown with the plain reference, over the memory that has it. -/
theorem narrow_store_shown :
    let b := forTwo { barrier := .object } ⟨0x800, 3⟩ journalKeeper
    let s := registeredTwo ⟨.zero, []⟩
    let object : ObjectRef := ⟨0x1000, by decide, by decide⟩
    let slot := Slot.narrow 0x1010
    let r := (b.storeReference ⟨"a"⟩ .interpreter .inHeap object slot (.value (some object))).run s
    b.engine.Journals id ∧ s.registry.Attaches ⟨"a"⟩ ∧ r.1 = .ok () ∧ slot.loadBits r.2.machine.memory = 0x100 ∧
      r.2.machine.env = [⟨.post ⟨object, slot, some object⟩, r.2.machine.memory⟩] := by
  intro b s object slot r
  have hattached : s.registry.Attaches ⟨"a"⟩ := attaches_twoMutators _ (List.mem_cons_self ..)
  have hstores := store_shows journalKeeper_journals hattached .interpreter .inHeap object slot (.value (some object))
    (b := b)
  have hbits : slot.bits b.codec (some object) = .ok 0x100 := by decide
  obtain ⟨houtcome, hjournal⟩ := hstores.returned 0x100 (some object) hbits (by decide) (by decide +kernel)
  exact ⟨journalKeeper_journals, hattached, houtcome, (hstores.written _ hbits).1, hjournal⟩

end Binding

end Safepoint
