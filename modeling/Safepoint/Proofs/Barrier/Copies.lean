import Safepoint.Proofs.Barrier.Hooks

/-!
# What a bulk copy does and shows

Ranges of one shape are copied slot by slot, whether they overlap or not. The collector is shown the copy as a whole:
once before the first byte moves and once after the last, also when there is nothing to move.
-/
namespace Safepoint

variable {μ ε : Type}

/-- From one memory to the next, each slot of the target takes the bits of its slot of the source, and nothing outside
the target changes. -/
structure BulkCopy.Moves (c : BulkCopy) (m m' : Memory) : Prop where
  slots : ∃ sources targets, c.source.slots = .ok sources ∧ c.target.slots = .ok targets ∧
    sources.length = c.source.count ∧
    targets.map (fun slot => slot.loadBits m') = sources.map (fun slot => slot.loadBits m)
  outside : m.SameOutside m' c.target.start.toNat (c.target.count * c.target.stride)

namespace Barrier

variable {kind : BarrierKind} {engine : Engine μ ε} {journal : ε → List JournalEntry} {d : Decorators} {c : BulkCopy}

theorem moves_copy (hshape : c.source.SameShape c.target) (hsource : c.source.EndsBelowTag)
    (htarget : c.target.EndsBelowTag) (m : Memory) :
    c.Moves m (m.copy c.source.start c.target.start (c.source.count * c.source.stride)) := by
  obtain ⟨sources, hsources, hlength, hfrom⟩ := hsource.slots
  obtain ⟨targets, htargets, hlength', hto⟩ := htarget.slots
  refine ⟨⟨sources, targets, hsources, htargets, hlength, ?_⟩, ?_⟩
  · have hsame : targets.length = sources.length := by rw [hlength, hlength', hshape.1]
    refine List.ext_getElem (by simpa using hsame) fun i hi hi' => ?_
    rw [List.length_map] at hi hi'
    rw [List.getElem_map, List.getElem_map]
    exact hshape.loadBits_copy (hlength ▸ hi') (hfrom i hi') (hto i hi) m
  · rw [hshape.1, hshape.stride]
    exact m.sameOutside_copy c.source.start c.target.start _

/-- What is left when the bytes of a copy have moved. -/
def moved (a : Attached μ ε) (c : BulkCopy) : Attached μ ε :=
  let bytes := c.source.count * c.source.stride
  { a with machine := { a.machine with memory := a.machine.memory.copy c.source.start c.target.start bytes } }

theorem run_copySlots_of_sameShape (hshape : c.source.SameShape c.target) (hsource : c.source.EndsBelowTag)
    (a : Attached μ ε) : (copySlots c).run a = (.ok (), moved a c) := by
  unfold copySlots
  split
  · -- What is left out here would be a copy of no bytes.
    rename_i hempty
    have hcount : c.source.count = 0 := by simpa [SlotRange.isEmpty] using hempty
    rw [moved, hcount, Nat.zero_mul, Memory.copy_zero]
    rfl
  · have hpoke : (Machine.poke (c.source.copy c.target)).run a.machine = (.ok (), (moved a c).machine) := by
      simp [Machine.poke, hshape.copy hsource, Except.map, moved]
    rw [Act.run_within]
    simp only [Attached.machinePlace, hpoke]
    rfl

theorem run_copySlots_of_refused (hcount : c.source.count ≠ 0)
    (hrefused : c.source.count * c.source.stride ≠ c.target.count * c.target.stride ∨
      c.source.narrow ≠ c.target.narrow) (a : Attached μ ε) :
    ∃ cause, (copySlots c).run a = (.error (.panic cause), a) := by
  obtain ⟨cause, hcopy⟩ := SlotRange.copy_eq_error hrefused a.machine.memory
  refine ⟨cause, ?_⟩
  have hpoke : (Machine.poke (c.source.copy c.target)).run a.machine = (.error (.panic cause), a.machine) := by
    simp [Machine.poke, hcopy, Except.map]
  have hnonempty : c.source.isEmpty = false := by simpa [SlotRange.isEmpty] using hcount
  rw [copySlots, hnonempty, if_neg Bool.false_ne_true, Act.run_within]
  simp only [Attached.machinePlace, hpoke]

/-- The copy has to be shown before it is done: it is in the heap, there is a barrier, and the target has old values. -/
def CopyShownBefore (kind : BarrierKind) (d : Decorators) : Prop :=
  kind ≠ .none ∧ d.contains .inHeap = true ∧ d.contains .destUninitialized = false

instance : Decidable (CopyShownBefore kind d) := inferInstanceAs (Decidable (_ ∧ _))

/-- The copy has to be shown when it is done. -/
def CopyShownAfter (kind : BarrierKind) (d : Decorators) : Prop := kind ≠ .none ∧ d.contains .inHeap = true

instance : Decidable (CopyShownAfter kind d) := inferInstanceAs (Decidable (_ ∧ _))

/-- A copy, with the hooks that are called before and after it. -/
theorem copy_eq_hooks (kind : BarrierKind) (engine : Engine μ ε) (d : Decorators) (c : BulkCopy) :
    copy kind engine d c =
      (if CopyShownBefore kind d then engine.copyPre c else pure ()) >>= fun _ =>
        copySlots c >>= fun _ => if CopyShownAfter kind d then engine.copyPost c else pure () := by
  have hbefore : (if d.contains .inHeap && !d.contains .destUninitialized then copyPre kind engine c else pure ()) =
      if CopyShownBefore kind d then engine.copyPre c else pure () := by
    cases kind <;> simp [CopyShownBefore, copyPre]
  have hafter : (if d.contains .inHeap then copyPost kind engine c else pure ()) =
      if CopyShownAfter kind d then engine.copyPost c else pure () := by
    cases kind <;> simp [CopyShownAfter, copyPost]
  rw [← hbefore, ← hafter]
  unfold copy copySlots
  cases d.contains .inHeap <;> cases d.contains .destUninitialized <;> cases c.source.isEmpty <;> rfl

/-- A hook that is called under a condition is in the journal under that condition. -/
theorem run_shown {hook : Act (Attached μ ε) Unit} {call : WriteHook} (henters : hook.Enters journal call)
    (shown : Prop) [Decidable shown] (a : Attached μ ε) :
    ∃ a', (if shown then hook else pure ()).run a = (.ok (), a') ∧ a'.machine.memory = a.machine.memory ∧
      journal a'.machine.env =
        journal a.machine.env ++ if shown then [⟨call, a.machine.memory⟩] else [] := by
  by_cases hshown : shown
  · rw [if_pos hshown, if_pos hshown]
    exact henters a
  · rw [if_neg hshown, if_neg hshown, List.append_nil]
    exact ⟨a, rfl, rfl, rfl⟩

/-- What the journal has of a copy before it is done, over the memory `m`. -/
def copyEntriesBefore (kind : BarrierKind) (d : Decorators) (c : BulkCopy) (m : Memory) : List JournalEntry :=
  if CopyShownBefore kind d then [⟨.copyPre c, m⟩] else []

/-- What it has of it when it is done. -/
def copyEntriesAfter (kind : BarrierKind) (d : Decorators) (c : BulkCopy) (m : Memory) : List JournalEntry :=
  if CopyShownAfter kind d then [⟨.copyPost c, m⟩] else []

/-- What comes of a copy on the machine `m`, with the journal that the collector keeps. -/
structure Copies (kind : BarrierKind) (journal : ε → List JournalEntry) (d : Decorators) (c : BulkCopy) (m : Machine ε)
    (outcome : Except Fault Unit) (m' : Machine ε) : Prop where
  /-- Ranges of one shape are copied, between the two hooks. -/
  copied : c.source.SameShape c.target → c.source.EndsBelowTag → c.target.EndsBelowTag →
    outcome = .ok () ∧ c.Moves m.memory m'.memory ∧ journal m'.env =
      journal m.env ++ copyEntriesBefore kind d c m.memory ++ copyEntriesAfter kind d c m'.memory
  /-- Slots that do not fit the target are not copied, and the hook before the copy was the last. -/
  refused : c.source.count ≠ 0 → c.source.count * c.source.stride ≠ c.target.count * c.target.stride ∨
      c.source.narrow ≠ c.target.narrow →
    ∃ cause, outcome = .error (.panic cause) ∧ m'.memory = m.memory ∧
      journal m'.env = journal m.env ++ copyEntriesBefore kind d c m.memory

/-- A copy with the mutator at hand. -/
theorem run_copy (hjournal : engine.Journals journal) (kind : BarrierKind) (d : Decorators) (c : BulkCopy)
    (a : Attached μ ε) :
    Copies kind journal d c a.machine ((copy kind engine d c).run a).1 ((copy kind engine d c).run a).2.machine := by
  obtain ⟨a₁, hpre, hmemory, henv⟩ := run_shown (hjournal.copyPre c) (CopyShownBefore kind d) a
  rw [copy_eq_hooks, Act.run_bind_ok hpre]
  constructor
  · intro hshape hsource htarget
    obtain ⟨a₂, hpost, hmemory₂, henv₂⟩ := run_shown (hjournal.copyPost c) (CopyShownAfter kind d) (moved a₁ c)
    rw [Act.run_bind_ok (run_copySlots_of_sameShape hshape hsource a₁), hpost]
    have hmoves := moves_copy hshape hsource htarget a.machine.memory
    rw [← hmemory] at hmoves
    refine ⟨rfl, ?_, ?_⟩
    · rw [hmemory₂, ← hmemory]
      exact hmoves
    · rw [henv₂, hmemory₂]
      exact congrArg (· ++ _) henv
  · intro hcount hrefused
    obtain ⟨cause, hcopy⟩ := run_copySlots_of_refused hcount hrefused a₁
    rw [Act.run_bind_error hcopy]
    exact ⟨cause, rfl, hmemory, henv⟩

end Barrier

namespace Binding

variable {b : Binding μ ε} {journal : ε → List JournalEntry} {s : State μ ε} {me : ThreadId}

/-- A copy by a registered thread, of ranges that have as many slots of one width and end below the tag, wherever they
lie: each slot of the target takes the bits that its slot of the source had, and nothing else changes. If there is a
barrier and the copy is in the heap, the collector is shown it once before any byte moves, unless the target is fresh,
and once when it is done, however many slots there are. Slots that do not fit the target in size or in width are not
copied: the call breaks off after the hook before it, and memory is as it was. -/
theorem copy_moves_slots (hjournal : b.engine.Journals journal) (hattached : s.registry.Attaches me) (d : Decorators)
    (c : BulkCopy) :
    Barrier.Copies b.options.barrier journal d c s.machine ((b.copyReferences me d c).run s).1
      ((b.copyReferences me d c).run s).2.machine := by
  obtain ⟨mutator, hcurrent, hmem⟩ := hattached
  obtain ⟨state, hstate⟩ := Option.isSome_iff_exists.1 (Std.ExtTreeMap.mem_iff_isSome_getElem?.1 hmem)
  have hmirror := mirrors_withMutator hcurrent (Barrier.copy b.options.barrier b.engine d c) ⟨state, s.machine⟩
  rw [State.leave_self hstate] at hmirror
  rw [copyReferences, hmirror]
  exact Barrier.run_copy hjournal b.options.barrier d c ⟨state, s.machine⟩

/-- Two slots move up by one, over themselves. A copy into two narrow slots breaks off after its first hook. -/
theorem overlapping_copy_shown :
    let b := forTwo { barrier := .object } .identity journalKeeper
    let m := (⟨0x1000⟩ : Slot).storeBits 0x20018 ((⟨0x1008⟩ : Slot).storeBits 0x20020 .zero)
    let s := registeredTwo ⟨m, []⟩
    let up : BulkCopy := ⟨⟨none, 0x1000, 2, false⟩, ⟨none, 0x1008, 2, false⟩⟩
    let across : BulkCopy := ⟨⟨none, 0x1000, 2, false⟩, ⟨none, 0x2000, 2, true⟩⟩
    let r := (b.copyReferences ⟨"a"⟩ .inHeap up).run s
    let r' := (b.copyReferences ⟨"a"⟩ .inHeap across).run s
    b.engine.Journals id ∧ s.registry.Attaches ⟨"a"⟩ ∧ r.1 = .ok () ∧
      (⟨0x1008⟩ : Slot).loadBits r.2.machine.memory = 0x20018 ∧
      (⟨0x1010⟩ : Slot).loadBits r.2.machine.memory = 0x20020 ∧
      r.2.machine.env = [⟨.copyPre up, m⟩, ⟨.copyPost up, r.2.machine.memory⟩] ∧
      r'.1 ≠ .ok () ∧ r'.2.machine = ⟨m, [⟨.copyPre across, m⟩]⟩ := by
  intro b m s up across r r'
  have hattached : s.registry.Attaches ⟨"a"⟩ := attaches_twoMutators _ (List.mem_cons_self ..)
  have hcopies := copy_moves_slots (b := b) journalKeeper_journals hattached .inHeap
  obtain ⟨houtcome, hmoves, hjournal⟩ := (hcopies up).copied (by decide) (by decide) (by decide)
  obtain ⟨cause, houtcome', hmemory', hjournal'⟩ := (hcopies across).refused (by decide) (by decide)
  obtain ⟨sources, targets, hsources, htargets, -, hbits⟩ := hmoves.slots
  have hfrom : up.source.slots = .ok [⟨0x1000⟩, ⟨0x1008⟩] := by decide +kernel
  have hto : up.target.slots = .ok [⟨0x1008⟩, ⟨0x1010⟩] := by decide +kernel
  obtain rfl := Except.ok.inj (hfrom.symm.trans hsources)
  obtain rfl := Except.ok.inj (hto.symm.trans htargets)
  have hbits : [(⟨0x1008⟩ : Slot).loadBits r.2.machine.memory, (⟨0x1010⟩ : Slot).loadBits r.2.machine.memory] =
      [0x20018, 0x20020] := hbits.trans (by decide +kernel)
  obtain ⟨hfirst, hrest⟩ := List.cons.inj hbits
  refine ⟨journalKeeper_journals, hattached, houtcome, hfirst, (List.cons.inj hrest).1, hjournal, ?_, ?_⟩
  · simp [r', houtcome']
  · exact congrArg₂ Machine.mk hmemory' hjournal'

end Binding

end Safepoint
