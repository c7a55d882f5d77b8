import Safepoint.Proofs.Barrier.Calls

/-!
# One store for every tier

The interpreter stores through entry points that look the mutator up one after the other, compiled code through one
closure that has it at hand. For a thread with a mutator the two are one store. For any other thread they are not: each
hook refuses it, but the interpreter reaches no hook before the write if the store needs none there.
-/
namespace Safepoint

variable {μ ε α : Type}

/-- Why a thread without the collector's state for it is turned away. -/
def Registry.refusal (registry : Registry μ) (me : ThreadId) : Fault :=
  match registry.requireMutator me with
  | .error breach => .terminated (.violation breach)
  | .ok mutator => .terminated (.violation (.unknownMutator mutator.id))

namespace Binding
variable {b : Binding μ ε} {s s' : State μ ε} {me : ThreadId}

/-- A thread that is turned away does nothing. -/
theorem run_withMutator_of_not_attaches (h : ¬s.registry.Attaches me) (act : Act (Attached μ ε) α) :
    (withMutator me act).run s = (.error (s.registry.refusal me), s) := by
  change withMutator me act s = _
  unfold withMutator Registry.refusal
  cases hcurrent : s.registry.current me with
  | none => cases hrequired : s.registry.requireMutator me <;> rfl
  | some mutator =>
    have hstate : s.registry.states[mutator.id]? = none := by
      refine Std.ExtTreeMap.getElem?_eq_none fun hmem => h ⟨mutator, hcurrent, hmem⟩
    simp only [hstate, Registry.requireMutator, hcurrent]
    rfl

/-- The store of an attached thread, whatever runs it, is the inlined one with the mutator at hand. -/
theorem run_storeReference_of_attaches (h : s.registry.Attaches me) (tier : Tier) (d : Decorators) (source : ObjectRef)
    (slot : Slot) (operand : Operand) :
    (b.storeReference me tier d source slot operand).run s =
      (withMutator me (Barrier.store b.options.barrier b.engine b.codec d source slot operand)).run s := by
  obtain ⟨mutator, hcurrent, hmem⟩ := h
  obtain ⟨state, hstate⟩ := Option.isSome_iff_exists.1 (Std.ExtTreeMap.mem_iff_isSome_getElem?.1 hmem)
  have hstore := mirrors_storeReference (b := b) hcurrent tier d source slot operand ⟨state, s.machine⟩
  have hinlined := mirrors_withMutator hcurrent
    (Barrier.store b.options.barrier b.engine b.codec d source slot operand) ⟨state, s.machine⟩
  rw [State.leave_self hstate] at hstore hinlined
  rw [hstore, hinlined]

/-- The interpreter's store by a thread that every hook turns away. -/
theorem run_interpretedStore_of_not_attaches (h : ¬s.registry.Attaches me) (d : Decorators) (source : ObjectRef)
    (slot : Slot) (operand : Operand) :
    (b.interpretedStore me d source slot operand).run s =
      if b.options.barrier.elide d operand then
        ((fun _ => ()) <$> onMachine (Barrier.plainStore b.codec slot operand.object)).run s
      else if d.contains .noKeepalive then
        (do
          let stored ← onMachine (Barrier.plainStore b.codec slot operand.object)
          let _ ← Act.check (stored.decompress b.codec)
          Act.fault (s.registry.refusal me)).run s
      else (.error (s.registry.refusal me), s) := by
  unfold interpretedStore
  dsimp only
  by_cases helide : b.options.barrier.elide d operand = true
  · simp only [helide, ↓reduceIte]
    rfl
  · cases hkeep : d.contains .noKeepalive with
    | false =>
      have hpre := run_withMutator_of_not_attaches h
        (Barrier.writePre b.options.barrier b.engine ⟨source, slot, operand.object⟩)
      simp only [helide, Bool.not_false, Bool.false_eq_true, ↓reduceIte]
      exact Act.run_bind_error hpre
    | true =>
      simp only [helide, Bool.not_true, Bool.false_eq_true, ↓reduceIte]
      rw [Act.run_bind, Act.run_bind]
      rcases hstored : (onMachine (Barrier.plainStore b.codec slot operand.object)).run s with ⟨_ | stored, left⟩
      · rfl
      · -- The write moves memory only, so the hook after it meets the registry that the store began with.
        have hregistry : left.registry = s.registry := by
          obtain ⟨machine, -, hleft⟩ := Act.run_within_eq_ok.1 hstored
          rw [hleft]
          rfl
        rw [← hregistry] at h ⊢
        dsimp only
        rw [Act.run_bind, Act.run_bind]
        rcases hobject : (Act.check (stored.decompress b.codec)).run left with ⟨_ | object, left'⟩
        · rfl
        · obtain rfl : left' = left := by
            rw [← Act.run_check_state (stored.decompress b.codec) left, hobject]
          exact run_withMutator_of_not_attaches h _

/-- A call that returns had a mutator at hand. -/
theorem exists_leave_of_returns {act : Act (Attached μ ε) α} {a : α}
    (hrun : (withMutator me act).run s = (.ok a, s')) :
    ∃ id state left, act.run ⟨state, s.machine⟩ = (.ok a, left) ∧ s' = s.leave id left := by
  by_cases h : s.registry.Attaches me
  · obtain ⟨mutator, hcurrent, hmem⟩ := h
    obtain ⟨state, hstate⟩ := Option.isSome_iff_exists.1 (Std.ExtTreeMap.mem_iff_isSome_getElem?.1 hmem)
    have hmirror := mirrors_withMutator hcurrent act ⟨state, s.machine⟩
    rw [State.leave_self hstate, hrun] at hmirror
    exact ⟨mutator.id, state, _, Prod.ext (congrArg Prod.fst hmirror).symm rfl, congrArg Prod.snd hmirror⟩
  · rw [run_withMutator_of_not_attaches h] at hrun
    cases hrun

/-- A store that returns was done with a mutator at hand, or needs no barrier. -/
theorem storeReference_returns {tier : Tier} {d : Decorators} {source : ObjectRef} {slot : Slot} {operand : Operand}
    (hrun : (b.storeReference me tier d source slot operand).run s = (.ok (), s')) :
    (∃ id state left, (Barrier.store b.options.barrier b.engine b.codec d source slot operand).run
        ⟨state, s.machine⟩ = (.ok (), left) ∧ s' = s.leave id left) ∨
      ∃ stored, (onMachine (Barrier.plainStore b.codec slot operand.object)).run s = (.ok stored, s') := by
  by_cases h : s.registry.Attaches me
  · rw [run_storeReference_of_attaches h] at hrun
    exact .inl (exists_leave_of_returns hrun)
  · unfold storeReference at hrun
    split at hrun
    · exact .inl (exists_leave_of_returns hrun)
    · rw [run_interpretedStore_of_not_attaches h] at hrun
      split at hrun
      · rw [map_eq_pure_bind] at hrun
        obtain ⟨stored, left, hstore, hdone⟩ := Act.run_bind_eq_ok.1 hrun
        cases hdone
        exact .inr ⟨stored, hstore⟩
      · split at hrun
        · obtain ⟨_, _, -, hchecked⟩ := Act.run_bind_eq_ok.1 hrun
          obtain ⟨_, _, -, hfault⟩ := Act.run_bind_eq_ok.1 hchecked
          cases hfault
        · cases hrun

/-- Every tier does the same store for a thread with a mutator: it reports the same writes to the collector, in the same
order and over the same machine, and ends in the same outcome with the same state. A thread without one is turned away
by compiled code; so it is by the interpreter, which has then written if the store keeps nothing alive, and which does
not ask at all if the store needs no barrier. -/
theorem tiers_store_alike (b : Binding μ ε) (me : ThreadId) (d : Decorators) (source : ObjectRef) (slot : Slot)
    (operand : Operand) (s : State μ ε) :
    (s.registry.Attaches me → ∀ tier tier',
      (b.storeReference me tier d source slot operand).run s =
        (b.storeReference me tier' d source slot operand).run s) ∧
    (¬s.registry.Attaches me → ∀ tier,
      (b.storeReference me tier d source slot operand).run s =
        if tier.inlinesFastPath then (.error (s.registry.refusal me), s)
        else if b.options.barrier.elide d operand then
          ((fun _ => ()) <$> onMachine (Barrier.plainStore b.codec slot operand.object)).run s
        else if d.contains .noKeepalive then
          (do
            let stored ← onMachine (Barrier.plainStore b.codec slot operand.object)
            let _ ← Act.check (stored.decompress b.codec)
            Act.fault (s.registry.refusal me)).run s
        else (.error (s.registry.refusal me), s)) := by
  refine ⟨fun h tier tier' => ?_, fun h tier => ?_⟩
  · rw [run_storeReference_of_attaches h, run_storeReference_of_attaches h]
  · unfold storeReference
    split
    · exact run_withMutator_of_not_attaches h _
    · exact run_interpretedStore_of_not_attaches h d source slot operand

/-- What a hook is shown: when it runs, the write, and what is in the slot at that moment. -/
structure HookCall where
  isAfter : Bool
  write : Write
  bits : UInt64
  deriving DecidableEq

/-- A collector that writes down what its hooks are shown. -/
def hookRecorder : Engine Unit (List HookCall) where
  bind _ := pure ()
  writePre w := record false w
  writePost w := record true w
  copyPre _ := pure ()
  copyPost _ := pure ()
  requestCollection _ := pure ()
  isLive _ _ := true
where
  record (isAfter : Bool) (w : Write) : Act (Attached Unit (List HookCall)) Unit :=
    Act.within Attached.machinePlace
      (modify fun m => { m with env := m.env ++ [⟨isAfter, w, w.slot.loadBits m.memory⟩] })

/-- Stores of a narrow reference under the object barrier: the interpreter shows the collector what compiled code shows
it, and a third thread, which is not registered, gets nowhere with compiled code. -/
theorem narrow_store_by_tier :
    let b := forTwo { barrier := .object } ⟨0x800, 3⟩ hookRecorder
    let s := registeredTwo ⟨.zero, []⟩
    let object : ObjectRef := ⟨0x1000, by decide, by decide⟩
    let store (me : ThreadId) (tier : Tier) (d : Decorators) :=
      (b.storeReference me tier d object (.narrow 0x1010) (.value (some object))).run s
    s.registry.Attaches ⟨"a"⟩ ∧ ¬s.registry.Attaches ⟨"c"⟩ ∧
      store ⟨"a"⟩ .interpreter .inHeap = store ⟨"a"⟩ .optimizing .inHeap ∧
      (store ⟨"a"⟩ .interpreter .inHeap).2.machine.env = [⟨true, ⟨object, .narrow 0x1010, some object⟩, 0x100⟩] ∧
      store ⟨"c"⟩ .baseline .inNative = (.error (.terminated (.violation (.unregisteredThread ⟨"c"⟩))), s) := by
  intro b s object store
  have hattached : s.registry.Attaches ⟨"a"⟩ := attaches_twoMutators _ (List.mem_cons_self ..)
  have hnot : ¬s.registry.Attaches ⟨"c"⟩ := by
    rintro ⟨mutator, hcurrent, -⟩
    have hnone : s.registry.current ⟨"c"⟩ = none := by decide +kernel
    rw [hnone] at hcurrent
    cases hcurrent
  have hsame := (tiers_store_alike b ⟨"a"⟩ .inHeap object (.narrow 0x1010) (.value (some object)) s).1 hattached
  have hrefused := (tiers_store_alike b ⟨"c"⟩ .inNative object (.narrow 0x1010) (.value (some object)) s).2 hnot
  exact ⟨hattached, hnot, hsame .interpreter .optimizing, by decide +kernel, hrefused .baseline⟩

/-- A thread that never registered stores off the heap: the interpreter does it, compiled code ends the process. -/
theorem unregistered_store_depends_on_tier :
    ¬∀ tier tier' : Tier,
      ((forTwo { barrier := .object } .identity hookRecorder).storeReference ⟨"c"⟩ tier ⟨0⟩
          ⟨0x1000, by decide, by decide⟩ ⟨0x1010⟩ .constNull).run (registeredTwo ⟨.zero, []⟩) =
        ((forTwo { barrier := .object } .identity hookRecorder).storeReference ⟨"c"⟩ tier' ⟨0⟩
          ⟨0x1000, by decide, by decide⟩ ⟨0x1010⟩ .constNull).run (registeredTwo ⟨.zero, []⟩) := by
  intro h
  have hstate := congrArg Prod.fst (h .interpreter .baseline)
  have hreturns := congrArg Except.toBool hstate
  exact absurd hreturns (by decide +kernel)

end Binding

end Safepoint
