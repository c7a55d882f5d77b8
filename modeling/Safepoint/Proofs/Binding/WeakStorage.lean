import Safepoint.Proofs.Binding.Reports
import Safepoint.Proofs.Binding.RootSplits
import Safepoint.Proofs.Weak.Repeats

/-!
# Weak storage brought up to date

The host's entries and the registered handles are one list of slots to be updated. They are scanned whether they are
stuck or not, and without the nursery of handles being taken.
-/
namespace Safepoint.Binding

variable {μ ε : Type} {b : Binding μ ε} {s : State μ ε} {m : Machine ε} {entries : List Slot} {mode : WeakProcessing}

/-- A scan of all entries hands over what the walk gives, and leaves the machine as the walk does. -/
theorem run_gather_scanWeak (room : b.options.rootBufferCapacity ≤ EdgeBuffer.maxCapacity)
    (hwalk : (b.host.weakProcessor .all).run s.machine = (.ok entries, m)) (hnodup : entries.Nodup) :
    ∃ log, (gather [] (b.scanWeak b.packetSink .all)).run s = (.ok log, { s with machine := m }) ∧
      FlushLog.slots log = entries := by
  have hscan : ∃ (s' : State μ ε) (log : FlushLog), (b.scanWeak b.packetSink .all).run (s, []) =
      (.ok entries.length, s', log) ∧ log.slots = entries ∧ s' = { s with machine := m } := by
    refine run_reporting (Sink.collecting_empties _) (room_of_capacity room) fun reporter hr => ?_
    have hwalk' : (Scan.walk (b.host.weakProcessor .all)).run (s, reporter) =
        (.ok entries, { s with machine := m }, reporter) := by
      simp [Scan.walk, onMachine, Scan.statePlace, State.machinePlace, hwalk]
    have hnew : ([] ++ entries).Nodup := by simpa using hnodup
    obtain ⟨reporter', hvisits, hr'⟩ : ∃ reporter', (Reporter.visitAll b.packetSink entries).run reporter =
        (.ok (), reporter') ∧ reporter'.Holds ([] ++ entries) :=
      Reporter.run_visitAll (Sink.collecting_empties _) hr hnew
    have hreport : (Scan.report b.packetSink entries).run ({ s with machine := m }, reporter) =
        (.ok (), { s with machine := m }, reporter') := by
      simp [Scan.report, Scan.reporterPlace, hvisits]
    exact ⟨_, reporter', (Act.run_bind_ok hwalk').trans (Act.run_bind_ok hreport), by simpa using hr', rfl⟩
  obtain ⟨_, log, hrun, hlog, rfl⟩ := hscan
  exact ⟨log, gather_eq_ok.2 ⟨_, hrun⟩, hlog⟩

/-- Where the host gives its entries, and these and the registered handles can be updated and do not overlap, an update
returns, and each of them meets its fate. Nothing else changes, in memory or in the binding. -/
theorem weak_storage_updated (room : b.options.rootBufferCapacity ≤ EdgeBuffer.maxCapacity)
    (hwalk : (b.host.weakProcessor .all).run s.machine = (.ok entries, m))
    (hapart : (entries ++ s.weakHandles.slots).Pairwise Slot.Apart)
    (hupdatable : (b.weakTest mode).Updatable (entries ++ s.weakHandles.slots) m) :
    ∃ stats memory, (b.updateWeak mode).run s = (.ok stats, { s with machine := { m with memory } }) ∧
      (b.weakTest mode).Updates (entries ++ s.weakHandles.slots) m stats memory := by
  have hnodup : entries.Nodup := (List.pairwise_append.1 hapart).1.imp Slot.Apart.ne
  obtain ⟨log, hgather, rfl⟩ := run_gather_scanWeak room hwalk hnodup
  obtain ⟨stats, memory, hrun, hupdates⟩ := hupdatable.updates hapart
  refine ⟨stats, memory, ?_, hupdates⟩
  have hmachine : (onMachine ((b.weakTest mode).updateAll {} (FlushLog.slots log ++ s.weakHandles.slots))).run
      { s with machine := m } = (.ok stats, { s with machine := { m with memory } }) :=
    Act.run_within_eq_ok.2 ⟨_, hrun, rfl⟩
  exact (Act.run_bind_ok hgather).trans hmachine

/-- A host with weak entries. -/
def weakEntries (entries : List Slot) : HostRoots := { twoThreads with weak := fun _ => entries }

/-- The collector counts references, and knows where its heap is. -/
def storageBinding : Binding Unit Unit :=
  { (weakEntries WeakTest.threeSlots).binding {} with
    engine :=
      { Engine.mover WeakTest.movedOnce fun object => object = WeakTest.staying with
        heapRange := some (0x10000000, 0x20000000) } }

/-- Two handles are registered. One is null, and the other holds what is not in the heap. -/
def storageState : State Unit Unit where
  machine := ⟨WeakTest.threeHeld.store 0x10000030 8 0x20000000, ()⟩
  weakHandles := (({} : WeakHandles).register ⟨0x10000028⟩).register ⟨0x10000030⟩

/-- All fates are met at once. -/
theorem every_fate_met :
    let b := storageBinding
    let s := storageState
    let slots := WeakTest.threeSlots ++ s.weakHandles.slots
    (b.host.weakProcessor .all).run s.machine = (.ok WeakTest.threeSlots, s.machine) ∧ slots.Pairwise Slot.Apart ∧
      (b.weakTest .referenceCounting).Updatable slots s.machine ∧
      ∃ memory, (b.updateWeak .referenceCounting).run s =
          (.ok ⟨5, 1, 1, 2⟩, { s with machine := { s.machine with memory } }) ∧
        slots.map (fun slot => slot.load b.codec memory) =
          [.ok (some WeakTest.arrived), .ok (some WeakTest.staying), .ok none, .ok none, .ok none] := by
  intro b s slots
  have hslots : slots = [.narrow 0x10000010, ⟨0x10000018⟩, ⟨0x10000020⟩, ⟨0x10000028⟩, ⟨0x10000030⟩] := by
    decide +kernel
  have hapart : slots.Pairwise Slot.Apart := by
    rw [hslots]
    decide
  have hheld : slots.map (fun slot => slot.load .identity s.machine.memory) =
      [some WeakTest.leaving, some WeakTest.staying, some ⟨0x10003000, by decide, by decide⟩, none,
        some ⟨0x20000000, by decide, by decide⟩].map .ok := by
    rw [hslots]
    decide +kernel
  have hupdatable : (b.weakTest .referenceCounting).Updatable slots s.machine := by
    refine ⟨fun _ _ => ⟨fun _ => rfl, fun _ => rfl, fun _ => rfl⟩, WeakTest.readable_of_map hheld,
      fun _ _ _ _ _ => ⟨_, rfl⟩, ?_⟩
    intro slot _ _ target htarget
    obtain ⟨object, -, hmoved⟩ := WeakTest.forwarded_of_fate htarget
    obtain rfl := WeakTest.movedOnce_eq_some (Except.ok.inj hmoved)
    exact WeakTest.carries_arrived
  obtain ⟨stats, memory, hrun, -⟩ := weak_storage_updated (b := b) (by decide) rfl hapart hupdatable
  have hstats : ((b.updateWeak .referenceCounting).run s).1 = .ok ⟨5, 1, 1, 2⟩ := by decide +kernel
  have hmemory : ((b.updateWeak .referenceCounting).run s).2.machine.memory = memory := by rw [hrun]
  rw [hrun] at hstats
  obtain rfl := Except.ok.inj hstats
  refine ⟨rfl, hapart, hupdatable, memory, hrun, ?_⟩
  rw [← hmemory, hslots]
  decide +kernel

/-- A codec may encode where an object was moved to and not carry it. And where a buffer cannot be allocated, nothing is
updated. -/
theorem lossy_codec_and_huge_buffer :
    let object : ObjectRef := ⟨0x10001000, by decide, by decide⟩
    let target : ObjectRef := ⟨0x10002008, by decide, by decide⟩
    let slot := Slot.narrow 0x10000010
    let lossy : Binding Unit Unit := { (weakEntries [slot]).binding { compressedPointers := true } with
      codec := ⟨0, 4⟩
      engine := .mover (fun moved => if moved.address = 0x10001000 then some target else none) fun _ => false }
    let s : State Unit Unit := { machine := ⟨Memory.zero.store 0x10000010 4 0x1000100, ()⟩ }
    let r := (lossy.updateWeak .tracing).run s
    let entry : Slot := ⟨0x10000010⟩
    let huge : Binding Unit Unit :=
      { (weakEntries [entry]).binding { rootBufferCapacity := EdgeBuffer.maxCapacity + 1 } with
        engine := .mover (fun _ => none) fun _ => false }
    let s' : State Unit Unit := { machine := ⟨Memory.zero.store 0x10000010 8 0x10001000, ()⟩ }
    lossy.engine.Unswayed [slot] s.machine ∧ huge.engine.Unswayed [entry] s'.machine ∧
      lossy.codec.encode (some target) = .ok 0x1000200 ∧ slot.load lossy.codec s.machine.memory = .ok (some object) ∧
      r.1 = .ok ⟨1, 0, 1, 0⟩ ∧ slot.load lossy.codec r.2.machine.memory ≠ .ok (some target) ∧
      entry.load huge.codec s'.machine.memory = .ok (some object) ∧
      (huge.updateWeak .tracing).faultOf s' = some (.panic .capacityOverflow) :=
  ⟨Engine.mover_unswayed _ _ _ _, Engine.mover_unswayed _ _ _ _, by decide +kernel⟩

end Safepoint.Binding
