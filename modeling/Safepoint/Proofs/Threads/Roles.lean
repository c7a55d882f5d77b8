import Mathlib.Data.List.Sort
import Safepoint.Proofs.Binding.State
import Safepoint.Proofs.Threads

/-!
# The registry is a map of roles

Which thread is what is one map: a thread is a mutator, a collector or neither. Beside it stands the list of everyone
who ever registered as a mutator. The registry spreads this over three tables and a counter of ids, and four calls
change them. Whatever is called, by whichever threads, it answers as the map does.
-/
namespace Safepoint

variable {μ : Type}

/-- What a thread may ask of the registry for itself. -/
inductive RoleCall (μ : Type) where
  | register (name : Option String) (state : MutatorId → μ)
  | deregister
  | registerCollector (kind : CollectorKind)
  | deregisterCollector

inductive RoleAnswer where
  | registered (mutator : Mutator)
  | refused (cause : Error)
  | left (id : MutatorId)
  | breach (cause : Violation)
  | done
  deriving DecidableEq

namespace RoleAnswer

def failed : RoleAnswer → Bool
  | refused _ | breach _ => true
  | _ => false

/-- The mutator that was made, if one was. -/
def mutator? : RoleAnswer → Option Mutator
  | registered mutator => some mutator
  | _ => none

end RoleAnswer

/-- Threads make their calls one after the other. -/
def RoleCall.run {σ : Type} (step : σ → ThreadId → RoleCall μ → RoleAnswer × σ) (s : σ) :
    List (ThreadId × RoleCall μ) → List RoleAnswer × σ
  | [] => ([], s)
  | (me, call) :: calls =>
    let first := step s me call
    let others := run step first.2 calls
    (first.1 :: others.1, others.2)

/-- The registry after a call of a thread. -/
def Registry.step (registry : Registry μ) (me : ThreadId) : RoleCall μ → RoleAnswer × Registry μ
  | .register name state =>
    match registry.register me name state with
    | .ok (mutator, registry) => (.registered mutator, registry)
    | .error cause => (.refused cause, registry)
  | .deregister =>
    match registry.deregister me with
    | .ok (id, _, registry) => (.left id, registry)
    | .error cause => (.breach cause, registry)
  | .registerCollector kind =>
    match registry.registerCollector me kind with
    | .ok registry => (.done, registry)
    | .error cause => (.breach cause, registry)
  | .deregisterCollector => (.done, registry.deregisterCollector me)

/-- What a thread is. -/
inductive Part where
  | mutator (mutator : Mutator)
  | collector (kind : CollectorKind)
  deriving DecidableEq

namespace Part

def role : Part → Role
  | .mutator context => .mutator context.id
  | .collector kind => .collector kind

def mutator? : Part → Option Mutator
  | .mutator context => some context
  | .collector _ => none

def collector? : Part → Option CollectorKind
  | .mutator _ => none
  | .collector kind => some kind

end Part

/-- What each thread is, and who registered as a mutator so far, with the collector's state for it, the first first. -/
structure Roles (μ : Type) where
  part : ThreadId → Option Part := fun _ => none
  arrivals : List (Mutator × μ) := []

namespace Roles

/-- The next to register. -/
def next (roles : Roles μ) (me : ThreadId) (name : Option String) : Mutator :=
  ⟨⟨UInt64.ofNat (roles.arrivals.length + 1)⟩, me, name⟩

def assign (roles : Roles μ) (me : ThreadId) (part : Option Part) : Roles μ :=
  { roles with part := Function.update roles.part me part }

/-- A thread without a part becomes a mutator. -/
def enter (roles : Roles μ) (me : ThreadId) (name : Option String) (state : MutatorId → μ) : Roles μ :=
  ⟨Function.update roles.part me (some (.mutator (roles.next me name))),
    roles.arrivals ++ [(roles.next me name, state (roles.next me name).id)]⟩

def step (roles : Roles μ) (me : ThreadId) : RoleCall μ → RoleAnswer × Roles μ
  | .register name state =>
    match roles.part me with
    | some _ => (.refused (.alreadyRegistered me), roles)
    | none => (.registered (roles.next me name), roles.enter me name state)
  | .deregister =>
    match roles.part me with
    | some (.mutator mutator) => (.left mutator.id, roles.assign me none)
    | _ => (.breach (.unregisteredThread me), roles)
  | .registerCollector kind =>
    match roles.part me with
    | some (.mutator _) => (.breach (.mutatorAsCollector me), roles)
    | _ => (.done, roles.assign me (some (.collector kind)))
  | .deregisterCollector =>
    match roles.part me with
    | some (.mutator _) => (.done, roles)
    | _ => (.done, roles.assign me none)

def asMutator (roles : Roles μ) (me : ThreadId) : Except Violation Mutator :=
  match roles.part me with
  | some (.mutator mutator) => .ok mutator
  | some (.collector _) => .error (.collectorAsMutator me)
  | none => .error (.unregisteredThread me)

def asCollector (roles : Roles μ) (me : ThreadId) : Except Violation CollectorKind :=
  match roles.part me with
  | some (.mutator _) => .error (.mutatorAsCollector me)
  | some (.collector kind) => .ok kind
  | none => .error (.unregisteredThread me)

/-- Whoever is a mutator now, in the order of registration. -/
def present (roles : Roles μ) : List (Mutator × μ) :=
  roles.arrivals.filter fun arrival => roles.part arrival.1.thread = some (.mutator arrival.1)

variable {roles : Roles μ} {me : ThreadId} {arrival : Mutator × μ}

theorem mem_present : arrival ∈ roles.present ↔
    arrival ∈ roles.arrivals ∧ roles.part arrival.1.thread = some (.mutator arrival.1) := by
  rw [present, List.mem_filter, decide_eq_true_iff]

/-- Who is present does not depend on collectors. -/
theorem present_assign {part : Option Part} (hold : (roles.part me).bind Part.mutator? = none)
    (hnew : part.bind Part.mutator? = none) : (roles.assign me part).present = roles.present := by
  refine List.filter_congr fun arrival _ => decide_eq_decide.2 ?_
  change Function.update roles.part me part _ = _ ↔ _
  by_cases hthread : arrival.1.thread = me
  · have hnot {part : Option Part} (hpart : part.bind Part.mutator? = none) : part ≠ some (.mutator arrival.1) := by
      rintro rfl
      cases hpart
    rw [hthread, Function.update_self]
    exact iff_of_false (hnot hnew) (hnot hold)
  · rw [Function.update_of_ne hthread]

/-- The ids were handed out one by one, and a mutator is one of those who registered, for its own thread. -/
structure Sound (roles : Roles μ) : Prop where
  counted : roles.arrivals.map (·.1.id) = (numbers roles.arrivals.length).reverse
  mine : ∀ thread mutator, roles.part thread = some (.mutator mutator) →
    mutator.thread = thread ∧ ∃ state, (mutator, state) ∈ roles.arrivals

namespace Sound

theorem fresh : ({} : Roles μ).Sound := ⟨rfl, by simp⟩

theorem assign (h : roles.Sound) {part : Option Part} (hnew : part.bind Part.mutator? = none) :
    (roles.assign me part).Sound where
  counted := h.counted
  mine := fun thread mutator hthread => by
    obtain ⟨-, heq⟩ | ⟨-, hold⟩ := update_eq_some.1 hthread
    · rw [heq] at hnew
      cases hnew
    · exact h.mine thread mutator hold

theorem enter (h : roles.Sound) (name : Option String) (state : MutatorId → μ) :
    (roles.enter me name state).Sound where
  counted := by
    rw [Roles.enter, List.map_append, h.counted, List.length_append, List.length_singleton, numbers_succ,
      List.reverse_cons]
    rfl
  mine := fun thread mutator hthread => by
    obtain ⟨rfl, heq⟩ | ⟨-, hold⟩ := update_eq_some.1 hthread
    · cases heq
      exact ⟨rfl, _, List.mem_append_right _ (List.mem_singleton_self _)⟩
    · obtain ⟨hown, found, hmem⟩ := h.mine thread mutator hold
      exact ⟨hown, found, List.mem_append_left _ hmem⟩

/-- As long as they are not too many, the ids are the numbers from one on. -/
theorem ids (h : roles.Sound) (short : roles.arrivals.length < wordLimit) :
    roles.arrivals.map (·.1.id.value.toNat) = List.range' 1 roles.arrivals.length := by
  have hids : roles.arrivals.map (·.1.id.value.toNat) =
      (List.range roles.arrivals.length).map fun k => (UInt64.ofNat (k + 1)).toNat := by
    have hcounted := congrArg (List.map fun id : MutatorId => id.value.toNat) h.counted
    rw [numbers, List.map_reverse, List.map_reverse, List.map_reverse, List.reverse_reverse, List.map_map,
      List.map_map] at hcounted
    exact hcounted
  rw [hids, List.range'_eq_map_range]
  refine List.map_congr_left fun k hk => ?_
  have hword : k + 1 < 2 ^ 64 := Nat.lt_of_le_of_lt (List.mem_range.1 hk) short
  rw [UInt64.toNat_ofNat', Nat.mod_eq_of_lt hword, Nat.add_comm]

theorem ascending (h : roles.Sound) (short : roles.arrivals.length < wordLimit) :
    roles.arrivals.Pairwise fun earlier later => earlier.1.id.value < later.1.id.value := by
  have hids := List.pairwise_lt_range' (s := 1) (n := roles.arrivals.length)
  rw [← h.ids short, List.pairwise_map] at hids
  exact hids.imp UInt64.lt_iff_toNat_lt.2

/-- Nobody else has the id of one who registered. -/
theorem eq_of_id (h : roles.Sound) (short : roles.arrivals.length < wordLimit) {other : Mutator × μ}
    (hmem : arrival ∈ roles.arrivals) (hother : other ∈ roles.arrivals) (hid : arrival.1.id = other.1.id) :
    arrival = other := by
  have hnodup : (roles.arrivals.map (·.1.id)).Nodup := by
    rw [h.counted, List.nodup_reverse]
    exact nodup_numbers short.le
  exact List.inj_on_of_nodup_map hnodup hmem hother hid

theorem mem_present_leave (h : roles.Sound) (short : roles.arrivals.length < wordLimit) {mutator : Mutator}
    (hme : roles.part me = some (.mutator mutator)) :
    arrival ∈ (roles.assign me none).present ↔ arrival ∈ roles.present ∧ arrival.1.id ≠ mutator.id := by
  obtain ⟨hown, state, hmutator⟩ := h.mine me mutator hme
  rw [mem_present, mem_present, and_assoc]
  refine and_congr_right fun hmem => ?_
  simp only [Roles.assign, update_eq_some, reduceCtorEq, and_false, false_or]
  constructor
  · rintro ⟨hne, hpart⟩
    refine ⟨hpart, fun hid => hne ?_⟩
    rw [h.eq_of_id short hmem hmutator hid]
    exact hown
  · rintro ⟨hpart, hid⟩
    refine ⟨fun hthread => hid ?_, hpart⟩
    rw [hthread, hme] at hpart
    cases hpart
    rfl

theorem mem_present_enter (h : roles.Sound) (short : roles.arrivals.length + 1 < wordLimit)
    (hme : roles.part me = none) (name : Option String) (state : MutatorId → μ) :
    (∀ arrival, arrival ∈ (roles.enter me name state).present ↔
      arrival ∈ roles.present ∨ arrival = (roles.next me name, state (roles.next me name).id)) ∧
    ∀ arrival ∈ roles.present, arrival.1.id ≠ (roles.next me name).id := by
  have hshort : (roles.enter me name state).arrivals.length < wordLimit := by
    rw [Roles.enter, List.length_append]
    exact short
  have hnew : (roles.next me name, state (roles.next me name).id) ∈ (roles.enter me name state).arrivals :=
    List.mem_append_right _ (List.mem_singleton_self _)
  have hfresh {arrival : Mutator × μ} (hmem : arrival ∈ roles.arrivals) :
      arrival.1.id ≠ (roles.next me name).id := by
    have hentered : (roles.enter me name state).Sound := h.enter name state
    have hascending := hentered.ascending hshort
    have hlt := (List.pairwise_append.1 hascending).2.2 arrival hmem _ (List.mem_singleton_self _)
    exact fun hid => UInt64.ne_of_lt hlt (congrArg MutatorId.value hid)
  refine ⟨fun arrival => ?_, fun arrival hmem => hfresh (mem_present.1 hmem).1⟩
  rw [mem_present, mem_present]
  simp only [Roles.enter, List.mem_append, List.mem_singleton, update_eq_some]
  constructor
  · rintro ⟨hmem | rfl, hpart⟩
    · obtain ⟨-, heq⟩ | ⟨-, hpart⟩ := hpart
      · have hmutator : roles.next me name = arrival.1 := Part.mutator.inj (Option.some.inj heq)
        exact absurd (congrArg Mutator.id hmutator.symm) (hfresh hmem)
      · exact .inl ⟨hmem, hpart⟩
    · exact .inr rfl
  · rintro (⟨hmem, hpart⟩ | rfl)
    · refine ⟨.inl hmem, .inr ⟨fun hthread => ?_, hpart⟩⟩
      rw [hthread, hme] at hpart
      cases hpart
    · exact ⟨.inr rfl, .inl ⟨rfl, rfl⟩⟩

end Sound

end Roles

theorem MutatorId.compare_eq_lt {id other : MutatorId} : compare id other = .lt ↔ id.value < other.value :=
  compareOfLessAndEq_eq_lt

/-- A table has one entry for each of those present, under its id. -/
def Tabled {β : Type} (table : Std.ExtTreeMap MutatorId β) (present : List (Mutator × μ))
    (entry : Mutator × μ → β) : Prop :=
  ∀ id b, table[id]? = some b ↔ ∃ arrival ∈ present, arrival.1.id = id ∧ entry arrival = b

namespace Tabled

variable {β : Type} {table : Std.ExtTreeMap MutatorId β} {present present' : List (Mutator × μ)}
  {entry : Mutator × μ → β}

theorem insert (h : Tabled table present entry) {new : Mutator × μ}
    (hmem : ∀ arrival, arrival ∈ present' ↔ arrival ∈ present ∨ arrival = new)
    (hnew : ∀ arrival ∈ present, arrival.1.id ≠ new.1.id) :
    Tabled (table.insert new.1.id (entry new)) present' entry := by
  intro id b
  rw [Std.ExtTreeMap.getElem?_insert]
  simp only [Std.LawfulEqCmp.compare_eq_iff_eq, hmem, or_and_right, exists_or, exists_eq_left]
  split
  · rename_i hid
    subst hid
    constructor
    · intro heq
      exact .inr ⟨rfl, Option.some.inj heq⟩
    · rintro (⟨arrival, hpresent, hid, -⟩ | ⟨-, rfl⟩)
      · exact absurd hid (hnew arrival hpresent)
      · rfl
  · rename_i hid
    rw [h id b]
    simp [hid]

theorem erase (h : Tabled table present entry) {id : MutatorId}
    (hmem : ∀ arrival, arrival ∈ present' ↔ arrival ∈ present ∧ arrival.1.id ≠ id) :
    Tabled (table.erase id) present' entry := by
  intro other b
  rw [Std.ExtTreeMap.getElem?_erase]
  simp only [Std.LawfulEqCmp.compare_eq_iff_eq, hmem]
  split
  · rename_i hid
    subst hid
    simp only [reduceCtorEq, false_iff]
    rintro ⟨arrival, ⟨-, hne⟩, hid, -⟩
    exact hne hid
  · rename_i hid
    rw [h other b]
    refine exists_congr fun arrival => ?_
    constructor
    · rintro ⟨hpresent, rfl, hentry⟩
      exact ⟨⟨hpresent, Ne.symm hid⟩, rfl, hentry⟩
    · rintro ⟨⟨hpresent, -⟩, hother, hentry⟩
      exact ⟨hpresent, hother, hentry⟩

/-- The table lists its entries in the order of ids. -/
theorem toList (h : Tabled table present entry)
    (hascending : present.Pairwise fun earlier later => earlier.1.id.value < later.1.id.value) :
    table.toList = present.map fun arrival => (arrival.1.id, entry arrival) := by
  have hleft : table.toList.Pairwise fun earlier later => earlier.1.value < later.1.value :=
    Std.ExtTreeMap.ordered_keys_toList.imp MutatorId.compare_eq_lt.1
  have hright : (present.map fun arrival => (arrival.1.id, entry arrival)).Pairwise
      fun earlier later => earlier.1.value < later.1.value := List.pairwise_map.2 hascending
  have : Std.Irrefl fun earlier later : MutatorId × β => earlier.1.value < later.1.value :=
    ⟨fun earlier => UInt64.lt_irrefl earlier.1.value⟩
  have : Std.Antisymm fun earlier later : MutatorId × β => earlier.1.value < later.1.value :=
    ⟨fun _ _ hlt hlt' => absurd hlt' (UInt64.lt_asymm hlt)⟩
  refine hleft.eq_of_mem_iff hright fun ⟨id, b⟩ => ?_
  rw [Std.ExtTreeMap.mem_toList_iff_getElem?_eq_some, h id b, List.mem_map]
  simp only [Prod.mk.injEq]

end Tabled

/-- The tables of a registry say what the map of roles says. Those that go by ids do so until ids are used again. -/
structure Follows (registry : Registry μ) (roles : Roles μ) : Prop where
  sound : roles.Sound
  byThread : ∀ thread : ThreadId, registry.byThread[thread]? = (roles.part thread).bind Part.mutator?
  collectors : ∀ thread : ThreadId, registry.collectors[thread]? = (roles.part thread).bind Part.collector?
  nextId : registry.nextId = UInt64.ofNat (roles.arrivals.length + 1)
  byId : roles.arrivals.length < wordLimit → Tabled registry.byId roles.present Prod.fst
  states : roles.arrivals.length < wordLimit → Tabled registry.states roles.present Prod.snd

namespace Follows

variable {registry : Registry μ} {roles : Roles μ} {me : ThreadId}

theorem fresh : Follows ({} : Registry μ) {} where
  sound := .fresh
  byThread := by simp
  collectors := by simp
  nextId := rfl
  byId := fun _ => by simp [Tabled, Roles.present]
  states := fun _ => by simp [Tabled, Roles.present]

/-- What a table has for each thread after that of one thread has changed. -/
theorem bind_update {α : Type} (side : Part → Option α) (old : ThreadId → Option Part) (new : Option Part)
    (thread : ThreadId) : (Function.update old me new thread).bind side =
      if compare me thread = .eq then new.bind side else (old thread).bind side := by
  rw [Function.update_apply]
  simp only [Std.LawfulEqCmp.compare_eq_iff_eq, eq_comm (a := me)]
  split <;> rfl

theorem mem_byThread (h : Follows registry roles) :
    me ∈ registry.byThread ↔ ((roles.part me).bind Part.mutator?).isSome := by
  rw [Std.ExtTreeMap.mem_iff_isSome_getElem?, h.byThread]

theorem mem_collectors (h : Follows registry roles) :
    me ∈ registry.collectors ↔ ((roles.part me).bind Part.collector?).isSome := by
  rw [Std.ExtTreeMap.mem_iff_isSome_getElem?, h.collectors]

theorem register (h : Follows registry roles) (name : Option String) (state : MutatorId → μ) :
    (registry.step me (.register name state)).1 = (roles.step me (.register name state)).1 ∧
    Follows (registry.step me (.register name state)).2 (roles.step me (.register name state)).2 := by
  cases hme : roles.part me with
  | some part =>
    have hrefused : registry.register me name state = .error (.alreadyRegistered me) := by
      have hknown : me ∈ registry.byThread ∨ me ∈ registry.collectors := by
        rw [h.mem_byThread, h.mem_collectors, hme]
        cases part <;> simp [Part.mutator?, Part.collector?]
      rw [Registry.register_eq, Registry.reserve, if_pos hknown]
    simp only [Registry.step, Roles.step, hrefused, hme]
    exact ⟨trivial, h⟩
  | none =>
    have hentered : registry.register me name state = .ok (roles.next me name,
        (Registry.addId { registry with nextId := registry.nextId + 1 } (roles.next me name)
          (state (roles.next me name).id)).addThread (roles.next me name)) := by
      have hunknown : ¬ (me ∈ registry.byThread ∨ me ∈ registry.collectors) := by
        rw [h.mem_byThread, h.mem_collectors, hme]
        simp
      rw [Registry.register_eq, Registry.reserve, if_neg hunknown, Roles.next, ← h.nextId]
    simp only [Registry.step, Roles.step, hentered, hme]
    refine ⟨trivial, ?_⟩
    have hshort (hlimit : (roles.enter me name state).arrivals.length < wordLimit) :
        roles.arrivals.length + 1 < wordLimit := by
      rwa [Roles.enter, List.length_append] at hlimit
    constructor
    case sound => exact h.sound.enter name state
    case byThread =>
      intro thread
      rw [Roles.enter, bind_update, ← h.byThread thread]
      exact Std.ExtTreeMap.getElem?_insert
    case collectors =>
      intro thread
      rw [Roles.enter, bind_update]
      split
      · rename_i hthread
        cases Std.LawfulEqCmp.eq_of_compare hthread
        exact (h.collectors me).trans (by rw [hme]; rfl)
      · exact h.collectors thread
    case nextId =>
      rw [Roles.enter, List.length_append, List.length_singleton, UInt64.ofNat_add, ← h.nextId]
      rfl
    case byId =>
      intro hlimit
      obtain ⟨hmem, hnew⟩ := h.sound.mem_present_enter (hshort hlimit) hme name state
      exact (h.byId (by omega)).insert hmem hnew
    case states =>
      intro hlimit
      obtain ⟨hmem, hnew⟩ := h.sound.mem_present_enter (hshort hlimit) hme name state
      exact (h.states (by omega)).insert hmem hnew

/-- A thread that is no mutator becomes a collector, or ceases to be one. -/
theorem assign (h : Follows registry roles) {collectors : Std.ExtTreeMap ThreadId CollectorKind} {part : Option Part}
    (hold : (roles.part me).bind Part.mutator? = none) (hnew : part.bind Part.mutator? = none)
    (hcollectors : ∀ thread : ThreadId, collectors[thread]? =
      if compare me thread = .eq then part.bind Part.collector? else registry.collectors[thread]?) :
    Follows { registry with collectors } (roles.assign me part) := by
  have hpresent := Roles.present_assign hold hnew
  constructor
  case sound => exact h.sound.assign hnew
  case byThread =>
    intro thread
    rw [Roles.assign, bind_update]
    split
    · rename_i hthread
      cases Std.LawfulEqCmp.eq_of_compare hthread
      rw [hnew, ← hold]
      exact h.byThread me
    · exact h.byThread thread
  case collectors =>
    intro thread
    rw [Roles.assign, bind_update, ← h.collectors thread]
    exact hcollectors thread
  case nextId => exact h.nextId
  case byId => rw [hpresent]; exact h.byId
  case states => rw [hpresent]; exact h.states

theorem deregister (h : Follows registry roles) :
    (registry.step me .deregister).1 = (roles.step me .deregister).1 ∧
    Follows (registry.step me .deregister).2 (roles.step me .deregister).2 := by
  have hcurrent : registry.current me = (roles.part me).bind Part.mutator? := h.byThread me
  have hbreach (hnone : (roles.part me).bind Part.mutator? = none) :
      registry.deregister me = .error (.unregisteredThread me) := by
    rw [Registry.deregister_eq, hcurrent, hnone]
  cases hme : roles.part me with
  | none =>
    simp only [Registry.step, Roles.step, hbreach (by rw [hme]; rfl), hme]
    exact ⟨trivial, h⟩
  | some part =>
    cases part with
    | collector kind =>
      simp only [Registry.step, Roles.step, hbreach (by rw [hme]; rfl), hme]
      exact ⟨trivial, h⟩
    | mutator mutator =>
      rw [hme] at hcurrent
      simp only [Registry.step, Roles.step, Registry.deregister, hcurrent, hme, Option.bind_some, Part.mutator?]
      refine ⟨trivial, ?_⟩
      constructor
      case sound => exact h.sound.assign rfl
      case byThread =>
        intro thread
        rw [Roles.assign, bind_update, ← h.byThread thread]
        exact Std.ExtTreeMap.getElem?_erase
      case collectors =>
        intro thread
        rw [Roles.assign, bind_update]
        split
        · rename_i hthread
          cases Std.LawfulEqCmp.eq_of_compare hthread
          exact (h.collectors me).trans (by rw [hme]; rfl)
        · exact h.collectors thread
      case nextId => exact h.nextId
      case byId => exact fun hlimit => (h.byId hlimit).erase fun _ => h.sound.mem_present_leave hlimit hme
      case states => exact fun hlimit => (h.states hlimit).erase fun _ => h.sound.mem_present_leave hlimit hme

theorem registerCollector (h : Follows registry roles) (kind : CollectorKind) :
    (registry.step me (.registerCollector kind)).1 = (roles.step me (.registerCollector kind)).1 ∧
    Follows (registry.step me (.registerCollector kind)).2 (roles.step me (.registerCollector kind)).2 := by
  have hgranted (hnone : (roles.part me).bind Part.mutator? = none) :
      (registry.step me (.registerCollector kind)).1 = .done ∧
      Follows (registry.step me (.registerCollector kind)).2 (roles.assign me (some (.collector kind))) := by
    have hunknown : me ∉ registry.byThread := by
      rw [h.mem_byThread, hnone]
      exact Bool.false_ne_true
    simp only [Registry.step, Registry.registerCollector, if_neg hunknown]
    exact ⟨trivial, h.assign hnone rfl fun thread => Std.ExtTreeMap.getElem?_insert⟩
  cases hme : roles.part me with
  | none =>
    simp only [Roles.step, hme]
    exact hgranted (by rw [hme]; rfl)
  | some part =>
    cases part with
    | collector old =>
      simp only [Roles.step, hme]
      exact hgranted (by rw [hme]; rfl)
    | mutator mutator =>
      have hknown : me ∈ registry.byThread := by
        rw [h.mem_byThread, hme]
        rfl
      simp only [Registry.step, Roles.step, Registry.registerCollector, if_pos hknown, hme]
      exact ⟨trivial, h⟩

theorem deregisterCollector (h : Follows registry roles) :
    (registry.step me .deregisterCollector).1 = (roles.step me .deregisterCollector).1 ∧
    Follows (registry.step me .deregisterCollector).2 (roles.step me .deregisterCollector).2 := by
  have hleft (hnone : (roles.part me).bind Part.mutator? = none) :
      Follows (registry.deregisterCollector me) (roles.assign me none) :=
    h.assign hnone rfl fun thread => Std.ExtTreeMap.getElem?_erase
  cases hme : roles.part me with
  | none =>
    simp only [Registry.step, Roles.step, hme]
    exact ⟨trivial, hleft (by rw [hme]; rfl)⟩
  | some part =>
    cases part with
    | collector kind =>
      simp only [Registry.step, Roles.step, hme]
      exact ⟨trivial, hleft (by rw [hme]; rfl)⟩
    | mutator mutator =>
      -- a mutator is in no table of collectors, so nothing is removed
      have hsame : registry.collectors.erase me = registry.collectors := by
        refine Std.ExtTreeMap.ext_getElem? fun thread => ?_
        rw [Std.ExtTreeMap.getElem?_erase]
        split
        · rename_i hthread
          cases Std.LawfulEqCmp.eq_of_compare hthread
          rw [h.collectors, hme]
          rfl
        · rfl
      simp only [Registry.step, Roles.step, Registry.deregisterCollector, hsame, hme]
      exact ⟨trivial, h⟩

/-- Whatever a thread calls, the registry answers as the map of roles does, and goes on saying the same. -/
theorem step (h : Follows registry roles) (me : ThreadId) (call : RoleCall μ) :
    (registry.step me call).1 = (roles.step me call).1 ∧
    Follows (registry.step me call).2 (roles.step me call).2 := by
  cases call with
  | register name state => exact h.register name state
  | deregister => exact h.deregister
  | registerCollector kind => exact h.registerCollector kind
  | deregisterCollector => exact h.deregisterCollector

theorem run (h : Follows registry roles) (calls : List (ThreadId × RoleCall μ)) :
    (RoleCall.run Registry.step registry calls).1 = (RoleCall.run Roles.step roles calls).1 ∧
    Follows (RoleCall.run Registry.step registry calls).2 (RoleCall.run Roles.step roles calls).2 := by
  induction calls generalizing registry roles with
  | nil => exact ⟨rfl, h⟩
  | cons first calls ih =>
    obtain ⟨hanswer, hstep⟩ := h.step first.1 first.2
    obtain ⟨hanswers, hrun⟩ := ih hstep
    exact ⟨congrArg₂ List.cons hanswer hanswers, hrun⟩

theorem roleOf (h : Follows registry roles) (thread : ThreadId) :
    registry.roleOf thread = (roles.part thread).map Part.role := by
  rw [Registry.roleOf, h.byThread, h.collectors]
  rcases roles.part thread with _ | ⟨_ | _⟩ <;> rfl

theorem requireMutator (h : Follows registry roles) (me : ThreadId) :
    registry.requireMutator me = roles.asMutator me := by
  rw [Registry.requireMutator, Registry.current, h.byThread, Roles.asMutator]
  simp only [h.mem_collectors]
  rcases roles.part me with _ | ⟨_ | _⟩ <;> rfl

theorem requireCollector (h : Follows registry roles) (me : ThreadId) :
    registry.requireCollector me = roles.asCollector me := by
  rw [Registry.requireCollector, h.collectors, Roles.asCollector]
  simp only [h.mem_byThread]
  rcases roles.part me with _ | ⟨_ | _⟩ <;> rfl

theorem exclusive (h : Follows registry roles) (hmutator : me ∈ registry.byThread) : me ∉ registry.collectors := by
  rw [h.mem_byThread] at hmutator
  rw [h.mem_collectors]
  rcases hpart : roles.part me with _ | ⟨_ | _⟩ <;> simp_all [Part.mutator?, Part.collector?]

/-- Each mutator stands under its own thread. -/
theorem threads (h : Follows registry roles) :
    registry.byThread.values.map Mutator.thread = registry.byThread.keys := by
  rw [values_eq, List.map_map, ← Std.ExtTreeMap.map_fst_toList_eq_keys]
  refine List.map_congr_left fun e he => ?_
  have hentry := Std.ExtTreeMap.mem_toList_iff_getElem?_eq_some.1 he
  rw [h.byThread] at hentry
  obtain ⟨part, hpart, hmutator⟩ := Option.bind_eq_some_iff.1 hentry
  cases part with
  | collector kind => cases hmutator
  | mutator mutator =>
    cases hmutator
    exact (h.sound.mine e.1 e.2 hpart).1

theorem ascending (h : Follows registry roles) (short : roles.arrivals.length < wordLimit) :
    roles.present.Pairwise fun earlier later => earlier.1.id.value < later.1.id.value :=
  (h.sound.ascending short).filter _

/-- Whoever is present is found by its id, in the order of registration. -/
theorem mutators (h : Follows registry roles) (short : roles.arrivals.length < wordLimit) :
    registry.mutators = roles.present.map Prod.fst := by
  rw [Registry.mutators, values_eq, (h.byId short).toList (h.ascending short), List.map_map]
  rfl

/-- The same mutators are found by their threads and by their ids. -/
theorem perm (h : Follows registry roles) (short : roles.arrivals.length < wordLimit) :
    registry.byThread.values.Perm registry.byId.values := by
  have hthreads : registry.byThread.values.Nodup := by
    refine List.Nodup.of_map Mutator.thread ?_
    rw [h.threads]
    exact Std.ExtTreeMap.nodup_keys
  have hids : registry.byId.values.Nodup := by
    refine List.Nodup.of_map (·.id.value) ?_
    have hascending := h.ascending short
    change (registry.mutators.map (·.id.value)).Nodup
    rw [h.mutators short, List.map_map]
    exact (List.pairwise_map.2 hascending).imp UInt64.ne_of_lt
  refine (List.perm_ext_iff_of_nodup hthreads hids).2 fun mutator => ?_
  change _ ↔ mutator ∈ registry.mutators
  rw [h.mutators short, values_eq, List.mem_map, List.mem_map]
  constructor
  · rintro ⟨e, he, rfl⟩
    have hentry := Std.ExtTreeMap.mem_toList_iff_getElem?_eq_some.1 he
    rw [h.byThread] at hentry
    obtain ⟨part, hpart, hmutator⟩ := Option.bind_eq_some_iff.1 hentry
    cases part with
    | collector kind => cases hmutator
    | mutator mutator =>
      cases hmutator
      obtain ⟨hown, state, hmem⟩ := h.sound.mine _ _ hpart
      exact ⟨(e.2, state), Roles.mem_present.2 ⟨hmem, by rw [hown]; exact hpart⟩, rfl⟩
  · rintro ⟨arrival, hpresent, rfl⟩
    refine ⟨(arrival.1.thread, arrival.1), Std.ExtTreeMap.mem_toList_iff_getElem?_eq_some.2 ?_, rfl⟩
    rw [h.byThread, (Roles.mem_present.1 hpresent).2]
    rfl

end Follows

theorem RoleCall.run_append {σ : Type} (step : σ → ThreadId → RoleCall μ → RoleAnswer × σ) (s : σ)
    (before after : List (ThreadId × RoleCall μ)) :
    RoleCall.run step s (before ++ after) =
      ((RoleCall.run step s before).1 ++ (RoleCall.run step (RoleCall.run step s before).2 after).1,
        (RoleCall.run step (RoleCall.run step s before).2 after).2) := by
  induction before generalizing s with
  | nil => rfl
  | cons first before ih =>
    simp only [List.cons_append, RoleCall.run]
    rw [ih]

/-- A call that fails leaves the registry as it was. -/
theorem Registry.step_of_failed {registry : Registry μ} {me : ThreadId} {call : RoleCall μ}
    (h : (registry.step me call).1.failed) : (registry.step me call).2 = registry := by
  cases call with
  | deregisterCollector => cases h
  | register name state =>
    simp only [Registry.step] at h ⊢
    split at h
    · cases h
    · rfl
  | deregister =>
    simp only [Registry.step] at h ⊢
    split at h
    · cases h
    · rfl
  | registerCollector kind =>
    simp only [Registry.step] at h ⊢
    split at h
    · cases h
    · rfl

/-- Without a call that fails, the others are answered alike, and the registry is the same in the end. -/
theorem Registry.run_without_failed (registry : Registry μ) (before after : List (ThreadId × RoleCall μ))
    {me : ThreadId} {call : RoleCall μ}
    (h : ((RoleCall.run Registry.step registry before).2.step me call).1.failed) :
    ∃ early failure late left, early.length = before.length ∧ failure.failed ∧
      RoleCall.run Registry.step registry (before ++ (me, call) :: after) = (early ++ failure :: late, left) ∧
      RoleCall.run Registry.step registry (before ++ after) = (early ++ late, left) := by
  refine ⟨_, _, _, _, ?_, h, ?_, RoleCall.run_append _ _ _ _⟩
  · induction before generalizing registry with
    | nil => rfl
    | cons first before ih => exact congrArg Nat.succ (ih _ h)
  · rw [RoleCall.run_append, RoleCall.run, Registry.step_of_failed h]

/-- Those who registered are the mutators that were made, in this order. -/
theorem Roles.arrivals_run (roles : Roles μ) (calls : List (ThreadId × RoleCall μ)) :
    (RoleCall.run Roles.step roles calls).2.arrivals.map Prod.fst =
      roles.arrivals.map Prod.fst ++ (RoleCall.run Roles.step roles calls).1.filterMap RoleAnswer.mutator? := by
  induction calls generalizing roles with
  | nil => exact (List.append_nil _).symm
  | cons first calls ih =>
    rw [RoleCall.run, ih]
    have hstep : (roles.step first.1 first.2).2.arrivals.map Prod.fst =
        roles.arrivals.map Prod.fst ++ (roles.step first.1 first.2).1.mutator?.toList := by
      rcases first with ⟨me, _ | _ | _ | _⟩ <;> rcases hpart : roles.part me with _ | ⟨_ | _⟩ <;>
        simp [Roles.step, hpart, Roles.enter, Roles.assign, RoleAnswer.mutator?]
    rw [hstep, List.append_assoc, List.filterMap_cons]
    cases (roles.step first.1 first.2).1.mutator? <;> rfl

/-- Whatever threads call, and in whatever order: the registry answers as one map of roles does, which gives a thread
one role at most. It says of each thread what the map says, and refuses a thread that is something else or nothing for
what it is. A call that fails might as well not have been made. The ids are handed out in the order of registration, the
next one each time; as long as there are next ones, they ascend and none is handed out twice, the tables by thread
and by id have the same mutators, each under its own thread and its own id, each of these has the state it registered
with, and their ids are listed in the order of registration. -/
theorem registry_follows_roles (calls : List (ThreadId × RoleCall μ)) :
    let registry := (RoleCall.run Registry.step {} calls).2
    let roles := (RoleCall.run Roles.step {} calls).2
    (RoleCall.run Registry.step {} calls).1 = (RoleCall.run Roles.step {} calls).1 ∧
    (∀ thread, registry.roleOf thread = (roles.part thread).map Part.role ∧
      registry.requireMutator thread = roles.asMutator thread ∧
      registry.requireCollector thread = roles.asCollector thread ∧
      (thread ∈ registry.byThread → thread ∉ registry.collectors)) ∧
    (∀ before me call after, calls = before ++ (me, call) :: after →
      ((RoleCall.run Registry.step {} before).2.step me call).1.failed →
      ∃ early failure late, early.length = before.length ∧ failure.failed ∧
        RoleCall.run Registry.step {} calls = (early ++ failure :: late, registry) ∧
        RoleCall.run Registry.step {} (before ++ after) = (early ++ late, registry)) ∧
    roles.arrivals.map Prod.fst = (RoleCall.run Registry.step {} calls).1.filterMap RoleAnswer.mutator? ∧
    (roles.arrivals.length < wordLimit →
      roles.arrivals.map (·.1.id.value.toNat) = List.range' 1 roles.arrivals.length ∧
      registry.byThread.values.Perm registry.byId.values ∧
      registry.byThread.values.map Mutator.thread = registry.byThread.keys ∧
      registry.byId.values.map Mutator.id = registry.byId.keys ∧
      registry.states.toList = roles.present.map (fun arrival => (arrival.1.id, arrival.2)) ∧
      registry.mutatorIds = roles.present.map (·.1.id) ∧
      registry.mutatorIds.Pairwise fun earlier later => earlier.value < later.value) := by
  intro registry roles
  obtain ⟨hanswers, hfollows⟩ := Follows.fresh.run calls
  refine ⟨hanswers, fun thread => ⟨hfollows.roleOf thread, hfollows.requireMutator thread,
    hfollows.requireCollector thread, hfollows.exclusive⟩, ?_, ?_, fun short => ?_⟩
  · intro before me call after hcalls hfailed
    obtain ⟨early, failure, late, left, hlength, hfailure, hwith, hwithout⟩ :=
      Registry.run_without_failed {} before after hfailed
    rw [← hcalls] at hwith
    have hleft : left = registry := (congrArg Prod.snd hwith).symm
    rw [hleft] at hwith hwithout
    exact ⟨early, failure, late, hlength, hfailure, hwith, hwithout⟩
  · rw [hanswers]
    exact (Roles.arrivals_run {} calls)
  · have hmutators := hfollows.mutators short
    have hids : registry.mutatorIds = roles.present.map (·.1.id) := by
      rw [Registry.mutatorIds, hmutators, List.map_map]
      rfl
    refine ⟨hfollows.sound.ids short, hfollows.perm short, hfollows.threads, ?_,
      (hfollows.states short).toList (hfollows.ascending short), hids, ?_⟩
    · have htable := (hfollows.byId short).toList (hfollows.ascending short)
      change registry.mutatorIds = _
      rw [hids, ← Std.ExtTreeMap.map_fst_toList_eq_keys, htable, List.map_map]
      rfl
    · rw [hids]
      exact List.pairwise_map.2 (hfollows.ascending short)

/-- A thread that is a collector, a mutator and a mutator again: what it may not do is refused without effect, and the
id it gives up is not handed out again. -/
theorem roles_taken_in_turn : ∃ calls : List (ThreadId × RoleCall Nat),
    calls = [(⟨"a"⟩, .registerCollector .worker), (⟨"a"⟩, .register none fun _ => 0), (⟨"a"⟩, .deregisterCollector),
      (⟨"a"⟩, .register (some "first") fun _ => 10), (⟨"b"⟩, .register none fun _ => 20),
      (⟨"a"⟩, .registerCollector .controller), (⟨"a"⟩, .deregister), (⟨"a"⟩, .deregister),
      (⟨"a"⟩, .register (some "again") fun _ => 30)] ∧
    (RoleCall.run Registry.step {} calls).1 =
      [.done, .refused (.alreadyRegistered ⟨"a"⟩), .done, .registered ⟨⟨1⟩, ⟨"a"⟩, some "first"⟩,
        .registered ⟨⟨2⟩, ⟨"b"⟩, none⟩, .breach (.mutatorAsCollector ⟨"a"⟩), .left ⟨1⟩,
        .breach (.unregisteredThread ⟨"a"⟩), .registered ⟨⟨3⟩, ⟨"a"⟩, some "again"⟩] ∧
    (RoleCall.run Registry.step {} calls).2.mutatorIds = [⟨2⟩, ⟨3⟩] ∧
    (RoleCall.run Registry.step {} calls).2.requireCollector ⟨"a"⟩ = .error (.mutatorAsCollector ⟨"a"⟩) ∧
    (RoleCall.run Registry.step {} calls).2.states.toList = [(⟨2⟩, 20), (⟨3⟩, 30)] := by
  refine ⟨_, rfl, ?_⟩
  obtain ⟨hanswers, hparts, -, -, hids⟩ := registry_follows_roles (μ := Nat)
    [(⟨"a"⟩, .registerCollector .worker), (⟨"a"⟩, .register none fun _ => 0), (⟨"a"⟩, .deregisterCollector),
      (⟨"a"⟩, .register (some "first") fun _ => 10), (⟨"b"⟩, .register none fun _ => 20),
      (⟨"a"⟩, .registerCollector .controller), (⟨"a"⟩, .deregister), (⟨"a"⟩, .deregister),
      (⟨"a"⟩, .register (some "again") fun _ => 30)]
  obtain ⟨-, -, -, -, hstates, hlisted, -⟩ := hids (by decide +kernel)
  obtain ⟨-, -, hcollector, -⟩ := hparts ⟨"a"⟩
  refine ⟨hanswers.trans (by decide +kernel), hlisted.trans (by decide +kernel), hcollector.trans (by decide +kernel),
    hstates.trans (by decide +kernel)⟩

end Safepoint
