import Mathlib.Algebra.Order.BigOperators.Group.List
import Mathlib.Algebra.Order.Ring.Nat
import Safepoint.Marking
import Safepoint.Proofs.Basic

/-!
# Marking finds what can be reached

A marker that starts without marks leaves a mark on an object if and only if the object can be reached from the slots it
was given. Each object is looked into once, so there are no more rounds than slots.
-/
namespace Safepoint

/-- What can be reached from some slots, through the slots of the objects met on the way. -/
inductive Reaches (refers : Slot → Option ObjectRef) (fields : ObjectRef → List Slot) (roots : List Slot) :
    ObjectRef → Prop
  | root {slot : Slot} {object : ObjectRef} (mem : slot ∈ roots) (target : refers slot = some object) :
      Reaches refers fields roots object
  | field {source object : ObjectRef} {slot : Slot} (reached : Reaches refers fields roots source)
      (mem : slot ∈ fields source) (target : refers slot = some object) : Reaches refers fields roots object

/-- Nothing can be reached from nowhere. -/
theorem not_reaches_nil {refers : Slot → Option ObjectRef} {fields : ObjectRef → List Slot} {object : ObjectRef} :
    ¬Reaches refers fields [] object := by
  intro h
  induction h with
  | root mem _ => cases mem
  | field _ _ _ ih => exact ih

/-- What is put in a place is found there, and nothing else of the state is touched. -/
structure Place.Lawful {σ τ : Type} (place : Place σ τ) : Prop where
  get_put : ∀ t s, place.get (place.put t s) = t
  put_put : ∀ t t' s, place.put t (place.put t' s) = place.put t s
  put_get : ∀ s, place.put (place.get s) s = s

namespace Marker

variable {ε : Type} {marker : Marker ε} {m : Machine ε} {refers : Slot → Option ObjectRef}
  {fields : ObjectRef → List Slot} {roots slots : List Slot} {work done : List ObjectRef} {marks : Marks}

/-- The machine with other marks. -/
def withMarks (marker : Marker ε) (m : Machine ε) (marks : Marks) : Machine ε :=
  { m with env := marker.marks.put marks m.env }

theorem withMarks_get (hplace : marker.marks.Lawful) (m : Machine ε) :
    marker.withMarks m (marker.marks.get m.env) = m := by
  simp [withMarks, hplace.put_get]

/-- What a marker meets can be read. -/
structure Reads (marker : Marker ε) (m : Machine ε) (refers : Slot → Option ObjectRef)
    (fields : ObjectRef → List Slot) (roots : List Slot) : Prop where
  place : marker.marks.Lawful
  root : ∀ slot ∈ roots, slot.load marker.codec m.memory = .ok (refers slot)
  field : ∀ object, Reaches refers fields roots object → ∀ slot ∈ fields object,
    slot.load marker.codec m.memory = .ok (refers slot)
  fields : ∀ object, Reaches refers fields roots object → ∀ marks,
    (marker.fields object).run (marker.withMarks m marks) = (.ok (fields object), marker.withMarks m marks)

theorem run_markSlot (hplace : marker.marks.Lawful) {slot : Slot}
    (hload : slot.load marker.codec m.memory = .ok (refers slot)) (marks : Marks) :
    (marker.markSlot slot).run (marker.withMarks m marks) = match refers slot with
      | none => (.ok none, marker.withMarks m marks)
      | some object => if object ∈ marks then (.ok none, marker.withMarks m marks)
        else (.ok (some object), marker.withMarks m (marks.insert object)) := by
  have hpeek : (Machine.peek (slot.load marker.codec)).run (marker.withMarks m marks) =
      (.ok (refers slot), marker.withMarks m marks) := by
    simp [Machine.peek, withMarks, hload]
  rw [markSlot, Act.run_bind_ok hpeek]
  cases refers slot with
  | none => rfl
  | some object =>
    by_cases hmem : object ∈ marks
    · simp [Act.run_bind, withMarks, hplace.get_put, hmem]
    · simp [Act.run_bind, withMarks, hplace.get_put, hplace.put_put, hmem, Except.map]

/-- What a run over slots leaves: every target has its mark, and those that had none are put in front of the work. -/
structure Pushed (refers : Slot → Option ObjectRef) (slots : List Slot) (marks : Marks) (pushed : List ObjectRef)
    (marks' : Marks) : Prop where
  marked : ∀ object, object ∈ marks' ↔ object ∈ marks ∨ object ∈ pushed
  targets : ∀ slot ∈ slots, ∀ object, refers slot = some object → object ∈ marks'
  sources : ∀ object ∈ pushed, ∃ slot ∈ slots, refers slot = some object
  fresh : ∀ object ∈ pushed, object ∉ marks
  nodup : pushed.Nodup
  length : pushed.length ≤ slots.length

theorem Pushed.nil : Pushed refers [] marks [] marks :=
  ⟨by simp, by simp, by simp, by simp, List.nodup_nil, Nat.le_refl _⟩

/-- A slot that is null, or whose target has its mark already. -/
theorem Pushed.skip {slot : Slot} {pushed : List ObjectRef} {marks' : Marks}
    (h : Pushed refers slots marks pushed marks') (hslot : ∀ object, refers slot = some object → object ∈ marks) :
    Pushed refers (slot :: slots) marks pushed marks' := by
  constructor
  · exact h.marked
  · intro other hother object hrefers
    obtain rfl | hother := List.mem_cons.1 hother
    · exact (h.marked object).2 (.inl (hslot object hrefers))
    · exact h.targets other hother object hrefers
  · intro object hobject
    obtain ⟨other, hother, hrefers⟩ := h.sources object hobject
    exact ⟨other, List.mem_cons_of_mem _ hother, hrefers⟩
  · exact h.fresh
  · exact h.nodup
  · exact Nat.le_succ_of_le h.length

theorem Pushed.push {slot : Slot} {object : ObjectRef} {pushed : List ObjectRef} {marks' : Marks}
    (h : Pushed refers slots (marks.insert object) pushed marks') (hrefers : refers slot = some object)
    (hnew : object ∉ marks) : Pushed refers (slot :: slots) marks (pushed ++ [object]) marks' := by
  have hinsert : ∀ other, other ∈ marks.insert object ↔ other = object ∨ other ∈ marks := by
    intro other
    rw [Std.ExtTreeSet.mem_insert, Std.LawfulEqCmp.compare_eq_iff_eq, eq_comm]
  have hfresh : ∀ other ∈ pushed, other ≠ object ∧ other ∉ marks := by
    intro other hother
    have hnot := h.fresh other hother
    rw [hinsert] at hnot
    exact not_or.1 hnot
  constructor
  · intro other
    rw [h.marked, hinsert, List.mem_append, List.mem_singleton]
    tauto
  · intro other hother target htarget
    obtain rfl | hother := List.mem_cons.1 hother
    · rw [hrefers] at htarget
      cases htarget
      exact (h.marked object).2 (.inl ((hinsert object).2 (.inl rfl)))
    · exact h.targets other hother target htarget
  · intro other hother
    obtain hother | hother := List.mem_append.1 hother
    · obtain ⟨source, hsource, hsame⟩ := h.sources other hother
      exact ⟨source, List.mem_cons_of_mem _ hsource, hsame⟩
    · rw [List.mem_singleton.1 hother]
      exact ⟨slot, List.mem_cons_self .., hrefers⟩
  · intro other hother
    obtain hother | hother := List.mem_append.1 hother
    · exact (hfresh other hother).2
    · rw [List.mem_singleton.1 hother]
      exact hnew
  · exact nodup_snoc h.nodup fun hmem => (hfresh object hmem).1 rfl
  · have hlength := h.length
    simp only [List.length_append, List.length_cons, List.length_nil]
    omega

theorem run_markSlots (hplace : marker.marks.Lawful)
    (hload : ∀ slot ∈ slots, slot.load marker.codec m.memory = .ok (refers slot)) (work : List ObjectRef)
    (marks : Marks) : ∃ pushed marks', (marker.markSlots work slots).run (marker.withMarks m marks) =
      (.ok (pushed ++ work), marker.withMarks m marks') ∧ Pushed refers slots marks pushed marks' := by
  induction slots generalizing work marks with
  | nil => exact ⟨[], marks, rfl, .nil⟩
  | cons slot slots ih =>
    have hslot := run_markSlot hplace (hload slot (List.mem_cons_self ..)) marks
    have hrest : ∀ other ∈ slots, other.load marker.codec m.memory = .ok (refers other) :=
      fun other hother => hload other (List.mem_cons_of_mem _ hother)
    cases hrefers : refers slot with
    | none =>
      rw [hrefers] at hslot
      obtain ⟨pushed, marks', hrun, hpushed⟩ := ih hrest work marks
      refine ⟨pushed, marks', ?_, hpushed.skip (by simp [hrefers])⟩
      rw [markSlots, Act.run_bind_ok hslot]
      exact hrun
    | some object =>
      simp only [hrefers] at hslot
      by_cases hmem : object ∈ marks
      · rw [if_pos hmem] at hslot
        obtain ⟨pushed, marks', hrun, hpushed⟩ := ih hrest work marks
        refine ⟨pushed, marks', ?_, hpushed.skip (by simp [hrefers, hmem])⟩
        rw [markSlots, Act.run_bind_ok hslot]
        exact hrun
      · rw [if_neg hmem] at hslot
        obtain ⟨pushed, marks', hrun, hpushed⟩ := ih hrest (object :: work) (marks.insert object)
        refine ⟨pushed ++ [object], marks', ?_, hpushed.push hrefers hmem⟩
        rw [markSlots, Act.run_bind_ok hslot, List.append_assoc]
        exact hrun

/-- How far a marker has come: the objects in `done` were looked into, those in `work` were not, and no others have a
mark. -/
structure Tracing (refers : Slot → Option ObjectRef) (fields : ObjectRef → List Slot) (roots : List Slot)
    (done work : List ObjectRef) (marks : Marks) : Prop where
  marked : ∀ object, object ∈ marks ↔ object ∈ done ∨ object ∈ work
  nodup : (done ++ work).Nodup
  reached : ∀ object ∈ marks, Reaches refers fields roots object
  targets : ∀ slot ∈ roots, ∀ object, refers slot = some object → object ∈ marks
  closed : ∀ source ∈ done, ∀ slot ∈ fields source, ∀ object, refers slot = some object → object ∈ marks
  count : done.length + work.length ≤ roots.length + (done.map fun object => (fields object).length).sum

theorem Pushed.begins {pushed : List ObjectRef} (h : Pushed refers roots {} pushed marks) :
    Tracing refers fields roots [] pushed marks := by
  have hmarked : ∀ object, object ∈ marks ↔ object ∈ pushed := by simp [h.marked]
  constructor
  · simp [hmarked]
  · simpa using h.nodup
  · intro object hobject
    obtain ⟨slot, hslot, hrefers⟩ := h.sources object ((hmarked object).1 hobject)
    exact .root hslot hrefers
  · exact h.targets
  · simp
  · simpa using h.length

theorem Tracing.step {object : ObjectRef} (h : Tracing refers fields roots done (object :: work) marks)
    {pushed : List ObjectRef} {marks' : Marks} (hpushed : Pushed refers (fields object) marks pushed marks') :
    Tracing refers fields roots (done ++ [object]) (pushed ++ work) marks' := by
  have hmarks : ∀ other ∈ marks, other ∈ marks' := fun other hother => (hpushed.marked other).2 (.inl hother)
  have hobject : object ∈ marks := (h.marked object).2 (.inr (List.mem_cons_self ..))
  constructor
  · intro other
    rw [hpushed.marked, h.marked]
    simp only [List.mem_append, List.mem_cons, List.not_mem_nil, or_false]
    tauto
  · have hold : (done ++ [object] ++ work).Nodup := by simpa using h.nodup
    have hapart : ∀ other ∈ done ++ [object] ++ work, ∀ fresh ∈ pushed, other ≠ fresh := by
      rintro other hother fresh hfresh rfl
      apply hpushed.fresh other hfresh
      rw [h.marked]
      simpa [or_assoc] using hother
    have hperm : (pushed ++ (done ++ [object] ++ work)).Perm (done ++ [object] ++ (pushed ++ work)) :=
      List.perm_append_comm_assoc _ _ _
    refine hperm.nodup (List.nodup_append.2 ⟨hpushed.nodup, hold, ?_⟩)
    intro fresh hfresh other hother
    exact (hapart other hother fresh hfresh).symm
  · intro other hother
    obtain hother | hother := (hpushed.marked other).1 hother
    · exact h.reached other hother
    · obtain ⟨slot, hslot, hrefers⟩ := hpushed.sources other hother
      exact .field (h.reached object hobject) hslot hrefers
  · intro slot hslot target htarget
    exact hmarks target (h.targets slot hslot target htarget)
  · intro source hsource slot hslot target htarget
    obtain hsource | hsource := List.mem_append.1 hsource
    · exact hmarks target (h.closed source hsource slot hslot target htarget)
    · rw [List.mem_singleton.1 hsource] at hslot
      exact hpushed.targets slot hslot target htarget
  · have hcount := h.count
    have hlength := hpushed.length
    simp only [List.length_append, List.length_cons, List.length_nil, List.map_append, List.map_cons, List.map_nil,
      List.sum_append, List.sum_cons, List.sum_nil] at hcount ⊢
    omega

/-- A marker that has nothing left to do has marked just what can be reached. -/
theorem Tracing.finished (h : Tracing refers fields roots done [] marks) (object : ObjectRef) :
    object ∈ marks ↔ Reaches refers fields roots object := by
  constructor
  · exact h.reached object
  · intro hreaches
    induction hreaches with
    | root mem target => exact h.targets _ mem _ target
    | field _ mem target ih =>
      have hdone := (h.marked _).1 ih
      simp only [List.not_mem_nil, or_false] at hdone
      exact h.closed _ hdone _ mem _ target

theorem run_trace (hreads : marker.Reads m refers fields roots) {bound rounds : Nat}
    (hbound : ∀ objects : List ObjectRef, objects.Nodup →
      (objects.map fun object => (fields object).length).sum ≤ bound)
    (htracing : Tracing refers fields roots done work marks) (hrounds : roots.length + bound ≤ done.length + rounds) :
    ∃ marks', (marker.trace rounds work).run (marker.withMarks m marks) = (.ok (), marker.withMarks m marks') ∧
      ∀ object, object ∈ marks' ↔ Reaches refers fields roots object := by
  induction rounds generalizing done work marks with
  | zero =>
    cases work with
    | nil => exact ⟨marks, rfl, htracing.finished⟩
    | cons object work =>
      -- An object is left: then there were more objects than slots.
      have hcount := htracing.count
      have hdone := hbound done (List.nodup_append.1 htracing.nodup).1
      simp only [List.length_cons] at hcount
      omega
  | succ rounds ih =>
    cases work with
    | nil => exact ⟨marks, rfl, htracing.finished⟩
    | cons object work =>
      have hobject : Reaches refers fields roots object :=
        htracing.reached object ((htracing.marked object).2 (.inr (List.mem_cons_self ..)))
      obtain ⟨pushed, marks₁, hslots, hpushed⟩ := run_markSlots hreads.place (hreads.field object hobject) work marks
      have hrounds₁ : roots.length + bound ≤ (done ++ [object]).length + rounds := by
        simp only [List.length_append, List.length_cons, List.length_nil]
        omega
      obtain ⟨marks', hrun, hmarks⟩ := ih (htracing.step hpushed) hrounds₁
      refine ⟨marks', ?_, hmarks⟩
      rw [trace, Act.run_bind_ok (hreads.fields object hobject marks), Act.run_bind_ok hslots]
      exact hrun

/-- From no marks at all, with as many rounds as there are slots, a marker marks just what can be reached. -/
theorem run_markFrom (hreads : marker.Reads m refers fields roots) (hempty : marker.marks.get m.env = {})
    {bound : Nat}
    (hbound : ∀ objects : List ObjectRef, objects.Nodup →
      (objects.map fun object => (fields object).length).sum ≤ bound) :
    ∃ marks, (marker.markFrom (roots.length + bound) roots).run m = (.ok (), marker.withMarks m marks) ∧
      ∀ object, object ∈ marks ↔ Reaches refers fields roots object := by
  have hstart : marker.withMarks m {} = m := by
    rw [← hempty]
    exact withMarks_get hreads.place m
  obtain ⟨pushed, marks₁, hslots, hpushed⟩ := run_markSlots hreads.place hreads.root [] {}
  rw [List.append_nil, hstart] at hslots
  have hrounds : roots.length + bound ≤ ([] : List ObjectRef).length + (roots.length + bound) := by simp
  obtain ⟨marks, htrace, hmarks⟩ := run_trace hreads hbound hpushed.begins hrounds
  refine ⟨marks, ?_, hmarks⟩
  rw [markFrom, Act.run_bind_ok hslots]
  exact htrace

end Marker

end Safepoint
