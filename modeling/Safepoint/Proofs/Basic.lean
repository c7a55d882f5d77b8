import Mathlib.Data.List.Induction
import Mathlib.Logic.Function.Basic
import Mathlib.Tactic.Tauto
import Safepoint.Act
import Safepoint.Object

/-!
# Runs of calls

How the outcome of a call put together from others follows from theirs.
-/
namespace Safepoint

theorem update_eq_some {α β : Type} [DecidableEq α] {f : α → Option β} {a a' : α} {new : Option β} {b : β} :
    Function.update f a new a' = some b ↔ a' = a ∧ new = some b ∨ a' ≠ a ∧ f a' = some b := by
  by_cases h : a' = a
  · subst h
    simp
  · simp [h]

/-- What every move keeps holds after any number of them. -/
theorem foldlM_keeps {σ μ : Type} {move : σ → μ → Option σ} {P : σ → Prop}
    (keep : ∀ s s' m, P s → move s m = some s' → P s') {moves : List μ} {s s' : σ} (start : P s)
    (h : moves.foldlM move s = some s') : P s' := by
  induction moves generalizing s with
  | nil =>
    cases h
    exact start
  | cons m moves ih =>
    rw [List.foldlM_cons] at h
    obtain ⟨middle, hm, hrest⟩ := Option.bind_eq_some_iff.1 h
    exact ih (keep s middle m start hm) hrest

theorem toNat_add_of_lt {a b : UInt64} (h : a.toNat + b.toNat < wordLimit) : (a + b).toNat = a.toNat + b.toNat := by
  rw [UInt64.toNat_add]
  exact Nat.mod_eq_of_lt h

theorem toNat_add_one {word : UInt64} (h : word.toNat + 1 < wordLimit) : (word + 1).toNat = word.toNat + 1 :=
  toNat_add_of_lt h

theorem toNat_add_one_lt {word : UInt64} (h : word + 1 ≠ 0) : word.toNat + 1 < wordLimit := by
  refine Nat.lt_of_le_of_ne word.toNat_lt fun he => h ?_
  rw [← UInt64.toNat_inj, UInt64.toNat_add]
  exact (congrArg (· % 2 ^ 64) he).trans rfl

theorem except_bind_eq_ok {ε α β : Type} {found : Except ε α} {next : α → Except ε β} {b : β} :
    (found >>= next) = .ok b ↔ ∃ a, found = .ok a ∧ next a = .ok b := by
  cases found with
  | error cause => simp [bind, Except.bind]
  | ok a => simp [bind, Except.bind]

theorem except_map_eq_ok {ε α β : Type} {found : Except ε α} {f : α → β} {b : β} :
    found.map f = .ok b ↔ ∃ a, found = .ok a ∧ f a = b := by
  cases found <;> simp [Except.map]

theorem nodup_snoc {α : Type} {as : List α} {a : α} (h : as.Nodup) (hnew : a ∉ as) : (as ++ [a]).Nodup := by
  refine List.nodup_append.2 ⟨h, by simp, fun b hb c hc => ?_⟩
  rw [List.mem_singleton.1 hc]
  rintro rfl
  exact hnew hb

section Since

variable {α : Type*} {P P' : List α → α → Prop} {Q Q' : α → Prop} {as bs : List α} {last : α}

/-- There is an element with `P`, which may look at what came before it, and none with `Q` after it. -/
def Since (P : List α → α → Prop) (Q : α → Prop) (as : List α) : Prop :=
  ∃ earlier a later, as = earlier ++ a :: later ∧ P earlier a ∧ ∀ other ∈ later, ¬Q other

theorem not_since_nil : ¬Since P Q [] := by
  rintro ⟨earlier, a, later, hsplit, -⟩
  simp at hsplit

theorem since_concat : Since P Q (as ++ [last]) ↔ P as last ∨ Since P Q as ∧ ¬Q last := by
  constructor
  · rintro ⟨earlier, a, later, hsplit, hp, hq⟩
    obtain rfl | ⟨later, other, rfl⟩ := List.eq_nil_or_concat later
    · obtain ⟨rfl, rfl⟩ := List.append_singleton_inj.1 hsplit
      exact .inl hp
    · rw [List.concat_eq_append, ← List.cons_append, ← List.append_assoc] at hsplit
      obtain ⟨rfl, rfl⟩ := List.append_singleton_inj.1 hsplit
      exact .inr ⟨⟨earlier, a, later, rfl, hp, fun o ho => hq o (by simp [ho])⟩, hq last (by simp)⟩
  · rintro (hp | ⟨⟨earlier, a, later, rfl, hp, hq⟩, hlast⟩)
    · exact ⟨as, last, [], rfl, hp, by simp⟩
    · refine ⟨earlier, a, later ++ [last], by simp, hp, fun other hother => ?_⟩
      obtain hother | hother := List.mem_append.1 hother
      · exact hq other hother
      · rwa [List.mem_singleton.1 hother]

theorem since_append : Since P Q (as ++ bs) ↔
    (Since P Q as ∧ ∀ b ∈ bs, ¬Q b) ∨ Since (fun earlier => P (as ++ earlier)) Q bs := by
  induction bs using List.reverseRecOn with
  | nil => simp [not_since_nil]
  | append_singleton bs b ih =>
    rw [← List.append_assoc, since_concat, since_concat, ih]
    simp only [List.mem_append, List.mem_singleton, or_imp, forall_and, forall_eq]
    tauto

theorem Since.mono (h : Since P Q as) (hp : ∀ earlier a, P earlier a → P' earlier a) (hq : ∀ a, Q' a → Q a) :
    Since P' Q' as := by
  obtain ⟨earlier, a, later, hsplit, hat, hlater⟩ := h
  exact ⟨earlier, a, later, hsplit, hp earlier a hat, fun other hother => mt (hq other) (hlater other hother)⟩

/-- The last element with `P` serves for all that may not come after it. -/
theorem since_or : Since P (fun a => Q a ∨ Q' a) as ↔ Since P Q as ∧ Since P Q' as := by
  induction as using List.reverseRecOn with
  | nil => simp [not_since_nil]
  | append_singleton as a ih =>
    rw [since_concat, since_concat, since_concat, ih]
    tauto

end Since

theorem addChecked_eq_ok {a b sum : UInt64} : addChecked a b = .ok sum ↔ sum.toNat = a.toNat + b.toNat := by
  unfold addChecked
  split
  · rename_i hsum
    rw [Except.ok.injEq, ← UInt64.toNat_inj, toNat_add_of_lt hsum]
    exact eq_comm
  · rename_i hover
    have hlt : sum.toNat < wordLimit := sum.toNat_lt
    simp only [reduceCtorEq, false_iff]
    omega

namespace Act

variable {σ τ α β : Type}

@[simp] theorem run_map (f : α → β) (act : Act σ α) (s : σ) :
    (f <$> act).run s = ((act.run s).1.map f, (act.run s).2) := by
  rw [map_eq_pure_bind, run_bind]
  rcases act.run s with ⟨_ | _, _⟩ <;> rfl

@[simp] theorem run_update (f : σ → Except Panic (α × σ)) (s : σ) :
    (update f).run s = match f s with
      | .ok (a, s') => (.ok a, s')
      | .error cause => (.error (.panic cause), s) := rfl

theorem run_check_state (outcome : Except Panic α) (s : σ) : ((check outcome).run s).2 = s := by
  cases outcome <;> rfl

theorem run_bind_eq_ok {act : Act σ α} {next : α → Act σ β} {s s' : σ} {b : β} :
    (act >>= next).run s = (.ok b, s') ↔ ∃ a s₁, act.run s = (.ok a, s₁) ∧ (next a).run s₁ = (.ok b, s') := by
  rw [run_bind]
  rcases act.run s with ⟨_ | a, s₁⟩
  · simp
  · constructor
    · intro h
      exact ⟨a, s₁, rfl, h⟩
    · rintro ⟨_, _, heq, h⟩
      cases heq
      exact h

theorem run_within_eq_ok {place : Place σ τ} {act : Act τ α} {s s' : σ} {a : α} :
    (within place act).run s = (.ok a, s') ↔ ∃ t, act.run (place.get s) = (.ok a, t) ∧ s' = place.put t s := by
  rw [run_within]
  rcases act.run (place.get s) with ⟨outcome, t⟩
  simp only [Prod.mk.injEq]
  constructor
  · rintro ⟨houtcome, hput⟩
    exact ⟨t, ⟨houtcome, rfl⟩, hput.symm⟩
  · rintro ⟨_, ⟨houtcome, rfl⟩, hput⟩
    exact ⟨houtcome, hput.symm⟩

theorem run_eq_ok {act : Act σ α} {s : σ} {a : α} (h : (act.run s).1 = .ok a) :
    act.run s = (.ok a, (act.run s).2) := Prod.ext h rfl

/-- The fault in which a call ends, if it does. -/
def faultOf (act : Act σ α) (s : σ) : Option Fault :=
  match (act.run s).1 with
  | .ok _ => none
  | .error cause => some cause

theorem exists_run_eq_error {act : Act σ α} {s : σ} {cause : Fault} (h : act.faultOf s = some cause) :
    ∃ s', act.run s = (.error cause, s') := by
  unfold faultOf at h
  rcases hrun : act.run s with ⟨found | _, s'⟩
  · exact ⟨s', by simp_all⟩
  · simp [hrun] at h

theorem exists_run_eq_ok {act : Act σ α} {s : σ} (h : act.faultOf s = none) : ∃ a s', act.run s = (.ok a, s') := by
  unfold faultOf at h
  rcases hrun : act.run s with ⟨_ | a, s'⟩
  · simp [hrun] at h
  · exact ⟨a, s', rfl⟩

/-- Calls on the parts of a list return if those on its first half and on its second half do. -/
theorem run_forM_append {call : α → Act σ Unit} {as bs : List α} {s s' : σ} :
    ((as ++ bs).forM call).run s = (.ok (), s') ↔
      ∃ s₁, (as.forM call).run s = (.ok (), s₁) ∧ (bs.forM call).run s₁ = (.ok (), s') := by
  simp only [List.forM_eq_forM, List.forM_append, run_bind_eq_ok]
  exact ⟨fun ⟨_, s₁, h⟩ => ⟨s₁, h⟩, fun ⟨s₁, h⟩ => ⟨(), s₁, h⟩⟩

/-- Calls on the parts of a list all return if each of them does. -/
theorem run_forM_returns {call : α → Act σ Unit} (returns : ∀ a s, ∃ s', (call a).run s = (.ok (), s'))
    (as : List α) (s : σ) : ∃ s', (as.forM call).run s = (.ok (), s') := by
  induction as generalizing s with
  | nil => exact ⟨s, rfl⟩
  | cons a as ih =>
    obtain ⟨s₁, ha⟩ := returns a s
    obtain ⟨s', has⟩ := ih s₁
    exact ⟨s', by simp only [List.forM_eq_forM, List.forM_cons, run_bind_ok ha] at has ⊢; exact has⟩

/-- What a call keeps whether it returns or faults, and the next keeps from then on, both keep. -/
theorem keeps_bind (kept : σ → Prop) {act : Act σ α} {next : α → Act σ β} {s : σ} (hact : kept (act.run s).2)
    (hnext : ∀ a s', act.run s = (.ok a, s') → kept ((next a).run s').2) : kept ((act >>= next).run s).2 := by
  rw [run_bind]
  rcases hrun : act.run s with ⟨_ | a, s'⟩
  · rw [hrun] at hact
    exact hact
  · exact hnext a s' hrun

theorem keeps_mapM (kept : σ → Prop) {call : α → Act σ β} {as : List α}
    (hcall : ∀ a ∈ as, ∀ s, kept s → kept ((call a).run s).2) {s : σ} (hs : kept s) :
    kept ((as.mapM call).run s).2 := by
  induction as generalizing s with
  | nil => exact hs
  | cons a as ih =>
    rw [List.mapM_cons]
    have hfirst := hcall a (List.mem_cons_self ..) s hs
    refine keeps_bind kept hfirst fun b s₁ hrun => ?_
    rw [hrun] at hfirst
    have hrest := ih (fun other hother => hcall other (List.mem_cons_of_mem _ hother)) hfirst
    refine keeps_bind kept hrest fun bs s₂ hrun' => ?_
    rwa [hrun'] at hrest

/-- Whatever comes of it, the call takes the part of the state that `view` shows along `R`. -/
def Moves {κ : Type} (R : κ → κ → Prop) (view : σ → κ) (act : Act σ α) : Prop :=
  ∀ s, R (view s) (view (act.run s).2)

namespace Moves
variable {κ : Type} {R : κ → κ → Prop} {view : σ → κ} {act : Act σ α}

theorem run (h : Moves R view act) {s s' : σ} {a : α} (hrun : act.run s = (.ok a, s')) :
    R (view s) (view s') := by
  have hmoves := h s
  rw [hrun] at hmoves
  exact hmoves

theorem unmoved (hrefl : ∀ k, R k k) (h : ∀ s, view (act.run s).2 = view s) : Moves R view act := by
  intro s
  rw [h]
  exact hrefl _

theorem bind (htrans : ∀ a b c, R a b → R b c → R a c) {next : α → Act σ β} (h : Moves R view act)
    (hnext : ∀ a, Moves R view (next a)) : Moves R view (act >>= next) := by
  intro s
  have hact := h s
  rw [run_bind]
  cases hrun : act.run s with
  | mk outcome s' =>
    rw [hrun] at hact
    cases outcome with
    | error cause => exact hact
    | ok a => exact htrans _ _ _ hact (hnext a s')

theorem within {place : Place σ τ} {part : τ → κ} {act : Act τ α} (h : Moves R part act)
    (hget : ∀ s, view s = part (place.get s)) (hput : ∀ t s, view (place.put t s) = part t) :
    Moves R view (Act.within place act) := by
  intro s
  rw [run_within, hget, hput]
  exact h (place.get s)

/-- A call on a part of the state that `view` does not show. -/
theorem aside (hrefl : ∀ k, R k k) {place : Place σ τ} {act : Act τ α}
    (hput : ∀ t s, view (place.put t s) = view s) : Moves R view (Act.within place act) := by
  apply unmoved hrefl
  intro s
  rw [run_within, hput]

theorem update (hrefl : ∀ k, R k k) {f : σ → Except Panic (α × σ)}
    (h : ∀ s a s', f s = .ok (a, s') → R (view s) (view s')) : Moves R view (Act.update f) := by
  intro s
  rw [run_update]
  cases hf : f s with
  | error cause => exact hrefl _
  | ok p => exact h s p.1 p.2 hf

theorem forM (hrefl : ∀ k, R k k) (htrans : ∀ a b c, R a b → R b c → R a c) {call : β → Act σ PUnit}
    (h : ∀ b, Moves R view (call b)) (bs : List β) : Moves R view (bs.forM call) := by
  induction bs with
  | nil =>
    apply unmoved hrefl
    intro s
    rfl
  | cons b bs ih =>
    rw [List.forM_eq_forM, List.forM_cons]
    apply bind htrans (h b)
    intro _
    exact ih

end Moves

/-- From a state with `P` the call returns, and what it returns has `Q` with the state it leaves. -/
def Meets (P : σ → Prop) (act : Act σ α) (Q : α → σ → Prop) : Prop :=
  ∀ s, P s → ∃ a s', act.run s = (.ok a, s') ∧ Q a s'

namespace Meets
variable {P P' : σ → Prop} {act : Act σ α} {Q Q' : α → σ → Prop}

theorem pure {a : α} (h : ∀ s, P s → Q a s) : Meets P (pure a) Q := fun s hs => ⟨a, s, rfl, h s hs⟩

theorem mono (h : Meets P act Q) (hbefore : ∀ s, P' s → P s) (hafter : ∀ a s, Q a s → Q' a s) :
    Meets P' act Q' := by
  intro s hs
  obtain ⟨a, s', hrun, hq⟩ := h s (hbefore s hs)
  exact ⟨a, s', hrun, hafter a s' hq⟩

theorem bind {next : α → Act σ β} {R : β → σ → Prop} (h : Meets P act Q) (hnext : ∀ a, Meets (Q a) (next a) R) :
    Meets P (act >>= next) R := by
  intro s hs
  obtain ⟨a, s₁, hrun, hq⟩ := h s hs
  obtain ⟨b, s', hrun', hr⟩ := hnext a s₁ hq
  exact ⟨b, s', (run_bind_ok hrun).trans hrun', hr⟩

theorem get : Meets P (MonadStateOf.get : Act σ σ) fun a s => a = s ∧ P s := fun s hs => ⟨s, s, rfl, rfl, hs⟩

theorem modify {f : σ → σ} {Q : σ → Prop} (h : ∀ s, P s → Q (f s)) :
    Meets P (MonadState.modifyGet fun s => ((), f s)) fun _ => Q := fun s hs => ⟨(), f s, rfl, h s hs⟩

theorem forM {call : β → Act σ PUnit} {bs : List β} (h : ∀ b ∈ bs, Meets P (call b) fun _ => P) :
    Meets P (bs.forM call) fun _ => P := by
  induction bs with
  | nil => exact pure fun _ hs => hs
  | cons b bs ih =>
    rw [List.forM_eq_forM, List.forM_cons]
    apply bind (h b (List.mem_cons_self ..))
    intro _
    exact ih fun other hother => h other (List.mem_cons_of_mem _ hother)

theorem within {place : Place σ τ} {act : Act τ α} {P : τ → Prop} {Q : α → τ → Prop} {P' : σ → Prop}
    {Q' : α → σ → Prop} (h : Meets P act Q) (hget : ∀ s, P' s → P (place.get s))
    (hput : ∀ s a t, P' s → Q a t → Q' a (place.put t s)) : Meets P' (Act.within place act) Q' := by
  intro s hs
  obtain ⟨a, t, hrun, hq⟩ := h (place.get s) (hget s hs)
  exact ⟨a, place.put t s, run_within_eq_ok.2 ⟨t, hrun, rfl⟩, hput s a t hs hq⟩

end Meets

/-- On the part of a state that `view` shows, `act` does what `whole` does on all of it. -/
def Mirrors (view : τ → σ) (act : Act σ α) (whole : Act τ α) : Prop :=
  ∀ t, act.run (view t) = ((whole.run t).1, view (whole.run t).2)

namespace Mirrors
variable {view : τ → σ}

theorem pure (a : α) : Mirrors view (pure a) (pure a) := fun _ => rfl

theorem check (outcome : Except Panic α) : Mirrors view (Act.check outcome) (Act.check outcome) := fun _ => by
  cases outcome <;> rfl

theorem bind {act : Act σ α} {whole : Act τ α} {next : α → Act σ β} {next' : α → Act τ β}
    (h : Mirrors view act whole) (hnext : ∀ a, Mirrors view (next a) (next' a)) :
    Mirrors view (act >>= next) (whole >>= next') := by
  intro t
  rw [run_bind, run_bind, h]
  rcases whole.run t with ⟨_ | a, left⟩
  · rfl
  · exact hnext a left

end Mirrors

/-- From related states, two calls come to the same and leave related states. -/
def Alike (R : σ → τ → Prop) (act : Act σ α) (other : Act τ α) : Prop :=
  ∀ s t, R s t → (act.run s).1 = (other.run t).1 ∧ R (act.run s).2 (other.run t).2

namespace Alike
variable {R : σ → τ → Prop}

theorem pure (a : α) : Alike R (pure a) (pure a) := fun _ _ h => ⟨rfl, h⟩

theorem same (act : Act σ α) : Alike Eq act act := fun _ _ h => by rw [h]; exact ⟨rfl, rfl⟩

theorem modify {f : σ → σ} {g : τ → τ} (h : ∀ s t, R s t → R (f s) (g t)) :
    Alike R (modify f : Act σ PUnit) (modify g : Act τ PUnit) := fun s t hst => ⟨rfl, h s t hst⟩

/-- Both look at their states, which may differ, and go on. -/
theorem get {next : σ → Act σ β} {next' : τ → Act τ β} (h : ∀ s t, R s t → Alike R (next s) (next' t)) :
    Alike R (MonadStateOf.get >>= next) (MonadStateOf.get >>= next') := fun s t hst => h s t hst s t hst

theorem bind {act : Act σ α} {other : Act τ α} {next : α → Act σ β} {next' : α → Act τ β} (h : Alike R act other)
    (hnext : ∀ a, Alike R (next a) (next' a)) : Alike R (act >>= next) (other >>= next') := by
  intro s t hst
  obtain ⟨hout, hleft⟩ := h s t hst
  rw [run_bind, run_bind]
  generalize act.run s = first, other.run t = second at hout hleft
  obtain ⟨outcome, s'⟩ := first
  obtain ⟨_, t'⟩ := second
  obtain rfl := hout
  cases outcome with
  | error cause => exact ⟨rfl, hleft⟩
  | ok a => exact hnext a s' t' hleft

theorem forM {call : β → Act σ Unit} {call' : β → Act τ Unit} (bs : List β)
    (h : ∀ b ∈ bs, Alike R (call b) (call' b)) : Alike R (bs.forM call) (bs.forM call') := by
  induction bs with
  | nil => exact pure ()
  | cons b bs ih =>
    rw [List.forM_eq_forM, List.forM_eq_forM, List.forM_cons, List.forM_cons]
    exact bind (h b (List.mem_cons_self ..)) fun _ => ih fun other hother => h other (List.mem_cons_of_mem _ hother)

theorem mapM {call : β → Act σ α} {call' : β → Act τ α} (bs : List β)
    (h : ∀ b ∈ bs, Alike R (call b) (call' b)) : Alike R (bs.mapM call) (bs.mapM call') := by
  induction bs with
  | nil => exact pure []
  | cons b bs ih =>
    rw [List.mapM_cons, List.mapM_cons]
    refine bind (h b (List.mem_cons_self ..)) fun a => ?_
    exact bind (ih fun other hother => h other (List.mem_cons_of_mem _ hother)) fun as => pure _

/-- Calls on parts of the states that are related themselves. -/
theorem within {σ' τ' : Type} {R' : σ' → τ' → Prop} {place : Place σ σ'} {place' : Place τ τ'} {act : Act σ' α}
    {other : Act τ' α} (h : Alike R' act other) (hget : ∀ s t, R s t → R' (place.get s) (place'.get t))
    (hput : ∀ s t s' t', R s t → R' s' t' → R (place.put s' s) (place'.put t' t)) :
    Alike R (Act.within place act) (Act.within place' other) := by
  intro s t hst
  obtain ⟨hout, hleft⟩ := h _ _ (hget s t hst)
  exact ⟨hout, hput s t _ _ hst hleft⟩

end Alike

theorem forM_flatMap (call : β → Act σ Unit) (f : α → List β) (as : List α) :
    (as.flatMap f).forM call = as.forM fun a => (f a).forM call := by
  induction as with
  | nil => rfl
  | cons a as ih =>
    simp only [List.forM_eq_forM] at ih
    simp only [List.flatMap_cons, List.forM_eq_forM, List.forM_append, List.forM_cons, ih]

end Act

end Safepoint
