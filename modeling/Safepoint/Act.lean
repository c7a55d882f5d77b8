import Safepoint.Fault

/-!
Calls that change a state. A call that faults keeps what it did before the fault, so the
state comes back beside the outcome and not inside it.
-/
namespace Safepoint

/-- A part `τ` of a state `σ`. -/
structure Place (σ τ : Type) where
  get : σ → τ
  put : τ → σ → σ

/-- A call on a state `σ`: it returns or faults, and either way leaves a state behind. -/
def Act (σ α : Type) : Type := σ → Except Fault α × σ

namespace Act

variable {σ τ α β : Type}

def run (act : Act σ α) (s : σ) : Except Fault α × σ := act s

/-- Run the second call on the state the first one left, unless the first one faulted. -/
def andThen (act : Act σ α) (next : α → Act σ β) : Act σ β := fun s =>
  match act s with
  | (.ok a, s') => next a s'
  | (.error fault, s') => (.error fault, s')

instance : Monad (Act σ) where
  pure a := fun s => (.ok a, s)
  bind := andThen

instance : LawfulMonad (Act σ) := LawfulMonad.mk' _
  (by
    intro α act; funext s
    change andThen act (fun a => pure a) s = act s
    unfold andThen
    rcases act s with ⟨_ | _, _⟩ <;> rfl)
  (by intro α β a next; rfl)
  (by
    intro α β γ act next last; funext s
    change andThen (andThen act next) last s = andThen act (fun a => andThen (next a) last) s
    unfold andThen
    rcases act s with ⟨_ | _, _⟩ <;> rfl)

instance : MonadStateOf σ (Act σ) where
  get := fun s => (.ok s, s)
  set s := fun _ => (.ok (), s)
  modifyGet f := fun s => let r := f s; (.ok r.1, r.2)

/-- End the call. -/
def fault (fault : Fault) : Act σ α := fun s => (.error fault, s)

/-- End the call at a broken check. -/
def panic (cause : Panic) : Act σ α := fault (.panic cause)

/-- Go on with the result of a check that may be broken. -/
def check (outcome : Except Panic α) : Act σ α := fun s =>
  match outcome with
  | .ok a => (.ok a, s)
  | .error cause => (.error (.panic cause), s)

/-- Run a call on a part of the state. The part it leaves is put back, also after a fault. -/
def within (place : Place σ τ) (act : Act τ α) : Act σ α := fun s =>
  let r := act (place.get s)
  (r.1, place.put r.2 s)

/-- Look at the state without changing it. -/
def query (f : σ → α) : Act σ α := fun s => (.ok (f s), s)

/-- Go on with what is read off the state, unless the reading breaks a check. -/
def read (f : σ → Except Panic α) : Act σ α := fun s => check (f s) s

/-- Change the state unless a check breaks, in which case it stays as it was. -/
def update (f : σ → Except Panic (α × σ)) : Act σ α := fun s =>
  match f s with
  | .ok (a, s') => (.ok a, s')
  | .error cause => (.error (.panic cause), s)

@[simp] theorem run_pure (a : α) (s : σ) : (pure a : Act σ α).run s = (.ok a, s) := rfl
@[simp] theorem run_get (s : σ) : (get : Act σ σ).run s = (.ok s, s) := rfl
@[simp] theorem run_set (new s : σ) : (set new : Act σ PUnit).run s = (.ok (), new) := rfl
@[simp] theorem run_modify (f : σ → σ) (s : σ) : (modify f : Act σ PUnit).run s = (.ok (), f s) := rfl
@[simp] theorem run_fault (cause : Fault) (s : σ) :
    (fault cause : Act σ α).run s = (.error cause, s) := rfl
@[simp] theorem run_panic (cause : Panic) (s : σ) :
    (panic cause : Act σ α).run s = (.error (.panic cause), s) := rfl
@[simp] theorem run_check_ok (a : α) (s : σ) : (check (.ok a) : Act σ α).run s = (.ok a, s) := rfl
@[simp] theorem run_check_error (cause : Panic) (s : σ) :
    (check (.error cause) : Act σ α).run s = (.error (.panic cause), s) := rfl
@[simp] theorem run_within (place : Place σ τ) (act : Act τ α) (s : σ) :
    (within place act).run s =
      ((act.run (place.get s)).1, place.put (act.run (place.get s)).2 s) := rfl
@[simp] theorem run_query (f : σ → α) (s : σ) : (query f).run s = (.ok (f s), s) := rfl
@[simp] theorem run_read (f : σ → Except Panic α) (s : σ) :
    (read f).run s = (check (f s)).run s := rfl

theorem run_bind (act : Act σ α) (next : α → Act σ β) (s : σ) :
    (act >>= next).run s = match act.run s with
      | (.ok a, s') => (next a).run s'
      | (.error cause, s') => (.error cause, s') := rfl

theorem run_bind_ok {act : Act σ α} {next : α → Act σ β} {s s' : σ} {a : α}
    (h : act.run s = (.ok a, s')) : (act >>= next).run s = (next a).run s' := by
  rw [run_bind, h]

theorem run_bind_error {act : Act σ α} {next : α → Act σ β} {s s' : σ} {cause : Fault}
    (h : act.run s = (.error cause, s')) : (act >>= next).run s = (.error cause, s') := by
  rw [run_bind, h]

end Act

end Safepoint
