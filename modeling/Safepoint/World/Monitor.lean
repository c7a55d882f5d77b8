import Safepoint.Act

/-!
A value behind a lock, with threads waiting for it to satisfy a condition.
-/
namespace Safepoint

structure Monitor (τ : Type) where
  value : τ

namespace Monitor

variable {τ ρ : Type}

/-- Change the value and wake every waiter. -/
def update (m : Monitor τ) (f : τ → ρ × τ) : ρ × Monitor τ :=
  let r := f m.value
  (r.1, ⟨r.2⟩)

/-- What a waiter for `ready` sees, if it need not sleep. -/
def waitUntil (m : Monitor τ) (ready : τ → Bool) : Option τ :=
  if ready m.value then some m.value else none

end Monitor

/-- Signed 64-bit addition that refuses to overflow. -/
def addSigned (a b : Int) : Except Panic Int :=
  if -0x8000000000000000 ≤ a + b ∧ a + b < 0x8000000000000000 then .ok (a + b)
  else .error .addOverflow

namespace Monitor

/-- Add `n` to a counter; the result is the old value. -/
def add (n : Int) : Act (Monitor Int) Int :=
  Act.update fun m => do
    let sum ← addSigned m.value n
    return m.update fun old => (old, sum)

/-- Wait for a counter to reach `n`, with nobody else around to change it. -/
def await (n : Int) : Act (Monitor Int) Int := do
  match (← get).waitUntil (n ≤ ·) with
  | some value => return value
  | none => Act.fault .stuck

/-- One thread waits for the counter to grow by `n` while another one adds 1 that often. The
waiter can see no value but the last: the ones before do not satisfy it. Nothing is added if
there is no such value. -/
def race (n : Int) : Act (Monitor Int) Int := do
  let target ← Act.read fun m => addSigned m.value n
  for _ in List.range n.toNat do
    let _ ← add 1
  await target

end Monitor

end Safepoint
