import Safepoint.Act
import Safepoint.Memory

/-!
What calls act on outside the binding: memory, and whatever the host and the collector keep.
-/
namespace Safepoint

structure Machine (ε : Type) where
  memory : Memory
  env : ε

/-- A machine as one mutator works on it: with the collector's state for that mutator. -/
structure Attached (μ ε : Type) where
  mutator : μ
  machine : Machine ε

namespace Machine

variable {ε : Type}

def memoryPlace : Place (Machine ε) Memory := ⟨memory, fun memory m => { m with memory }⟩

def envPlace : Place (Machine ε) ε := ⟨env, fun env m => { m with env }⟩

/-- Read memory. -/
def peek {α : Type} (f : Memory → Except Panic α) : Act (Machine ε) α := Act.read fun m => f m.memory

/-- Write memory, unless a check breaks. -/
def poke (f : Memory → Except Panic Memory) : Act (Machine ε) Unit :=
  Act.update fun m => (f m.memory).map fun memory => ((), { m with memory })

end Machine

namespace Attached

variable {μ ε : Type}

def machinePlace : Place (Attached μ ε) (Machine ε) :=
  ⟨machine, fun machine a => { a with machine }⟩

end Attached

end Safepoint
