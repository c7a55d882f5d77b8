import Safepoint.Basic
import Std.Data.ExtTreeSet

/-!
Where the threads of a simulated host are. A thread that runs managed code is attached; one that
waits in a safe region is parked. A stop is granted once every attached thread is parked, and no
thread attaches or leaves its safe region while a stop is asked for.
-/
namespace Safepoint.Simulated

structure Parking where
  requested : Bool := false
  attached : Std.ExtTreeSet ThreadId := {}
  parked : Std.ExtTreeSet ThreadId := {}

namespace Parking

def allParked (p : Parking) : Bool := p.attached.toList.all fun t => t ∈ p.parked

/-- Start to run managed code. A thread that comes during a stop has to wait. -/
def attach? (p : Parking) (me : ThreadId) : Option Parking :=
  if p.requested then none else some { p with attached := p.attached.insert me }

/-- Stop running managed code. That counts as reaching a safe point. -/
def detach (p : Parking) (me : ThreadId) : Parking := { p with attached := p.attached.erase me }

/-- Enter a safe region. -/
def park (p : Parking) (me : ThreadId) : Parking := { p with parked := p.parked.insert me }

/-- Leave a safe region, or wait for the stop to end. -/
def unpark? (p : Parking) (me : ThreadId) : Option Parking :=
  if p.requested then none else some { p with parked := p.parked.erase me }

/-- Ask for a stop. -/
def request (p : Parking) : Parking := { p with requested := true }

/-- End a stop. -/
def release (p : Parking) : Parking := { p with requested := false }

end Parking

end Safepoint.Simulated
