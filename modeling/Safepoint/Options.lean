import Safepoint.Fault

/-!
The options a binding starts with.
-/
namespace Safepoint

/-- Which barrier the compilers emit. -/
inductive BarrierKind where
  /-- For collectors that never run beside mutators and keep no remembered set. -/
  | none
  /-- Remembers objects that were stored into. -/
  | object
  /-- Logs the old value of each field once. -/
  | field
  deriving DecidableEq

/-- What counts as live when weak roots are updated after a cycle. -/
inductive WeakProcessing where
  | tracing | referenceCounting
  deriving DecidableEq

structure Options where
  barrier : BarrierKind := .none
  /-- Fields hold 32-bit encoded references. -/
  compressedPointers : Bool := false
  /-- Room in the edge buffers the binding makes itself. -/
  rootBufferCapacity : Nat := 4096
  /-- Cycles may unload classes, and then weak class-loader edges are no roots. -/
  classUnloading : Bool := true
  parallelRootScan : Bool := false
  /-- The collector moves objects, so compiled code has to be fixed up. -/
  relocateCode : Bool := false
  weakProcessing : WeakProcessing := .tracing
  /-- Passed to the collector as they are. -/
  engine : Std.ExtTreeMap String String := {}

namespace Options

/-- The default options. -/
def default : Options := {}

/-- What no collector can work with. -/
def fault? (o : Options) : Option OptionsFault :=
  if o.rootBufferCapacity = 0 then some .zeroCapacity
  else if o.weakProcessing = .referenceCounting ∧ o.barrier ≠ .field then
    some .countingNeedsFieldBarrier
  else none

def validate (o : Options) : Except Error Unit :=
  match o.fault? with
  | some fault => .error (.invalidOptions fault)
  | none => .ok ()

end Options

namespace BarrierKind

def name : BarrierKind → String
  | .none => "none"
  | .object => "object"
  | .field => "field"

end BarrierKind

namespace WeakProcessing

def name : WeakProcessing → String
  | .tracing => "tracing"
  | .referenceCounting => "reference_counting"

end WeakProcessing

end Safepoint
