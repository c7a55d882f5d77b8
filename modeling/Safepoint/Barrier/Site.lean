import Safepoint.Options

/-!
What a compiler knows about a store: where it goes, what it stores, and which code runs it.
-/
namespace Safepoint

/-- Facts about the place of an access, as bits. -/
structure Decorators where
  bits : UInt32
  deriving DecidableEq

namespace Decorators

/-- The destination is a field or an array element in the heap. -/
def inHeap : Decorators := ⟨1⟩
/-- The destination is off the heap. -/
def inNative : Decorators := ⟨2⟩
/-- The store need not keep the old value alive. -/
def noKeepalive : Decorators := ⟨4⟩
def isArray : Decorators := ⟨8⟩
/-- The destination of a copy is fresh memory, without old values. -/
def destUninitialized : Decorators := ⟨16⟩

/-- All of them with their names, in the order of the bits. -/
def named : List (String × Decorators) :=
  [("IN_HEAP", inHeap), ("IN_NATIVE", inNative), ("AS_NO_KEEPALIVE", noKeepalive),
    ("IS_ARRAY", isArray), ("IS_DEST_UNINITIALIZED", destUninitialized)]

/-- The bits that mean something. -/
def known : UInt32 := 31

def contains (d fact : Decorators) : Bool := d.bits &&& fact.bits == fact.bits

/-- Keep the bits that mean something. -/
def truncate (bits : UInt32) : Decorators := ⟨bits &&& known⟩

/-- Accept bits only if all of them mean something. -/
def ofBits? (bits : UInt32) : Option Decorators :=
  if bits &&& known = bits then some ⟨bits⟩ else none

/-- The names of the facts that hold. -/
def names (d : Decorators) : List String :=
  (named.filter fun fact => d.contains fact.2).map Prod.fst

end Decorators

/-- What is stored, as the compiler sees it. -/
inductive Operand where
  /-- A null in the instruction stream. -/
  | constNull
  /-- The contents of a register, which may be null too. -/
  | value (object : Option ObjectRef)
  deriving DecidableEq

def Operand.object : Operand → Option ObjectRef
  | .constNull => none
  | .value object => object

/-- Which code runs a store. -/
inductive Tier where
  | interpreter | baseline | optimizing
  deriving DecidableEq

namespace Tier

def all : List Tier := [.interpreter, .baseline, .optimizing]

/-- Compiled code has the test and the fast path of a barrier inlined. -/
def inlinesFastPath : Tier → Bool
  | .interpreter => false
  | _ => true

def name : Tier → String
  | .interpreter => "Interpreter"
  | .baseline => "Baseline"
  | .optimizing => "Optimizing"

end Tier

/-- Whether a store needs no barrier at all. -/
def canElide (d : Decorators) (operand : Operand) (skipConstNull : Bool) : Bool :=
  !d.contains .inHeap || (skipConstNull && operand == .constNull)

namespace BarrierKind

/-- Storing a constant null makes no edge. Only a barrier that logs old values has to see it. -/
def skipConstNull : BarrierKind → Bool
  | .field => false
  | _ => true

def elide (kind : BarrierKind) (d : Decorators) (operand : Operand) : Bool :=
  canElide d operand kind.skipConstNull

end BarrierKind

end Safepoint
