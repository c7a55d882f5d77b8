import Safepoint.Act
import Safepoint.Forwarding
import Safepoint.Object.Kind
import Std.Data.ExtTreeMap

/-!
A heap that hands out words one after another and never takes any back. The first word of an
object is its header, the second tells its kind, and its fields follow. An object that was swept
is still there to be looked at, but it is marked as freed.
-/
namespace Safepoint.Simulated

structure Allocation where
  fields : UInt64
  kind : ObjectKind
  freed : Bool
  deriving DecidableEq

/-- Words in a heap. -/
def heapWords : Nat := 0x100000

/-- Words of an object before its fields. -/
def headerWords : UInt64 := 2

def referentOffset : UInt64 := 16

def discoveredOffset : UInt64 := 24

/-- A heap at `start`. `next` counts the words handed out, also those of a request that failed. -/
structure Heap where
  start : Address
  next : UInt64 := 0
  objects : Std.ExtTreeMap ObjectRef Allocation := {}

namespace Heap

/-- The first address after the heap. -/
def limit (heap : Heap) : Address := heap.start + (8 * heapWords).toUInt64

def contains (heap : Heap) (a : Address) : Bool := heap.start ≤ a && a < heap.limit

/-- Words for an object, the header included. -/
def wordsFor (fields : UInt64) : Except Panic UInt64 := addChecked headerWords fields

def get? (heap : Heap) (object : ObjectRef) : Option Allocation := heap.objects[object]?

def kind? (heap : Heap) (object : ObjectRef) : Option ObjectKind :=
  (heap.get? object).map Allocation.kind

/-- Bytes an object takes, none if it is not of this heap. -/
def sizeOf (heap : Heap) (object : ObjectRef) : Nat :=
  match heap.get? object with
  | some a => (headerWords.toNat + a.fields.toNat) * 8
  | none => 0

def isFreed (heap : Heap) (object : ObjectRef) : Bool :=
  match heap.get? object with
  | some a => a.freed
  | none => true

/-- The objects that were not freed, in address order. -/
def unfreed (heap : Heap) : List (ObjectRef × Allocation) :=
  heap.objects.toList.filter fun e => !e.2.freed

/-- The reference objects that were not freed, in the order in which they were allocated. -/
def references (heap : Heap) : List ObjectRef :=
  (heap.unfreed.filter fun e => e.2.kind = .reference).map Prod.fst

/-- The strong fields of an object. The referent of a reference object is none of them. -/
def strongFields (heap : Heap) (object : ObjectRef) : Except Panic (List Slot) :=
  match heap.get? object with
  | none => .ok []
  | some ⟨_, .reference, _⟩ => do return [← Slot.ofField object discoveredOffset false]
  | some ⟨fields, .plain, _⟩ =>
    (List.range fields.toNat).mapM fun i => Slot.ofField object (16 + i.toUInt64 * 8) false

/-- All the fields there are, counted. -/
def fieldCount (heap : Heap) : Nat :=
  heap.objects.values.foldl (fun n a => n + a.fields.toNat) 0

/-- Free what is not live. The result is the number of objects freed. -/
def sweep (heap : Heap) (isLive : ObjectRef → Bool) : Nat × Heap :=
  (heap.unfreed.countP fun e => !isLive e.1,
    { heap with objects := heap.objects.map fun o a => { a with freed := a.freed || !isLive o } })

end Heap

/-- A heap with the memory that it lies in. -/
structure Ground where
  heap : Heap
  memory : Memory

namespace Ground

def heapPlace : Place Ground Heap := ⟨heap, fun heap g => { g with heap }⟩

/-- Give an object to the heap. Its words are used up also when they do not fit. -/
def allocate (fields : UInt64) (kind : ObjectKind) : Act Ground ObjectRef := do
  let words ← Act.check (Heap.wordsFor fields)
  let index := (← get).heap.next
  modify fun g => { g with heap.next := g.heap.next + words }
  let after ← Act.check (addChecked index words)
  if heapWords < after.toNat then Act.panic .heapExhausted
  let address := (← get).heap.start + index * 8
  modify fun g => { g with memory := g.memory.store (address + 8) 8 kind.tag }
  let object ← Act.check (ObjectRef.ofNonzero address)
  modify fun g => { g with heap.objects := g.heap.objects.insert object ⟨fields, kind, false⟩ }
  return object

/-- Give a reference object to the heap, with its referent. -/
def allocateReference (referent : Option ObjectRef) : Act Ground ObjectRef := do
  let object ← allocate 2 .reference
  Act.update fun g => do
    let slot ← Slot.ofField object referentOffset false
    return ((), { g with memory := ← slot.store .identity referent g.memory })
  return object

/-- Leave a forwarding word in the header of `source`. -/
def forward (source target : ObjectRef) (m : Memory) : Memory :=
  m.store source.address 8 (ForwardingWord.forwardedTo target).raw

end Ground

end Safepoint.Simulated
