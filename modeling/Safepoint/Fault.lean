import Safepoint.Basic

/-!
What can go wrong, as causes. An `Error` is handed back to the caller, who may go on. A
`Violation` would corrupt the handshake if anyone went on, so it ends the process through
the host. A `Panic` is a broken check: it ends the call, and what the call had already done
stays done. The wording of each lives in its `message` and nowhere else.
-/
namespace Safepoint

namespace CollectorKind

def name : CollectorKind → String
  | .controller => "Controller"
  | .worker => "Worker"

end CollectorKind

/-- Why options were refused. -/
inductive OptionsFault where
  | unknownBarrier (given : String)
  | unknownWeakProcessing (given : String)
  | notInteger (setting given : String)
  | notBoolean (setting given : String)
  | zeroCapacity
  | countingNeedsFieldBarrier
  | noHeapRange
  | stated (reason : String)
  deriving DecidableEq

def OptionsFault.message : OptionsFault → String
  | .unknownBarrier given => "unknown barrier `" ++ given ++ "`"
  | .unknownWeakProcessing given => "unknown weak processing mode `" ++ given ++ "`"
  | .notInteger setting given => setting ++ " must be an integer, got `" ++ given ++ "`"
  | .notBoolean setting given => setting ++ " must be a boolean, got `" ++ given ++ "`"
  | .zeroCapacity => "root_buffer_capacity must be at least 1"
  | .countingNeedsFieldBarrier => "reference-counting weak processing requires the field barrier"
  | .noHeapRange => "compressed_pointers needs an engine heap range or an explicit codec"
  | .stated reason => reason

/-- Why a file of options could not be read. -/
inductive ReadFault where
  | missing | directory | notText
  deriving DecidableEq

def ReadFault.message : ReadFault → String
  | .missing => "No such file or directory (os error 2)"
  | .directory => "Is a directory (os error 21)"
  | .notText => "stream did not contain valid UTF-8"

/-- A failure the caller may recover from. -/
inductive Error where
  | missingPart (name : String)
  | alreadyInstalled
  | notInstalled
  | invalidOffset (name : String) (value : Int)
  | invalidOptions (fault : OptionsFault)
  | rejectedEngineOption (key value : String)
  | malformedDocument
  | unreadable (fault : ReadFault)
  | unknownCollectorKind (tag : Int)
  | alreadyRegistered (thread : ThreadId)
  | spawnFailed (kind : CollectorKind)
  deriving DecidableEq

def Error.message : Error → String
  | .missingPart name => "upcall table is missing `" ++ name ++ "`"
  | .alreadyInstalled => "upcall table already installed"
  | .notInstalled => "binding has not been initialized"
  | .invalidOffset name value =>
    "layout offset `" ++ name ++ "` has invalid value " ++ value.repr
  | .invalidOptions fault => "invalid configuration: " ++ fault.message
  | .rejectedEngineOption key value =>
    "engine rejected option `" ++ key ++ "` = `" ++ value ++ "`"
  | .malformedDocument => "failed to parse configuration"
  | .unreadable fault => fault.message
  | .unknownCollectorKind tag => "unknown GC thread kind " ++ tag.repr
  | .alreadyRegistered thread =>
    "thread " ++ thread.text ++ " is already registered with the binding"
  | .spawnFailed kind => "failed to spawn " ++ kind.name ++ " thread"

/-- A breach of the handshake. -/
inductive Violation where
  | collectorAsMutator (thread : ThreadId)
  | mutatorAsCollector (thread : ThreadId)
  | unregisteredThread (thread : ThreadId)
  | unknownMutator (id : MutatorId)
  | unexpectedCollectorKind (tag : Int)
  | illegalTransition (source target : WorldState)
  deriving DecidableEq

def MutatorId.text (id : MutatorId) : String := "MutatorId(" ++ id.value.toNat.repr ++ ")"

def Violation.message : Violation → String
  | .collectorAsMutator thread =>
    "collector thread " ++ thread.text ++ " tried to act as a mutator"
  | .mutatorAsCollector thread =>
    "mutator thread " ++ thread.text ++ " tried to act as a collector"
  | .unregisteredThread thread => "thread " ++ thread.text ++ " is not registered with the binding"
  | .unknownMutator id => "mutator " ++ id.text ++ " is not registered with the binding"
  | .unexpectedCollectorKind tag => "unexpected GC thread kind " ++ tag.repr
  | .illegalTransition source target =>
    "illegal world transition " ++ source.name ++ " -> " ++ target.name

/-- Why the host was asked to stop the process. -/
inductive Termination where
  | violation (breach : Violation)
  | spawnFailed (kind : CollectorKind)
  | addressSpaceExhausted
  deriving DecidableEq

def Termination.message : Termination → String
  | .violation breach => "protocol violation: " ++ breach.message
  | .spawnFailed kind => (Error.spawnFailed kind).message
  | .addressSpaceExhausted =>
    "Unable to acquire more memory from the OS. Out of system resources."

/-- How a codec is shown. -/
def PointerCodec.text (codec : PointerCodec) : String :=
  "PointerCodec \x7b base: " ++ codec.base.toNat.repr ++ ", shift: " ++ codec.shift.repr ++ " \x7d"

namespace Slot

/-- The bit of a slot that marks it narrow. -/
def narrowTag : UInt64 := 0x8000000000000000

def isNarrow (slot : Slot) : Bool := slot.raw &&& narrowTag != 0

/-- The location itself, with the tag stripped. -/
def address (slot : Slot) : Address := slot.raw &&& ~~~narrowTag

/-- How a slot is shown. -/
def text (slot : Slot) : String :=
  "RefSlot(" ++ (if slot.isNarrow then "narrow " else "wide ") ++ hex slot.address ++ ")"

end Slot

/-- A broken check. -/
inductive Panic where
  | misaligned (address : Address)
  | zeroReference
  | belowBase (address base : Address)
  | beyondNarrow (address : Address) (codec : PointerCodec)
  | addOverflow
  | multiplyOverflow
  | shiftLeftOverflow
  | shiftRightOverflow
  | taggedAddress
  | unequalBytes (source target : Nat)
  | unequalWidths (source target : Bool)
  | repeatedSlot (slot : Slot)
  | keptBuffer
  | capacityOverflow
  | heapExhausted
  deriving DecidableEq

def Panic.message : Panic → String
  | .misaligned address =>
    "ObjectReference is required to be word aligned.  addr: " ++ hex address
  | .zeroReference => "assertion failed: !addr.is_zero()"
  | .belowBase address base => hex address ++ " is below the codec base " ++ hex base
  | .beyondNarrow address codec =>
    hex address ++ " does not fit a narrow slot under " ++ codec.text
  | .addOverflow => "attempt to add with overflow"
  | .multiplyOverflow => "attempt to multiply with overflow"
  | .shiftLeftOverflow => "attempt to shift left with overflow"
  | .shiftRightOverflow => "attempt to shift right with overflow"
  | .taggedAddress => unequal (Slot.narrowTag.toNat.repr) "0"
  | .unequalBytes source target => unequal source.repr target.repr
  | .unequalWidths source target => unequal (toString source) (toString target)
  | .repeatedSlot slot => slot.text ++ " reported twice in one scan"
  | .keptBuffer => "sink returned a non-empty buffer"
  | .capacityOverflow => "capacity overflow"
  | .heapExhausted => "sim heap exhausted"
where
  unequal (left right : String) : String :=
    "assertion `left == right` failed\n  left: " ++ left ++ "\n right: " ++ right

/-- How a call ends that does not return: a broken check, the host stopping the process, the
process breaking off where there is no host to ask, or a wait that nobody is left to end. -/
inductive Fault where
  | panic (cause : Panic)
  | terminated (reason : Termination)
  | aborted (cause : Error)
  | stuck
  deriving DecidableEq

end Safepoint
