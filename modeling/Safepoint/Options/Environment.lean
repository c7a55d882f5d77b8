import Safepoint.Options
import Safepoint.Text.Blank

/-!
Options from the environment. Each variable sets one field, so later pairs win over earlier
ones and pairs for different fields do not disturb each other. Variables without the family
name, and names nobody knows, are ignored.
-/
namespace Safepoint

namespace BarrierKind

/-- The words for a barrier, in any case and with blanks around them. -/
def ofText (text : String) : Except OptionsFault BarrierKind :=
  let word := Text.word text
  if word = "none" ∨ word = "no" then .ok .none
  else if word = "object" ∨ word = "object_logging" then .ok .object
  else if word = "field" ∨ word = "field_logging" then .ok .field
  else .error (.unknownBarrier word)

end BarrierKind

namespace WeakProcessing

def ofText (text : String) : Except OptionsFault WeakProcessing :=
  let word := Text.word text
  if word = "tracing" then .ok .tracing
  else if word = "reference_counting" ∨ word = "rc" then .ok .referenceCounting
  else .error (.unknownWeakProcessing word)

end WeakProcessing

namespace Options

/-- The words for yes and no. -/
def flagOfText (setting text : String) : Except OptionsFault Bool :=
  let word := Text.word text
  if word ∈ ["1", "true", "yes", "on"] then .ok true
  else if word ∈ ["0", "false", "no", "off"] then .ok false
  else .error (.notBoolean setting text)

/-- Decimal digits, at least one of them. -/
def digits? : List Char → Option Nat
  | [] => none
  | cs => if cs.all Char.isDigit then some (cs.foldl (fun n c => 10 * n + (c.toNat - 48)) 0) else none

/-- A decimal word of 64 bits, which may carry a plus sign. -/
def wordOfText? (cs : List Char) : Option Nat :=
  let n := match cs with
    | '+' :: rest => digits? rest
    | cs => digits? cs
  n.filter (· < UInt64.size)

def integerOfText (setting text : String) : Except OptionsFault Nat :=
  match wordOfText? (Text.trim text.toList) with
  | some n => .ok n
  | none => .error (.notInteger setting text)

/-- What a variable sets. -/
inductive Setting where
  | barrier | compressedPointers | rootBufferCapacity | classUnloading | parallelRootScan
  | relocateCode | weakProcessing
  | engine (key : String)
  deriving DecidableEq

/-- The rest of a text after a given beginning. -/
def after? (start text : List Char) : Option (List Char) :=
  if start.isPrefixOf text then some (text.drop start.length) else none

def namedSetting? (name : String) : Option Setting :=
  if name = "BARRIER" then some .barrier
  else if name = "COMPRESSED_POINTERS" then some .compressedPointers
  else if name = "ROOT_BUFFER_CAPACITY" then some .rootBufferCapacity
  else if name = "CLASS_UNLOADING" then some .classUnloading
  else if name = "PARALLEL_ROOT_SCAN" then some .parallelRootScan
  else if name = "RELOCATE_CODE" then some .relocateCode
  else if name = "WEAK_PROCESSING" then some .weakProcessing
  else none

/-- The setting a variable names. Names of the collector's own options are folded to lower
case; the others are taken as they are. -/
def setting? (key : String) : Option Setting :=
  match after? "GCBRIDGE_MMTK_".toList key.toList with
  | some rest => some (.engine (String.ofList (Text.fold rest)))
  | none =>
    match after? "GCBRIDGE_".toList key.toList with
    | some rest => namedSetting? (String.ofList rest)
    | none => none

/-- Give one setting the value a text stands for. -/
def assign (o : Options) (setting : Setting) (text : String) : Except OptionsFault Options :=
  match setting with
  | .engine key => .ok { o with engine := o.engine.insert key text }
  | .barrier => (BarrierKind.ofText text).map fun barrier => { o with barrier }
  | .compressedPointers =>
    (flagOfText "COMPRESSED_POINTERS" text).map fun compressedPointers =>
      { o with compressedPointers }
  | .rootBufferCapacity =>
    (integerOfText "ROOT_BUFFER_CAPACITY" text).map fun rootBufferCapacity =>
      { o with rootBufferCapacity }
  | .classUnloading =>
    (flagOfText "CLASS_UNLOADING" text).map fun classUnloading => { o with classUnloading }
  | .parallelRootScan =>
    (flagOfText "PARALLEL_ROOT_SCAN" text).map fun parallelRootScan => { o with parallelRootScan }
  | .relocateCode =>
    (flagOfText "RELOCATE_CODE" text).map fun relocateCode => { o with relocateCode }
  | .weakProcessing =>
    (WeakProcessing.ofText text).map fun weakProcessing => { o with weakProcessing }

/-- Apply the pairs one after another, up to the first value that cannot be read. The options
reached by then come back beside that failure. -/
def assignAll (o : Options) : List (String × String) → Option OptionsFault × Options
  | [] => (none, o)
  | (key, text) :: rest =>
    match setting? key with
    | none => assignAll o rest
    | some setting =>
      match o.assign setting text with
      | .ok o => assignAll o rest
      | .error fault => (some fault, o)

/-- Apply the pairs, then judge the options as a whole. -/
def applyEnvironment (o : Options) (pairs : List (String × String)) :
    Except Error Unit × Options :=
  match o.assignAll pairs with
  | (some fault, o) => (.error (.invalidOptions fault), o)
  | (none, o) => (o.validate, o)

/-- Give a variable of an environment a value. A variable it already has keeps its place. -/
def setVariable (name value : String) : List (String × String) → List (String × String)
  | [] => [(name, value)]
  | (n, v) :: rest =>
    if n = name then (n, value) :: rest else (n, v) :: setVariable name value rest

/-- The defaults as the environment changes them. -/
def ofEnvironment (pairs : List (String × String)) : Except Error Options :=
  match default.applyEnvironment pairs with
  | (.ok (), o) => .ok o
  | (.error e, _) => .error e

end Options

end Safepoint
