/-!
Plain data: what commands are written in and what their results are shown as. A record is read
by the names of its fields. A field that is not there reads as null, and null reads as the
empty or zero value of whatever kind is asked for.
-/
namespace Safepoint

inductive Datum where
  | null
  | truth (b : Bool)
  | number (n : Int)
  | text (s : String)
  | list (items : List Datum)
  | record (fields : List (String × Datum))
  deriving Inhabited

/-- The named parts of a record. -/
abbrev Fields := List (String × Datum)

namespace Datum

def isNull : Datum → Bool
  | .null => true
  | _ => false

def asText? : Datum → Option String
  | .text s => some s
  | _ => none

def asText (d : Datum) : String := d.asText?.getD ""

def asInt? : Datum → Option Int
  | .number n => some n
  | _ => none

def asInt (d : Datum) : Int := d.asInt?.getD 0

def asNat? (d : Datum) : Option Nat := d.asInt?.map Int.toNat

def asNat (d : Datum) : Nat := d.asInt.toNat

def asTruth? : Datum → Option Bool
  | .truth b => some b
  | _ => none

def asList : Datum → List Datum
  | .list items => items
  | _ => []

def asRecord : Datum → Fields
  | .record fields => fields
  | _ => []

/-- A field of a record, if it is there. -/
def field? (d : Datum) (key : String) : Option Datum :=
  (d.asRecord.find? (·.1 = key)).map Prod.snd

def field (d : Datum) (key : String) : Datum := (d.field? key).getD .null

def listAt (d : Datum) (key : String) : List Datum := (d.field key).asList

def text? (d : Datum) (key : String) : Option String := (d.field key).asText?

def textAt (d : Datum) (key : String) : String := (d.field key).asText

def intAt (d : Datum) (key : String) : Int := (d.field key).asInt

def natAt (d : Datum) (key : String) : Nat := (d.field key).asNat

def natOr (d : Datum) (key : String) (otherwise : Nat) : Nat := (d.field key).asNat?.getD otherwise

def truthAt (d : Datum) (key : String) : Bool := (d.field key).asTruth?.getD false

def truthOr (d : Datum) (key : String) (otherwise : Bool) : Bool :=
  (d.field key).asTruth?.getD otherwise

/-- The name of a command. -/
def op (d : Datum) : String := d.textAt "op"

end Datum

end Safepoint
