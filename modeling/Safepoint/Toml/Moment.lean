/-!
Dates and times: a day, a time of day, or a time on a day, which may say how far its clock is
from UTC. Several spellings are read, and one is written.
-/
namespace Safepoint.Toml

structure Day where
  year : Nat
  month : Nat
  day : Nat
  deriving DecidableEq

structure TimeOfDay where
  hour : Nat
  minute : Nat
  second : Nat
  nanosecond : Nat
  deriving DecidableEq

/-- How far a clock is from UTC. -/
inductive Offset where
  | utc
  | ahead (minutes : Nat)
  | behind (minutes : Nat)
  deriving DecidableEq

inductive Moment where
  | day (day : Day)
  | time (time : TimeOfDay)
  | dayTime (day : Day) (time : TimeOfDay) (offset : Option Offset)
  deriving DecidableEq

namespace Day

def isLeapYear (year : Nat) : Bool := year % 4 == 0 && (year % 100 != 0 || year % 400 == 0)

/-- The length of a month. -/
def daysIn (year month : Nat) : Nat :=
  if month = 2 then (if isLeapYear year then 29 else 28)
  else if month ∈ [4, 6, 9, 11] then 30
  else 31

/-- Whether the calendar has the day. The year 0 is taken to be one. -/
def isValid (d : Day) : Bool :=
  1 ≤ d.month && d.month ≤ 12 && 1 ≤ d.day && d.day ≤ daysIn d.year d.month

end Day

/-- Whether a clock may show the time. A minute may end in a leap second. -/
def TimeOfDay.isValid (t : TimeOfDay) : Bool :=
  t.hour ≤ 23 && t.minute ≤ 59 && t.second ≤ 60

/-! Reading -/

def decimalValue (digits : List Char) : Nat := digits.foldl (fun n c => 10 * n + (c.toNat - 48)) 0

/-- A number of just so many digits. -/
def fixed? (count : Nat) (cs : List Char) : Option (Nat × List Char) :=
  let digits := cs.take count
  if digits.length = count ∧ digits.all Char.isDigit then some (decimalValue digits, cs.drop count)
  else none

/-- Two numbers of two digits, with a colon between them. -/
def clock? (cs : List Char) : Option ((Nat × Nat) × List Char) := do
  let (hour, rest) ← fixed? 2 cs
  match rest with
  | ':' :: rest =>
    let (minute, rest) ← fixed? 2 rest
    return ((hour, minute), rest)
  | _ => none

def day? (cs : List Char) : Option (Day × List Char) := do
  let (year, rest) ← fixed? 4 cs
  match rest with
  | '-' :: rest =>
    let (month, rest) ← fixed? 2 rest
    match rest with
    | '-' :: rest =>
      let (day, rest) ← fixed? 2 rest
      let day : Day := ⟨year, month, day⟩
      if day.isValid then return (day, rest) else none
    | _ => none
  | _ => none

/-- The digits behind the point, as nanoseconds. Those beyond the ninth are dropped. -/
def fraction? : List Char → Option (Nat × List Char)
  | '.' :: rest =>
    let digits := rest.takeWhile Char.isDigit
    if digits = [] then none
    else some (decimalValue ((digits ++ List.replicate 9 '0').take 9), rest.dropWhile Char.isDigit)
  | rest => some (0, rest)

/-- A time of day. The seconds may be left out. -/
def time? (cs : List Char) : Option (TimeOfDay × List Char) := do
  let ((hour, minute), rest) ← clock? cs
  match rest with
  | ':' :: rest =>
    let (second, rest) ← fixed? 2 rest
    let (nanosecond, rest) ← fraction? rest
    let time : TimeOfDay := ⟨hour, minute, second, nanosecond⟩
    if time.isValid then return (time, rest) else none
  | rest =>
    let time : TimeOfDay := ⟨hour, minute, 0, 0⟩
    if time.isValid then return (time, rest) else none

/-- The minutes between a clock and UTC. -/
def shift? (cs : List Char) : Option (Nat × List Char) := do
  let ((hours, minutes), rest) ← clock? cs
  if hours ≤ 23 ∧ minutes ≤ 59 then return (60 * hours + minutes, rest) else none

def offset? : List Char → Option (Option Offset × List Char)
  | 'Z' :: rest => some (some .utc, rest)
  | 'z' :: rest => some (some .utc, rest)
  | '+' :: rest => (shift? rest).map fun (minutes, rest) => (some (.ahead minutes), rest)
  | '-' :: rest => (shift? rest).map fun (minutes, rest) => (some (.behind minutes), rest)
  | rest => some (none, rest)

/-- What follows the mark between a day and the time on it. There is no mark at the end of a
day that stands alone. -/
def afterMark? : List Char → Option (List Char)
  | 'T' :: rest => some rest
  | 't' :: rest => some rest
  | ' ' :: c :: rest => if c.isDigit then some (c :: rest) else none
  | _ => none

/-- A day, a time, or both. Only a time on a day may have an offset. -/
def moment? (cs : List Char) : Option (Moment × List Char) :=
  match day? cs with
  | none => (time? cs).map fun (time, rest) => (.time time, rest)
  | some (day, rest) =>
    match afterMark? rest with
    | none => some (.day day, rest)
    | some rest => do
      let (time, rest) ← time? rest
      let (offset, rest) ← offset? rest
      return (.dayTime day time offset, rest)

/-! Writing -/

/-- A number with zeros in front. -/
def padded (width n : Nat) : List Char := (Nat.toDigits 10 n).leftpad width '0'

def Day.chars (d : Day) : List Char :=
  padded 4 d.year ++ '-' :: padded 2 d.month ++ '-' :: padded 2 d.day

/-- The point and the digits behind it, without zeros at the end. -/
def fractionChars (nanosecond : Nat) : List Char :=
  if nanosecond = 0 then []
  else '.' :: ((padded 9 nanosecond).reverse.dropWhile (· = '0')).reverse

def TimeOfDay.chars (t : TimeOfDay) : List Char :=
  padded 2 t.hour ++ ':' :: padded 2 t.minute ++ ':' :: padded 2 t.second
    ++ fractionChars t.nanosecond

/-- A clock that is not ahead at all is written as one that is. -/
def Offset.chars : Offset → List Char
  | .utc => ['Z']
  | .ahead minutes => '+' :: clockChars minutes
  | .behind minutes => (if minutes = 0 then '+' else '-') :: clockChars minutes
where
  clockChars (minutes : Nat) : List Char := padded 2 (minutes / 60) ++ ':' :: padded 2 (minutes % 60)

def Moment.text : Moment → String
  | .day d => String.ofList d.chars
  | .time t => String.ofList t.chars
  | .dayTime d t offset =>
    String.ofList (d.chars ++ 'T' :: t.chars ++ (offset.map Offset.chars).getD [])

end Safepoint.Toml
