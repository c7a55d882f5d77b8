import Safepoint.Text.Blank
import Safepoint.Text.Combining
import Safepoint.Text.Unassigned

/-!
Text between quotes, for output meant to be read. A quote or a backslash is marked by a
backslash; line breaks and the like have short names; whatever else would not be visible by
itself, such as a control character or an accent without a letter, is given by its number.
-/
namespace Safepoint.Text

/-- First and last code points of the ranges with the general category Cf. -/
def formatRanges : List (Nat × Nat) :=
  [(0xad, 0xad), (0x600, 0x605), (0x61c, 0x61c), (0x6dd, 0x6dd), (0x70f, 0x70f), (0x890, 0x891),
    (0x8e2, 0x8e2), (0x180e, 0x180e), (0x200b, 0x200f), (0x202a, 0x202e), (0x2060, 0x2064),
    (0x2066, 0x206f), (0xfeff, 0xfeff), (0xfff9, 0xfffb), (0x110bd, 0x110bd), (0x110cd, 0x110cd),
    (0x13430, 0x1343f), (0x1bca0, 0x1bca3), (0x1d173, 0x1d17a), (0xe0001, 0xe0001),
    (0xe0020, 0xe007f)]

/-- Code points of private use. -/
def privateRanges : List (Nat × Nat) :=
  [(0xe000, 0xf8ff), (0xf0000, 0xffffd), (0x100000, 0x10fffd)]

/-- The letters of Hangul that stand for a missing one. -/
def fillerRanges : List (Nat × Nat) := [(0x115f, 0x1160), (0x3164, 0x3164), (0xffa0, 0xffa0)]

def isIn (c : Char) (ranges : List (Nat × Nat)) : Bool :=
  ranges.any fun range => range.1 ≤ c.toNat && c.toNat ≤ range.2

/-- A control character: the general category Cc. -/
def isControl (c : Char) : Bool := isIn c [(0x0, 0x1f), (0x7f, 0x9f)]

/-- Whether a character would be missed, or taken for part of another one, if it stood there as
it is. A space would not. -/
def isInvisible (c : Char) : Bool :=
  isControl c || (c != ' ' && isBlank c) || isIn c formatRanges || isIn c privateRanges
    || isIn c fillerRanges || isIn c combiningRanges || isIn c unassignedRanges

/-- How one character is written between quotes. -/
def escape (c : Char) : List Char :=
  if c = '"' then ['\\', '"']
  else if c = '\\' then ['\\', '\\']
  else if c = '\n' then ['\\', 'n']
  else if c = '\r' then ['\\', 'r']
  else if c = '\t' then ['\\', 't']
  else if c.toNat = 0 then ['\\', '0']
  else if isInvisible c then ['\\', 'u', '\x7b'] ++ Nat.toDigits 16 c.toNat ++ ['\x7d']
  else [c]

/-- A text in quotes. -/
def quote (text : String) : String := String.ofList ('"' :: text.toList.flatMap escape ++ ['"'])

end Safepoint.Text
