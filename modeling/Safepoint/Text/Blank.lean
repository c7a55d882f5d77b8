/-!
White space as Unicode has it, and letters as ASCII has them.
-/
namespace Safepoint.Text

/-- The code points with the property White_Space. -/
def blanks : List Nat :=
  [0x9, 0xa, 0xb, 0xc, 0xd, 0x20, 0x85, 0xa0, 0x1680, 0x2000, 0x2001, 0x2002, 0x2003, 0x2004,
    0x2005, 0x2006, 0x2007, 0x2008, 0x2009, 0x200a, 0x2028, 0x2029, 0x202f, 0x205f, 0x3000]

def isBlank (c : Char) : Bool := blanks.contains c.toNat

/-- Drop blanks from both ends. -/
def trim (s : List Char) : List Char :=
  ((s.dropWhile isBlank).reverse.dropWhile isBlank).reverse

/-- Fold the letters A to Z and leave all else alone. -/
def fold (s : List Char) : List Char := s.map Char.toLower

/-- The form in which option words are compared. -/
def word (s : String) : String := String.ofList (fold (trim s.toList))

end Safepoint.Text
