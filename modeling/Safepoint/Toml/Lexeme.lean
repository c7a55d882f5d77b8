/-!
The lexical part of TOML 1.1: blanks, comments, keys, strings and integers. Each reader takes
the rest of the text and gives what it read with what follows, or nothing if the text does not
go on that way.
-/
namespace Safepoint.Toml

def isSpace (c : Char) : Bool := c == ' ' || c == '\t'

/-- Control characters other than the tab stand nowhere but at the end of a line. -/
def isControl (c : Char) : Bool := (c.toNat < 0x20 && c != '\t') || c.toNat == 0x7f

def skipSpace (cs : List Char) : List Char := cs.dropWhile isSpace

/-- A line feed, with or without a carriage return before it. -/
def newline? : List Char → Option (List Char)
  | '\n' :: rest => some rest
  | '\r' :: '\n' :: rest => some rest
  | _ => none

/-- From a hash to the end of its line, which is not taken. -/
def skipComment : List Char → List Char
  | '#' :: rest => rest.dropWhile fun c => !isControl c
  | cs => cs

/-- What may follow a statement on its line, and the end of the line itself. -/
def endLine? (cs : List Char) : Option (List Char) :=
  match skipComment (skipSpace cs) with
  | [] => some []
  | cs => newline? cs

/-- Skip blanks, ends of lines and comments. -/
def skipLines : Nat → List Char → List Char
  | 0, cs => cs
  | fuel + 1, cs =>
    let cs := skipComment (skipSpace cs)
    match newline? cs with
    | some rest => skipLines fuel rest
    | none => cs

def isBareKey (c : Char) : Bool := c.isAlphanum || c == '_' || c == '-'

def hexDigit? (c : Char) : Option Nat :=
  if '0' ≤ c ∧ c ≤ '9' then some (c.toNat - 48)
  else if 'a' ≤ c ∧ c ≤ 'f' then some (c.toNat - 87)
  else if 'A' ≤ c ∧ c ≤ 'F' then some (c.toNat - 55)
  else none

/-- A character by its hexadecimal number. Surrogates are no characters. -/
def scalar? (digits : List Char) : Option Char := do
  let n ← digits.foldlM (fun n c => (hexDigit? c).map (16 * n + ·)) 0
  if n < 0xd800 ∨ (0xdfff < n ∧ n < 0x110000) then some (Char.ofNat n) else none

def escape? : Char → Option Char
  | 'b' => some '\x08'
  | 't' => some '\t'
  | 'n' => some '\n'
  | 'f' => some '\x0c'
  | 'r' => some '\r'
  | 'e' => some '\x1b'
  | '"' => some '"'
  | '\\' => some '\\'
  | _ => none

/-- The rest of a string in double quotes; `seen` has the latest character first. -/
def basicString (seen : List Char) : List Char → Option (String × List Char)
  | [] => none
  | '"' :: rest => some (String.ofList seen.reverse, rest)
  | '\\' :: 'x' :: a :: b :: rest => do basicString ((← scalar? [a, b]) :: seen) rest
  | '\\' :: 'u' :: a :: b :: c :: d :: rest => do
    basicString ((← scalar? [a, b, c, d]) :: seen) rest
  | '\\' :: 'U' :: a :: b :: c :: d :: e :: f :: g :: h :: rest => do
    basicString ((← scalar? [a, b, c, d, e, f, g, h]) :: seen) rest
  | '\\' :: c :: rest => do basicString ((← escape? c) :: seen) rest
  | c :: rest => if isControl c then none else basicString (c :: seen) rest

/-- The rest of a string in single quotes, where nothing is escaped. -/
def literalString (seen : List Char) : List Char → Option (String × List Char)
  | [] => none
  | '\'' :: rest => some (String.ofList seen.reverse, rest)
  | c :: rest => if isControl c then none else literalString (c :: seen) rest

/-- The rest of a string in three double quotes. Up to two quotes may stand before the closing
ones. After a backslash at the end of a line, blanks and ends of lines are trimmed; `trim`
tells whether that goes on, and whether its first line has ended. -/
def basicBlock (trim : Option Bool) (seen : List Char) : List Char → Option (String × List Char)
  | [] => none
  | '\r' :: '\n' :: rest =>
    match trim with
    | some _ => basicBlock (some true) seen rest
    | none => basicBlock none ('\n' :: '\r' :: seen) rest
  | c :: rest =>
    if trim = some false ∧ !isSpace c ∧ c ≠ '\n' then none
    else if trim.isSome ∧ isSpace c then basicBlock trim seen rest
    else if trim.isSome ∧ c = '\n' then basicBlock (some true) seen rest
    else match c, rest with
    | '"', '"' :: '"' :: '"' :: '"' :: rest => some (String.ofList ('"' :: '"' :: seen).reverse, rest)
    | '"', '"' :: '"' :: '"' :: rest => some (String.ofList ('"' :: seen).reverse, rest)
    | '"', '"' :: '"' :: rest => some (String.ofList seen.reverse, rest)
    | '\\', 'x' :: a :: b :: rest => do basicBlock none ((← scalar? [a, b]) :: seen) rest
    | '\\', 'u' :: a :: b :: c :: d :: rest => do
      basicBlock none ((← scalar? [a, b, c, d]) :: seen) rest
    | '\\', 'U' :: a :: b :: c :: d :: e :: f :: g :: h :: rest => do
      basicBlock none ((← scalar? [a, b, c, d, e, f, g, h]) :: seen) rest
    | '\\', ' ' :: rest => basicBlock (some false) seen rest
    | '\\', '\t' :: rest => basicBlock (some false) seen rest
    | '\\', '\n' :: rest => basicBlock (some true) seen rest
    | '\\', '\r' :: '\n' :: rest => basicBlock (some true) seen rest
    | '\\', c :: rest => do basicBlock none ((← escape? c) :: seen) rest
    | c, rest => if isControl c ∧ c ≠ '\n' then none else basicBlock none (c :: seen) rest

/-- The rest of a string in three single quotes. -/
def literalBlock (seen : List Char) : List Char → Option (String × List Char)
  | [] => none
  | '\'' :: '\'' :: '\'' :: '\'' :: '\'' :: rest =>
    some (String.ofList ('\'' :: '\'' :: seen).reverse, rest)
  | '\'' :: '\'' :: '\'' :: '\'' :: rest => some (String.ofList ('\'' :: seen).reverse, rest)
  | '\'' :: '\'' :: '\'' :: rest => some (String.ofList seen.reverse, rest)
  | '\r' :: '\n' :: rest => literalBlock ('\n' :: '\r' :: seen) rest
  | c :: rest => if isControl c ∧ c ≠ '\n' then none else literalBlock (c :: seen) rest

/-- The end of a line right after the opening quotes is not part of the string. -/
def skipFirstNewline (cs : List Char) : List Char := (newline? cs).getD cs

/-- A string of any of the four kinds. -/
def string? : List Char → Option (String × List Char)
  | '"' :: '"' :: '"' :: rest => basicBlock none [] (skipFirstNewline rest)
  | '\'' :: '\'' :: '\'' :: rest => literalBlock [] (skipFirstNewline rest)
  | '"' :: rest => basicString [] rest
  | '\'' :: rest => literalString [] rest
  | _ => none

/-- One part of a key, bare or in quotes on one line. -/
def simpleKey? : List Char → Option (String × List Char)
  | '"' :: rest => basicString [] rest
  | '\'' :: rest => literalString [] rest
  | cs =>
    let name := cs.takeWhile isBareKey
    if name = [] then none else some (String.ofList name, cs.dropWhile isBareKey)

/-- The parts of a key with dots between them: those before the last, and the last. -/
def key? : Nat → List Char → Option ((List String × String) × List Char)
  | 0, _ => none
  | fuel + 1, cs => do
    let (first, rest) ← simpleKey? (skipSpace cs)
    match skipSpace rest with
    | '.' :: rest =>
      let ((path, last), rest) ← key? fuel rest
      return ((first :: path, last), rest)
    | _ => return (([], first), rest)

/-- Digits of a base, with single underscores between digits. -/
def digits? (base : Nat) : List Char → Option Nat
  | [] => none
  | c :: rest => do go (← digit? c) rest
where
  digit? (c : Char) : Option Nat := (hexDigit? c).filter (· < base)
  go (n : Nat) : List Char → Option Nat
    | [] => some n
    | '_' :: c :: rest => do go (base * n + (← digit? c)) rest
    | c :: rest => do go (base * n + (← digit? c)) rest

/-- Decimal digits do not begin with a zero unless that is all. -/
def decimal? : List Char → Option Nat
  | ['0'] => some 0
  | '0' :: _ => none
  | cs => digits? 10 cs

/-- An integer: decimal with an optional sign, or in base 16, 8 or 2 without one. -/
def integer? : List Char → Option Int
  | '0' :: 'x' :: cs => (digits? 16 cs).map Int.ofNat
  | '0' :: 'o' :: cs => (digits? 8 cs).map Int.ofNat
  | '0' :: 'b' :: cs => (digits? 2 cs).map Int.ofNat
  | '+' :: cs => (decimal? cs).map Int.ofNat
  | '-' :: cs => (decimal? cs).map fun n => -Int.ofNat n
  | cs => (decimal? cs).map Int.ofNat

end Safepoint.Toml
