import Safepoint.Toml.Lexeme
import Safepoint.Toml.Table

/-!
TOML documents whose values are strings, integers, truth values, dates and times, arrays and
tables. No option takes a float, so a document that holds one is refused like one that is
malformed.
-/
namespace Safepoint.Toml

/-- Characters of a value that is not quoted. -/
def isPlain (c : Char) : Bool := isBareKey c || c == '+' || c == '.' || c == ':'

/-- A truth value, an integer, or a date or time. -/
def plain? (cs : List Char) : Option (Node × List Char) :=
  let lexeme := cs.takeWhile isPlain
  let rest := cs.dropWhile isPlain
  if lexeme = "true".toList then some (.truth true, rest)
  else if lexeme = "false".toList then some (.truth false, rest)
  else match integer? lexeme with
    | some n => some (.integer n, rest)
    | none => (moment? cs).map fun (moment, rest) => (.moment moment, rest)

mutual

/-- Any value. Every step into an array or a brace takes a character, so the length of the
text is fuel enough. -/
def value? : Nat → List Char → Option (Node × List Char)
  | 0, _ => none
  | fuel + 1, cs =>
    match cs with
    | '"' :: _ => (string? cs).map fun (s, rest) => (.text s, rest)
    | '\'' :: _ => (string? cs).map fun (s, rest) => (.text s, rest)
    | '[' :: rest => (items? fuel (skipLines rest.length rest)).map fun (l, rest) => (.list l, rest)
    | '{' :: rest =>
      (pairs? fuel ⟨.inline, []⟩ (skipLines rest.length rest)).map fun (t, rest) => (t.node, rest)
    | cs => plain? cs

/-- The rest of an array. A comma may follow the last item. -/
def items? : Nat → List Char → Option ((List Node) × List Char)
  | 0, _ => none
  | fuel + 1, cs =>
    match cs with
    | ']' :: rest => some ([], rest)
    | cs => do
      let (first, rest) ← value? fuel cs
      match skipLines rest.length rest with
      | ']' :: rest => return ([first], rest)
      | ',' :: rest =>
        let (others, rest) ← items? fuel (skipLines rest.length rest)
        return (first :: others, rest)
      | _ => none

/-- The rest of an inline table. It may go over lines, though none of its pairs may, and a comma
may follow the last pair. -/
def pairs? : Nat → Table → List Char → Option (Table × List Char)
  | 0, _, _ => none
  | fuel + 1, t, cs =>
    match cs with
    | '}' :: rest => some (t, rest)
    | cs => do
      let ((path, key), rest) ← key? cs.length cs
      match skipSpace rest with
      | '=' :: rest =>
        let (value, rest) ← value? fuel (skipSpace rest)
        let t ← t.assign path key value
        match skipLines rest.length rest with
        | '}' :: rest => return (t, rest)
        | ',' :: rest => pairs? fuel t (skipLines rest.length rest)
        | _ => none
      | _ => none

end

/-- A document under way: all its tables, and the header that pairs belong to. -/
structure Draft where
  root : Table
  current : List String

/-- A header, after its opening brackets. -/
def header? (cs : List Char) : Option ((List String × String) × List Char) := do
  let (name, rest) ← key? cs.length cs
  match skipSpace rest with
  | ']' :: rest => return (name, rest)
  | _ => none

/-- One line that is not empty: a header or a pair. -/
def statement? (draft : Draft) (cs : List Char) : Option (Draft × List Char) :=
  match cs with
  | '[' :: '[' :: cs => do
    let ((path, key), rest) ← header? cs
    match rest with
    | ']' :: rest => return (⟨← draft.root.openElement path key, path ++ [key]⟩, rest)
    | _ => none
  | '[' :: cs => do
    let ((path, key), rest) ← header? cs
    return (⟨← draft.root.openTable path key, path ++ [key]⟩, rest)
  | cs => do
    let ((path, key), rest) ← key? cs.length cs
    match skipSpace rest with
    | '=' :: rest =>
      let rest := skipSpace rest
      let (value, rest) ← value? (rest.length + 1) rest
      let root ← draft.root.descend false (fun t => t.assign path key value) draft.current
      return ({ draft with root }, rest)
    | _ => none

/-- The remaining lines. Each takes a character at least. -/
def lines? : Nat → Draft → List Char → Option Table
  | 0, _, _ => none
  | fuel + 1, draft, cs =>
    match skipLines cs.length cs with
    | [] => some draft.root
    | cs => do
      let (draft, rest) ← statement? draft cs
      lines? fuel draft (← endLine? rest)

/-- Read a document. A byte-order mark in front of it is not part of the text. -/
def document? (text : String) : Option (List (String × Node)) :=
  let cs := text.toList
  let cs := if cs.head? = some '\ufeff' then cs.drop 1 else cs
  (lines? (cs.length + 1) ⟨⟨.header, []⟩, []⟩ cs).map Table.entries

end Safepoint.Toml
