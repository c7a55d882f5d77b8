import Safepoint.Toml.Moment

/-!
Tables of a TOML document as they are built up, line by line. A table remembers how it came
about, because that decides who may add to it: a header opens a table once, dotted keys add
only to tables that dotted keys made, and an inline table is closed when its brace is.
-/
namespace Safepoint.Toml

/-- How a table came about. -/
inductive Origin where
  /-- Named by a header, or the document itself. -/
  | header
  /-- Passed through by a longer header. -/
  | implied
  /-- Passed through by a dotted key. -/
  | dotted
  /-- Written in braces. -/
  | inline
  deriving DecidableEq

inductive Node where
  | text (value : String)
  | integer (value : Int)
  | truth (value : Bool)
  | moment (value : Moment)
  | list (items : List Node)
  | table (origin : Origin) (entries : List (String × Node))
  /-- An array that grows by one table with each header of its name. -/
  | tables (items : List (List (String × Node)))

structure Table where
  origin : Origin
  entries : List (String × Node)

namespace Table

/-- Replace the entry of `key`, or add one at the end. -/
def put (key : String) (node : Node) : List (String × Node) → List (String × Node)
  | [] => [(key, node)]
  | (k, old) :: rest => if k = key then (k, node) :: rest else (k, old) :: put key node rest

/-- The table that dotted keys or the front of a header pass through on their way. -/
def passing (dotted : Bool) : Table := ⟨if dotted then .dotted else .implied, []⟩

def node (t : Table) : Node := .table t.origin t.entries

/-- Change the table at the end of a path, making the tables on the way as needed. -/
def descend (dotted : Bool) (change : Table → Option Table) : List String → Table → Option Table
  | [], t => change t
  | key :: path, t =>
    match t.entries.lookup key with
    | none => do
      let child ← descend dotted change path (passing dotted)
      return { t with entries := t.entries ++ [(key, child.node)] }
    | some (.table origin entries) =>
      if origin = .inline ∨ (dotted ∧ origin = .header) then none
      else do
        let child ← descend dotted change path ⟨origin, entries⟩
        return { t with entries := put key child.node t.entries }
    | some (.tables items) => do
      let last ← items.getLast?
      let child ← descend dotted change path ⟨.header, last⟩
      return { t with entries := put key (.tables (items.dropLast ++ [child.entries])) t.entries }
    | some _ => none

/-- Add an entry whose key may be dotted. Each key may be given once. -/
def assign (path : List String) (key : String) (value : Node) (t : Table) : Option Table :=
  descend true (fun t =>
    if (t.origin == .dotted) == path.isEmpty then none
    else if (t.entries.lookup key).isSome then none
    else some { t with entries := t.entries ++ [(key, value)] }) path t

/-- Open the table a header names. One that was only passed through so far may be opened. -/
def openTable (path : List String) (key : String) : Table → Option Table :=
  descend false (fun t =>
    match t.entries.lookup key with
    | none => some { t with entries := t.entries ++ [(key, .table .header [])] }
    | some (.table .implied entries) =>
      some { t with entries := put key (.table .header entries) t.entries }
    | some _ => none) path

/-- Open one more element of the array of tables that a header names. -/
def openElement (path : List String) (key : String) : Table → Option Table :=
  descend false (fun t =>
    match t.entries.lookup key with
    | none => some { t with entries := t.entries ++ [(key, .tables [[]])] }
    | some (.tables items) => some { t with entries := put key (.tables (items ++ [[]])) t.entries }
    | some _ => none) path

end Table

end Safepoint.Toml
