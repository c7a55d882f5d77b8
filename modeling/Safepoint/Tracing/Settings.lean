import Safepoint.Options.Environment

/-!
The options of a tracing collector. They come as text, and text that an option cannot mean is
refused. Options it has no use for are taken as they are.
-/
namespace Safepoint.Tracing

/-- The ways to manage a heap that the collector knows. It never moves an object, whatever the
plan. -/
inductive Plan where
  | noCollection | semiSpace | generationalCopying | generationalImmix | markSweep | pageProtect
  | immix | markCompact | stickyImmix
  deriving DecidableEq

namespace Plan

def all : List Plan :=
  [.noCollection, .semiSpace, .generationalCopying, .generationalImmix, .markSweep, .pageProtect,
    .immix, .markCompact, .stickyImmix]

def name : Plan → String
  | .noCollection => "NoGC"
  | .semiSpace => "SemiSpace"
  | .generationalCopying => "GenCopy"
  | .generationalImmix => "GenImmix"
  | .markSweep => "MarkSweep"
  | .pageProtect => "PageProtect"
  | .immix => "Immix"
  | .markCompact => "MarkCompact"
  | .stickyImmix => "StickyImmix"

def ofName? (name : String) : Option Plan := all.find? (·.name = name)

/-- Whether the mark of an object is a bit in the object itself. Such a bit starts out clear, and
nothing clears it again. -/
def marksInObjects : Plan → Bool
  | .markSweep => true
  | _ => false

end Plan

structure Settings where
  plan : Plan := .markSweep
  threads : Nat := 1
  /-- Whether the referents of reference objects are weak for the collector. -/
  references : Bool := false
  /-- Whether the host is told when it may run finalizers. -/
  finalizers : Bool := true

namespace Settings

def truthOfText? (text : String) : Option Bool :=
  if text = "true" then some true else if text = "false" then some false else none

/-- Give an option the value a text stands for. -/
def assign? (s : Settings) (key text : String) : Option Settings :=
  match key with
  | "plan" => (Plan.ofName? text).map fun plan => { s with plan }
  | "threads" =>
    ((Options.wordOfText? text.toList).filter (0 < ·)).map fun threads => { s with threads }
  | "no_reference_types" => (truthOfText? text).map fun b => { s with references := !b }
  | "no_finalizer" => (truthOfText? text).map fun b => { s with finalizers := !b }
  | _ => some s

def accepts (key text : String) : Bool := (({} : Settings).assign? key text).isSome

/-- The settings that options ask for. -/
def ofOptions (o : Options) : Settings :=
  o.engine.toList.foldl (fun s e => (s.assign? e.1 e.2).getD s) {}

end Settings

end Safepoint.Tracing
