/-!
The kinds of objects a collector has to tell apart.
-/
namespace Safepoint

inductive ObjectKind where
  | plain
  /-- The first field is a weak referent, the second a strong link. -/
  | reference
  deriving DecidableEq

namespace ObjectKind

def name : ObjectKind → String
  | .plain => "Plain"
  | .reference => "Reference"

/-- How the kind is written in a header. -/
def tag : ObjectKind → UInt64
  | .plain => 0
  | .reference => 1

end ObjectKind

end Safepoint
