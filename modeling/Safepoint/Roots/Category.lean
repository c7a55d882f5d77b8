import Safepoint.Options

/-!
Where roots come from.
-/
namespace Safepoint

/-- Tables of the host that are walked in one way only. -/
inductive GlobalRoots where
  | vmThreads | universe | jniHandles | objectSynchronizer | management | jvmtiExport
  | aotLoader | systemDictionary
  deriving DecidableEq

inductive RootCategory where
  | threadStacks
  | global (table : GlobalRoots)
  | codeCache
  | stringTable
  | classLoaderGraph
  | weakProcessor
  deriving DecidableEq

/-- Which entries of a weak table a scan reports. -/
inductive LiveFilter where
  | all
  /-- Only entries not yet known to be kept. -/
  | nonStuckOnly
  deriving DecidableEq

/-- How the class-loader graph is walked. -/
inductive LoaderScan where
  /-- Every loader is a root. -/
  | allStrong
  /-- Only loaders known to be live. -/
  | liveFiltered
  deriving DecidableEq

/-- An edge of the class-loader graph. -/
structure LoaderEdge where
  weak : Bool
  slot : Slot
  deriving DecidableEq

namespace LiveFilter

def name : LiveFilter → String
  | .all => "All"
  | .nonStuckOnly => "NonStuckOnly"

/-- What the configured collector wants of weak tables. -/
def ofMode : WeakProcessing → LiveFilter
  | .tracing => .all
  | .referenceCounting => .nonStuckOnly

end LiveFilter

def LoaderScan.name : LoaderScan → String
  | .allStrong => "AllStrong"
  | .liveFiltered => "LiveFiltered"

namespace GlobalRoots

def all : List GlobalRoots :=
  [.vmThreads, .universe, .jniHandles, .objectSynchronizer, .management, .jvmtiExport,
    .aotLoader, .systemDictionary]

def name : GlobalRoots → String
  | .vmThreads => "vm_threads"
  | .universe => "universe"
  | .jniHandles => "jni_handles"
  | .objectSynchronizer => "object_synchronizer"
  | .management => "management"
  | .jvmtiExport => "jvmti_export"
  | .aotLoader => "aot_loader"
  | .systemDictionary => "system_dictionary"

end GlobalRoots

namespace RootCategory

/-- The categories that are roots for every collector. -/
def always : List RootCategory :=
  .threadStacks :: GlobalRoots.all.map .global ++ [.codeCache, .stringTable, .classLoaderGraph]

def all : List RootCategory := always ++ [.weakProcessor]

/-- The categories that keep objects alive for a cycle. Weak entries do so only under
reference counting, where they must survive until their counts are known. -/
def strong : WeakProcessing → List RootCategory
  | .tracing => always
  | .referenceCounting => all

def name : RootCategory → String
  | .threadStacks => "thread_stacks"
  | .global table => table.name
  | .codeCache => "code_cache"
  | .stringTable => "string_table"
  | .classLoaderGraph => "class_loader_graph"
  | .weakProcessor => "weak_processor"

end RootCategory

end Safepoint
