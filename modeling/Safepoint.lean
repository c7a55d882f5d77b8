import Safepoint.Edges.Exchange
import Safepoint.Options.Document
import Safepoint.Scripted.Console
import Safepoint.Simulated.Console
import Safepoint.Tracing.Console
import Safepoint.World.Drill
import Safepoint.World.Monitor
import Safepoint.Proofs.Basic
import Safepoint.Proofs.Interleaving
import Safepoint.Proofs.World.Crowd
import Safepoint.Proofs.World.Ownership
import Safepoint.Proofs.World.Wakeup
import Safepoint.Proofs.Roots.CodeTable
import Safepoint.Proofs.Roots.CodeLedger
import Safepoint.Proofs.Roots.WeakHandles
import Safepoint.Proofs.Binding.State
import Safepoint.Proofs.Edges.Reporter
import Safepoint.Proofs.Roots.Claims
import Safepoint.Proofs.Binding.Roots
import Safepoint.Proofs.Binding.RootJobs
import Safepoint.Proofs.Binding.ScanOrder
import Safepoint.Proofs.Binding.RootSplits
import Safepoint.Proofs.Binding.ScanTurns
import Safepoint.Proofs.Binding.SideBySide
import Safepoint.Proofs.Memory
import Safepoint.Proofs.Codec
import Safepoint.Proofs.Slot
import Safepoint.Proofs.Slot.Range
import Safepoint.Proofs.Slot.Stores
import Safepoint.Proofs.Edges.Handover
import Safepoint.Proofs.Binding.Compressed
import Safepoint.Proofs.Barrier.Store
import Safepoint.Proofs.Barrier.Calls
import Safepoint.Proofs.Barrier.Snapshot
import Safepoint.Proofs.Barrier.Remembered
import Safepoint.Proofs.Weak.Update
import Safepoint.Proofs.Binding.Frames
import Safepoint.Proofs.Binding.Reports
import Safepoint.Proofs.Binding.LoaderEdges
import Safepoint.Proofs.World.Innermost
import Safepoint.Proofs.World.Holding
import Safepoint.Proofs.Simulated.Host
import Safepoint.Proofs.Simulated.Sections
import Safepoint.Proofs.Simulated.Yard
import Safepoint.Proofs.Threads
import Safepoint.Proofs.Binding.Stages
import Safepoint.Proofs.Binding.Roster
import Safepoint.Proofs.Marking
import Safepoint.Proofs.Simulated.Heap
import Safepoint.Proofs.Simulated.Stop
import Safepoint.Proofs.Simulated.Weak
import Safepoint.Proofs.Simulated.Cycle
import Safepoint.Proofs.Barrier.Tiers
import Safepoint.Proofs.World.Freshness
import Safepoint.Proofs.Simulated.References
import Safepoint.Proofs.Simulated.Finish
import Safepoint.Proofs.Simulated.WeakLocations
import Safepoint.Proofs.Simulated.Ground
import Safepoint.Proofs.Simulated.Dangling
import Safepoint.Proofs.Simulated.Edits
import Safepoint.Proofs.Simulated.Histories
import Safepoint.Proofs.Roots.Records
import Safepoint.Proofs.Edges.Batches
import Safepoint.Proofs.Binding.FailedScans
import Safepoint.Proofs.Binding.Rescans
import Safepoint.Proofs.Threads.Roles
import Safepoint.Proofs.World.Acceptance
import Safepoint.Proofs.Binding.Refusals
import Safepoint.Proofs.Process
import Safepoint.Proofs.Barrier.Hooks
import Safepoint.Proofs.Roots.Progress
import Safepoint.Proofs.Binding.CodeClaims
import Safepoint.Proofs.Binding.Journal
import Safepoint.Proofs.Binding.Relocations
import Safepoint.Proofs.Barrier.Copies
import Safepoint.Proofs.Weak.Fates
import Safepoint.Proofs.Weak.Repeats
import Safepoint.Proofs.Binding.WeakStorage
import Safepoint.Proofs.Binding.Unloading
import Safepoint.Proofs.Edges.Exchange
import Safepoint.Proofs.Weak.Pending
import Safepoint.Proofs.Binding.Selectors
import Safepoint.Proofs.Roots.SharedHandles
import Safepoint.Proofs.Roots.SharedCode
import Safepoint.Proofs.Roots.Replacement
import Safepoint.Proofs.Slot.Tiling
import Safepoint.Proofs.Roots.ClaimRace
import Safepoint.Proofs.Roots.ClaimHistory
import Safepoint.Proofs.Environment
