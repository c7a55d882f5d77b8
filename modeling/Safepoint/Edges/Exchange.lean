import Safepoint.Edges.Sink

/-!
The same handover for a host that holds the buffers itself: it asks for a first buffer, passes
each filled one back to get the next, and releases the last one unreported.
-/
namespace Safepoint.Sink

variable {τ : Type}

/-- The room in the first buffer. -/
def firstRoom (sink : Sink τ) (state : τ) : Except Panic Nat :=
  (EdgeBuffer.allocate (max (sink.capacity state) 1)).map EdgeBuffer.capacity

/-- Pass back a buffer. The result is the room in the next one, which is never less than in the
one passed back. An empty buffer comes back as it was, and the sink does not see it. -/
def exchange (sink : Sink τ) (filled : EdgeBuffer) (state : τ) : Nat × τ :=
  if filled.slots = [] then (filled.capacity, state)
  else
    let (fresh, state) := sink.flush filled state
    let fresh := if fresh.capacity < filled.capacity then fresh.reserve filled.capacity else fresh
    (fresh.capacity, state)

/-- Give up a buffer without reporting what is in it. -/
def release (_sink : Sink τ) (_held : EdgeBuffer) (state : τ) : τ := state

end Safepoint.Sink
