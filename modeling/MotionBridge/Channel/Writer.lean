/-
MotionBridge/Channel/Writer.lean

The writer of a TCP channel, and the channel as a system of steps: accepts,
closes, sends and the writer's own work, in any order.

The writer holds at most one connection, the target, and all that it writes
goes there.  It looks at connection changes before it looks at data, also while
a write is pending.  A chunk bound to a connection that is not the target is
dropped, and the rest of a chunk is abandoned when its connection is replaced
or closed.  A write does not look at what its chunk is bound to: that no byte
reaches a connection it was not sent to is due to these two rules alone.
-/
import MotionBridge.Channel.Link

namespace MotionBridge

/-- How far the acceptance of a connection has come. -/
inductive Accepting
  | idle
  /-- Connection `id` is now the newest. -/
  | numbered (id : Nat)
  /-- The channel counts as connected. -/
  | marked (id : Nat)
deriving Repr, DecidableEq

/-- What one write to a connection comes to. -/
inductive WriteResult
  /-- At most so many bytes went out; none means that the peer is gone. -/
  | wrote (count : Nat)
  | failed (reason : String)
deriving Repr, DecidableEq

/-- A channel with its writer. -/
structure WriterChannel where
  link : Link
  /-- The connection being written to. -/
  target : Option Nat := none
  /-- The chunk being written, and how much of it is out. -/
  pending : Option (Chunk × Nat) := none
  accepting : Accepting := .idle
  /-- Connections accepted so far. -/
  accepted : Nat := 0
  /-- Every piece that went out, with the connection that it went to, oldest
  first. -/
  written : List (Nat × Bytes) := []
deriving Repr, DecidableEq

namespace WriterChannel

/-! ### Connection changes -/

/-- The next step of accepting a connection: it becomes the newest, the
channel is marked connected, and the writer is told. -/
def accept (c : WriterChannel) : WriterChannel :=
  match c.accepting with
  | .idle =>
    let id := c.accepted + 1
    { c with accepted := id, accepting := .numbered id, link := { c.link with newest := id } }
  | .numbered id =>
    { c with accepting := .marked id, link := { c.link with connected := true } }
  | .marked id =>
    { c with accepting := .idle, link := { c.link with control := c.link.control ++ [.attach id] } }

/-- The peer of connection `id` closes. -/
def close (c : WriterChannel) (id : Nat) : WriterChannel :=
  { c with link := { c.link with control := c.link.control ++ [.detach id] } }

/-- The writer takes note of a connection change.  A close counts only for
the target: it never clears a newer connection. -/
def applyControl (c : WriterChannel) : Control → WriterChannel × Log
  | .attach id =>
    ({ c with target := some id, link := { c.link with connected := true } },
      match c.target with
      | some old => [.note s!"[tcp:{c.link.name}] Connection {old} replaced by {id}"]
      | none => [])
  | .detach id =>
    if c.target = some id then
      ({ c with target := none, link := { c.link with connected := false } }, [])
    else
      (c, [])

/-! ### Writing -/

/-- Gives up a pending chunk whose connection is no longer the target. -/
def abandonStale (c : WriterChannel) : WriterChannel × Log :=
  match c.pending with
  | some (chunk, out) =>
    if c.target = some chunk.connection then (c, [])
    else
      ({ c with pending := none },
        let left := chunk.bytes.length - out
        [.trace s!"[tcp:{c.link.name}] Abandoned {left} bytes for connection {chunk.connection}"])
  | none => (c, [])

/-- One write of the pending chunk, to the connection that is held.  With none
held the chunk is given up. -/
def writePending (c : WriterChannel) (chunk : Chunk) (out : Nat) (result : WriteResult) :
    WriterChannel × Log :=
  match c.target with
  | none => ({ c with pending := none }, [])
  | some held =>
    match result with
    | .wrote count =>
      if count = 0 then drop "connection closed"
      else
        let piece := (chunk.bytes.drop out).take count
        let out := out + piece.length
        ({ c with
            pending := if out < chunk.bytes.length then some (chunk, out) else none
            written := c.written ++ [(held, piece)] }, [])
    | .failed reason => drop reason
where
  drop (reason : String) : WriterChannel × Log :=
    ({ c with pending := none, target := none, link := { c.link with connected := false } },
      [.note s!"[tcp:{c.link.name}] Write to connection {chunk.connection} failed: {reason}"])

/-- Takes the next chunk up, or drops it if it is bound to another
connection. -/
def takeUp (c : WriterChannel) : WriterChannel × Log :=
  match c.link.takeChunk with
  | none => (c, [])
  | some (chunk, link) =>
    if c.target = some chunk.connection then
      ({ c with link, pending := some (chunk, 0) }, [])
    else
      ({ c with link },
        let size := chunk.bytes.length
        [.trace s!"[tcp:{c.link.name}] Dropped {size} bytes for connection {chunk.connection}"])

/-- One step of the writer; `result` is what a write would come to. -/
def work (c : WriterChannel) (result : WriteResult) : WriterChannel × Log :=
  match c.link.control with
  | event :: rest =>
    let (c, first) := { c with link := { c.link with control := rest } }.applyControl event
    let (c, second) := c.abandonStale
    (c, first ++ second)
  | [] =>
    match c.pending with
    | some (chunk, out) => c.writePending chunk out result
    | none => c.takeUp

/-- A bound on the steps that the writer needs to come to rest. -/
def load (c : WriterChannel) : Nat :=
  c.link.control.length + c.link.queue.length +
    c.link.queue.foldr (fun chunk total => chunk.bytes.length + total) 0 +
    match c.pending with
    | some (chunk, _) => chunk.bytes.length
    | none => 0

/-- The writer works through everything that waits, each write going out
whole. -/
def settle (c : WriterChannel) : WriterChannel × Log :=
  go (c.load + 1) c
where
  go : Nat → WriterChannel → WriterChannel × Log
    | 0, c => (c, [])
    | n + 1, c =>
      if c.link.control.isEmpty && c.link.queue.isEmpty && c.pending.isNone then (c, [])
      else
        let whole := match c.pending with
          | some (chunk, _) => chunk.bytes.length
          | none => 0
        let (c, first) := c.work (.wrote whole)
        let (c, later) := go n c
        (c, first ++ later)

end WriterChannel

end MotionBridge
