/-
MotionBridge/Channel/Link.lean

The sending end of a TCP channel.

Sending never waits.  Bytes are dropped when no client is connected, or when
the writer is a whole queue behind.  Every queued chunk is bound to the
connection that was the newest when it was sent.  Changes of connection
travel apart from the data, so that they never wait behind bytes for a
client that has stopped reading.
-/
import MotionBridge.Bytes
import MotionBridge.Log

namespace MotionBridge

/-- Bytes bound to one connection. -/
structure Chunk where
  connection : Nat
  bytes : Bytes
deriving Repr, DecidableEq

/-- A change of connection, on its way to the writer. -/
inductive Control
  /-- Connection `id` was accepted and is to be written to from now on. -/
  | attach (id : Nat)
  /-- The peer of connection `id` closed it. -/
  | detach (id : Nat)
deriving Repr, DecidableEq

/-- The state that a channel's senders and its writer share. -/
structure Link where
  name : String
  connected : Bool := false
  /-- The newest accepted connection; connections count from one. -/
  newest : Nat := 0
  /-- Connection changes that the writer has not seen yet, oldest first. -/
  control : List Control := []
  /-- Chunks that the writer has not taken yet, oldest first. -/
  queue : List Chunk := []
  /-- Whether anything still takes chunks out. -/
  hasReceiver : Bool := true
deriving Repr, DecidableEq

namespace Link

/-- Chunks that a link queues before it starts to drop. -/
def depth : Nat := 32

/-- The outcome of a send. -/
structure Sent where
  accepted : Bool
  link : Link
  log : Log := []

/-- Queues bytes for the newest connection.  Nothing is queued for an empty
chunk, without a client, or on a link whose receiver is gone. -/
def send (l : Link) (data : Bytes) : Sent :=
  if data.isEmpty || !l.connected || !l.hasReceiver then
    { accepted := false, link := l }
  else if l.queue.length < depth then
    { accepted := true, link := { l with queue := l.queue ++ [⟨l.newest, data⟩] } }
  else
    { accepted := false
      link := l
      log := [.note s!"[tcp:{l.name}] Client not reading, dropped {data.length} bytes"] }

/-- Takes the oldest chunk out. -/
def takeChunk (l : Link) : Option (Chunk × Link) :=
  match l.queue with
  | [] => none
  | chunk :: rest => some (chunk, { l with queue := rest })

/-- Takes every queued chunk out, oldest first. -/
def takeAll (l : Link) : List Bytes × Link :=
  (l.queue.map Chunk.bytes, { l with queue := [] })

/-- Drops the receiving side, and the chunks that were waiting for it. -/
def dropReceiver (l : Link) : Link :=
  { l with hasReceiver := false, queue := [], control := [] }

end Link

end MotionBridge
