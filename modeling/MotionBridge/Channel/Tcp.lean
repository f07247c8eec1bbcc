/-
MotionBridge/Channel/Tcp.lean

A TCP channel: a listener, one reader for each accepted connection, and one
writer.  All readers feed the same ring; the writer writes to the newest
connection.
-/
import MotionBridge.Channel.Writer
import MotionBridge.DeviceError
import MotionBridge.Host.OsError
import MotionBridge.Ring

namespace MotionBridge

/-- The error of a listener that could not be opened. -/
def listenError (name address reason : String) : DeviceError :=
  ⟨.connection, s!"{name}({address})", reason⟩

/-- The line that tells of a listener that was opened. -/
def listeningLine (name address : String) : LogLine :=
  .note s!"[tcp:{name}] Listening on {address}"

/-- An open channel. -/
structure TcpChannel where
  writer : WriterChannel
  /-- Bytes received and not yet taken. -/
  ring : Ring
  /-- The connections whose readers are still at work. -/
  readers : List Nat := []
  /-- Whether connections are still accepted. -/
  listening : Bool := true

namespace TcpChannel

/-- A channel that has just been opened. -/
def start (name : String) (ring : Ring) : TcpChannel :=
  { writer := { link := { name } }, ring }

/-- The name of the channel. -/
def name (c : TcpChannel) : String :=
  c.writer.link.name

/-- A client connects from an address: all steps of the acceptance, and its
reader begins. -/
def connect (c : TcpChannel) (peer : String) : TcpChannel × Log :=
  if c.listening then
    let writer := c.writer.accept.accept.accept
    ({ c with writer, readers := c.readers ++ [writer.accepted] },
      [.note s!"[tcp:{c.name}] Connection {writer.accepted} from {peer}"])
  else (c, [])

/-- Bytes arrive on a connection.  Those that do not fit are dropped. -/
def receive (c : TcpChannel) (id : Nat) (data : Bytes) : TcpChannel × Log :=
  if id ∈ c.readers then
    let (stored, ring) := c.ring.pushAll data
    ({ c with ring },
      if stored < data.length then
        let lost := data.length - stored
        [.trace s!"[tcp:{c.name}] Ring full, dropped {lost} bytes from connection {id}"]
      else [])
  else (c, [])

/-- The peer of a connection has nothing more to send: its reader ends, and
the writer is told. -/
def endReader (c : TcpChannel) (id : Nat) : TcpChannel × Log :=
  if id ∈ c.readers then
    ({ c with readers := c.readers.filter (· != id), writer := c.writer.close id },
      [.note s!"[tcp:{c.name}] Connection {id} closed"])
  else (c, [])

/-- Sends bytes to the newest connection. -/
def send (c : TcpChannel) (data : Bytes) : Bool × TcpChannel × Log :=
  let sent := c.writer.link.send data
  (sent.accepted, { c with writer := { c.writer with link := sent.link } }, sent.log)

/-- Sends single bytes, counting from zero, before the writer can run; how
many were accepted. -/
def burst (c : TcpChannel) (count : Nat) : Nat × TcpChannel :=
  (List.range count).foldl
    (fun (accepted, c) i =>
      let (ok, c, _) := c.send [UInt8.ofNat i]
      (if ok then accepted + 1 else accepted, c))
    (0, c)

/-- The writer works through what waits. -/
def settle (c : TcpChannel) : TcpChannel × Log :=
  let (writer, log) := c.writer.settle
  ({ c with writer }, log)

/-- The channel is stopped: the listener and all readers end. -/
def stop (c : TcpChannel) : TcpChannel × Log :=
  let (c, log) := c.readers.foldl
    (fun (c, log) id =>
      let (c, more) := c.endReader id
      (c, log ++ more))
    (({ c with listening := false } : TcpChannel), ([] : Log))
  (c, log)

/-- Takes every received byte out. -/
def drain (c : TcpChannel) : Bytes × TcpChannel :=
  let (data, ring) := c.ring.drain
  (data, { c with ring })

end TcpChannel

end MotionBridge
