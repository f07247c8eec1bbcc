/-
MotionBridge/Channel/Tunnel.lean

Tunnels between serial ports and their TCP clients: what a port receives goes
to its client, and what arrives for a port number goes to the first port of
that number.
-/
import MotionBridge.Channel.Link
import MotionBridge.Ring
import MotionBridge.Serial.Sink

namespace MotionBridge

/-- One tunneled port. -/
structure Tunnel where
  number : UInt8
  /-- Bytes received from the port. -/
  ring : Ring
  sink : Sink
  /-- The link to the TCP client. -/
  link : Link

/-- The tunnels in the order they were added. -/
abbrev Tunnels := List Tunnel

namespace Tunnels

/-- Adds a tunnel behind the others. -/
def add (ts : Tunnels) (t : Tunnel) : Tunnels × Log :=
  (ts ++ [t], [.note s!"[bridge:{t.number.toNat}] Channel added ({t.link.name})"])

/-- Bytes for a port number: they are written to the first port of that
number. -/
def deliver (port : UInt8) (data : Bytes) : Tunnels → Tunnels × Log
  | [] =>
    ([], [.note s!"[bridge:{port.toNat}] No such serial port, dropped {data.length} bytes"])
  | t :: rest =>
    if t.number = port then
      match t.sink.write data with
      | .ok sink => ({ t with sink } :: rest, [])
      | .error e => (t :: rest, [.note s!"[bridge:{port.toNat}] {e.text}"])
    else
      let (rest, log) := deliver port data rest
      (t :: rest, log)

/-- What one port has received goes to its client, in one chunk. -/
def forwardOne (t : Tunnel) : Nat × Tunnel × Log :=
  let (data, ring) := t.ring.drain
  if data.isEmpty then (0, { t with ring }, [])
  else
    let sent := t.link.send data
    (data.length, { t with ring, link := sent.link },
      sent.log ++
        if sent.accepted then []
        else [.trace s!"[bridge:{t.number.toNat}] No client, dropped {data.length} bytes"])

/-- What the ports have received goes to their clients; the number of bytes
that moved. -/
def forward : Tunnels → Nat × Tunnels × Log
  | [] => (0, [], [])
  | t :: rest =>
    let (moved, t, log) := forwardOne t
    let (later, rest, laterLog) := forward rest
    (moved + later, t :: rest, log ++ laterLog)

end Tunnels

end MotionBridge
