/-
MotionBridge/Bridge.lean

The whole bridge and its poll loop.

One pass refreshes the outputs, works off the command channel, passes what
the serial channels' TCP clients sent on to the ports, passes what the ports
received on to the clients, and then does the board's background work.
-/
import MotionBridge.Channel.Command
import MotionBridge.Channel.Tunnel

namespace MotionBridge

/-- Bytes from the TCP client of a serial channel. -/
structure Inbound where
  port : UInt8
  ring : Ring

/-- The bridge. -/
structure Bridge (σ ξ : Type) where
  command : CommandChannel
  router : Router σ ξ
  inbound : List Inbound := []
  tunnels : Tunnels := []

namespace Bridge

variable {σ ξ : Type} [Lines σ] [Expander ξ]

/-- What the TCP clients sent goes to the ports; tells whether there was
anything. -/
def deliverInbound : List Inbound → Tunnels → Bool × List Inbound × Tunnels × Log
  | [], tunnels => (false, [], tunnels, [])
  | i :: rest, tunnels =>
    let (data, ring) := i.ring.drain
    let (tunnels, log) := if data.isEmpty then (tunnels, []) else tunnels.deliver i.port data
    let (later, rest, tunnels, laterLog) := deliverInbound rest tunnels
    (!data.isEmpty || later, { i with ring } :: rest, tunnels, log ++ laterLog)

/-! ### The TCP channels -/

/-- What the poll loop shares with a TCP channel, by the channel's place: the
link to its client and the ring of what its clients sent.  The command
channel has place zero; the serial channels follow in their order. -/
def channel? (b : Bridge σ ξ) : Nat → Option (Link × Ring)
  | 0 => some (b.command.link, b.command.ring)
  | n + 1 => do
    let tunnel ← b.tunnels[n]?
    let inbound ← b.inbound[n]?
    pure (tunnel.link, inbound.ring)

/-- Replaces what is shared with the channel at a place. -/
def setChannel (b : Bridge σ ξ) (place : Nat) (link : Link) (ring : Ring) : Bridge σ ξ :=
  match place with
  | 0 => { b with command := { b.command with link, ring } }
  | n + 1 =>
    { b with
      tunnels := b.tunnels.modify n fun t => { t with link }
      inbound := b.inbound.modify n fun i => { i with ring } }

/-! ### What goes out -/

/-- Takes the queued replies of the command channel out. -/
def takeReplies (b : Bridge σ ξ) : List Bytes × Bridge σ ξ :=
  let (replies, link) := b.command.link.takeAll
  (replies, { b with command := { b.command with link } })

/-- Takes out what each tunnel has queued for its client and written to its
port. -/
def takeTunneled (b : Bridge σ ξ) : List (List Bytes × Bytes) × Bridge σ ξ :=
  (b.tunnels.map fun t => (t.link.takeAll.1, t.sink.written),
    { b with tunnels := b.tunnels.map fun t =>
        { t with link := t.link.takeAll.2, sink := t.sink.clear } })

/-! ### The poll loop -/

/-- What one pass did. -/
structure Passed (σ ξ : Type) where
  /-- Whether any traffic moved. -/
  busy : Bool
  bridge : Bridge σ ξ
  log : Log

/-- One pass of the poll loop. -/
def pass (b : Bridge σ ξ) (now : Time) : Passed σ ξ :=
  let polled := b.command.poll (Router.handle now) b.router.refresh
  let (received, inbound, tunnels, inboundLog) := deliverInbound b.inbound b.tunnels
  let (moved, tunnels, forwardLog) := tunnels.forward
  let (router, backgroundLog) := polled.state.background now
  { busy := decide (0 < polled.handled) || received || decide (0 < moved)
    bridge := { command := polled.channel, router, inbound, tunnels }
    log := polled.log ++ inboundLog ++ forwardLog ++ backgroundLog }

/-- So many passes, one after the other. -/
def passes (now : Time) : Nat → Bridge σ ξ → Bridge σ ξ × Log
  | 0, b => (b, [])
  | n + 1, b =>
    let first := b.pass now
    let (b, log) := passes now n first.bridge
    (b, first.log ++ log)

/-- The line that the poll loop leaves when it begins. -/
def loopStarted : LogLine := .note "[context] Poll loop started"

/-- The line that the poll loop leaves when it ends. -/
def loopStopped : LogLine := .note "[context] Poll loop stopped"

/-- The poll loop, stopped after so many passes. -/
def run (b : Bridge σ ξ) (now : Time) (count : Nat) : Bridge σ ξ × Log :=
  let (b, log) := passes now count b
  (b, loopStarted :: log ++ [loopStopped])

end Bridge

end MotionBridge
