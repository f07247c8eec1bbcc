/-
MotionBridge/Bus/Master.lean

The master of the handshake bus: sending a frame, receiving a reply, and the
exchange of the two with its retries.

Every wait is bounded, by its time and by a number of looks; how many looks it
takes may differ from wait to wait.  A failure restores the lines (clock high,
direction input) and leaves the master idle.  An exchange runs attempts until
one brings a reply that passes its checksum.
-/
import MotionBridge.Bus.Lines
import MotionBridge.Bus.Command
import MotionBridge.Frame.Build
import MotionBridge.Log

namespace MotionBridge

/-! ### States and errors -/

/-- Where the master is in the handshake. -/
inductive BusState
  | idle
  | checkReady
  | sendByte
  | waitAck
  | nextByte
  | receiving
  | done
  | timedOut
deriving Repr, DecidableEq

/-- The name of a state. -/
def BusState.name : BusState → String
  | .idle => "Idle"
  | .checkReady => "CheckReady"
  | .sendByte => "SendByte"
  | .waitAck => "WaitAck"
  | .nextByte => "NextByte"
  | .receiving => "Receiving"
  | .done => "Done"
  | .timedOut => "TimedOut"

/-- A wait of the handshake. -/
inductive HandshakeStep
  /-- The peer takes a byte by pulling its signal low. -/
  | peerAck
  /-- The peer lets go after the clock rose. -/
  | peerRelease
  /-- The peer starts its reply. -/
  | replyStart
  /-- The peer lets go after a reply byte was taken. -/
  | replyRelease
  /-- The peer offers the next reply byte. -/
  | nextReplyByte
deriving Repr, DecidableEq

/-- The name of a wait. -/
def HandshakeStep.name : HandshakeStep → String
  | .peerAck => "PeerAck"
  | .peerRelease => "PeerRelease"
  | .replyStart => "ReplyStart"
  | .replyRelease => "ReplyRelease"
  | .nextReplyByte => "NextReplyByte"

/-- The words for a wait. -/
def HandshakeStep.text : HandshakeStep → String
  | .peerAck => "peer ack"
  | .peerRelease => "peer release"
  | .replyStart => "reply start"
  | .replyRelease => "reply release"
  | .nextReplyByte => "next reply byte"

/-- Why a send or a receive failed. -/
inductive BusError
  /-- The peer's signal was low when a send began. -/
  | peerNotReady
  | timeout (step : HandshakeStep)
  /-- The reply was longer than allowed. -/
  | replyOverflow
deriving Repr, DecidableEq

/-- The name of an error. -/
def BusError.name : BusError → String
  | .peerNotReady => "PeerNotReady"
  | .timeout step => s!"Timeout({step.name})"
  | .replyOverflow => "ReplyOverflow"

/-- The reported text. -/
def BusError.text : BusError → String
  | .peerNotReady => "peer not ready"
  | .timeout step => s!"timeout waiting for {step.text}"
  | .replyOverflow => "reply overflow"

/-- How patient the master is. -/
structure BusConfig where
  /-- The most further looks at the peer's signal before a wait is given up; it
  is given up earlier when its time is over. -/
  patience : Nat := 0
  /-- Attempts per exchange. -/
  attempts : Nat := 3
  /-- The longest reply taken. -/
  maxReply : Nat := 254
deriving Repr, DecidableEq

/-- The master, with its end of the lines. -/
structure Master (σ : Type) where
  lines : σ
  config : BusConfig
  state : BusState
deriving Repr

namespace Master

variable {σ : Type} [Lines σ]

/-! ### Single operations -/

/-- Moves on to a state of the handshake. -/
def enter (m : Master σ) (state : BusState) : Master σ :=
  { m with state }

def setDirection (m : Master σ) (direction : Direction) : Master σ :=
  { m with lines := Lines.setDirection m.lines direction }

def writeData (m : Master σ) (byte : UInt8) : Master σ :=
  { m with lines := Lines.writeData m.lines byte }

def readData (m : Master σ) : UInt8 × Master σ :=
  let (byte, lines) := Lines.readData m.lines
  (byte, { m with lines })

def peerSignal (m : Master σ) : Bool × Master σ :=
  let (level, lines) := Lines.peerSignal m.lines
  (level, { m with lines })

def setClock (m : Master σ) (high : Bool) : Master σ :=
  { m with lines := Lines.setClock m.lines high }

/-- A master on lines that it has just put to rest. -/
def start (lines : σ) (config : BusConfig) : Master σ :=
  (({ lines, config, state := .idle } : Master σ).setDirection .input).setClock true

/-- Puts the lines to rest after a failure. -/
def abort (m : Master σ) : Master σ :=
  ((m.setClock true).setDirection .input).enter .idle

/-- Looks at the peer's signal until it has the wanted level, giving up when the
time is over, and at the latest after one look and `more` further ones. -/
def awaitLevel (level : Bool) (step : HandshakeStep) :
    (more : Nat) → Master σ → Except BusError Unit × Master σ
  | 0, m =>
    let (seen, m) := m.peerSignal
    if seen = level then (.ok (), m) else (.error (.timeout step), m.enter .timedOut)
  | more + 1, m =>
    let (seen, m) := m.peerSignal
    if seen = level then (.ok (), m)
    else if Lines.timeUp m.lines then (.error (.timeout step), m.enter .timedOut)
    else awaitLevel level step more m

/-- Waits, as patiently as configured. -/
def await (m : Master σ) (level : Bool) (step : HandshakeStep) :
    Except BusError Unit × Master σ :=
  awaitLevel level step m.config.patience m

/-! ### Sending -/

/-- Clocks bytes out, one handshake each. -/
def sendBytes : Bytes → Master σ → Except BusError Unit × Master σ
  | [], m => (.ok (), m)
  | byte :: rest, m =>
    let m := (((m.enter .sendByte).writeData byte).setClock false).enter .waitAck
    match m.await false .peerAck with
    | (.error e, m) => (.error e, m)
    | (.ok (), m) =>
      match (m.setClock true).await true .peerRelease with
      | (.error e, m) => (.error e, m)
      | (.ok (), m) => sendBytes rest (m.enter .nextByte)

/-- Sends a frame, provided that the peer is ready; a failure leaves the
lines as they are. -/
def sendRaw (frame : Bytes) (m : Master σ) : Except BusError Unit × Master σ :=
  match (m.enter .checkReady).peerSignal with
  | (false, m) => (.error .peerNotReady, m)
  | (true, m) =>
    match sendBytes frame (m.setDirection .output) with
    | (.error e, m) => (.error e, m)
    | (.ok (), m) => (.ok (), (m.setDirection .input).enter .done)

/-- Sends a frame; a failure puts the lines to rest. -/
def send (m : Master σ) (frame : Bytes) : Except BusError Unit × Master σ :=
  match sendRaw frame m with
  | (.ok (), m) => (.ok (), m)
  | (.error e, m) => (.error e, m.abort)

/-! ### Receiving -/

/-- Clocks reply bytes in, through the first end mark; `room` more of them
are allowed. -/
def receiveBytes : (room : Nat) → Master σ → Except BusError Bytes × Master σ
  | 0, m => (.error .replyOverflow, m.readData.2)
  | room + 1, m =>
    let (byte, m) := m.readData
    match (m.setClock false).await true .replyRelease with
    | (.error e, m) => (.error e, m)
    | (.ok (), m) =>
      let m := m.setClock true
      if byte = etx then (.ok [byte], m)
      else
        match m.await false .nextReplyByte with
        | (.error e, m) => (.error e, m)
        | (.ok (), m) =>
          match receiveBytes room m with
          | (.error e, m) => (.error e, m)
          | (.ok rest, m) => (.ok (byte :: rest), m)

/-- Receives a reply; a failure leaves the lines as they are. -/
def receiveRaw (m : Master σ) : Except BusError Bytes × Master σ :=
  let m := ((m.enter .receiving).setDirection .input).setClock true
  match m.await false .replyStart with
  | (.error e, m) => (.error e, m)
  | (.ok (), m) =>
    match receiveBytes m.config.maxReply m with
    | (.error e, m) => (.error e, m)
    | (.ok reply, m) => (.ok reply, m.enter .done)

/-- Receives a reply; a failure puts the lines to rest. -/
def receive (m : Master σ) : Except BusError Bytes × Master σ :=
  match receiveRaw m with
  | (.ok reply, m) => (.ok reply, m)
  | (.error e, m) => (.error e, m.abort)

end Master

/-! ### Exchanges -/

/-- What one attempt at an exchange came to. -/
inductive Attempt
  | sendFailed (e : BusError)
  | receiveFailed (e : BusError)
  /-- The reply does not pass as a frame. -/
  | invalid (reply : Bytes) (e : FrameError)
  | accepted (reply : Bytes)
deriving Repr, DecidableEq

/-- The reply of an attempt that succeeded. -/
def Attempt.reply? : Attempt → Option Bytes
  | .accepted reply => some reply
  | _ => none

/-- A frame that was sent, and every attempt made, in order. -/
structure Exchange where
  frame : Bytes
  attempts : List Attempt
deriving Repr, DecidableEq

namespace Exchange

/-- The reply of the last attempt, or no bytes if that attempt failed too. -/
def reply (x : Exchange) : Bytes :=
  (x.attempts.getLast?.bind Attempt.reply?).getD []

/-- The line that an attempt leaves, as the `n`-th of its exchange. -/
def attemptLine (n : Nat) : Attempt → LogLine
  | .sendFailed e => .trace s!"[bus] attempt {n}: send failed: {e.text}"
  | .receiveFailed e => .trace s!"[bus] attempt {n}: receive failed: {e.text}"
  | .invalid reply e => .trace s!"[bus] attempt {n}: invalid reply {hex reply}: {e.text}"
  | .accepted reply => .trace s!"[bus] <- {hex reply}"

/-- The lines that an exchange leaves. -/
def log (x : Exchange) : Log :=
  .trace s!"[bus] -> {hex x.frame}" ::
    x.attempts.mapIdx (fun i a => attemptLine (i + 1) a) ++
    if x.reply.isEmpty then
      [.note s!"[bus] No reply after {x.attempts.length} attempts to {hex x.frame}"]
    else []

end Exchange

/-- The value of a controller's reply.  A long reply carries a value behind
its start mark; a short one carries an acknowledgement, where the digits `1`
and `0` stand for themselves. -/
def interpretReply (reply : Bytes) : Option Int32 :=
  if Base128.width < reply.length then Base128.decodeAt reply 1
  else reply[1]?.map fun b =>
    if b = 0x31 then 1 else if b = 0x30 then 0 else Int32.ofNat b.toNat

namespace Master

variable {σ : Type} [Lines σ]

/-- One attempt: the frame out, a reply in, and a look at its checksum. -/
def attempt (m : Master σ) (frame : Bytes) : Attempt × Master σ :=
  match m.send frame with
  | (.error e, m) => (.sendFailed e, m)
  | (.ok (), m) =>
    match m.receive with
    | (.error e, m) => (.receiveFailed e, m)
    | (.ok reply, m) =>
      match validate reply with
      | .error e => (.invalid reply e, m)
      | .ok _ => (.accepted reply, m)

/-- Attempts until one succeeds, at most so many; after the last failure the
master is idle. -/
def tryUpTo (frame : Bytes) : Nat → Master σ → List Attempt × Master σ
  | 0, m => ([], m.enter .idle)
  | n + 1, m =>
    match m.attempt frame with
    | (.accepted reply, m) => ([.accepted reply], m)
    | (failed, m) =>
      let (later, m) := tryUpTo frame n m
      (failed :: later, m)

/-- Sends a frame and collects the peer's reply. -/
def transceive (m : Master σ) (frame : Bytes) : Exchange × Master σ :=
  let (attempts, m) := tryUpTo frame m.config.attempts m
  (⟨frame, attempts⟩, m)

/-- The exchange of one command. -/
def command (m : Master σ) (c : MotorCommand) (axis : UInt8) (parameter : Option Int32) :
    Exchange × Master σ :=
  m.transceive (PendingCommand.frame ⟨c.code, axis, parameter⟩)

end Master

/-- The value that an exchange brought, if the controller answered. -/
def Exchange.value (x : Exchange) : Option Int32 :=
  interpretReply x.reply

end MotionBridge
