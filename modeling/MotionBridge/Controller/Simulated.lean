/-
MotionBridge/Controller/Simulated.lean

The motor controller's side of the handshake bus: a machine behind the lines,
with faults that can be switched on.

While it listens, the controller latches a byte when the clock falls and
takes it when the clock rises again.  Once a frame is complete it executes it
and arms the reply; the next time the clock is set high it starts to offer
the reply's bytes, one for each fall and rise of the clock.
-/
import MotionBridge.Bus.Lines
import MotionBridge.Controller.Machine

namespace MotionBridge

/-- How the controller behaves. -/
inductive Behavior
  | normal
  /-- Never takes a byte. -/
  | neverAck
  /-- Holds its signal low as if busy. -/
  | notReady
  /-- Replies with a wrong checksum. -/
  | corruptReply
  /-- Takes frames but never replies. -/
  | silent
deriving Repr, DecidableEq

/-- The name of a behavior. -/
def Behavior.name : Behavior → String
  | .normal => "Normal"
  | .neverAck => "NeverAck"
  | .notReady => "NotReady"
  | .corruptReply => "CorruptReply"
  | .silent => "Silent"

/-- The behavior of a name. -/
def Behavior.ofName? (name : String) : Option Behavior :=
  [normal, neverAck, notReady, corruptReply, silent].find? fun b => b.name == name

/-- Whose turn it is on the bus. -/
inductive Turn
  | listening
  /-- A reply is ready for when the clock is next set high. -/
  | armed (reply : Bytes)
  /-- The byte at `index` is on offer, or was just taken. -/
  | replying (reply : Bytes) (index : Nat)
deriving Repr, DecidableEq

/-- The controller on its lines. -/
structure Controller where
  behavior : Behavior := .normal
  turn : Turn := .listening
  /-- The level of the controller's own signal. -/
  signal : Bool := true
  /-- The last clock level seen. -/
  clockHigh : Bool := true
  hostDirection : Direction := .input
  hostData : UInt8 := 0
  /-- The byte taken when the clock fell. -/
  latched : Option UInt8 := none
  /-- The frame being received. -/
  incoming : Bytes := []
  /-- How often the clock has fallen. -/
  fallingEdges : Nat := 0
  /-- Every complete frame, in order. -/
  received : Array Bytes := #[]
  /-- Every command executed, with its axis and parameter, in order. -/
  executed : Array (MotorCommand × UInt8 × Option Int32) := #[]
  machine : Machine := {}

namespace Controller

/-- The longest frame that is buffered. -/
def maxFrame : Nat := 64

/-- Executes a frame.  A frame that does not check out, or carries no
command, has no answer. -/
def respond (c : Controller) (bytes : Bytes) : Option Bytes × Controller :=
  match validate bytes with
  | .error _ => (none, c)
  | .ok frame =>
    match frame.command with
    | none => (none, c)
    | some wire =>
      match MotorCommand.ofWire wire with
      | none => (some MotorAnswer.unknown.frame, c)
      | some (command, axis) =>
        let (answer, machine) := c.machine.execute command axis frame.parameter
        (some answer.frame,
          { c with machine, executed := c.executed.push (command, axis, frame.parameter) })

/-- A reply whose checksum is off by its lowest bit. -/
def corrupt (reply : Bytes) : Bytes :=
  reply.modify (reply.length - 2) (· ^^^ 1)

/-- Arms the answer to a complete frame, as far as the behavior allows. -/
def answer (c : Controller) (frame : Bytes) : Controller :=
  match c.respond frame with
  | (none, c) => c
  | (some reply, c) =>
    match c.behavior with
    | .silent => c
    | .corruptReply => { c with turn := .armed (corrupt reply) }
    | _ => { c with turn := .armed reply }

/-- Takes one byte.  A start mark begins a new frame; an end mark completes
one that has begun; a frame that grows too long is dropped. -/
def acceptByte (c : Controller) (byte : UInt8) : Controller :=
  let incoming := if byte = stx then [byte] else c.incoming ++ [byte]
  if maxFrame < incoming.length then
    { c with incoming := [] }
  else if byte = etx ∧ incoming.head? = some stx then
    answer { c with incoming := [], received := c.received.push incoming } incoming
  else
    { c with incoming }

/-- The clock is set to a level. -/
def onClock (c : Controller) (high : Bool) : Controller :=
  let falling := c.clockHigh && !high
  let rising := !c.clockHigh && high
  let c := { c with
    clockHigh := high
    fallingEdges := if falling then c.fallingEdges + 1 else c.fallingEdges }
  match c.turn with
  | .listening =>
    if falling && c.behavior != .neverAck then
      { c with latched := some c.hostData, signal := false }
    else if rising then
      match c.latched with
      | some byte => acceptByte { c with latched := none, signal := true } byte
      | none => c
    else c
  | .armed reply =>
    if high then { c with signal := false, turn := .replying reply 0 } else c
  | .replying reply index =>
    if falling then { c with signal := true, turn := .replying reply (index + 1) }
    else if rising then
      if index < reply.length then { c with signal := false }
      else { c with signal := true, turn := .listening }
    else c

/-- The byte on the data lines: the reply byte on offer, else all ones. -/
def offered (c : Controller) : UInt8 :=
  match c.turn with
  | .replying reply index => reply.getD index 0xFF
  | _ => 0xFF

/-- The level that the master sees. -/
def peerLevel (c : Controller) : Bool :=
  c.behavior != .notReady && c.signal

instance : Lines Controller where
  setDirection c direction := { c with hostDirection := direction }
  writeData c byte := { c with hostData := byte }
  readData c := (c.offered, c)
  peerSignal c := (c.peerLevel, c)
  setClock := onClock

/-! ### Adjustments from outside -/

def setBehavior (c : Controller) (behavior : Behavior) : Controller :=
  { c with behavior }

def setVersion (c : Controller) (version : Int32) : Controller :=
  { c with machine := { c.machine with version } }

def setBusyPolls (c : Controller) (busyPolls : Nat) : Controller :=
  { c with machine := { c.machine with busyPolls } }

end Controller

end MotionBridge
