/-
MotionBridge/Bus/Lines.lean

The lines of the handshake bus, as the master works them.

The bus has eight data lines, driven by whichever side is sending, the
master's clock and the peer's signal; both are high at rest.  A byte goes
out by driving it, pulling the clock low, waiting for a low signal, raising
the clock and waiting for a high signal.  It comes in by waiting for a low
signal, sampling it, pulling the clock low, waiting for a high signal and
raising the clock.
-/
import MotionBridge.Bytes

namespace MotionBridge

/-- Which way the data lines are driven, seen from the master. -/
inductive Direction
  | input
  | output
deriving Repr, DecidableEq

/-- The name of a direction. -/
def Direction.name : Direction → String
  | .input => "Input"
  | .output => "Output"

/-- A peer on the bus: each operation on the lines may change its state, and
a look at the signal or a sample of the data has an answer.  Time passes for
the peer too, so it also tells when the master has waited long enough. -/
class Lines (σ : Type) where
  setDirection : σ → Direction → σ
  /-- Drives the data lines, which the peer sees while the direction is
  output. -/
  writeData : σ → UInt8 → σ
  readData : σ → UInt8 × σ
  /-- The level of the peer's signal, high for true. -/
  peerSignal : σ → Bool × σ
  setClock : σ → Bool → σ
  /-- Whether the time for a wait is over; asked after each look that saw the
  other level.  A peer that keeps no time lets every wait go on. -/
  timeUp : σ → Bool := fun _ => false

namespace Lines

variable {σ : Type} [Lines σ]

/-- Clocks bytes out without waiting for the peer, and tells the level of its
signal after each edge. -/
def clockOut : Bytes → σ → List Bool × σ
  | [], s => ([], s)
  | byte :: rest, s =>
    let (low, s) := peerSignal (setClock (writeData s byte) false)
    let (high, s) := peerSignal (setClock s true)
    let (later, s) := clockOut rest s
    (low :: high :: later, s)

/-- Samples bytes without waiting for the peer, clocking after each, and tells
the level of its signal before each sample and after each falling edge. -/
def clockIn : Nat → σ → List Bool × Bytes × σ
  | 0, s => ([], [], s)
  | n + 1, s =>
    let (before, s) := peerSignal s
    let (byte, s) := readData s
    let (low, s) := peerSignal (setClock s false)
    let (later, bytes, s) := clockIn n (setClock s true)
    (before :: low :: later, byte :: bytes, s)

end Lines

/-! ### Recorded lines -/

/-- One operation on the lines, with its answer. -/
inductive LineCall
  | setDirection (direction : Direction)
  | writeData (byte : UInt8)
  | readData (byte : UInt8)
  | peerSignal (level : Bool)
  | setClock (high : Bool)
deriving Repr, DecidableEq

/-- The call in one word. -/
def LineCall.text : LineCall → String
  | .setDirection .input => "in"
  | .setDirection .output => "out"
  | .writeData byte => "w" ++ hexByte byte
  | .readData byte => "r" ++ hexByte byte
  | .peerSignal level => if level then "p1" else "p0"
  | .setClock high => if high then "c1" else "c0"

/-- A peer together with every call made on its lines, newest first. -/
structure Recorded (σ : Type) where
  peer : σ
  calls : List LineCall := []
deriving Repr

/-- The calls in the order they were made. -/
def Recorded.trace {σ : Type} (r : Recorded σ) : List LineCall :=
  r.calls.reverse

/-- Recording changes nothing for the peer. -/
instance {σ : Type} [Lines σ] : Lines (Recorded σ) where
  setDirection r direction :=
    ⟨Lines.setDirection r.peer direction, .setDirection direction :: r.calls⟩
  writeData r byte := ⟨Lines.writeData r.peer byte, .writeData byte :: r.calls⟩
  readData r :=
    let (byte, peer) := Lines.readData r.peer
    (byte, ⟨peer, .readData byte :: r.calls⟩)
  peerSignal r :=
    let (level, peer) := Lines.peerSignal r.peer
    (level, ⟨peer, .peerSignal level :: r.calls⟩)
  setClock r high := ⟨Lines.setClock r.peer high, .setClock high :: r.calls⟩
  timeUp r := Lines.timeUp r.peer

end MotionBridge
