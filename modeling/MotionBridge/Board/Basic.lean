/-
MotionBridge/Board/Basic.lean

The bridge's own board: outputs, inputs, vibration of the first two axes and
the age of the watched input.

A command byte with its parameter is first read as a request; a request then
acts on exactly one part of the board.  Outputs change in the board's own
byte and reach the expander only when they are refreshed.
-/
import MotionBridge.Board.Expander
import MotionBridge.Board.Monitor
import MotionBridge.Board.Vibrate

namespace MotionBridge

/-- The two axes that can vibrate. -/
inductive VibrateAxis
  | first
  | second
deriving Repr, DecidableEq

/-- The axis, counted from one. -/
def VibrateAxis.number : VibrateAxis → UInt8
  | .first => 1
  | .second => 2

/-- What the board can be asked to do. -/
inductive Request
  /-- Taken without reply: the address of the bridge cannot be changed. -/
  | changeAddress
  | setOutputs (value : UInt8)
  | readInputs
  | setOutput (bit : Fin 8)
  | clearOutput (bit : Fin 8)
  | startVibrate (axis : VibrateAxis) (distance : Int32)
  | stopVibrate (axis : VibrateAxis)
  /-- How long ago did the watched input change? -/
  | inputAge
  /-- The parameter is missing, or not one that the command takes. -/
  | badParameter
  | unknown (command : UInt8)
deriving Repr, DecidableEq

namespace Request

/-- The bit of an output.  Outputs count from one at the top bit. -/
def outputBit (number : Int32) : Option (Fin 8) :=
  let n := number.toInt
  if h : 1 ≤ n ∧ n ≤ 8 then some ⟨(8 - n).toNat, by omega⟩ else none

/-- A request that needs a parameter. -/
def withParameter (parameter : Option Int32) (request : Int32 → Option Request) : Request :=
  (parameter.bind request).getD .badParameter

/-- The request of a command byte. -/
def ofCommand (command : UInt8) (parameter : Option Int32) : Request :=
  match command with
  | 1 => .changeAddress
  | 32 => withParameter parameter fun v => some (.setOutputs v.toInt8.toUInt8)
  | 228 => .readInputs
  | 229 => withParameter parameter fun n => (outputBit n).map .setOutput
  | 230 => withParameter parameter fun n => (outputBit n).map .clearOutput
  | 231 => withParameter parameter fun d => some (.startVibrate .first d)
  | 232 => withParameter parameter fun d => some (.startVibrate .second d)
  | 233 => .stopVibrate .first
  | 234 => .stopVibrate .second
  | 235 => .inputAge
  | other => .unknown other

end Request

/-- How the board watches its inputs. -/
structure BoardConfig where
  /-- Milliseconds between samples. -/
  inputPoll : Nat := 10
  watchedBit : Nat := 5
deriving Repr, DecidableEq

/-- The board. -/
structure Board (ξ : Type) where
  expander : ξ
  outputs : UInt8 := 0
  vibrate1 : Vibrate := {}
  vibrate2 : Vibrate := {}
  monitor : Monitor
deriving Repr

namespace Board

variable {ξ : Type}

/-- A board at rest, whose watch begins now. -/
def start (expander : ξ) (config : BoardConfig) (now : Time) : Board ξ :=
  { expander, monitor := .startingAt config.watchedBit config.inputPoll now }

/-- The reply to a request that failed. -/
def errorReply : Int32 := -1

/-- The reply to a request that was carried out. -/
def okReply : Int32 := 1

/-- The vibration of an axis. -/
def vibrate (b : Board ξ) : VibrateAxis → Vibrate
  | .first => b.vibrate1
  | .second => b.vibrate2

/-- Replaces the vibration of an axis. -/
def setVibrate (b : Board ξ) (axis : VibrateAxis) (v : Vibrate) : Board ξ :=
  match axis with
  | .first => { b with vibrate1 := v }
  | .second => { b with vibrate2 := v }

variable [Expander ξ]

/-- Writes the output byte to the expander. -/
def refresh (b : Board ξ) : Board ξ :=
  { b with expander := Expander.writeOutputs b.expander b.outputs }

/-- What a request came to. -/
structure Answered (ξ : Type) where
  /-- The value to reply with, if the request has a reply. -/
  reply : Option Int32
  board : Board ξ
  log : Log := []

/-- Carries a request out. -/
def perform (b : Board ξ) (request : Request) (now : Time) : Answered ξ :=
  match request with
  | .changeAddress => { reply := none, board := b }
  | .setOutputs value => { reply := some okReply, board := { b with outputs := value } }
  | .readInputs =>
    let (low, expander) := Expander.readInputs b.expander .first
    let (high, expander) := Expander.readInputs expander .second
    { reply := some (Int32.ofNat (low.toNat + 256 * high.toNat)), board := { b with expander } }
  | .setOutput bit =>
    { reply := some okReply
      board := { b with outputs := b.outputs ||| (1 <<< UInt8.ofNat bit) } }
  | .clearOutput bit =>
    { reply := some okReply
      board := { b with outputs := b.outputs &&& ~~~(1 <<< UInt8.ofNat bit) } }
  | .startVibrate axis distance =>
    { reply := some okReply
      board := b.setVibrate axis (.start distance)
      log := [.note
        s!"[board] Vibrate axis {axis.number.toNat} started, distance {distance.toInt}"] }
  | .stopVibrate axis =>
    { reply := some okReply
      board := b.setVibrate axis (b.vibrate axis).stop
      log := [.note s!"[board] Vibrate axis {axis.number.toNat} stopped"] }
  | .inputAge => { reply := some (b.monitor.elapsed now), board := b }
  | .badParameter => { reply := some errorReply, board := b }
  | .unknown command =>
    { reply := some errorReply
      board := b
      log := [.note s!"[board] Unknown command {command.toNat}"] }

/-- Carries a command out. -/
def handle (b : Board ξ) (command : UInt8) (parameter : Option Int32) (now : Time) : Answered ξ :=
  b.perform (.ofCommand command parameter) now

/-! ### Background work -/

/-- Samples the watched input if a sample is due. -/
def watch (b : Board ξ) (now : Time) : Board ξ × Log :=
  if b.monitor.due now then
    let (bank, expander) := Expander.readInputs b.expander .first
    let (changed, monitor) := b.monitor.sample bank now
    ({ b with expander, monitor },
      if changed then [.trace s!"[board] Watched input changed, bank0=0x{hexByte bank}"] else [])
  else (b, [])

/-- The board and the bus after background work. -/
structure Polled (σ ξ : Type) where
  board : Board ξ
  bus : Master σ
  log : Log

/-- Background work: the watch, then each vibration in turn. -/
def poll {σ : Type} [Lines σ] (b : Board ξ) (bus : Master σ) (now : Time) : Polled σ ξ :=
  let (b, watched) := b.watch now
  let first := b.vibrate1.poll 1 bus
  let second := b.vibrate2.poll 2 first.bus
  { board := { b with vibrate1 := first.vibrate, vibrate2 := second.vibrate }
    bus := second.bus
    log := watched ++ first.log ++ second.log }

end Board

end MotionBridge
