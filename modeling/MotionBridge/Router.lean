/-
MotionBridge/Router.lean

Where a frame goes: the motor controller's frames pass over the bus as they
are, the board's frames run on the board, and all others are dropped.
-/
import MotionBridge.Board.Basic
import MotionBridge.DeviceError

namespace MotionBridge

/-- The node number of the motor controller. -/
def controllerNode : Int := 1

/-- The node number of the bridge's own board. -/
def boardNode : Int := 3

/-- What becomes of a frame. -/
inductive Dispatch
  /-- Bytes to send back. -/
  | reply (bytes : Bytes)
  | noReply
  /-- The motor controller did not answer. -/
  | unreachable
deriving Repr, DecidableEq

/-- A frame that was handled. -/
structure Handled (τ : Type) where
  dispatch : Dispatch
  state : τ
  log : Log := []

/-- A consumer of frames with a state of its own. -/
abbrev Handler (τ : Type) := Frame → τ → Handled τ

/-- The bus and the board behind the router. -/
structure Router (σ ξ : Type) where
  bus : Master σ
  board : Board ξ
deriving Repr

namespace Router

variable {σ ξ : Type} [Lines σ] [Expander ξ]

/-- Passes a frame to the motor controller as it is. -/
def forward (r : Router σ ξ) (frame : Frame) : Handled (Router σ ξ) :=
  let (x, bus) := r.bus.transceive frame.bytes
  { dispatch := if x.reply.isEmpty then .unreachable
      else .reply (dataReply x.reply r.bus.config.maxReply)
    state := { r with bus }
    log := x.log }

/-- Runs a frame on the board.  A frame too short for a command is an
error. -/
def runLocal (r : Router σ ξ) (frame : Frame) (now : Time) : Handled (Router σ ξ) :=
  match frame.command with
  | none => { dispatch := .reply (valueReply Board.errorReply), state := r }
  | some command =>
    let answered := r.board.handle command frame.parameter now
    { dispatch := match answered.reply with
        | some value => .reply (valueReply value)
        | none => .noReply
      state := { r with board := answered.board }
      log := answered.log }

/-- Handles a frame by its node. -/
def handle (now : Time) : Handler (Router σ ξ) := fun frame r =>
  if frame.node = controllerNode then r.forward frame
  else if frame.node = boardNode then r.runLocal frame now
  else
    { dispatch := .noReply
      state := r
      log := [.note s!"[router] Dropping frame for unknown node {frame.node}"] }

/-- Refreshes the board's outputs. -/
def refresh (r : Router σ ξ) : Router σ ξ :=
  { r with board := r.board.refresh }

/-- The board's background work. -/
def background (r : Router σ ξ) (now : Time) : Router σ ξ × Log :=
  let polled := r.board.poll r.bus now
  ({ bus := polled.bus, board := polled.board }, polled.log)

/-- A controller version as it is reported: its 32 bits in hexadecimal. -/
def versionText (version : Int32) : String :=
  "0x" ++ hexNumber version.toUInt32.toNat

/-- Asks the controller for its version.  Without one it cannot be used. -/
def startupCheck (r : Router σ ξ) : Except DeviceError Int32 × Router σ ξ × Log :=
  let (x, bus) := r.bus.command .getVersionInfo 1 none
  let r := { r with bus }
  match x.value with
  | some version =>
    if version = 0 then
      (.error ⟨.unreachable, "motor controller", "reported version 0"⟩, r, x.log)
    else
      (.ok version, r,
        x.log ++ [.note s!"[router] Motor controller version {versionText version}"])
  | none => (.error ⟨.unreachable, "motor controller", "no reply to version query"⟩, r, x.log)

end Router

end MotionBridge
