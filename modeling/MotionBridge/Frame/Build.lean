/-
MotionBridge/Frame/Build.lean

The frames that the bridge writes: values for the host, and commands for
the motor controller.
-/
import MotionBridge.Frame.Basic

namespace MotionBridge

/-- A body between its marks, with its checksum. -/
def enclose (body : Bytes) : Bytes :=
  stx :: body ++ [Checksum.ofBody body, etx]

/-- The reply that carries one value. -/
def valueReply (v : Int32) : Bytes :=
  enclose (Base128.encode v)

/-- Bytes passed on as they are, cut to the longest reply allowed. -/
def dataReply (data : Bytes) (limit : Nat) : Bytes :=
  data.take limit

/-- The controller's address on its own bus, where no offset is added. -/
def busAddress : UInt8 := 1

/-- A command for the motor controller. -/
structure PendingCommand where
  /-- The command's code, which stands for its first axis. -/
  code : UInt8
  /-- The axis, counted from one. -/
  axis : UInt8
  parameter : Option Int32
deriving Repr, DecidableEq

namespace PendingCommand

/-- The command byte on the wire: the axes of one command have neighbouring
codes. -/
def wire (c : PendingCommand) : UInt8 :=
  c.code + c.axis - 1

/-- The command as a frame on the bus. -/
def frame (c : PendingCommand) : Bytes :=
  enclose (busAddress :: c.wire ::
    match c.parameter with
    | some v => Base128.encode v
    | none => [])

end PendingCommand

end MotionBridge
