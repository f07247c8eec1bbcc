/-
MotionBridge/DeviceError.lean

Failures of a device or channel: what went wrong, where, and the one text
in which it is reported.
-/

namespace MotionBridge

/-- What went wrong with a device. -/
inductive DeviceFault
  /-- A listener, connection or device could not be opened. -/
  | connection
  /-- An operation did not complete in time. -/
  | timeout
  /-- The other side broke the protocol. -/
  | protocol
  | read
  | write
  /-- Invalid or unreadable configuration. -/
  | configuration
  /-- The device did not answer at all. -/
  | unreachable
deriving Repr, DecidableEq

/-- A failure together with the device or channel it belongs to.  For a
timeout, `message` names the operation. -/
structure DeviceError where
  fault : DeviceFault
  device : String
  message : String
deriving Repr, DecidableEq

/-- The name of a fault. -/
def DeviceFault.name : DeviceFault → String
  | .connection => "Connection"
  | .timeout => "Timeout"
  | .protocol => "Protocol"
  | .read => "Read"
  | .write => "Write"
  | .configuration => "Configuration"
  | .unreachable => "DeviceUnreachable"

/-- The words between the device and the message. -/
def DeviceFault.phrase : DeviceFault → String
  | .connection => "connection failed"
  | .timeout => "timed out during"
  | .protocol => "protocol error"
  | .read => "read failed"
  | .write => "write failed"
  | .configuration => "invalid configuration"
  | .unreachable => "device unreachable"

/-- The reported text.  A timeout runs on into its operation; every other
fault is set off by a colon. -/
def DeviceError.text (e : DeviceError) : String :=
  match e.fault with
  | .timeout => s!"{e.device}: {e.fault.phrase} {e.message}"
  | _ => s!"{e.device}: {e.fault.phrase}: {e.message}"

end MotionBridge
