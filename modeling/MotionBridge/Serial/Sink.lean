/-
MotionBridge/Serial/Sink.lean

The output side of a serial port.
-/
import MotionBridge.Bytes
import MotionBridge.DeviceError

namespace MotionBridge

/-- A port's output. -/
inductive Sink
  /-- Takes bytes, and keeps what it took. -/
  | working (written : Bytes)
  /-- Refuses every write, with an error that may depend on the bytes. -/
  | broken (error : Bytes → DeviceError)

namespace Sink

/-- Writes bytes out. -/
def write (s : Sink) (data : Bytes) : Except DeviceError Sink :=
  match s with
  | .working written => .ok (.working (written ++ data))
  | .broken error => .error (error data)

/-- Everything written so far. -/
def written : Sink → Bytes
  | .working written => written
  | .broken _ => []

/-- Forgets what was written. -/
def clear : Sink → Sink
  | .working _ => .working []
  | .broken error => .broken error

end Sink

end MotionBridge
