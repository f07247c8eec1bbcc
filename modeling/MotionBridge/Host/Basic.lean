/-
MotionBridge/Host/Basic.lean

What the bridge needs from the host it runs on.  The bridge is started the
same way on every host; a host is given by its effects.
-/
import MotionBridge.Bridge
import MotionBridge.Controller.Simulated
import MotionBridge.Settings.Basic

namespace MotionBridge

/-- The bridge as it runs: a simulated controller and digital lines held in
memory. -/
abbrev RunningBridge := Bridge Controller Pins

/-- Why the content of a file is no text. -/
def notText : String := "stream did not contain valid UTF-8"

/-- The effects of a host. -/
structure Host (m : Type → Type) where
  /-- The text of a file, or why it cannot be read. -/
  readText : String → m (Except String String)
  /-- Writes to the standard output. -/
  print : String → m Unit
  /-- Writes to the standard error stream, past the log. -/
  complain : String → m Unit
  /-- Reports a line. -/
  say : LogLine → m Unit
  setDebug : Bool → m Unit
  /-- Opens a log file in a directory. -/
  startLogFile : String → m (Except String Unit)
  stopLogFile : m Unit
  /-- The time, from some origin. -/
  now : m Time
  /-- Opens the listener of a channel; its address, or why it cannot be
  opened. -/
  listen : (name : String) → NetworkSettings → (port : UInt16) → m (Except String String)
  /-- Opens a serial port, or tells why it cannot be opened. -/
  openSerial : SerialSettings → m (Except String Unit)
  /-- Runs the poll loop until it is interrupted. -/
  serve : RunningBridge → m Unit

end MotionBridge
