/-
MotionBridge/Main.lean

The program: it reads its arguments, starts the bridge on the system, and
runs it until it is interrupted.
-/
import MotionBridge.Host.System
import MotionBridge.Startup

/-- Runs the bridge; the exit code tells how it ended. -/
def main (args : List String) : IO UInt32 := do
  let system ← MotionBridge.System.start
  MotionBridge.Program.run system.host args
