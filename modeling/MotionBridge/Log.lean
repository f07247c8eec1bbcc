/-
MotionBridge/Log.lean

What the bridge reports while it works.  Operations return the lines they
report; whether a detail line is shown is decided once, where lines leave
the program.
-/

namespace MotionBridge

/-- One reported line. -/
structure LogLine where
  /-- A detail is shown only while debug logging is on. -/
  detail : Bool
  text : String
deriving Repr, DecidableEq

/-- A line that is always shown. -/
def LogLine.note (text : String) : LogLine := ⟨false, text⟩

/-- A line for debug logging only. -/
def LogLine.trace (text : String) : LogLine := ⟨true, text⟩

/-- Whether a line is shown, with debug logging on or off. -/
def LogLine.isShown (debug : Bool) (line : LogLine) : Bool :=
  debug || !line.detail

/-- Lines in the order they were reported. -/
abbrev Log := List LogLine

/-- The texts that reach the outside, with debug logging on or off. -/
def Log.shown (debug : Bool) (log : Log) : List String :=
  (log.filter (LogLine.isShown debug)).map LogLine.text

end MotionBridge
