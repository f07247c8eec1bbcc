/-
MotionBridge/Board/Monitor.lean

When did a watched input last change?  The monitor is shown samples of an
input bank with their times.  A time that lies before another counts as no time
after it.  Times are compared as they are; only the age that is told is rounded
down to milliseconds.
-/
import MotionBridge.Bytes
import MotionBridge.Time

namespace MotionBridge

/-- The watch over one input bit. -/
structure Monitor where
  /-- The bit within the bank. -/
  bit : Nat
  /-- The least time between samples. -/
  interval : Time
  lastLevel : Option Bool := none
  /-- When the bit last changed, or when the watch began. -/
  lastChange : Time
  lastSample : Option Time := none
deriving Repr, DecidableEq

namespace Monitor

/-- A watch that begins now.  A bank has eight bits; a larger bit number
stands for the last. -/
def startingAt (bit : Nat) (interval now : Time) : Monitor :=
  { bit := min bit 7, interval, lastChange := now }

/-- Whether a sample is due. -/
def due (m : Monitor) (now : Time) : Bool :=
  match m.lastSample with
  | some last => decide (m.interval ≤ now.since last)
  | none => true

/-- The level of the watched bit in a bank. -/
def level (m : Monitor) (bank : UInt8) : Bool :=
  bank.toNat.testBit m.bit

/-- Takes a sample, and tells whether the watched bit has changed since the
one before. -/
def sample (m : Monitor) (bank : UInt8) (now : Time) : Bool × Monitor :=
  let level := m.level bank
  let changed := m.lastLevel.any (· != level)
  (changed,
    { m with
      lastLevel := some level
      lastSample := some now
      lastChange := if changed then now else m.lastChange })

/-- The longest age that is told apart, in milliseconds. -/
def maxElapsed : Nat := 2147483647

/-- Whole milliseconds since the watched bit changed. -/
def elapsed (m : Monitor) (now : Time) : Int32 :=
  Int32.ofNat (min (now.since m.lastChange).millis maxElapsed)

end Monitor

end MotionBridge
