/-
MotionBridge/Bus/Script.lean

A peer that plays a script: its signal levels and its data bytes are given
in advance, whatever the master does.
-/
import MotionBridge.Bus.Lines

namespace MotionBridge

/-- A scripted peer. -/
structure Script where
  /-- The levels of the looks to come. -/
  levels : List Bool
  /-- The bytes of the samples to come. -/
  samples : Bytes
  /-- The level of the last look, which goes on when the script has ended. -/
  level : Bool := true
deriving Repr, DecidableEq

/-- A look takes the next level and a sample the next byte.  At the end of
the script the last level stays, and samples read `FF`. -/
instance : Lines Script where
  setDirection s _ := s
  writeData s _ := s
  readData s :=
    match s.samples with
    | [] => (0xFF, s)
    | byte :: rest => (byte, { s with samples := rest })
  peerSignal s :=
    match s.levels with
    | [] => (s.level, s)
    | level :: rest => (level, { s with levels := rest, level })
  setClock s _ := s

end MotionBridge
