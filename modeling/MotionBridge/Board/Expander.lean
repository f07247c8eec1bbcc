/-
MotionBridge/Board/Expander.lean

The board's digital lines: eight latched outputs and two banks of eight
inputs.
-/
import MotionBridge.Bytes

namespace MotionBridge

/-- An input bank. -/
inductive Bank
  | first
  | second
deriving Repr, DecidableEq

/-- The bank of a number, of which there are two. -/
def Bank.ofNumber? : Nat → Option Bank
  | 0 => some .first
  | 1 => some .second
  | _ => none

/-- Outputs and inputs behind the board.  Reading a bank may change the state
of what is read. -/
class Expander (ξ : Type) where
  writeOutputs : ξ → UInt8 → ξ
  readInputs : ξ → Bank → UInt8 × ξ

/-- Lines held in memory. -/
structure Pins where
  /-- The outputs as last written. -/
  outputs : UInt8 := 0
  firstBank : UInt8 := 0
  secondBank : UInt8 := 0
  /-- How often the outputs were written. -/
  writes : Nat := 0
deriving Repr, DecidableEq

namespace Pins

/-- The levels of a bank. -/
def inputs (p : Pins) : Bank → UInt8
  | .first => p.firstBank
  | .second => p.secondBank

/-- Sets the levels of a bank. -/
def setInputs (p : Pins) (bank : Bank) (value : UInt8) : Pins :=
  match bank with
  | .first => { p with firstBank := value }
  | .second => { p with secondBank := value }

instance : Expander Pins where
  writeOutputs p value := { p with outputs := value, writes := p.writes + 1 }
  readInputs p bank := (p.inputs bank, p)

end Pins

end MotionBridge
