/-
MotionBridge/Serial/Parity.lean

The parity of a serial line.
-/
import MotionBridge.Text.Blank

namespace MotionBridge

/-- A parity setting. -/
inductive Parity
  | none
  | odd
  | even
deriving Repr, DecidableEq

namespace Parity

/-- The name of a parity. -/
def name : Parity → String
  | .none => "None"
  | .odd => "Odd"
  | .even => "Even"

/-- The name in lower case, as configuration files have it. -/
def keyword : Parity → String
  | .none => "none"
  | .odd => "odd"
  | .even => "even"

/-- The parity of a keyword. -/
def ofKeyword (word : String) : Option Parity :=
  [none, odd, even].find? fun p => p.keyword == word

/-- The parity of a name, in any case and with blanks around it. -/
def ofName (text : String) : Option Parity :=
  ofKeyword (String.ofList ((Text.trim text.toList).map Char.toLower))

end Parity

end MotionBridge
