/-
MotionBridge/Text/Blank.lean

Blank characters, lines, and words of a text.

The blanks are the characters with the Unicode property White_Space.  Lines
end at a line feed; a carriage return at the end of a line is a blank like
any other.
-/

namespace MotionBridge.Text

/-- Whether a character is a blank. -/
def isBlank (c : Char) : Bool :=
  let n := c.toNat
  (9 ≤ n && n ≤ 13) || n = 32 || n = 0x85 || n = 0xA0 || n = 0x1680 ||
    (0x2000 ≤ n && n ≤ 0x200A) || n = 0x2028 || n = 0x2029 || n = 0x202F ||
    n = 0x205F || n = 0x3000

/-- A text without the blanks at its two ends. -/
def trim (s : List Char) : List Char :=
  ((s.dropWhile isBlank).reverse.dropWhile isBlank).reverse

/-- The lines of a text.  Behind a final line feed begins no line that
matters: it is empty. -/
def lines (s : List Char) : List (List Char) :=
  s.splitOn '\n'

/-- The text before and behind the first occurrence of a character. -/
def splitFirst (c : Char) (s : List Char) : Option (List Char × List Char) :=
  match s.dropWhile (· != c) with
  | [] => none
  | _ :: after => some (s.takeWhile (· != c), after)

/-- The number that a text of decimal digits stands for.  One plus sign may
stand before the digits. -/
def decimal? (s : List Char) : Option Nat :=
  let digits := match s with
    | '+' :: rest => rest
    | _ => s
  if digits.isEmpty || !digits.all Char.isDigit then none
  else some (digits.foldl (fun n d => n * 10 + (d.toNat - 48)) 0)

end MotionBridge.Text
