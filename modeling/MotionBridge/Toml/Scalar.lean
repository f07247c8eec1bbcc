/-
MotionBridge/Toml/Scalar.lean

Keys, strings, numbers, dates and truth values as a TOML document writes
them.
-/
import MotionBridge.Text.Parser
import MotionBridge.Toml.Value

namespace MotionBridge.Toml

open TextParser

/-! ### Blanks, line ends and comments -/

/-- A character that may stand in a comment. -/
def isText (c : Char) : Bool :=
  c = '\t' || (0x20 ≤ c.toNat && c.toNat ≠ 0x7F)

/-- Spaces and tabs. -/
def blanks : TextParser Unit := do
  let _ ← takeWhile fun c => c = ' ' || c = '\t'

/-- A line feed, alone or behind a carriage return. -/
def newline : TextParser Unit :=
  char '\n' <|> chars ['\r', '\n']

/-- A comment, up to the end of its line. -/
def comment : TextParser Unit := do
  char '#'
  let _ ← takeWhile isText

/-- Blanks, line ends and comments, as they may stand between array items. -/
def filler : TextParser Unit := do
  let _ ← many (newline <|> comment <|> do let _ ← takeWhile1 fun c => c = ' ' || c = '\t')

/-- What may follow on a line: blanks, a comment, and its end. -/
def lineEnd : TextParser Unit := do
  blanks
  let _ ← optional comment
  newline <|> ended

/-! ### Strings -/

/-- A number written in hexadecimal digits. -/
def hexValue (digits : List Char) : Nat :=
  digits.foldl (fun n c => n * 16 + digit c) 0
where
  digit (c : Char) : Nat :=
    if c.isDigit then c.toNat - 48 else c.toLower.toNat - 87

/-- A hexadecimal digit. -/
def isHexDigit (c : Char) : Bool :=
  c.isDigit || ('a' ≤ c && c ≤ 'f') || ('A' ≤ c && c ≤ 'F')

/-- A character by its code, written in so many digits. -/
def unicodeEscape (digits : Nat) : TextParser Char := do
  let n := hexValue (← exactly isHexDigit digits)
  if n.isValidChar then pure (Char.ofNat n) else failure

/-- A backslash and what it stands for. -/
def escape : TextParser Char := do
  char '\\'
  match ← satisfy fun _ => true with
  | 'b' => pure (Char.ofNat 8)
  | 'f' => pure (Char.ofNat 12)
  | 'n' => pure '\n'
  | 'r' => pure '\r'
  | 't' => pure '\t'
  | '"' => pure '"'
  | '\\' => pure '\\'
  | 'u' => unicodeEscape 4
  | 'U' => unicodeEscape 8
  | _ => failure

/-- A string between double quotes, on one line. -/
def basicString : TextParser (List Char) := do
  char '"'
  let cs ← many (satisfy (fun c => isText c && c ≠ '"' && c ≠ '\\') <|> escape)
  char '"'
  pure cs

/-- A string between apostrophes, on one line. -/
def literalString : TextParser (List Char) := do
  char '\''
  let cs ← takeWhile fun c => isText c && c ≠ '\''
  char '\''
  pure cs

/-- A backslash at the end of a line takes the blanks and line ends behind it
away. -/
def lineContinuation : TextParser Unit := do
  char '\\'
  blanks
  newline
  let _ ← many (newline <|> do let _ ← takeWhile1 fun c => c = ' ' || c = '\t')

/-- The body of a string over several lines, and its closing quotes.  One or
two quotes may stand in the body, also right before the closing three. -/
def multiline (quote : Char) (piece : TextParser (List Char)) : TextParser (List Char) := do
  chars [quote, quote, quote]
  let _ ← optional newline
  let quotes : TextParser (List Char) := do
    let qs ← takeWhile1 (· == quote)
    if qs.length < 3 then pure qs else failure
  let body ← many (piece <|> quotes)
  let closing ← takeWhile1 (· == quote)
  if closing.length < 3 || 5 < closing.length then failure
  else pure (body.flatten ++ closing.drop 3)

/-- A line end within a string counts as a line feed. -/
def lineFeed : TextParser (List Char) := do
  newline
  pure ['\n']

/-- A string between three double quotes each. -/
def multilineBasic : TextParser (List Char) :=
  multiline '"' <|
    (takeWhile1 fun c => isText c && c ≠ '"' && c ≠ '\\') <|> lineFeed <|>
      (do lineContinuation; pure []) <|> (do let c ← escape; pure [c])

/-- A string between three apostrophes each. -/
def multilineLiteral : TextParser (List Char) :=
  multiline '\'' <| (takeWhile1 fun c => isText c && c ≠ '\'') <|> lineFeed

/-- A string of any form. -/
def string : TextParser (List Char) :=
  multilineBasic <|> basicString <|> multilineLiteral <|> literalString

/-! ### Keys -/

/-- A character of a key without quotes. -/
def isKeyChar (c : Char) : Bool :=
  c.isAlphanum || c = '_' || c = '-'

/-- One key. -/
def simpleKey : TextParser String := do
  let cs ← basicString <|> literalString <|> takeWhile1 isKeyChar
  pure (String.ofList cs)

/-- How deep keys and values may nest. -/
def nestingLimit : Nat := 80

/-- Keys with dots between them, and blanks around each. -/
def key : TextParser (List String) := do
  let keys ← separated1 (do blanks; let k ← simpleKey; blanks; pure k) (char '.')
  if keys.length < nestingLimit then pure keys else failure

/-! ### Numbers -/

/-- Digits, with single underscores between them. -/
def digits (isDigit : Char → Bool) : TextParser (List Char) := do
  let first ← satisfy isDigit
  let later ← many (satisfy isDigit <|> do char '_'; satisfy isDigit)
  pure (first :: later)

/-- Whether there is a minus sign, of the two signs that may come first. -/
def sign : TextParser Bool :=
  (do char '-'; pure true) <|> (do char '+'; pure false) <|> pure false

/-- Decimal digits without a leading zero. -/
def wholeDigits : TextParser (List Char) := do
  match ← peek? with
  | some '0' => do
    char '0'
    pure ['0']
  | _ => digits Char.isDigit

/-- The value of digits in a base. -/
def valueOf (base : Nat) (ds : List Char) : Nat :=
  ds.foldl (fun n c => n * base + hexValue.digit c) 0

/-- Whether a number fits into 64 bits with its sign. -/
def fits (n : Int) : Bool :=
  decide (-9223372036854775808 ≤ n ∧ n ≤ 9223372036854775807)

/-- An integer in another base, behind its mark. -/
def basedInteger (mark : Char) (base : Nat) (isDigit : Char → Bool) : TextParser Int := do
  chars ['0', mark]
  pure (valueOf base (← digits isDigit))

/-- An integer. -/
def integer : TextParser Int := do
  let n ← basedInteger 'x' 16 isHexDigit <|>
    basedInteger 'o' 8 (fun c => '0' ≤ c && c ≤ '7') <|>
    basedInteger 'b' 2 (fun c => c = '0' || c = '1') <|> do
      let negative ← sign
      let n : Int := valueOf 10 (← wholeDigits)
      pure (if negative then -n else n)
  if fits n then pure n else failure

/-- Whether a decimal, its digits scaled by a power of ten, rounds beyond the
largest 64-bit floating-point number. -/
def overflows (mantissa : Nat) (exponent : Int) : Bool :=
  let size := (Nat.toDigits 10 mantissa).length + exponent
  let limit := Nat.pow 2 1024 - Nat.pow 2 970
  if mantissa = 0 || size < 300 then false
  else if 310 < size then true
  else if 0 ≤ exponent then decide (limit ≤ mantissa * Nat.pow 10 exponent.toNat)
  else decide (limit * Nat.pow 10 (-exponent).toNat ≤ mantissa)

/-- The exponent of a floating-point number. -/
def exponent : TextParser Int := do
  char 'e' <|> char 'E'
  let negative ← sign
  let n : Int := valueOf 10 (← digits Char.isDigit)
  pure (if negative then -n else n)

/-- A floating-point number.  One that is too large is refused, unless it is
negative. -/
def float : TextParser Unit := do
  let negative ← sign
  (chars ['i', 'n', 'f'] <|> chars ['n', 'a', 'n'] <|> do
    let whole ← wholeDigits
    let fraction ← optional (do char '.'; digits Char.isDigit)
    let power ← optional exponent
    let places := fraction.getD []
    if fraction.isNone && power.isNone then failure
    else
      let mantissa := valueOf 10 (whole ++ places)
      if overflows mantissa (power.getD 0 - places.length) && !negative then failure else pure ())

/-! ### Dates and times -/

/-- A number of so many digits between two bounds. -/
def field (width low high : Nat) : TextParser Nat := do
  let n := valueOf 10 (← exactly Char.isDigit width)
  if low ≤ n && n ≤ high then pure n else failure

/-- The days of a month. -/
def daysIn (year month : Nat) : Nat :=
  if month = 2 then
    if (year % 4 = 0 && year % 100 ≠ 0) || year % 400 = 0 then 29 else 28
  else if month = 4 || month = 6 || month = 9 || month = 11 then 30
  else 31

/-- A date. -/
def date : TextParser Unit := do
  let year ← field 4 0 9999
  char '-'
  let month ← field 2 1 12
  char '-'
  let _ ← field 2 1 (daysIn year month)

/-- A time of day, which may have a leap second. -/
def time : TextParser Unit := do
  let _ ← field 2 0 23
  char ':'
  let _ ← field 2 0 59
  char ':'
  let _ ← field 2 0 60
  let _ ← optional (do char '.'; takeWhile1 Char.isDigit)

/-- The offset of a time. -/
def timeOffset : TextParser Unit :=
  char 'Z' <|> char 'z' <|> do
    char '+' <|> char '-'
    let _ ← field 2 0 23
    char ':'
    let _ ← field 2 0 59

/-- A date, a time, or both. -/
def datetime : TextParser Unit :=
  (do
    date
    let _ ← optional (do
      char 'T' <|> char 't' <|> char ' '
      time
      optional timeOffset)) <|> time

/-! ### Scalars -/

/-- A value that holds no others. -/
def scalar : TextParser Value :=
  (do pure (.string (String.ofList (← string)))) <|>
    (do chars ['t', 'r', 'u', 'e']; pure (.boolean true)) <|>
    (do chars ['f', 'a', 'l', 's', 'e']; pure (.boolean false)) <|>
    (do datetime; pure .datetime) <|>
    (do float; pure .float) <|>
    (do pure (.integer (← integer)))

end MotionBridge.Toml
