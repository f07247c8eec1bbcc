/-
MotionBridge/Bytes.lean

Byte strings as they travel on the links, and their hexadecimal text.
-/

namespace MotionBridge

/-- A byte string, first byte first. -/
abbrev Bytes := List UInt8

/-! ### Hexadecimal text -/

/-- The lower-case hexadecimal digit of a number below 16. -/
def hexDigit (n : Nat) : Char :=
  if n < 10 then Char.ofNat (48 + n) else Char.ofNat (87 + n)

/-- Two hexadecimal digits, high half first. -/
def hexByte (b : UInt8) : String :=
  String.ofList [hexDigit (b.toNat / 16), hexDigit (b.toNat % 16)]

/-- Two digits a byte, no separator. -/
def hex (bytes : Bytes) : String :=
  String.join (bytes.map hexByte)

/-- The value of a lower-case hexadecimal digit. -/
def hexDigitValue? (c : Char) : Option Nat :=
  if c.isDigit then some (c.toNat - 48)
  else if 'a' ≤ c ∧ c ≤ 'f' then some (c.toNat - 87)
  else none

/-- The bytes of a text of two digits a byte. -/
def bytesOfHex? : List Char → Option Bytes
  | [] => some []
  | high :: low :: rest => do
    let b := UInt8.ofNat (16 * (← hexDigitValue? high) + (← hexDigitValue? low))
    pure (b :: (← bytesOfHex? rest))
  | _ => none

/-- The hexadecimal digits of a number, without leading zeros. -/
def hexNumber (n : Nat) : String :=
  String.ofList (Nat.toDigits 16 n)

end MotionBridge
