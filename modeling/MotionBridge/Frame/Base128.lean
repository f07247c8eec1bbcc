/-
MotionBridge/Frame/Base128.lean

Signed 32-bit values on the wire: five bytes of seven bits each, most
significant group first, each offset by 32 so that it stays clear of the
control characters that mark a frame.

The five groups form a 35-bit number whose low 32 bits are the value in
two's complement.  The top three bits of the first group repeat the sign
when a value is written and are ignored when it is read.
-/
import MotionBridge.Bytes

namespace MotionBridge.Base128

/-- Bytes in an encoded value. -/
def width : Nat := 5

/-- The seven-bit group of weight `128 ^ k`, as a number below 128.  A shift
rounds down, so a negative value repeats its sign bit. -/
def group (v : Int) (k : Nat) : Nat :=
  (v >>> (7 * k) % 128).toNat

/-- The five bytes of a value. -/
def encode (v : Int32) : Bytes :=
  [4, 3, 2, 1, 0].map fun k => UInt8.ofNat (group v.toInt k + 32)

/-- The seven bits that a byte carries. -/
def digit (b : UInt8) : Nat :=
  (b - 32).toNat % 128

/-- The number formed by the groups, most significant first. -/
def number (bytes : Bytes) : Nat :=
  bytes.foldl (fun acc b => acc * 128 + digit b) 0

/-- The value of a group of encoded bytes: the low 32 bits of the number. -/
def decode (bytes : Bytes) : Int32 :=
  Int32.ofNat (number bytes)

/-- The value whose five bytes start at `offset`, if they are all there. -/
def decodeAt (bytes : Bytes) (offset : Nat) : Option Int32 :=
  let encoded := (bytes.drop offset).take width
  if encoded.length = width then some (decode encoded) else none

end MotionBridge.Base128
