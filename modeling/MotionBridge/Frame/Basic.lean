/-
MotionBridge/Frame/Basic.lean

Frames and how they are found in a byte stream.

A frame runs from a start mark to an end mark and carries a checksum before
the end mark.  `validate` looks for the first end mark that has a start mark
before it; the frame begins at the last start mark before that end mark, so
stray start marks ahead of a real frame are skipped, and so is an end mark
that nothing precedes.
-/
import MotionBridge.Frame.Base128
import MotionBridge.Frame.Checksum

namespace MotionBridge

/-- The start mark. -/
def stx : UInt8 := 2

/-- The end mark. -/
def etx : UInt8 := 3

/-- What is added to a node number to form a frame's address byte. -/
def addressOffset : Int := 10

/-! ### Frames -/

/-- A span that passed its checksum. -/
structure Frame where
  /-- The destination: the address byte less the offset. -/
  node : Int
  /-- Start mark through end mark. -/
  bytes : Bytes
  /-- Where the frame begins in the buffer it was found in. -/
  start : Nat
  /-- The position after its end mark. -/
  stop : Nat
deriving Repr, DecidableEq

namespace Frame

/-- The command byte, of a frame long enough to carry one beside its marks,
address and checksum. -/
def command (f : Frame) : Option UInt8 :=
  if f.bytes.length < 5 then none else f.bytes[2]?

/-- The value behind the command byte, if it ends before the checksum. -/
def parameter (f : Frame) : Option Int32 :=
  Base128.decodeAt (f.bytes.take (f.bytes.length - 2)) 3

end Frame

/-! ### Finding the first span -/

/-- Why a buffer does not begin with a good frame. -/
inductive FrameError
  /-- No complete span yet. -/
  | incomplete
  /-- The span that ends at index `etxAt` has a wrong checksum. -/
  | checksumMismatch (etxAt : Nat)
deriving Repr, DecidableEq

/-- The reported text. -/
def FrameError.text : FrameError → String
  | .incomplete => "incomplete frame"
  | .checksumMismatch etxAt => s!"checksum mismatch in frame ending at {etxAt}"

/-- The indices of the first span's two marks, counting from `i`, where
`last` is the last start mark seen so far. -/
def findSpan (i : Nat) (last : Option Nat) : Bytes → Option (Nat × Nat)
  | [] => none
  | b :: rest =>
    if b = stx then findSpan (i + 1) (some i) rest
    else if b = etx then
      match last with
      | some s => some (s, i)
      | none => findSpan (i + 1) none rest
    else findSpan (i + 1) last rest

/-- The bytes of a buffer from index `s` through index `e`. -/
def slice (buffer : Bytes) (s e : Nat) : Bytes :=
  (buffer.drop s).take (e + 1 - s)

/-- The first complete span of a buffer, checked. -/
def validate (buffer : Bytes) : Except FrameError Frame :=
  match findSpan 0 none buffer with
  | none => .error .incomplete
  | some (s, e) =>
    let bytes := slice buffer s e
    if Checksum.closes bytes then
      .ok ⟨(bytes.getD 1 0).toNat - addressOffset, bytes, s, e + 1⟩
    else
      .error (.checksumMismatch e)

end MotionBridge
