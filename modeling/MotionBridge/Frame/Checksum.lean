/-
MotionBridge/Frame/Checksum.lean

The frame checksum: the exclusive or of the bytes between the start mark
and the checksum itself, with bit 7 set so that it can never be mistaken
for a start or end mark.
-/
import MotionBridge.Bytes

namespace MotionBridge.Checksum

/-- Exclusive or of all bytes. -/
def xorAll (bytes : Bytes) : UInt8 :=
  bytes.foldl (· ^^^ ·) 0

/-- The checksum of a frame's body. -/
def ofBody (body : Bytes) : UInt8 :=
  xorAll body ||| 0x80

/-- The bytes that a frame's checksum covers: all but the start mark, the
checksum and the end mark. -/
def body (frame : Bytes) : Bytes :=
  (frame.drop 1).take (frame.length - 3)

/-- Whether a marked span carries the checksum of its body.  A span of fewer
than three bytes has no room for one. -/
def closes (frame : Bytes) : Bool :=
  decide (3 ≤ frame.length) && frame[frame.length - 2]? == some (ofBody (body frame))

end MotionBridge.Checksum
