/-
MotionBridge/Proofs/RoundTrip.lean

A stream of frames and noise is read back as the frames that were written.

What the bridge writes are values, commands for the motor controller, and
commands addressed to a node (`Written`).  Each of them is a good frame
(`Written.isFrame`) out of which its contents are read again
(`Written.readFrom_frame`).  Noise is any run of bytes in which no end mark
stands behind a start mark, so stray marks of either kind may be in it.

Behind such noise a written frame is the first span, and nothing of what
follows it is touched (`Segment.nextSpan_bytes`).  By induction on the list,
the spans of a whole stream are the frames that were written, in order, and
what is left is the noise behind the last one (`spans_written`).
-/
import MotionBridge.Proofs.Frame.Concat
import MotionBridge.Proofs.Bus.CommandFrame

namespace MotionBridge

/-! ### Written frames -/

/-- What is put between marks. -/
inductive Written
  /-- A value for the host. -/
  | value (v : Int32)
  /-- A command for the motor controller. -/
  | pending (c : PendingCommand)
  /-- A command for the node at an address. -/
  | addressed (address command : UInt8) (parameter : Option Int32)
deriving Repr, DecidableEq

namespace Written

/-- The bytes on the wire. -/
def bytes : Written → Bytes
  | value v => valueReply v
  | pending c => c.frame
  | addressed address command parameter => enclose (commandBody address command parameter)

/-- The byte behind the start mark.  A value has its own first byte there. -/
def address : Written → UInt8
  | value v => (Base128.encode v).headD 0
  | pending _ => busAddress
  | addressed address _ _ => address

/-- Address and command byte are no marks. -/
def Valid : Written → Prop
  | value _ => True
  | pending c => c.wire ≠ stx ∧ c.wire ≠ etx
  | addressed address command _ =>
    (address ≠ stx ∧ address ≠ etx) ∧ (command ≠ stx ∧ command ≠ etx)

instance : (w : Written) → Decidable w.Valid
  | value _ => inferInstanceAs (Decidable True)
  | pending c => inferInstanceAs (Decidable (c.wire ≠ stx ∧ c.wire ≠ etx))
  | addressed address command _ => inferInstanceAs (Decidable
      ((address ≠ stx ∧ address ≠ etx) ∧ (command ≠ stx ∧ command ≠ etx)))

/-- The frame that is found behind `start` bytes of noise. -/
def frame (w : Written) (start : Nat) : Frame where
  node := w.address.toNat - addressOffset
  bytes := w.bytes
  start := start
  stop := start + w.bytes.length

/-- The contents are read out of a frame: a value where the host expects it,
which the master understands as well, or a command and its parameter. -/
def ReadFrom : Written → Frame → Prop
  | value v, f => Base128.decodeAt f.bytes 1 = some v ∧ interpretReply f.bytes = some v
  | pending c, f => f.command = some c.wire ∧ f.parameter = c.parameter
  | addressed _ command parameter, f => f.command = some command ∧ f.parameter = parameter

/-- **What is written is a good frame**: no byte between the marks is one. -/
theorem isFrame {w : Written} (h : w.Valid) : IsFrame w.bytes := by
  rcases w with v | c | ⟨address, command, parameter⟩
  · exact isFrame_enclose (Base128.unmarked_encode v)
  · show IsFrame c.frame
    rw [c.frame_eq]
    exact isFrame_enclose (PendingCommand.unmarked_body h)
  · obtain ⟨haddress, hcommand⟩ := h
    exact isFrame_enclose (.commandBody haddress hcommand parameter)

/-- A good frame is read as the frame that was written. -/
theorem frameAt_bytes (w : Written) (start : Nat) : frameAt start w.bytes = w.frame start := by
  rcases w with v | ⟨code, axis, - | v⟩ | ⟨address, command, - | v⟩ <;> rfl

/-- **The contents are read out of the frame**, wherever it was found. -/
theorem readFrom_frame (w : Written) (start : Nat) : w.ReadFrom (w.frame start) := by
  rw [← frameAt_bytes]
  rcases w with v | c | ⟨address, command, parameter⟩
  · exact ⟨Base128.decodeAt_encode v [stx] _, interpretReply_frame (.value v)⟩
  · show (frameAt start c.frame).command = _ ∧ (frameAt start c.frame).parameter = _
    rw [c.frame_eq]
    exact frameAt_command start busAddress c.wire c.parameter
  · exact frameAt_command start address command parameter

end Written

/-! ### Streams -/

/-- A written frame and the noise ahead of it. -/
structure Segment where
  noise : Bytes
  written : Written
deriving Repr, DecidableEq

namespace Segment

def bytes (s : Segment) : Bytes :=
  s.noise ++ s.written.bytes

/-- The frame as it is found behind its noise. -/
def frame (s : Segment) : Frame :=
  s.written.frame s.noise.length

/-- **A written frame behind noise is the first span**, and the search goes on
with exactly the bytes behind it. -/
theorem nextSpan_bytes {s : Segment} (hnoise : Unclosed s.noise) (hvalid : s.written.Valid)
    (rest : Bytes) : nextSpan (s.bytes ++ rest) = some (.frame s.frame, rest) := by
  have hquiet : Quiet s.noise := quiet_iff_unclosed.mpr hnoise
  rw [bytes, List.append_assoc, hquiet.nextSpan_frame (Written.isFrame hvalid) rest,
    Written.frameAt_bytes]
  rfl

end Segment

/-- **Decoding undoes encoding on whole streams**: of written frames, with noise
before, between and behind them, exactly the frames are found, in order, and
then no more.  Each carries the bytes that were written, and its contents. -/
theorem spans_written {segments : List Segment} {tail : Bytes}
    (hnoise : ∀ s ∈ segments, Unclosed s.noise) (hvalid : ∀ s ∈ segments, s.written.Valid)
    (htail : Unclosed tail) :
    spans (segments.flatMap Segment.bytes ++ tail)
        = (segments.map fun s => .frame s.frame, tail) ∧
      validate tail = .error .incomplete ∧
      ∀ s ∈ segments, s.written.ReadFrom s.frame := by
  have hquiet : Quiet tail := quiet_iff_unclosed.mpr htail
  refine ⟨?_, ?_, fun s _ => s.written.readFrom_frame _⟩
  · induction segments with
    | nil => exact spans_of_quiet hquiet
    | cons s segments ih =>
      have hnext := Segment.nextSpan_bytes (hnoise s (List.mem_cons_self ..))
        (hvalid s (List.mem_cons_self ..)) (segments.flatMap Segment.bytes ++ tail)
      have hlater := ih (fun t ht => hnoise t (List.mem_cons_of_mem s ht))
        (fun t ht => hvalid t (List.mem_cons_of_mem s ht))
      rw [List.flatMap_cons, List.append_assoc, spans_of_nextSpan hnext, hlater]
      rfl
  · rw [validate_eq, hquiet]

/-- Stray marks of both kinds between a negative value, a command with the
least of all parameters, and a command to node 3. -/
theorem spans_written_stray_marks :
    let segments : List Segment :=
      [⟨[stx, 7, stx], .value (-500)⟩,
       ⟨[etx, etx, 65], .pending ⟨12, 2, some (-2147483648)⟩⟩,
       ⟨[etx, stx, stx], .addressed 13 32 none⟩]
    spans (segments.flatMap Segment.bytes ++ [etx, stx, 9])
        = (segments.map fun s => .frame s.frame, [etx, stx, 9]) ∧
      validate [etx, stx, 9] = .error .incomplete ∧
      ∀ s ∈ segments, s.written.ReadFrom s.frame :=
  spans_written (by decide) (by decide) (by decide)

end MotionBridge
