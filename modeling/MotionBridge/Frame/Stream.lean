/-
MotionBridge/Frame/Stream.lean

All spans of a byte stream.  Each complete span, good or bad, is dropped
through its end mark and the search goes on behind it; what is left holds
no complete span.
-/
import MotionBridge.Frame.Basic

namespace MotionBridge

/-- A complete span: a frame, or one whose checksum is wrong. -/
inductive Span
  | frame (f : Frame)
  /-- The span that ended at index `etxAt` is dropped. -/
  | mismatch (etxAt : Nat)
deriving Repr, DecidableEq

/-- The frame of a good span. -/
def Span.frame? : Span → Option Frame
  | .frame f => some f
  | .mismatch _ => none

/-- The first complete span and the bytes behind it. -/
def nextSpan (buffer : Bytes) : Option (Span × Bytes) :=
  match validate buffer with
  | .ok f => some (.frame f, buffer.drop f.stop)
  | .error (.checksumMismatch etxAt) => some (.mismatch etxAt, buffer.drop (etxAt + 1))
  | .error .incomplete => none

/-- A span takes at least one byte off the buffer. -/
theorem nextSpan_length_lt {buffer : Bytes} {s : Span} {rest : Bytes}
    (h : nextSpan buffer = some (s, rest)) : rest.length < buffer.length := by
  cases buffer with
  | nil => simp [nextSpan, validate, findSpan] at h
  | cons b bs =>
    unfold nextSpan validate at h
    cases hf : findSpan 0 none (b :: bs) with
    | none => simp [hf] at h
    | some p =>
      obtain ⟨i, e⟩ := p
      by_cases hc : Checksum.closes (slice (b :: bs) i e)
      · simp only [hf, hc, if_true, Option.some.injEq, Prod.mk.injEq] at h
        rw [← h.2]
        simp only [List.length_drop, List.length_cons]
        omega
      · simp only [hf, hc, Bool.false_eq_true, if_false, Option.some.injEq,
          Prod.mk.injEq] at h
        rw [← h.2]
        simp only [List.length_drop, List.length_cons]
        omega

/-- Every complete span of a buffer in order, and what is left behind the
last one. -/
def spans (buffer : Bytes) : List Span × Bytes :=
  match _h : nextSpan buffer with
  | none => ([], buffer)
  | some (s, rest) =>
    let (later, left) := spans rest
    (s :: later, left)
termination_by buffer.length
decreasing_by exact nextSpan_length_lt _h

end MotionBridge
