/-
MotionBridge/Frame/Accumulator.lean

The bounded buffer in which frames that arrive in pieces come together.

It never holds more than its capacity.  `push` drops what is buffered when a
chunk does not fit; `feed` cuts a backlog into chunks that do fit, taking
complete spans out in between, so that only an unterminated span longer than
the capacity is lost.
-/
import MotionBridge.Frame.Stream

namespace MotionBridge

/-- The frame buffer of a channel. -/
structure Accumulator where
  buffer : Bytes := []
  capacity : Nat
deriving Repr, DecidableEq

namespace Accumulator

/-- Bytes that can be pushed without losing any. -/
def room (a : Accumulator) : Nat :=
  a.capacity - a.buffer.length

/-- Appends a chunk, and tells how many bytes were lost.  When the chunk does
not fit, the old contents are dropped and the chunk is cut to the capacity. -/
def push (a : Accumulator) (chunk : Bytes) : Nat × Accumulator :=
  if a.buffer.length + chunk.length ≤ a.capacity then
    (0, { a with buffer := a.buffer ++ chunk })
  else
    let kept := min chunk.length a.capacity
    (a.buffer.length + chunk.length - kept, { a with buffer := chunk.take kept })

/-- Takes the next complete span out. -/
def next (a : Accumulator) : Option (Span × Accumulator) :=
  (nextSpan a.buffer).map fun (s, rest) => (s, { a with buffer := rest })

/-- Takes every complete span out. -/
def drain (a : Accumulator) : List Span × Accumulator :=
  let (found, rest) := spans a.buffer
  (found, { a with buffer := rest })

/-- Drops what is buffered. -/
def clear (a : Accumulator) : Accumulator :=
  { a with buffer := [] }

/-! ### Feeding a backlog -/

/-- What happens while a backlog is fed in. -/
inductive Event
  | span (s : Span)
  /-- So many bytes were lost. -/
  | overflow (discarded : Nat)
deriving Repr, DecidableEq

/-- How much of a backlog goes in next: what there is room for, or, into a
full buffer, as much as it can hold. -/
def portion (a : Accumulator) (pending : Bytes) : Nat :=
  if 0 < a.room then min a.room pending.length else min pending.length a.capacity

/-- Bytes lost in an event. -/
def Event.discarded : Event → Nat
  | .span _ => 0
  | .overflow discarded => discarded

/-- Whether an event is a complete span. -/
def Event.isSpan : Event → Bool
  | .span _ => true
  | .overflow _ => false

/-- Bytes lost in events. -/
def discarded (events : List Event) : Nat :=
  events.foldr (fun event total => event.discarded + total) 0

/-- The event of losing bytes, if any were lost. -/
def overflowEvent (discarded : Nat) : List Event :=
  if 0 < discarded then [.overflow discarded] else []

/-- Feeds a backlog in, portion by portion, and takes the complete spans out
after each.  A buffer of capacity zero takes nothing. -/
def feed (a : Accumulator) (pending : Bytes) : List Event × Accumulator :=
  if _h : 0 < a.portion pending then
    let (discarded, filled) := a.push (pending.take (a.portion pending))
    let (found, drained) := filled.drain
    let (later, final) := drained.feed (pending.drop (a.portion pending))
    (overflowEvent discarded ++ found.map .span ++ later, final)
  else
    ([], a)
termination_by pending.length
decreasing_by
  have : a.portion pending ≤ pending.length := by
    unfold portion
    split <;> omega
  simp only [List.length_drop]
  omega

/-- Everything that happens when a backlog arrives: spans already complete in
the buffer come first. -/
def receive (a : Accumulator) (backlog : Bytes) : List Event × Accumulator :=
  let (found, drained) := a.drain
  let (later, final) := drained.feed backlog
  (found.map .span ++ later, final)

end Accumulator

end MotionBridge
