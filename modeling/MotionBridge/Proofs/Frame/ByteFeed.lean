/-
MotionBridge/Proofs/Frame/ByteFeed.lean

Feeding a backlog is feeding its bytes one by one.

`feed` cuts a backlog into portions whose sizes depend on the room that is
left; `accept` takes a single byte.  From a *settled* buffer (no complete
span in it, not over its capacity) both produce the same events and leave
the same buffer (`feed_eq_acceptAll`): a portion that fits completes the same
spans at once as byte by byte, and a portion for a full buffer loses the same
bytes as its first byte alone does.

Hence a backlog may be cut anywhere (`Settled.feed_append`).
-/
import MotionBridge.Frame.Accumulator
import MotionBridge.Proofs.Frame.Concat

namespace MotionBridge.Accumulator

/-! ### Counting events -/

@[simp] theorem discarded_nil : discarded [] = 0 := rfl

@[simp] theorem discarded_cons (event : Event) (events : List Event) :
    discarded (event :: events) = event.discarded + discarded events := rfl

@[simp] theorem discarded_append (a b : List Event) :
    discarded (a ++ b) = discarded a + discarded b := by
  induction a with
  | nil => simp
  | cons event rest ih => rw [List.cons_append, discarded_cons, ih, discarded_cons]; omega

/-- Spans lose nothing. -/
@[simp] theorem discarded_map_span (found : List Span) :
    discarded (found.map Event.span) = 0 := by
  induction found with
  | nil => rfl
  | cons s rest ih => rw [List.map_cons, discarded_cons, ih]; rfl

@[simp] theorem countP_map_span (found : List Span) :
    (found.map Event.span).countP Event.isSpan = found.length := by
  induction found with
  | nil => rfl
  | cons s rest ih => rw [List.map_cons, List.countP_cons_of_pos rfl, ih, List.length_cons]

/-! ### Settled buffers -/

/-- A buffer between two chunks: every complete span was taken out, and it is
not over its capacity. -/
structure Settled (a : Accumulator) : Prop where
  quiet : Quiet a.buffer
  fits : a.buffer.length ≤ a.capacity
  /-- A buffer of capacity zero could take nothing. -/
  positive : 0 < a.capacity

theorem settled_empty {capacity : Nat} (h : 0 < capacity) :
    ({ capacity } : Accumulator).Settled :=
  ⟨quiet_nil, Nat.zero_le _, h⟩

/-- Nothing is left to take out of a settled buffer. -/
theorem Settled.drain {a : Accumulator} (h : a.Settled) : a.drain = ([], a) := by
  rw [Accumulator.drain, spans_of_quiet h.quiet]

/-- Taking the complete spans out of what fits settles the buffer. -/
theorem settled_spans {a : Accumulator} {buffer : Bytes} (h : buffer.length ≤ a.capacity)
    (hpos : 0 < a.capacity) : ({ a with buffer := (spans buffer).2 } : Accumulator).Settled :=
  ⟨quiet_spans_snd buffer, Nat.le_trans (length_spans_snd_le buffer) h, hpos⟩

/-! ### One byte -/

/-- What a single byte does: with room it joins the buffer and may complete a
span; without, the buffer is lost and the byte begins a new one. -/
def accept (a : Accumulator) (byte : UInt8) : List Event × Accumulator :=
  if a.buffer.length < a.capacity then
    ((spans (a.buffer ++ [byte])).1.map .span,
      { a with buffer := (spans (a.buffer ++ [byte])).2 })
  else
    ([.overflow a.buffer.length], { a with buffer := [byte] })

/-- What bytes do, one after the other. -/
def acceptAll : Accumulator → Bytes → List Event × Accumulator
  | a, [] => ([], a)
  | a, byte :: rest =>
    ((a.accept byte).1 ++ ((a.accept byte).2.acceptAll rest).1,
      ((a.accept byte).2.acceptAll rest).2)

theorem acceptAll_cons (a : Accumulator) (byte : UInt8) (rest : Bytes) :
    a.acceptAll (byte :: rest)
      = ((a.accept byte).1 ++ ((a.accept byte).2.acceptAll rest).1,
          ((a.accept byte).2.acceptAll rest).2) := rfl

theorem accept_of_room {a : Accumulator} (h : a.buffer.length < a.capacity) (byte : UInt8) :
    a.accept byte
      = ((spans (a.buffer ++ [byte])).1.map .span,
          { a with buffer := (spans (a.buffer ++ [byte])).2 }) := by
  rw [accept, if_pos h]

theorem accept_of_full {a : Accumulator} (h : a.capacity ≤ a.buffer.length) (byte : UInt8) :
    a.accept byte = ([.overflow a.buffer.length], { a with buffer := [byte] }) := by
  rw [accept, if_neg (Nat.not_lt.mpr h)]

theorem Settled.accept {a : Accumulator} (h : a.Settled) (byte : UInt8) :
    (a.accept byte).2.Settled := by
  by_cases hroom : a.buffer.length < a.capacity
  · rw [accept_of_room hroom]
    refine settled_spans ?_ h.positive
    rw [List.length_append, List.length_singleton]
    omega
  · rw [accept_of_full (Nat.not_lt.mp hroom)]
    exact ⟨quiet_singleton byte, h.positive, h.positive⟩

@[simp] theorem capacity_accept (a : Accumulator) (byte : UInt8) :
    (a.accept byte).2.capacity = a.capacity := by
  unfold Accumulator.accept
  split <;> rfl

theorem acceptAll_append (a : Accumulator) (x y : Bytes) :
    a.acceptAll (x ++ y)
      = ((a.acceptAll x).1 ++ ((a.acceptAll x).2.acceptAll y).1,
          ((a.acceptAll x).2.acceptAll y).2) := by
  induction x generalizing a with
  | nil => rfl
  | cons byte rest ih =>
    rw [List.cons_append, acceptAll_cons, ih, acceptAll_cons, List.append_assoc]

theorem Settled.acceptAll {a : Accumulator} (h : a.Settled) (bytes : Bytes) :
    (a.acceptAll bytes).2.Settled := by
  induction bytes generalizing a with
  | nil => exact h
  | cons byte rest ih => exact ih (h.accept byte)

@[simp] theorem capacity_acceptAll (a : Accumulator) (bytes : Bytes) :
    (a.acceptAll bytes).2.capacity = a.capacity := by
  induction bytes generalizing a with
  | nil => rfl
  | cons byte rest ih => rw [acceptAll_cons, ih, capacity_accept]

/-! ### Portions -/

/-- Bytes for which there is room complete the same spans one by one as all at
once. -/
theorem Settled.acceptAll_of_room {a : Accumulator} (h : a.Settled) {chunk : Bytes}
    (hroom : a.buffer.length + chunk.length ≤ a.capacity) :
    a.acceptAll chunk
      = ((spans (a.buffer ++ chunk)).1.map .span,
          { a with buffer := (spans (a.buffer ++ chunk)).2 }) := by
  induction chunk generalizing a with
  | nil => rw [List.append_nil, spans_of_quiet h.quiet]; rfl
  | cons byte rest ih =>
    rw [List.length_cons] at hroom
    have hstep := accept_of_room (a := a) (by omega) byte
    have hnext : (a.accept byte).2.buffer.length + rest.length
        ≤ (a.accept byte).2.capacity := by
      have hle := length_spans_snd_le (a.buffer ++ [byte])
      rw [List.length_append, List.length_singleton] at hle
      rw [capacity_accept, hstep]
      show (spans (a.buffer ++ [byte])).2.length + rest.length ≤ a.capacity
      omega
    rw [acceptAll_cons, ih (h.accept byte) hnext, hstep,
      show a.buffer ++ byte :: rest = (a.buffer ++ [byte]) ++ rest by simp,
      spans_append (a.buffer ++ [byte]) rest, List.map_append]

/-- Bytes for a full buffer lose what was in it and then come together as in
an empty one. -/
theorem Settled.acceptAll_of_full {a : Accumulator} (h : a.Settled)
    (hfull : a.buffer.length = a.capacity) {chunk : Bytes} (hne : chunk ≠ [])
    (hfits : chunk.length ≤ a.capacity) :
    a.acceptAll chunk
      = (.overflow a.capacity :: (spans chunk).1.map .span,
          { a with buffer := (spans chunk).2 }) := by
  rcases chunk with - | ⟨byte, rest⟩
  · exact absurd rfl hne
  · rw [List.length_cons] at hfits
    have hstep := accept_of_full (Nat.le_of_eq hfull.symm) byte
    have hnext : (a.accept byte).2.buffer.length + rest.length
        ≤ (a.accept byte).2.capacity := by
      rw [capacity_accept, hstep]
      show 1 + rest.length ≤ a.capacity
      omega
    rw [acceptAll_cons, (h.accept byte).acceptAll_of_room hnext, hstep, hfull]
    rfl

/-- What fits is appended, and nothing is lost. -/
theorem push_of_fits {a : Accumulator} {chunk : Bytes}
    (h : a.buffer.length + chunk.length ≤ a.capacity) :
    a.push chunk = (0, { a with buffer := a.buffer ++ chunk }) := by
  rw [push, if_pos h]

/-- A full buffer is replaced as a whole by what comes. -/
theorem push_of_full {a : Accumulator} (hfull : a.buffer.length = a.capacity) {chunk : Bytes}
    (hne : chunk ≠ []) (hfits : chunk.length ≤ a.capacity) :
    a.push chunk = (a.capacity, { a with buffer := chunk }) := by
  have hpos : 0 < chunk.length := List.length_pos_iff.mpr hne
  rw [push, if_neg (by omega)]
  show (a.buffer.length + chunk.length - min chunk.length a.capacity,
    ({ a with buffer := chunk.take (min chunk.length a.capacity) } : Accumulator)) = _
  rw [Nat.min_eq_left hfits, List.take_length, hfull, Nat.add_sub_cancel]

/-- A chunk of the size of a portion, taken in and searched for spans, does
what its bytes do one by one. -/
theorem Settled.push_drain {a : Accumulator} (h : a.Settled) {chunk : Bytes} (hne : chunk ≠ [])
    (hsize : a.buffer.length + chunk.length ≤ a.capacity ∨
      a.buffer.length = a.capacity ∧ chunk.length ≤ a.capacity) :
    (overflowEvent (a.push chunk).1 ++ (a.push chunk).2.drain.1.map .span,
      (a.push chunk).2.drain.2) = a.acceptAll chunk := by
  obtain hroom | ⟨hfull, hfits⟩ := hsize
  · rw [push_of_fits hroom, h.acceptAll_of_room hroom]
    rfl
  · rw [push_of_full hfull hne hfits, h.acceptAll_of_full hfull hne hfits, overflowEvent,
      if_pos h.positive]
    rfl

/-! ### The backlog -/

/-- The first portion either fits or meets a full buffer, and it is empty only
when nothing is pending. -/
theorem Settled.portion_size {a : Accumulator} (h : a.Settled) {pending : Bytes}
    (hne : pending ≠ []) :
    0 < a.portion pending ∧ a.portion pending ≤ pending.length ∧
      (a.buffer.length + a.portion pending ≤ a.capacity ∨
        a.buffer.length = a.capacity ∧ a.portion pending ≤ a.capacity) := by
  have hfits := h.fits
  have hpos := h.positive
  have hlen : 0 < pending.length := List.length_pos_iff.mpr hne
  unfold portion room
  split <;> omega

theorem feed_nil (a : Accumulator) : a.feed [] = ([], a) := by
  rw [Accumulator.feed, dif_neg]
  unfold portion
  split <;> simp

/-- A backlog goes in by its first portion and then the rest. -/
theorem Settled.feed_eq_portion {a : Accumulator} (h : a.Settled) {pending : Bytes}
    (hne : pending ≠ []) :
    a.feed pending
      = ((a.acceptAll (pending.take (a.portion pending))).1
            ++ ((a.acceptAll (pending.take (a.portion pending))).2.feed
                (pending.drop (a.portion pending))).1,
          ((a.acceptAll (pending.take (a.portion pending))).2.feed
            (pending.drop (a.portion pending))).2) := by
  obtain ⟨hpos, hle, hsize⟩ := h.portion_size hne
  have hlen : (pending.take (a.portion pending)).length = a.portion pending := by
    rw [List.length_take, Nat.min_eq_left hle]
  have hchunk : pending.take (a.portion pending) ≠ [] :=
    List.ne_nil_of_length_pos (hlen.symm ▸ hpos)
  rw [← h.push_drain hchunk (hlen.symm ▸ hsize), Accumulator.feed, dif_pos hpos]

/-- **Feeding a backlog is feeding its bytes one by one.** -/
theorem Settled.feed_eq_acceptAll {a : Accumulator} (h : a.Settled) (pending : Bytes) :
    a.feed pending = a.acceptAll pending := by
  induction hn : pending.length using Nat.strongRecOn generalizing a pending with
  | ind n ih =>
    by_cases hne : pending = []
    · rw [hne, feed_nil]
      rfl
    · have hlt : (pending.drop (a.portion pending)).length < n := by
        obtain ⟨hpos, hle, -⟩ := h.portion_size hne
        rw [List.length_drop]
        omega
      have hsplit := acceptAll_append a (pending.take (a.portion pending))
        (pending.drop (a.portion pending))
      rw [List.take_append_drop] at hsplit
      rw [h.feed_eq_portion hne, ih _ hlt (h.acceptAll _) _ rfl, hsplit]

/-- What a backlog leaves is settled. -/
theorem Settled.feed {a : Accumulator} (h : a.Settled) (pending : Bytes) :
    (a.feed pending).2.Settled := by
  rw [h.feed_eq_acceptAll]
  exact h.acceptAll pending

/-- A backlog does not change what the buffer can hold. -/
theorem Settled.capacity_feed {a : Accumulator} (h : a.Settled) (pending : Bytes) :
    (a.feed pending).2.capacity = a.capacity := by
  rw [h.feed_eq_acceptAll, capacity_acceptAll]

/-- Nothing is complete in a settled buffer before a backlog comes. -/
theorem Settled.receive {a : Accumulator} (h : a.Settled) (backlog : Bytes) :
    a.receive backlog = a.feed backlog := by
  rw [Accumulator.receive, h.drain]
  rfl

/-- **A backlog may be cut anywhere.** -/
theorem Settled.feed_append {a : Accumulator} (h : a.Settled) (x y : Bytes) :
    a.feed (x ++ y)
      = ((a.feed x).1 ++ ((a.feed x).2.feed y).1, ((a.feed x).2.feed y).2) := by
  rw [h.feed_eq_acceptAll (x ++ y), acceptAll_append, (h.feed x).feed_eq_acceptAll y,
    h.feed_eq_acceptAll x]

end MotionBridge.Accumulator
