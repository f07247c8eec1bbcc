/-
MotionBridge/Proofs/Frame/Consumption.lean

What the events of a backlog say about its bytes.

`Consumes capacity events bytes rest` reads a byte string from its beginning:
each event stands for the piece that it took off, either a complete span
through its end mark or bytes that were lost, and `rest` is what no event took,
with no span complete in it.  A buffer of any contents that receives a backlog
consumes its own bytes first and then the backlog's (`consumes_receive`).  So
spans are worked off in the order of their bytes, each once and down to the
last, and bytes are only ever lost when they fill the buffer without a complete
span among them.  Where none are lost the events are all the spans of the bytes
(`Consumes.eq_spans`).
-/
import MotionBridge.Proofs.Frame.ByteFeed
import MotionBridge.Proofs.Frame.Found

namespace MotionBridge

/-- The first span of a buffer, cut off behind its end mark, is the first span
of the piece that was cut off. -/
theorem exists_piece_of_nextSpan {bytes : Bytes} {s : Span} {rest : Bytes}
    (h : nextSpan bytes = some (s, rest)) :
    ∃ piece, bytes = piece ++ rest ∧ nextSpan piece = some (s, []) := by
  obtain ⟨i, e, hmarks, -⟩ := nextSpan_some h
  obtain ⟨noise, body, behind, rfl, hbody, hnoise, -, -⟩ := findSpan_split hmarks
  have hpiece := hnoise.nextSpan_marked hbody []
  have hsplit : noise ++ (stx :: body ++ etx :: behind)
      = (noise ++ (stx :: body ++ [etx])) ++ behind := by simp
  -- the piece has a first span of its own, and that stays the first one
  rw [hsplit, nextSpan_append hpiece behind] at h
  obtain ⟨rfl, rfl⟩ := Prod.mk.inj (Option.some.inj h)
  exact ⟨_, hsplit, hpiece⟩

namespace Accumulator

/-! ### Pieces of a byte string -/

/-- Events of a buffer with a capacity, and the pieces of a byte string that
they took off, in order. -/
inductive Consumes (capacity : Nat) : List Event → Bytes → Bytes → Prop
  /-- What is left is not touched, and no span is complete in it. -/
  | done {rest : Bytes} (quiet : Quiet rest) : Consumes capacity [] rest rest
  /-- A span is found in its piece and takes all of it. -/
  | span {s : Span} {piece bytes rest : Bytes} {later : List Event}
      (found : nextSpan piece = some (s, [])) (h : Consumes capacity later bytes rest) :
      Consumes capacity (.span s :: later) (piece ++ bytes) rest
  /-- Lost bytes are counted; they filled the buffer, and hold no complete
  span. -/
  | overflow {piece bytes rest : Bytes} {later : List Event} (lost : piece ≠ [])
      (full : capacity ≤ piece.length) (quiet : Quiet piece)
      (h : Consumes capacity later bytes rest) :
      Consumes capacity (.overflow piece.length :: later) (piece ++ bytes) rest

section Pieces

variable {capacity : Nat} {events later : List Event} {bytes left more rest : Bytes}

/-- Consumption goes on with what is left when more bytes follow. -/
theorem Consumes.append (h : Consumes capacity events bytes left)
    (hlater : Consumes capacity later (left ++ more) rest) :
    Consumes capacity (events ++ later) (bytes ++ more) rest := by
  induction h with
  | done _ => exact hlater
  | span found _ ih =>
    rw [List.append_assoc, List.cons_append]
    exact .span found (ih hlater)
  | overflow lost full quiet _ ih =>
    rw [List.append_assoc, List.cons_append]
    exact .overflow lost full quiet (ih hlater)

/-- No span is complete in what is left. -/
theorem Consumes.quiet (h : Consumes capacity events bytes rest) : Quiet rest := by
  induction h with
  | done quiet => exact quiet
  | span _ _ ih => exact ih
  | overflow _ _ _ _ ih => exact ih

/-- **Where nothing is lost the events are all the spans of the bytes**, and
what is left is what the spans leave. -/
theorem Consumes.eq_spans (h : Consumes capacity events bytes rest)
    (hkept : discarded events = 0) :
    events = (spans bytes).1.map .span ∧ rest = (spans bytes).2 := by
  induction h with
  | done quiet =>
    rw [spans_of_quiet quiet]
    exact ⟨rfl, rfl⟩
  | @span s piece bytes rest later found _ ih =>
    obtain ⟨hevents, hrest⟩ := ih ((Nat.zero_add _).symm.trans hkept)
    have hnext : nextSpan (piece ++ bytes) = some (s, bytes) := nextSpan_append found bytes
    rw [spans_of_nextSpan hnext]
    exact ⟨congrArg (Event.span s :: ·) hevents, hrest⟩
  | overflow lost _ _ _ _ =>
    have hlost := List.length_pos_iff.mpr lost
    rw [discarded_cons, Event.discarded] at hkept
    omega

end Pieces

/-! ### Backlogs -/

/-- Taking every complete span out of a buffer consumes it. -/
theorem consumes_spans (capacity : Nat) (bytes : Bytes) :
    Consumes capacity ((spans bytes).1.map .span) bytes (spans bytes).2 := by
  induction bytes using spans_induction with
  | quiet bytes h =>
    rw [spans_of_quiet h]
    exact .done h
  | span bytes s rest h ih =>
    obtain ⟨piece, hsplit, hpiece⟩ := exists_piece_of_nextSpan h
    rw [spans_of_nextSpan h, hsplit]
    exact .span hpiece ih

/-- What the first portion of a backlog does: with room it joins the buffer,
and into a full one it takes the place of what was there. -/
theorem push_portion {a : Accumulator} (hcap : 0 < a.capacity) {pending : Bytes}
    (hne : pending ≠ []) :
    0 < a.portion pending ∧
      (a.push (pending.take (a.portion pending))
          = (0, { a with buffer := a.buffer ++ pending.take (a.portion pending) }) ∨
        a.capacity ≤ a.buffer.length ∧ a.push (pending.take (a.portion pending))
          = (a.buffer.length, { a with buffer := pending.take (a.portion pending) })) := by
  have hpending : 0 < pending.length := List.length_pos_iff.mpr hne
  by_cases hroom : 0 < a.room
  · have hsize : a.portion pending = min a.room pending.length := if_pos hroom
    have hlen : (pending.take (a.portion pending)).length = a.portion pending := by
      rw [List.length_take]
      omega
    unfold room at hroom hsize
    exact ⟨by omega, .inl (push_of_fits (by omega))⟩
  · have hsize : a.portion pending = min pending.length a.capacity := if_neg hroom
    have hlen : (pending.take (a.portion pending)).length = a.portion pending := by
      rw [List.length_take]
      omega
    unfold room at hroom
    refine ⟨by omega, .inr ⟨by omega, ?_⟩⟩
    -- the chunk is no longer than the capacity, so nothing is cut off it
    have hkept : min (pending.take (a.portion pending)).length a.capacity
        = (pending.take (a.portion pending)).length := by omega
    rw [push, if_neg (by omega)]
    simp only [hkept, List.take_length, Nat.add_sub_cancel]

/-- **A backlog is consumed behind what was in the buffer.** -/
theorem consumes_feed {a : Accumulator} (hcap : 0 < a.capacity) (hquiet : Quiet a.buffer)
    (pending : Bytes) :
    Consumes a.capacity (a.feed pending).1 (a.buffer ++ pending) (a.feed pending).2.buffer := by
  induction hn : pending.length using Nat.strongRecOn generalizing a pending with
  | ind n ih =>
    by_cases hne : pending = []
    · rw [hne, feed_nil, List.append_nil]
      exact .done hquiet
    · obtain ⟨hpos, hpush⟩ := push_portion hcap hne
      have hlt : (pending.drop (a.portion pending)).length < n := by
        have : 0 < pending.length := List.length_pos_iff.mpr hne
        rw [List.length_drop]
        omega
      have hsplit := List.take_append_drop (a.portion pending) pending
      -- the rest of the backlog comes behind what the spans leave of a buffer
      have hrest : ∀ buffer : Bytes,
          Consumes a.capacity ((spans buffer).1.map .span
              ++ (({ a with buffer := (spans buffer).2 } : Accumulator).feed
                  (pending.drop (a.portion pending))).1)
            (buffer ++ pending.drop (a.portion pending))
            (({ a with buffer := (spans buffer).2 } : Accumulator).feed
              (pending.drop (a.portion pending))).2.buffer := fun buffer =>
        (consumes_spans a.capacity buffer).append
          (ih _ hlt (a := { a with buffer := (spans buffer).2 }) hcap (quiet_spans_snd buffer)
            _ rfl)
      rw [feed, dif_pos hpos]
      obtain hjoined | ⟨hfull, hlost⟩ := hpush
      · have h := hrest (a.buffer ++ pending.take (a.portion pending))
        rw [List.append_assoc, hsplit] at h
        simpa only [hjoined, drain, overflowEvent, Nat.lt_irrefl, if_false, List.nil_append] using h
      · have h := hrest (pending.take (a.portion pending))
        have hlen : 0 < a.buffer.length := Nat.lt_of_lt_of_le hcap hfull
        rw [hsplit] at h
        simpa only [hlost, drain, overflowEvent, if_pos hlen, List.nil_append,
          List.cons_append, List.append_assoc] using
          Consumes.overflow (List.length_pos_iff.mp hlen) hfull hquiet h

/-- **A buffer of any contents consumes its own bytes and then the backlog's.**
Only a buffer that can hold nothing does not: it would never work a backlog
off. -/
theorem consumes_receive {a : Accumulator} {backlog : Bytes}
    (h : backlog = [] ∨ 0 < a.capacity) :
    Consumes a.capacity (a.receive backlog).1 (a.buffer ++ backlog)
      (a.receive backlog).2.buffer := by
  refine (consumes_spans a.capacity a.buffer).append ?_
  obtain rfl | hcap := h
  · rw [List.append_nil]
    show Consumes a.capacity (a.drain.2.feed []).1 _ (a.drain.2.feed []).2.buffer
    rw [feed_nil]
    exact .done (quiet_spans_snd a.buffer)
  · exact consumes_feed (a := a.drain.2) hcap (quiet_spans_snd a.buffer) backlog

end Accumulator

end MotionBridge
