/-
MotionBridge/Proofs/Frame/Accounting.lean

What becomes of the bytes that are pushed into the frame buffer.

A push either joins a chunk to the buffer or puts what fits of it in the
buffer's place (`pushes_push`), and a span is taken out through its end mark
and leaves the rest as it was (`exists_front_of_frame`,
`exists_front_of_mismatch`).  An `Account` follows a buffer through any
operations and enters what they report: bytes lost to a push, consumed with a
span, or cleared away.  Every operation keeps the account balanced
(`Balanced.enter`), whatever the capacity, so every byte pushed is held or has
been reported exactly once, and those held stand in the order in which they
came (`bytes_accounted`).
-/
import MotionBridge.Frame.Accumulator
import MotionBridge.Proofs.Frame.Found

namespace MotionBridge

/-! ### Taking a span off -/

/-- A frame is taken off through its last byte, an end mark. -/
theorem exists_front_of_frame {bytes rest : Bytes} {f : Frame}
    (h : nextSpan bytes = some (.frame f, rest)) :
    ∃ front, bytes = front ++ f.bytes ++ rest ∧ f.stop = (front ++ f.bytes).length ∧
      f.bytes.getLast? = some etx := by
  have hvalid : validate bytes = .ok f := by rw [validate_eq, h]
  obtain ⟨front, behind, rfl, hquiet, hframe, hf⟩ := validate_ok_iff.mp hvalid
  -- what is left is what stands behind the frame
  rw [hquiet.nextSpan_frame hframe behind] at h
  obtain ⟨-, rfl⟩ := Prod.mk.inj (Option.some.inj h)
  obtain ⟨body, -, hbytes⟩ := hframe.marked
  refine ⟨front, ?_, ?_, ?_⟩
  · rw [List.append_assoc]
  · rw [hf, List.length_append]
    rfl
  · rw [hbytes, List.getLast?_concat]

/-- A span with a wrong checksum is taken off through its end mark. -/
theorem exists_front_of_mismatch {bytes rest : Bytes} {etxAt : Nat}
    (h : nextSpan bytes = some (.mismatch etxAt, rest)) :
    ∃ front, bytes = front ++ etx :: rest ∧ etxAt = front.length := by
  obtain ⟨s, e, hmarks, -, -, -, -⟩ := nextSpan_some h
  obtain ⟨noise, body, behind, rfl, hbody, hquiet, -, -⟩ := findSpan_split hmarks
  rw [hquiet.nextSpan_marked hbody behind] at h
  obtain ⟨hfound, rfl⟩ := Prod.mk.inj (Option.some.inj h)
  have hetx : etxAt = noise.length + body.length + 1 := by
    split at hfound
    · cases hfound
    · cases hfound
      rfl
  refine ⟨noise ++ stx :: body, ?_, ?_⟩
  · rw [List.append_assoc]
  · rw [hetx, List.length_append, List.length_cons]
    rfl

/-! ### Operations -/

/-- What a frame buffer can be asked. -/
inductive AccumulatorOperation
  | push (chunk : Bytes)
  | next
  | clear
deriving Repr, DecidableEq

/-- The bytes that an operation brings. -/
def AccumulatorOperation.bytes : AccumulatorOperation → Bytes
  | push chunk => chunk
  | next => []
  | clear => []

namespace Accumulator

/-- Carries an operation out.  Where no span is complete, nothing is taken
out. -/
def operate (a : Accumulator) : AccumulatorOperation → Accumulator
  | .push chunk => (a.push chunk).2
  | .next =>
    match a.next with
    | some (_, left) => left
    | none => a
  | .clear => a.clear

/-- The buffer after some operations. -/
def after (a : Accumulator) (operations : List AccumulatorOperation) : Accumulator :=
  operations.foldl operate a

/-- All that a push can do: the chunk joins the buffer, or a front of it takes
the buffer's place and all other bytes are lost. -/
inductive Pushes (a : Accumulator) (chunk : Bytes) : Nat → Accumulator → Prop
  | joined : a.buffer.length + chunk.length ≤ a.capacity →
      Pushes a chunk 0 { a with buffer := a.buffer ++ chunk }
  | replaced {kept lost} : kept <+: chunk → kept.length ≤ a.capacity → 0 < lost →
      a.buffer.length + chunk.length = kept.length + lost →
      Pushes a chunk lost { a with buffer := kept }

theorem pushes_push {a filled : Accumulator} {chunk : Bytes} {lost : Nat}
    (h : a.push chunk = (lost, filled)) : Pushes a chunk lost filled := by
  rw [push] at h
  split at h
  · cases h
    exact .joined ‹_›
  · -- the buffer and the chunk are too much together, so something is lost
    cases h
    have hlen : (chunk.take (min chunk.length a.capacity)).length
        = min chunk.length a.capacity := by
      rw [List.length_take]
      omega
    exact .replaced (List.take_prefix _ chunk) (by omega) (by omega) (by omega)

/-- Where a span is taken out, it was the buffer's first. -/
theorem next_eq_some_iff {a left : Accumulator} {found : Span} :
    a.next = some (found, left) ↔
      ∃ rest, nextSpan a.buffer = some (found, rest) ∧ left = { a with buffer := rest } := by
  rw [next, Option.map_eq_some_iff]
  constructor
  · rintro ⟨⟨s, rest⟩, hnext, heq⟩
    cases heq
    exact ⟨rest, hnext, rfl⟩
  · rintro ⟨rest, hnext, rfl⟩
    exact ⟨(found, rest), hnext, rfl⟩

/-- Where none is, none is complete. -/
theorem next_eq_none_iff {a : Accumulator} : a.next = none ↔ Quiet a.buffer :=
  Option.map_eq_none_iff

/-! ### Bounds -/

/-- An operation does not change what the buffer can hold, and puts no more
into it. -/
theorem operate_fits {a : Accumulator} (h : a.buffer.length ≤ a.capacity)
    (operation : AccumulatorOperation) :
    (a.operate operation).capacity = a.capacity ∧
      (a.operate operation).buffer.length ≤ a.capacity := by
  cases operation with
  | push chunk =>
    rcases hpush : a.push chunk with ⟨lost, filled⟩
    simp only [operate, hpush]
    cases pushes_push hpush with
    | joined hfits => exact ⟨rfl, by rwa [List.length_append]⟩
    | replaced _ hkept _ _ => exact ⟨rfl, hkept⟩
  | next =>
    rcases hnext : a.next with - | ⟨found, left⟩
    · simp only [operate, hnext]
      exact ⟨trivial, h⟩
    · obtain ⟨rest, hspan, rfl⟩ := next_eq_some_iff.mp hnext
      simp only [operate, hnext]
      exact ⟨trivial, Nat.le_trans (Nat.le_of_lt (nextSpan_length_lt hspan)) h⟩
  | clear => exact ⟨rfl, Nat.zero_le _⟩

/-- **The buffer never holds more than it can**, whatever it is asked. -/
theorem after_fits (operations : List AccumulatorOperation) :
    ∀ {a : Accumulator}, a.buffer.length ≤ a.capacity →
      (a.after operations).capacity = a.capacity ∧
        (a.after operations).buffer.length ≤ a.capacity := by
  induction operations with
  | nil =>
    intro a h
    exact ⟨rfl, h⟩
  | cons operation rest ih =>
    intro a h
    obtain ⟨hcapacity, hlength⟩ := operate_fits h operation
    rw [← hcapacity] at hlength ⊢
    exact ih hlength

/-! ### What an operation reports -/

/-- Bytes that an operation reports as lost. -/
def lostTo (a : Accumulator) : AccumulatorOperation → Nat
  | .push chunk => (a.push chunk).1
  | .next => 0
  | .clear => 0

/-- Bytes that an operation takes out with a span, as far as the span
reaches. -/
def takenBy (a : Accumulator) : AccumulatorOperation → Nat
  | .push _ => 0
  | .next =>
    match a.next with
    | some (found, _) => found.width
    | none => 0
  | .clear => 0

/-- Bytes that an operation clears away. -/
def clearedBy (a : Accumulator) : AccumulatorOperation → Nat
  | .push _ => 0
  | .next => 0
  | .clear => a.buffer.length

/-- **No byte is lost without a report.**  What was held and what an operation
brings is held behind it or reported by it, and what is held has kept its
order. -/
theorem operate_balanced (a : Accumulator) (operation : AccumulatorOperation) :
    a.buffer.length + operation.bytes.length
        = (a.operate operation).buffer.length + a.lostTo operation + a.takenBy operation
          + a.clearedBy operation ∧
      (a.operate operation).buffer.Sublist (a.buffer ++ operation.bytes) := by
  cases operation with
  | push chunk =>
    rcases hpush : a.push chunk with ⟨lost, filled⟩
    simp only [operate, lostTo, takenBy, clearedBy, AccumulatorOperation.bytes, hpush]
    cases pushes_push hpush with
    | joined _ => exact ⟨List.length_append.symm, List.Sublist.refl _⟩
    | replaced hfront _ _ hlost =>
      exact ⟨hlost, hfront.sublist.trans (List.sublist_append_right a.buffer chunk)⟩
  | next =>
    simp only [operate, lostTo, takenBy, clearedBy, AccumulatorOperation.bytes, List.append_nil]
    rcases hnext : a.next with - | ⟨found, left⟩
    · exact ⟨rfl, List.Sublist.refl _⟩
    · obtain ⟨rest, hspan, rfl⟩ := next_eq_some_iff.mp hnext
      obtain ⟨hle, rfl⟩ := nextSpan_width hspan
      refine ⟨?_, List.drop_sublist _ _⟩
      simp only [List.length_drop, List.length_nil]
      omega
  | clear =>
    refine ⟨?_, List.nil_sublist _⟩
    show a.buffer.length + 0 = 0 + 0 + 0 + a.buffer.length
    omega

/-! ### Accounts -/

/-- A frame buffer with the account of its bytes. -/
structure Account where
  accumulator : Accumulator
  /-- Every byte pushed, in order. -/
  pushed : Bytes := []
  /-- Bytes that pushes reported as lost. -/
  lost : Nat := 0
  /-- Bytes that went with spans. -/
  consumed : Nat := 0
  /-- Bytes that were cleared away. -/
  cleared : Nat := 0

namespace Account

/-- The account of an empty buffer. -/
def opened (capacity : Nat) : Account :=
  { accumulator := { capacity } }

/-- Enters an operation and what it reports. -/
def enter (t : Account) (operation : AccumulatorOperation) : Account where
  accumulator := t.accumulator.operate operation
  pushed := t.pushed ++ operation.bytes
  lost := t.lost + t.accumulator.lostTo operation
  consumed := t.consumed + t.accumulator.takenBy operation
  cleared := t.cleared + t.accumulator.clearedBy operation

/-- The account after some operations. -/
def after (t : Account) (operations : List AccumulatorOperation) : Account :=
  operations.foldl enter t

/-- The account follows the buffer, and knows what was pushed. -/
theorem after_follows (operations : List AccumulatorOperation) :
    ∀ t : Account, (t.after operations).accumulator = t.accumulator.after operations ∧
      (t.after operations).pushed
        = t.pushed ++ operations.flatMap AccumulatorOperation.bytes := by
  induction operations with
  | nil =>
    intro t
    exact ⟨rfl, (List.append_nil _).symm⟩
  | cons operation rest ih =>
    intro t
    obtain ⟨hbuffer, hpushed⟩ := ih (t.enter operation)
    exact ⟨hbuffer, hpushed.trans (List.append_assoc ..)⟩

/-- An account is balanced when every byte pushed is held or reported, and
those held are in their order. -/
structure Balanced (t : Account) : Prop where
  total : t.pushed.length = t.accumulator.buffer.length + t.lost + t.consumed + t.cleared
  held : t.accumulator.buffer.Sublist t.pushed

theorem balanced_opened (capacity : Nat) : (opened capacity).Balanced :=
  ⟨rfl, List.Sublist.refl []⟩

/-- **Every operation keeps the account balanced.** -/
theorem Balanced.enter {t : Account} (h : t.Balanced) (operation : AccumulatorOperation) :
    (t.enter operation).Balanced := by
  obtain ⟨hsum, hsublist⟩ := t.accumulator.operate_balanced operation
  have htotal := h.total
  refine ⟨?_, hsublist.trans (h.held.append (List.Sublist.refl operation.bytes))⟩
  simp only [Account.enter, List.length_append]
  omega

/-- So do any operations. -/
theorem Balanced.after (operations : List AccumulatorOperation) :
    ∀ {t : Account}, t.Balanced → (t.after operations).Balanced := by
  induction operations with
  | nil =>
    intro t h
    exact h
  | cons operation rest ih =>
    intro t h
    exact ih (h.enter operation)

/-- **The bytes of a frame buffer are accounted for.**  Whatever a new buffer
of any capacity is asked, it never holds more than it can; every byte pushed is
held, or was reported as lost, went with a span, or was cleared away; and those
held stand in the order in which they were pushed.  A push that reports nothing
has joined its chunk to the buffer, and any other leaves a front of the chunk
alone.  A span is taken out through its own end mark and the rest stays as it
is, and where none is complete nothing changes. -/
theorem bytes_accounted (capacity : Nat) (operations : List AccumulatorOperation) :
    let t := (opened capacity).after operations
    let a := t.accumulator
    (a = Accumulator.after { capacity } operations ∧
        t.pushed = operations.flatMap AccumulatorOperation.bytes) ∧
      a.buffer.length ≤ capacity ∧
      t.pushed.length = a.buffer.length + t.lost + t.consumed + t.cleared ∧
      a.buffer.Sublist t.pushed ∧
      (∀ chunk, ((a.push chunk).1 = 0 → (a.push chunk).2.buffer = a.buffer ++ chunk) ∧
        (0 < (a.push chunk).1 → (a.push chunk).2.buffer <+: chunk)) ∧
      (∀ f left, a.next = some (.frame f, left) →
        ∃ front, a.buffer = front ++ f.bytes ++ left.buffer ∧
          f.stop = (front ++ f.bytes).length ∧ f.bytes.getLast? = some etx) ∧
      (∀ etxAt left, a.next = some (.mismatch etxAt, left) →
        ∃ front, a.buffer = front ++ etx :: left.buffer ∧ etxAt = front.length) ∧
      (a.next = none → a.operate .next = a) := by
  intro t a
  obtain ⟨hbuffer, hpushed⟩ := after_follows operations (opened capacity)
  have hbalanced : t.Balanced := (balanced_opened capacity).after operations
  have hfits : a.buffer.length ≤ capacity := by
    show t.accumulator.buffer.length ≤ capacity
    rw [hbuffer]
    exact (Accumulator.after_fits operations (a := { capacity }) (Nat.zero_le _)).2
  refine ⟨⟨hbuffer, hpushed⟩, hfits, hbalanced.total, hbalanced.held, ?_,
    ?_, ?_, ?_⟩
  · intro chunk
    rcases hpush : a.push chunk with ⟨lost, filled⟩
    cases Accumulator.pushes_push hpush with
    | joined _ => exact ⟨fun _ => rfl, fun hlost => absurd hlost (Nat.lt_irrefl 0)⟩
    | replaced hfront _ hlost _ =>
      exact ⟨fun hnone => absurd hnone (Nat.ne_of_gt hlost), fun _ => hfront⟩
  · intro f left hnext
    obtain ⟨rest, hspan, rfl⟩ := next_eq_some_iff.mp hnext
    exact exists_front_of_frame hspan
  · intro etxAt left hnext
    obtain ⟨rest, hspan, rfl⟩ := next_eq_some_iff.mp hnext
    exact exists_front_of_mismatch hspan
  · intro hnone
    rw [Accumulator.operate, hnone]

/-- A buffer of four bytes: a byte of noise and a refused span are taken out
together, a chunk that does not fit takes the place of what was there. -/
example :
    let t := (opened 4).after [.push [7, 2, 3], .next, .push [8, 9], .push [5, 6, 7], .clear]
    (t.lost, t.consumed, t.cleared, t.accumulator.buffer) = (2, 3, 3, []) := by decide

end Account

end Accumulator

end MotionBridge
