/-
MotionBridge/Proofs/BoundedQueue.lean

The ring refines a bounded queue.

What a ring is for is a `BoundedQueue`: bytes in their order of arrival, never
more of them than the capacity.  Ring and queue are asked the same operations,
in any order.  As long as the ring shows the queue's bytes they answer alike, and
the ring shows the queue's bytes again (`Shows.operate`), so that they answer
alike for good (`Shows.answers`).  What the ring tells about itself is then so of
the queue (`answers_refine`).
-/
import MotionBridge.Proofs.RingQueue

namespace MotionBridge

/-! ### Operations -/

/-- What a ring can be asked. -/
inductive RingOperation
  | write (byte : UInt8)
  | writeSlice (bytes : Bytes)
  | drain
deriving Repr, DecidableEq

/-- What a ring answers. -/
inductive RingAnswer
  /-- Whether the byte was stored. -/
  | stored (ok : Bool)
  /-- How many bytes of the slice were stored. -/
  | accepted (count : Nat)
  | drained (bytes : Bytes)
deriving Repr, DecidableEq

/-- The bytes that are to be stored. -/
def RingOperation.bytes : RingOperation → Bytes
  | write byte => [byte]
  | writeSlice bytes => bytes
  | drain => []

namespace RingAnswer

/-- How many bytes were stored. -/
def count : RingAnswer → Nat
  | stored ok => ok.toNat
  | accepted count => count
  | drained _ => 0

/-- The bytes that were handed over. -/
def taken : RingAnswer → Bytes
  | drained bytes => bytes
  | _ => []

end RingAnswer

/-- All bytes that were stored, in the order of the operations. -/
def storedBytes (operations : List RingOperation) (answers : List RingAnswer) : Bytes :=
  (operations.zip answers).flatMap fun (operation, answer) => operation.bytes.take answer.count

/-- The answers to operations that are carried out one after the other, and what
they leave. -/
def answersTo {σ : Type} (operate : σ → RingOperation → RingAnswer × σ) :
    List RingOperation → σ → List RingAnswer × σ
  | [], s => ([], s)
  | operation :: rest, s =>
    let (answer, s) := operate s operation
    let (later, s) := answersTo operate rest s
    (answer :: later, s)

/-- Carries an operation out on a ring. -/
def Ring.operate (r : Ring) : RingOperation → RingAnswer × Ring
  | .write byte =>
    let (ok, r) := r.push byte
    (.stored ok, r)
  | .writeSlice bytes =>
    let (count, r) := r.pushAll bytes
    (.accepted count, r)
  | .drain =>
    let (bytes, r) := r.drain
    (.drained bytes, r)

/-! ### Queues -/

/-- A queue of at most `capacity` bytes, the oldest first. -/
structure BoundedQueue where
  capacity : Nat
  bytes : Bytes
  length_le : bytes.length ≤ capacity
deriving Repr

namespace BoundedQueue

def empty (capacity : Nat) : BoundedQueue :=
  { capacity, bytes := [], length_le := Nat.zero_le _ }

/-- How many bytes more the queue can hold. -/
def free (q : BoundedQueue) : Nat :=
  q.capacity - q.bytes.length

/-- The first of some bytes join the queue, as many as there is room for. -/
def accept (q : BoundedQueue) (bytes : Bytes) : BoundedQueue where
  capacity := q.capacity
  bytes := q.bytes ++ bytes.take q.free
  length_le := by
    have := q.length_le
    rw [List.length_append, List.length_take, free]
    omega

/-- Carries an operation out on a queue. -/
def operate (q : BoundedQueue) : RingOperation → RingAnswer × BoundedQueue
  | .write byte => (.stored (decide (q.bytes.length < q.capacity)), q.accept [byte])
  | .writeSlice bytes => (.accepted (min bytes.length q.free), q.accept bytes)
  | .drain => (.drained q.bytes, empty q.capacity)

@[simp] theorem bytes_accept (q : BoundedQueue) (bytes : Bytes) :
    (q.accept bytes).bytes = q.bytes ++ bytes.take q.free := rfl

theorem capacity_operate (q : BoundedQueue) (operation : RingOperation) :
    (q.operate operation).2.capacity = q.capacity := by
  cases operation <;> rfl

theorem capacity_answersTo (q : BoundedQueue) (operations : List RingOperation) :
    (answersTo operate operations q).2.capacity = q.capacity := by
  induction operations generalizing q with
  | nil => rfl
  | cons operation rest ih => exact (ih _).trans (q.capacity_operate operation)

/-- As many bytes are stored as there is room for. -/
theorem take_count (q : BoundedQueue) (operation : RingOperation) :
    operation.bytes.take (q.operate operation).1.count = operation.bytes.take q.free := by
  cases operation with
  | write byte =>
    -- a byte is a slice of one, which is stored whole or not at all
    have hcount : (decide (q.bytes.length < q.capacity)).toNat = min q.free [byte].length := by
      rw [free, List.length_singleton]
      by_cases hroom : q.bytes.length < q.capacity
      · rw [decide_eq_true hroom, Bool.toNat_true]
        omega
      · rw [decide_eq_false hroom, Bool.toNat_false]
        omega
    rw [List.take_eq_take_min (i := q.free)]
    exact congrArg (List.take · [byte]) hcount
  | writeSlice bytes =>
    rw [List.take_eq_take_min (i := q.free), Nat.min_comm]
    rfl
  | drain => exact List.take_nil.trans List.take_nil.symm

/-- **First in, first out**: what waited and what is stored is what is taken and
what then waits. -/
theorem bytes_operate (q : BoundedQueue) (operation : RingOperation) :
    q.bytes ++ operation.bytes.take (q.operate operation).1.count
      = (q.operate operation).1.taken ++ (q.operate operation).2.bytes := by
  rw [take_count]
  cases operation with
  | write byte => rfl
  | writeSlice bytes => rfl
  | drain => exact congrArg (q.bytes ++ ·) List.take_nil

theorem bytes_answersTo (q : BoundedQueue) (operations : List RingOperation) :
    q.bytes ++ storedBytes operations (answersTo operate operations q).1
      = (answersTo operate operations q).1.flatMap RingAnswer.taken ++
          (answersTo operate operations q).2.bytes := by
  induction operations generalizing q with
  | nil => exact List.append_nil _
  | cons operation rest ih =>
    have hfirst := q.bytes_operate operation
    have hrest := ih (q.operate operation).2
    rw [answersTo, storedBytes, List.zip_cons_cons, List.flatMap_cons, List.flatMap_cons,
      ← List.append_assoc, hfirst, List.append_assoc, List.append_assoc]
    exact congrArg (_ ++ ·) hrest

end BoundedQueue

/-! ### Rings as queues -/

namespace Ring

/-- The ring holds what the queue holds. -/
structure Shows (r : Ring) (q : BoundedQueue) : Prop where
  capacity : r.capacity = q.capacity
  bytes : r.toList = q.bytes

variable {r : Ring} {q : BoundedQueue}

theorem shows_empty (capacity : Nat) : Shows (ofCapacity capacity) (.empty capacity) :=
  ⟨rfl, toList_ofCapacity capacity⟩

theorem Shows.size (h : Shows r q) : r.size = q.bytes.length := by
  rw [← h.bytes, length_toList]

theorem Shows.writeSlice (h : Shows r q) (bytes : Bytes) :
    (r.pushAll bytes).1 = min bytes.length q.free ∧ Shows (r.pushAll bytes).2 (q.accept bytes) := by
  obtain ⟨hcount, hview, hcapacity⟩ := r.pushAll_eq bytes
  have hroom : r.capacity - r.size = q.free := by
    rw [h.capacity, h.size, BoundedQueue.free]
  rw [hroom] at hcount
  refine ⟨hcount, hcapacity.trans h.capacity, ?_⟩
  rw [hview, hcount, h.bytes, Nat.min_comm, ← List.take_eq_take_min, q.bytes_accept]

theorem Shows.write (h : Shows r q) (byte : UInt8) :
    (r.push byte).1 = decide (q.bytes.length < q.capacity) ∧
      Shows (r.push byte).2 (q.accept [byte]) := by
  obtain ⟨hcount, hshows⟩ := h.writeSlice [byte]
  rw [pushAll_singleton] at hcount hshows
  refine ⟨?_, hshows⟩
  -- the count of a slice of one tells whether its byte was stored
  have hfree : min [byte].length q.free = 1 ↔ q.bytes.length < q.capacity := by
    rw [List.length_singleton, BoundedQueue.free]
    omega
  rw [Bool.eq_iff_iff, decide_eq_true_iff, ← hfree, ← Bool.toNat_eq_one]
  exact hcount ▸ Iff.rfl

theorem Shows.drain (h : Shows r q) :
    r.drain.1 = q.bytes ∧ Shows r.drain.2 (.empty q.capacity) :=
  ⟨r.drain_fst.trans h.bytes, r.capacity_drain.trans h.capacity, r.toList_drain⟩

/-- **Ring and queue answer alike**, and the ring shows the queue again. -/
theorem Shows.operate (h : Shows r q) (operation : RingOperation) :
    (r.operate operation).1 = (q.operate operation).1 ∧
      Shows (r.operate operation).2 (q.operate operation).2 := by
  cases operation with
  | write byte => exact ⟨congrArg _ (h.write byte).1, (h.write byte).2⟩
  | writeSlice bytes => exact ⟨congrArg _ (h.writeSlice bytes).1, (h.writeSlice bytes).2⟩
  | drain => exact ⟨congrArg _ h.drain.1, h.drain.2⟩

/-- They answer alike for good. -/
theorem Shows.answers (h : Shows r q) (operations : List RingOperation) :
    (answersTo Ring.operate operations r).1 = (answersTo BoundedQueue.operate operations q).1 ∧
      Shows (answersTo Ring.operate operations r).2
        (answersTo BoundedQueue.operate operations q).2 := by
  induction operations generalizing r q with
  | nil => exact ⟨rfl, h⟩
  | cons operation rest ih =>
    obtain ⟨hanswer, hshows⟩ := h.operate operation
    obtain ⟨hlater, hleft⟩ := ih hshows
    exact ⟨congr (congrArg List.cons hanswer) hlater, hleft⟩

/-- **The ring refines a bounded queue.**  Whatever operations a new ring is
asked, it answers as the queue does that can hold as many bytes, and it then
tells of itself what is so of the queue.  The bytes it has handed over, and
behind them those that still wait, are the bytes that were stored, in order.
No index leaves the circle. -/
theorem answers_refine (capacity : Nat) (operations : List RingOperation) :
    let ring := answersTo operate operations (ofCapacity capacity)
    let queue := answersTo BoundedQueue.operate operations (.empty capacity)
    ring.1 = queue.1 ∧ ring.2.toList = queue.2.bytes ∧
      ring.2.size = queue.2.bytes.length ∧
      (ring.2.isEmpty = true ↔ queue.2.bytes = []) ∧
      (ring.2.isFull = true ↔ queue.2.bytes.length = capacity) ∧
      ring.2.capacity = capacity ∧ queue.2.capacity = capacity ∧
      storedBytes operations ring.1 = ring.1.flatMap RingAnswer.taken ++ ring.2.toList ∧
      ring.2.slots = capacity + 1 ∧ ring.2.head < ring.2.slots ∧ ring.2.tail < ring.2.slots := by
  intro ring queue
  obtain ⟨hanswers, hshows⟩ := (shows_empty capacity).answers operations
  have hqueue : queue.2.capacity = capacity := BoundedQueue.capacity_answersTo _ operations
  have hcapacity : ring.2.capacity = capacity := hshows.capacity.trans hqueue
  have hempty : ring.2.isEmpty = true ↔ queue.2.bytes = [] := by
    rw [isEmpty_iff, hshows.size, List.length_eq_zero_iff]
  have hfull : ring.2.isFull = true ↔ queue.2.bytes.length = capacity := by
    rw [isFull_iff, hshows.size, hcapacity]
  have horder := BoundedQueue.bytes_answersTo (.empty capacity) operations
  rw [← hanswers, ← hshows.bytes] at horder
  exact ⟨hanswers, hshows.bytes, hshows.size, hempty, hfull, hcapacity, hqueue, horder,
    ring.2.slots_eq.trans (congrArg (· + 1) hcapacity), ring.2.head_lt, ring.2.tail_lt⟩

/-- Twice round the circle of three cells. -/
example :
    (answersTo operate [.writeSlice [1, 2, 3], .drain, .write 4, .writeSlice [5, 6], .write 7,
        .drain] (ofCapacity 2)).1
      = [.accepted 2, .drained [1, 2], .stored true, .accepted 1, .stored false,
        .drained [4, 5]] := by decide

end Ring

end MotionBridge
