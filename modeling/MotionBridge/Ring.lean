/-
MotionBridge/Ring.lean

A byte queue of fixed capacity between one producer and one consumer.

The cells form a circle with one cell more than the capacity: the cell
before `tail` always stays free, so that a full ring and an empty one can be
told apart.  A full ring refuses bytes and never overwrites unread ones.
Cells are kept from their first use on, so a large ring costs nothing before
it is filled.
-/
import MotionBridge.Bytes

namespace MotionBridge

/-- A byte ring: `head` is the next cell to write, `tail` the next to read. -/
structure Ring where
  /-- How many cells the circle has. -/
  slots : Nat
  /-- The cells that were ever written, in their order on the circle. -/
  cells : Array UInt8
  head : Nat
  tail : Nat
  head_lt : head < slots
  tail_lt : tail < slots
  /-- No cell before `head` was left out. -/
  head_le : head ≤ cells.size

namespace Ring

/-- An empty ring that can hold `capacity` bytes. -/
def ofCapacity (capacity : Nat) : Ring where
  slots := capacity + 1
  cells := #[]
  head := 0
  tail := 0
  head_lt := by simp
  tail_lt := by simp
  head_le := by simp

instance : Inhabited Ring := ⟨ofCapacity 0⟩

/-- How many bytes the ring can hold. -/
def capacity (r : Ring) : Nat :=
  r.slots - 1

/-- How many bytes are waiting. -/
def size (r : Ring) : Nat :=
  (r.head + r.slots - r.tail) % r.slots

/-- The bytes that are waiting, oldest first. -/
def toList (r : Ring) : Bytes :=
  (List.range r.size).map fun i => r.cells.getD ((r.tail + i) % r.slots) 0

def isEmpty (r : Ring) : Bool :=
  r.head == r.tail

def isFull (r : Ring) : Bool :=
  (r.head + 1) % r.slots == r.tail

/-- Writes the cell at `i`, which may be the first one not yet kept. -/
def write (cells : Array UInt8) (i : Nat) (byte : UInt8) : Array UInt8 :=
  if h : i < cells.size then cells.set i byte h else cells.push byte

theorem lt_size_write {cells : Array UInt8} {i : Nat} (byte : UInt8) (h : i ≤ cells.size) :
    i < (write cells i byte).size := by
  unfold write
  split <;> simp <;> omega

/-- Stores one byte, unless the ring is full. -/
def push (r : Ring) (byte : UInt8) : Bool × Ring :=
  if r.isFull then (false, r)
  else
    let next := (r.head + 1) % r.slots
    (true,
      { slots := r.slots
        cells := write r.cells r.head byte
        head := next
        tail := r.tail
        head_lt := Nat.mod_lt _ (Nat.zero_lt_of_lt r.head_lt)
        tail_lt := r.tail_lt
        head_le := Nat.le_trans (Nat.mod_le _ _) (lt_size_write byte r.head_le) })

/-- Stores bytes until one is refused, and tells how many were stored, beside
the `stored` ones before. -/
def pushFrom (stored : Nat) (r : Ring) : Bytes → Nat × Ring
  | [] => (stored, r)
  | byte :: rest =>
    match r.push byte with
    | (false, r) => (stored, r)
    | (true, r) => r.pushFrom (stored + 1) rest

/-- Stores bytes until one is refused, and tells how many were stored. -/
def pushAll (r : Ring) (bytes : Bytes) : Nat × Ring :=
  r.pushFrom 0 bytes

/-- Takes every waiting byte, oldest first. -/
def drain (r : Ring) : Bytes × Ring :=
  (r.toList, { r with tail := r.head, tail_lt := r.head_lt })

end Ring

end MotionBridge
