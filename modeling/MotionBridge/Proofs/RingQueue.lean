/-
MotionBridge/Proofs/RingQueue.lean

The ring as a queue: its view `toList` holds the waiting bytes, oldest first.

A byte that is stored joins the end of the view (`toList_push`), a chunk joins
it as far as there is room (`pushAll_eq`), and a drain hands the view over and
leaves an empty one (`toList_drain`), as if it took byte after byte until the
indices meet (`drains_drain`).  Positions on the circle are at most one turn
ahead, so that a remainder is at most one subtraction; this is all the index
arithmetic there is.
-/
import MotionBridge.Ring

namespace MotionBridge.Ring

/-! ### Positions on the circle -/

/-- A remainder of less than two turns is at most one subtraction. -/
theorem mod_of_lt_two_turns {k n : Nat} (h : k < n + n) :
    k % n = if k < n then k else k - n := by
  split
  · exact Nat.mod_eq_of_lt ‹_›
  · rw [Nat.mod_eq_sub_mod (by omega), Nat.mod_eq_of_lt (by omega)]

theorem slots_pos (r : Ring) : 0 < r.slots :=
  Nat.zero_lt_of_lt r.head_lt

theorem slots_eq (r : Ring) : r.slots = r.capacity + 1 :=
  (Nat.succ_pred_eq_of_pos r.slots_pos).symm

theorem size_eq (r : Ring) :
    r.size = if r.tail ≤ r.head then r.head - r.tail else r.head + r.slots - r.tail := by
  have hh := r.head_lt
  have ht := r.tail_lt
  rw [size, mod_of_lt_two_turns (by omega)]
  split <;> split <;> omega

theorem size_lt (r : Ring) : r.size < r.slots :=
  Nat.mod_lt _ r.slots_pos

theorem size_le_capacity (r : Ring) : r.size ≤ r.capacity := by
  have := r.size_lt
  unfold capacity
  omega

/-- The cell to write next lies behind the waiting bytes. -/
theorem tail_add_size (r : Ring) : (r.tail + r.size) % r.slots = r.head := by
  have hh := r.head_lt
  have ht := r.tail_lt
  have hs := r.size_lt
  rw [mod_of_lt_two_turns (by omega), size_eq]
  split <;> split <;> omega

/-- No waiting byte lies in the cell to write next. -/
theorem tail_add_ne_head (r : Ring) {i : Nat} (h : i < r.size) :
    (r.tail + i) % r.slots ≠ r.head := by
  have hh := r.head_lt
  have ht := r.tail_lt
  have hs := r.size_lt
  have he := r.size_eq
  rw [mod_of_lt_two_turns (by omega)]
  split at he <;> split <;> omega

theorem isFull_iff (r : Ring) : r.isFull = true ↔ r.size = r.capacity := by
  have hh := r.head_lt
  have ht := r.tail_lt
  rw [isFull, beq_iff_eq, mod_of_lt_two_turns (by omega), size_eq, capacity]
  split <;> split <;> omega

theorem isEmpty_iff (r : Ring) : r.isEmpty = true ↔ r.size = 0 := by
  have hh := r.head_lt
  have ht := r.tail_lt
  rw [isEmpty, beq_iff_eq, size_eq]
  split <;> omega

/-! ### The view -/

@[simp] theorem length_toList (r : Ring) : r.toList.length = r.size := by
  simp [toList]

@[simp] theorem toList_ofCapacity (n : Nat) : (ofCapacity n).toList = [] := by
  simp [toList, size, ofCapacity]

@[simp] theorem capacity_ofCapacity (n : Nat) : (ofCapacity n).capacity = n := rfl

/-- A write leaves every other cell as it was. -/
theorem getD_write_of_ne {cells : Array UInt8} {i j : Nat} (byte : UInt8)
    (hi : i ≤ cells.size) (hne : j ≠ i) : (write cells i byte).getD j 0 = cells.getD j 0 := by
  unfold write
  split
  · simp only [Array.getD_eq_getD_getElem?, Array.getElem?_set]
    rw [if_neg (Ne.symm hne)]
  · have hpush : i = cells.size := by omega
    subst hpush
    simp only [Array.getD_eq_getD_getElem?, Array.getElem?_push]
    rw [if_neg hne]

theorem getD_write_self {cells : Array UInt8} {i : Nat} (byte : UInt8) (hi : i ≤ cells.size) :
    (write cells i byte).getD i 0 = byte := by
  unfold write
  split
  · simp [Array.getD_eq_getD_getElem?, *]
  · have hpush : i = cells.size := by omega
    subst hpush
    simp [Array.getD_eq_getD_getElem?]

theorem push_of_full {r : Ring} (h : r.size = r.capacity) (byte : UInt8) :
    r.push byte = (false, r) := by
  rw [push, if_pos (r.isFull_iff.mpr h)]

/-- With room, a byte is stored and one byte more is waiting. -/
theorem push_of_room {r : Ring} (h : r.size < r.capacity) (byte : UInt8) :
    (r.push byte).1 = true ∧ (r.push byte).2.capacity = r.capacity ∧
      (r.push byte).2.size = r.size + 1 := by
  have hfull : ¬ r.isFull = true := fun hf => by
    have := r.isFull_iff.mp hf
    omega
  have hh := r.head_lt
  have ht := r.tail_lt
  have hs := r.size_eq
  rw [push, if_neg hfull]
  refine ⟨rfl, rfl, ?_⟩
  rw [size_eq]
  show (if r.tail ≤ (r.head + 1) % r.slots then (r.head + 1) % r.slots - r.tail
    else (r.head + 1) % r.slots + r.slots - r.tail) = r.size + 1
  unfold capacity at h
  rw [mod_of_lt_two_turns (by omega)]
  split at hs <;> split <;> split <;> omega

/-- **A stored byte joins the end of the queue.** -/
theorem toList_push {r : Ring} (h : r.size < r.capacity) (byte : UInt8) :
    (r.push byte).2.toList = r.toList ++ [byte] := by
  obtain ⟨-, -, hsize⟩ := push_of_room h byte
  have hfull : ¬ r.isFull = true := fun hf => by
    have := r.isFull_iff.mp hf
    omega
  have hcells : ∀ i,
      (r.push byte).2.cells.getD (((r.push byte).2.tail + i) % (r.push byte).2.slots) 0
        = (write r.cells r.head byte).getD ((r.tail + i) % r.slots) 0 := by
    intro i
    rw [push, if_neg hfull]
  rw [toList, hsize, List.range_succ, List.map_append, List.map_singleton]
  simp only [hcells]
  congr 1
  · refine List.map_congr_left fun i hi => ?_
    exact getD_write_of_ne byte r.head_le (r.tail_add_ne_head (List.mem_range.mp hi))
  · rw [r.tail_add_size, getD_write_self byte r.head_le]

/-! ### Chunks -/

/-- Bytes join the queue until it is full. -/
theorem pushFrom_eq (stored : Nat) (r : Ring) (bytes : Bytes) :
    (r.pushFrom stored bytes).1 = stored + min bytes.length (r.capacity - r.size) ∧
      (r.pushFrom stored bytes).2.toList
        = r.toList ++ bytes.take (min bytes.length (r.capacity - r.size)) ∧
      (r.pushFrom stored bytes).2.capacity = r.capacity := by
  induction bytes generalizing stored r with
  | nil => simp [pushFrom]
  | cons byte rest ih =>
    by_cases h : r.size < r.capacity
    · -- the byte is stored, and the room behind it is one less
      obtain ⟨hok, hcap, hsize⟩ := push_of_room h byte
      have hlist := toList_push h byte
      have hstep : r.pushFrom stored (byte :: rest)
          = (r.push byte).2.pushFrom (stored + 1) rest := by
        rw [pushFrom]
        rcases hp : r.push byte with ⟨ok, r'⟩
        rw [hp] at hok
        cases hok
        rfl
      obtain ⟨hcount, hview, hcap'⟩ := ih (stored + 1) (r.push byte).2
      rw [hcap, hsize] at hcount hview
      have hmin : min (byte :: rest).length (r.capacity - r.size)
          = min rest.length (r.capacity - (r.size + 1)) + 1 := by
        rw [List.length_cons]
        omega
      rw [hstep, hmin]
      refine ⟨by omega, ?_, hcap'.trans hcap⟩
      rw [hview, hlist, List.take_succ_cons, List.append_assoc, List.singleton_append]
    · -- a full ring stops the chunk
      have hfull : r.size = r.capacity := Nat.le_antisymm r.size_le_capacity (by omega)
      have hstep : r.pushFrom stored (byte :: rest) = (stored, r) := by
        rw [pushFrom, push_of_full hfull]
      rw [hstep, hfull, Nat.sub_self, Nat.min_zero, List.take_zero, List.append_nil]
      exact ⟨rfl, rfl, rfl⟩

/-- **A chunk joins the queue as far as there is room**, and what does not fit
is refused. -/
theorem pushAll_eq (r : Ring) (bytes : Bytes) :
    (r.pushAll bytes).1 = min bytes.length (r.capacity - r.size) ∧
      (r.pushAll bytes).2.toList = r.toList ++ bytes.take (r.pushAll bytes).1 ∧
      (r.pushAll bytes).2.capacity = r.capacity := by
  obtain ⟨hcount, hview, hcap⟩ := r.pushFrom_eq 0 bytes
  rw [Nat.zero_add] at hcount
  exact ⟨hcount, by rw [pushAll, hview, hcount], hcap⟩

/-- A byte is a slice of one. -/
theorem pushAll_singleton (r : Ring) (byte : UInt8) :
    r.pushAll [byte] = ((r.push byte).1.toNat, (r.push byte).2) := by
  rw [pushAll, pushFrom]
  rcases r.push byte with ⟨- | -, r'⟩ <;> rfl

/-! ### Draining -/

theorem drain_fst (r : Ring) : r.drain.1 = r.toList := rfl

@[simp] theorem capacity_drain (r : Ring) : r.drain.2.capacity = r.capacity := rfl

/-- **A drain leaves nothing behind.** -/
@[simp] theorem toList_drain (r : Ring) : r.drain.2.toList = [] := by
  have hsize : r.drain.2.size = 0 := by
    rw [size_eq]
    show (if r.head ≤ r.head then r.head - r.head else _) = 0
    rw [if_pos (Nat.le_refl _), Nat.sub_self]
  rw [← List.length_eq_zero_iff, length_toList, hsize]

/-! ### Byte by byte -/

/-- Takes the byte at `tail`. -/
def pop (r : Ring) : UInt8 × Ring :=
  (r.cells.getD r.tail 0,
    { r with
      tail := (r.tail + 1) % r.slots
      tail_lt := Nat.mod_lt _ r.slots_pos })

/-- Bytes that are taken one after the other until the indices meet, and the
ring they leave. -/
inductive Drains : Ring → Bytes → Ring → Prop
  | met {r : Ring} (h : r.tail = r.head) : Drains r [] r
  | pop {r s : Ring} {bytes : Bytes} (h : r.tail ≠ r.head) (rest : Drains r.pop.2 bytes s) :
      Drains r (r.pop.1 :: bytes) s

theorem size_pop {r : Ring} (h : r.tail ≠ r.head) : r.pop.2.size + 1 = r.size := by
  have hh := r.head_lt
  have ht := r.tail_lt
  have hs := r.size_eq
  rw [size_eq]
  show (if (r.tail + 1) % r.slots ≤ r.head then r.head - (r.tail + 1) % r.slots
    else r.head + r.slots - (r.tail + 1) % r.slots) + 1 = r.size
  rw [mod_of_lt_two_turns (by omega)]
  split at hs <;> split <;> split <;> omega

/-- The byte that is taken is the oldest. -/
theorem toList_of_pop {r : Ring} (h : r.tail ≠ r.head) : r.toList = r.pop.1 :: r.pop.2.toList := by
  have hfirst : (r.tail + 0) % r.slots = r.tail := Nat.mod_eq_of_lt r.tail_lt
  have hbehind : ∀ i, (r.tail + (i + 1)) % r.slots = (r.pop.2.tail + i) % r.slots := by
    intro i
    rw [Nat.add_comm i 1, ← Nat.add_assoc]
    exact (Nat.mod_add_mod ..).symm
  rw [toList, ← size_pop h, List.range_succ_eq_map, List.map_cons, List.map_map, hfirst]
  refine congrArg (r.pop.1 :: ·) (List.map_congr_left fun i _ => ?_)
  exact congrArg (fun j => r.cells.getD j 0) (hbehind i)

/-- **A drain takes every byte**, one after the other, and ends where the indices
meet. -/
theorem drains_drain (r : Ring) : Drains r r.drain.1 r.drain.2 := by
  -- the ring changes with every byte that is taken, but each time one byte less waits
  induction hsize : r.size generalizing r with
  | zero =>
    have hmet : r.tail = r.head := (beq_iff_eq.mp (r.isEmpty_iff.mpr hsize)).symm
    have hnone : r.toList = [] := List.length_eq_zero_iff.mp (r.length_toList.trans hsize)
    have hsame : r.drain.2 = r := by
      rcases r with ⟨slots, cells, head, tail⟩
      obtain rfl : tail = head := hmet
      rfl
    rw [hsame, drain_fst, hnone]
    exact .met hmet
  | succ n ih =>
    have hwaiting : r.tail ≠ r.head := by
      intro hmet
      have := r.isEmpty_iff.mp (beq_iff_eq.mpr hmet.symm)
      omega
    have hpop := size_pop hwaiting
    rw [drain_fst, toList_of_pop hwaiting]
    exact .pop hwaiting (ih r.pop.2 (by omega))

end MotionBridge.Ring
