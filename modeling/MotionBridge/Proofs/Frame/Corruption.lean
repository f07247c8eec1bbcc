/-
MotionBridge/Proofs/Frame/Corruption.lean

What the checksum makes of a frame with one byte replaced.

A checksum forces its bit 7, so it is blind to that bit of the bytes it covers
(`Checksum.ofBody_eq_iff`); all other differences in one byte change it.  A
byte that is replaced by a mark moves the span: behind a new start mark only
the tail of the frame is judged, and before a new end mark only its head.
These pass only if they happen to carry their own checksum.

So a replaced byte is refused exactly if it is none of these (`Unnoticed`,
`validate_set`).
-/
import MotionBridge.Proofs.Frame.Found

namespace MotionBridge

namespace Checksum

/-! ### Exclusive or -/

theorem foldl_xor (s : UInt8) (bytes : Bytes) : bytes.foldl (· ^^^ ·) s = s ^^^ xorAll bytes := by
  induction bytes generalizing s with
  | nil => exact UInt8.xor_zero.symm
  | cons b bytes ih =>
    rw [xorAll, List.foldl_cons, List.foldl_cons, ih, ih (0 ^^^ b), UInt8.zero_xor, UInt8.xor_assoc]

theorem xorAll_append (a b : Bytes) : xorAll (a ++ b) = xorAll a ^^^ xorAll b := by
  rw [xorAll, List.foldl_append, foldl_xor]
  rfl

theorem xorAll_cons (b : UInt8) (bytes : Bytes) : xorAll (b :: bytes) = b ^^^ xorAll bytes := by
  rw [xorAll, List.foldl_cons, foldl_xor, UInt8.zero_xor]

/-- The differences that a checksum is blind to: none, and bit 7. -/
def Blind (d : UInt8) : Prop :=
  d = 0 ∨ d = 0x80

instance (d : UInt8) : Decidable (Blind d) :=
  inferInstanceAs (Decidable (_ ∨ _))

theorem blind_xor_iff {x y : UInt8} : Blind (x ^^^ y) ↔ x = y ∨ x = y ^^^ 0x80 := by
  have hbit : x ^^^ y = 0x80 ↔ x = y ^^^ 0x80 := by
    rw [← UInt8.xor_right_inj y, UInt8.xor_comm x y, ← UInt8.xor_assoc, UInt8.xor_self,
      UInt8.zero_xor]
  rw [Blind, UInt8.xor_eq_zero_iff, hbit]

/-- With bit 7 forced, a difference shows unless it is in that bit. -/
theorem marker_xor_iff {s d : UInt8} : (s ^^^ d) ||| 0x80 = s ||| 0x80 ↔ Blind d := by
  have hmarker : (0x80 : UInt8).toNat = 2 ^ 7 := rfl
  have same : ∀ p q : Bool, (p ^^ q) = p → q = false := by decide
  constructor
  · intro h
    -- bit by bit, the difference is nothing below bit 7
    have hlow : d.toNat % 2 ^ 7 = 0 := by
      refine Nat.eq_of_testBit_eq ?_
      intro k
      have hk := congrArg (fun x : UInt8 => x.toNat.testBit k) h
      simp only [UInt8.toNat_or, UInt8.toNat_xor, hmarker, Nat.testBit_or, Nat.testBit_xor,
        Nat.testBit_two_pow] at hk
      rw [Nat.testBit_mod_two_pow, Nat.zero_testBit]
      by_cases hlt : k < 7
      · rw [decide_eq_false (by omega : ¬ 7 = k), Bool.or_false, Bool.or_false] at hk
        simp only [same _ _ hk, Bool.and_false]
      · simp [hlt]
    have hlt := d.toNat_lt
    rcases (by omega : d.toNat = 0 ∨ d.toNat = 128) with hzero | hhigh
    · exact Or.inl (UInt8.toNat_inj.mp hzero)
    · exact Or.inr (UInt8.toNat_inj.mp hhigh)
  · intro h
    rcases h with rfl | rfl
    · rw [UInt8.xor_zero]
    · refine UInt8.toNat_inj.mp (Nat.eq_of_testBit_eq ?_)
      intro k
      simp only [UInt8.toNat_or, UInt8.toNat_xor, hmarker, Nat.testBit_or, Nat.testBit_xor,
        Nat.testBit_two_pow]
      cases decide (7 = k) <;> simp

/-- **Two bodies have the same checksum exactly if their bytes differ in bit 7
alone**, taken together. -/
theorem ofBody_eq_iff {a b : Bytes} : ofBody a = ofBody b ↔ Blind (xorAll a ^^^ xorAll b) := by
  have hsum : xorAll a = xorAll b ^^^ (xorAll a ^^^ xorAll b) := by
    rw [UInt8.xor_comm (xorAll a), ← UInt8.xor_assoc, UInt8.xor_self, UInt8.zero_xor]
  rw [← marker_xor_iff (s := xorAll b), ← hsum]
  rfl

/-- Leaving out a first part shows in the checksum, unless it is blind to
that part. -/
theorem ofBody_append_eq_iff {a b : Bytes} : ofBody (a ++ b) = ofBody b ↔ Blind (xorAll a) := by
  rw [ofBody_eq_iff, xorAll_append, UInt8.xor_assoc, UInt8.xor_self, UInt8.xor_zero]

/-- Replacing one byte shows in the checksum, unless only bit 7 changes. -/
theorem ofBody_replace_iff {front back : Bytes} {x y : UInt8} :
    ofBody (front ++ x :: back) = ofBody (front ++ y :: back) ↔ x = y ∨ x = y ^^^ 0x80 := by
  have hdiff : xorAll (front ++ x :: back) ^^^ xorAll (front ++ y :: back) = x ^^^ y := by
    rw [xorAll_append, xorAll_append, xorAll_cons, xorAll_cons]
    calc (xorAll front ^^^ (x ^^^ xorAll back)) ^^^ (xorAll front ^^^ (y ^^^ xorAll back))
        = (xorAll front ^^^ xorAll front) ^^^ (xorAll back ^^^ xorAll back) ^^^ (x ^^^ y) := by
          ac_rfl
      _ = x ^^^ y := by
          rw [UInt8.xor_self, UInt8.xor_self, UInt8.xor_self, UInt8.zero_xor]
  rw [ofBody_eq_iff, hdiff, blind_xor_iff]

end Checksum

/-! ### The span that is judged -/

/-- Marks around unmarked bytes, behind a quiet part, are judged by their own
checksum. -/
theorem Quiet.validate_marked {a body : Bytes} (ha : Quiet a) (hbody : Unmarked body)
    (rest : Bytes) :
    validate (a ++ (stx :: body ++ etx :: rest))
      = if Checksum.closes (stx :: body ++ [etx]) then
          .ok (frameAt a.length (stx :: body ++ [etx]))
        else .error (.checksumMismatch (a.length + body.length + 1)) := by
  rw [validate_eq, ha.nextSpan_marked hbody rest]
  by_cases hcloses : Checksum.closes (stx :: body ++ [etx]) = true
  · rw [if_pos hcloses, if_pos hcloses]
    simp [frameAt, Nat.add_assoc]
  · rw [if_neg hcloses, if_neg hcloses]

/-- Two marks alone have no checksum. -/
theorem closes_empty : Checksum.closes (stx :: [] ++ [etx]) = false := rfl

theorem closes_iff (body : Bytes) (sum : UInt8) :
    Checksum.closes (stx :: (body ++ [sum]) ++ [etx]) = true ↔ sum = Checksum.ofBody body := by
  rw [closes_marked, beq_iff_eq]

/-! ### Replaced bytes -/

/-- The byte at `i` of a frame can be replaced by `b` unnoticed: a start mark,
if the bytes through it cancel out but for bit 7; an end mark, if the byte
before it is the checksum of those before that; another byte, if it differs
in bit 7 alone.  The checksum itself can only be replaced by an end mark. -/
def Unnoticed (frame : Bytes) (i : Nat) (b : UInt8) : Prop :=
  if b = stx then i + 2 < frame.length ∧ Checksum.Blind (Checksum.xorAll (slice frame 1 i))
  else if b = etx then
    2 ≤ i ∧ frame[i - 1]? = some (Checksum.ofBody (slice frame 1 (i - 2)))
  else i + 2 < frame.length ∧ frame[i]? = some (b ^^^ 0x80)

instance (frame : Bytes) (i : Nat) (b : UInt8) : Decidable (Unnoticed frame i b) :=
  inferInstanceAs (Decidable (ite _ _ _))

section Replaced

variable {front back : Bytes} {old b : UInt8}

/-- The bytes from the second on, through one inside the frame. -/
theorem slice_one (x : UInt8) (a rest : Bytes) : slice (x :: (a ++ rest)) 1 a.length = a := by
  rw [slice, List.drop_one, List.tail_cons, Nat.add_sub_cancel, List.take_left]

theorem length_around (front back : Bytes) (x : UInt8) :
    (stx :: (front ++ x :: back) ++ [etx]).length = front.length + back.length + 3 := by
  simp only [List.length_append, List.length_cons, List.length_nil]
  omega

/-- A byte with a checksum behind it does not stand in the checksum's
place. -/
theorem covered_lt (front covered : Bytes) (x sum : UInt8) :
    front.length + 1 + 2 < (stx :: (front ++ x :: (covered ++ [sum])) ++ [etx]).length := by
  rw [length_around, List.length_append]
  show _ < front.length + (covered.length + 1) + 3
  omega

/-- A new start mark leaves the tail of the frame. -/
theorem closes_tail_iff (hframe : Checksum.closes (stx :: (front ++ old :: back) ++ [etx]) = true) :
    Checksum.closes (stx :: back ++ [etx]) = true
      ↔ Unnoticed (stx :: (front ++ old :: back) ++ [etx]) (front.length + 1) stx := by
  have hslice : slice (stx :: (front ++ old :: back) ++ [etx]) 1 (front.length + 1)
      = front ++ [old] := by
    have h := slice_one stx (front ++ [old]) (back ++ [etx])
    simpa using h
  rw [Unnoticed, if_pos rfl, hslice]
  rcases List.eq_nil_or_concat back with rfl | ⟨covered, sum, rfl⟩
  · -- it took the place of the checksum
    rw [closes_empty]
    simp
  · rw [List.concat_eq_append] at hframe ⊢
    have hsum : sum = Checksum.ofBody ((front ++ [old]) ++ covered) := by
      refine (closes_iff _ sum).mp ?_
      simpa using hframe
    rw [and_iff_right (covered_lt front covered old sum), closes_iff, hsum,
      Checksum.ofBody_append_eq_iff]

/-- A new end mark leaves the head of the frame. -/
theorem closes_head_iff (front rest : Bytes) :
    Checksum.closes (stx :: front ++ [etx]) = true
      ↔ Unnoticed (stx :: front ++ rest) (front.length + 1) etx := by
  rw [Unnoticed, if_neg (by decide : etx ≠ stx), if_pos rfl]
  rcases List.eq_nil_or_concat front with rfl | ⟨covered, sum, rfl⟩
  · -- right behind the start mark it leaves no room for a checksum
    rw [closes_empty]
    simp
  · rw [List.concat_eq_append]
    have hlen : (covered ++ [sum]).length + 1 - 2 = covered.length := by simp
    have hslice : slice (stx :: (covered ++ [sum]) ++ rest) 1 covered.length = covered := by
      have h := slice_one stx covered (sum :: rest)
      simpa using h
    have hlast : (stx :: (covered ++ [sum]) ++ rest)[(covered ++ [sum]).length + 1 - 1]?
        = some sum := by
      simp
    rw [closes_iff, hlen, hslice, hlast, Option.some_inj]
    simp

/-- Any other byte leaves the marks where they are. -/
theorem closes_replaced_iff
    (hframe : Checksum.closes (stx :: (front ++ old :: back) ++ [etx]) = true)
    (hstx : b ≠ stx) (hetx : b ≠ etx) (hne : old ≠ b) :
    Checksum.closes (stx :: (front ++ b :: back) ++ [etx]) = true
      ↔ Unnoticed (stx :: (front ++ old :: back) ++ [etx]) (front.length + 1) b := by
  have hold : (stx :: (front ++ old :: back) ++ [etx])[front.length + 1]? = some old := by
    simp
  rw [Unnoticed, if_neg hstx, if_neg hetx, hold, Option.some_inj]
  rcases List.eq_nil_or_concat back with rfl | ⟨covered, sum, rfl⟩
  · -- the checksum itself was replaced, and there is only one
    have hsum := (closes_iff front old).mp hframe
    rw [closes_iff, ← hsum]
    simp [hne.symm]
  · rw [List.concat_eq_append] at hframe ⊢
    have hassoc : ∀ x : UInt8, stx :: (front ++ x :: (covered ++ [sum])) ++ [etx]
        = stx :: ((front ++ x :: covered) ++ [sum]) ++ [etx] := by simp
    rw [hassoc, closes_iff] at hframe
    rw [and_iff_right (covered_lt front covered old sum), hassoc, closes_iff, hframe,
      Checksum.ofBody_replace_iff, or_iff_right hne]

end Replaced

/-- A frame around one of the bytes between its marks. -/
theorem IsFrame.split_at {frame : Bytes} (h : IsFrame frame) {i : Nat} (hfirst : 0 < i)
    (hlast : i < frame.length - 1) :
    ∃ front old back, frame = stx :: (front ++ old :: back) ++ [etx] ∧ i = front.length + 1 ∧
      Unmarked front ∧ (old ≠ stx ∧ old ≠ etx) ∧ Unmarked back := by
  obtain ⟨body, hbody, rfl⟩ := h.marked
  have hi : i - 1 < body.length := by
    simp only [List.length_append, List.length_cons, List.length_nil] at hlast
    omega
  have hsplit : body = body.take (i - 1) ++ body[i - 1] :: body.drop (i - 1 + 1) := by
    rw [← List.drop_eq_getElem_cons hi, List.take_append_drop]
  refine ⟨body.take (i - 1), body[i - 1], body.drop (i - 1 + 1), ?_, ?_, ?_, ?_, ?_⟩
  · rw [← hsplit]
  · rw [List.length_take, Nat.min_eq_left (Nat.le_of_lt hi)]
    omega
  · exact fun x hx => hbody x (List.mem_of_mem_take hx)
  · exact hbody _ (List.getElem_mem hi)
  · exact fun x hx => hbody x (List.mem_of_mem_drop hx)

/-- What is read off a buffer whose first span closes under a condition. -/
theorem Quiet.judged {buffer a body : Bytes} (ha : Quiet a) (hbody : Unmarked body) (rest : Bytes)
    (hbuffer : buffer = a ++ (stx :: body ++ etx :: rest)) {P : Prop}
    (hcloses : Checksum.closes (stx :: body ++ [etx]) = true ↔ P) {start stop etxAt : Nat}
    (hstart : start = a.length) (hetxAt : etxAt = a.length + body.length + 1)
    (hstop : stop = etxAt + 1) :
    (P → ∃ g, validate buffer = .ok g ∧ g.start = start ∧ g.stop = stop) ∧
      (¬ P → validate buffer = .error (.checksumMismatch etxAt)) := by
  rw [hbuffer, ha.validate_marked hbody rest, hstop, hetxAt, hstart]
  constructor
  · intro hP
    rw [if_pos (hcloses.mpr hP)]
    refine ⟨_, rfl, rfl, ?_⟩
    simp [frameAt, Nat.add_assoc]
  · intro hP
    rw [if_neg (fun h => hP (hcloses.mp h))]

/-- A frame with one of its inner bytes replaced is judged by what the byte
leaves of it: a new start mark moves the start of the first span, and a new
end mark its end. -/
theorem IsFrame.judged_set {frame : Bytes} (h : IsFrame frame) {i : Nat} (hfirst : 0 < i)
    (hlast : i < frame.length - 1) {b : UInt8} (hb : frame[i]? ≠ some b) :
    (Unnoticed frame i b → ∃ g, validate (frame.set i b) = .ok g ∧
      g.start = (if b = stx then i else 0) ∧
      g.stop = (if b = etx then i + 1 else frame.length)) ∧
    (¬ Unnoticed frame i b → validate (frame.set i b)
      = .error (.checksumMismatch (if b = etx then i else frame.length - 1))) := by
  have hcloses := h.closes
  obtain ⟨front, old, back, rfl, rfl, hfront, -, hback⟩ := h.split_at hfirst hlast
  have hset : (stx :: (front ++ old :: back) ++ [etx]).set (front.length + 1) b
      = stx :: (front ++ b :: back) ++ [etx] := by
    simp
  have hne : old ≠ b := by
    rintro rfl
    exact hb (by simp)
  rw [hset, length_around]
  by_cases hstx : b = stx
  · -- what stands before the new start mark is noise
    subst hstx
    rw [if_pos rfl, if_neg (by decide : stx ≠ etx), if_neg (by decide : stx ≠ etx)]
    have hquiet : Quiet ([] ++ stx :: front) := quiet_nil.append_stx hfront
    refine hquiet.judged hback [] (by simp) (closes_tail_iff hcloses) rfl ?_ ?_
    · simp only [List.nil_append, List.length_cons]
      omega
    · omega
  · by_cases hetx : b = etx
    · -- what stands behind the new end mark is left over
      subst hetx
      rw [if_neg hstx, if_pos rfl, if_pos rfl]
      refine quiet_nil.judged hfront (back ++ [etx]) (by simp) ?_ rfl ?_ rfl
      · have h := closes_head_iff front (old :: back ++ [etx])
        simpa using h
      · simp
    · -- the whole frame is still the first span
      rw [if_neg hstx, if_neg hetx, if_neg hetx]
      refine quiet_nil.judged (hfront.append (Unmarked.cons ⟨hstx, hetx⟩ hback)) []
        (by simp) (closes_replaced_iff hcloses hstx hetx hne) rfl ?_ ?_
      · simp only [List.length_append, List.length_cons, List.length_nil]
        omega
      · omega

/-- **A replaced byte is refused, unless it is one of those that go
unnoticed.**  This is exact: each of those passes, as a frame of its own. -/
theorem validate_set {frame : Bytes} {f : Frame} (hvalid : validate frame = .ok f)
    (hstart : f.start = 0) (hstop : f.stop = frame.length) {i : Nat} (hfirst : 0 < i)
    (hlast : i < frame.length - 1) {b : UInt8} (hb : frame[i]? ≠ some b) :
    (Unnoticed frame i b → ∃ g, validate (frame.set i b) = .ok g ∧
      g.start = (if b = stx then i else 0) ∧
      g.stop = (if b = etx then i + 1 else frame.length)) ∧
    (¬ Unnoticed frame i b → validate (frame.set i b)
      = .error (.checksumMismatch (if b = etx then i else frame.length - 1))) :=
  (isFrame_of_validate hvalid hstart hstop).judged_set hfirst hlast hb

/-- A command byte that is one off is refused. -/
theorem validate_set_of_neighbour :
    validate ([0x02, 0x0D, 0x20, 0xAD, 0x03].set 2 0x21) = .error (.checksumMismatch 4) := by
  have hvalid : validate [0x02, 0x0D, 0x20, 0xAD, 0x03]
      = .ok (frameAt 0 [0x02, 0x0D, 0x20, 0xAD, 0x03]) := rfl
  exact (validate_set hvalid rfl rfl (by decide) (by decide) (by decide)).2 (by decide)

/-- Not every replaced byte is refused: bit 7 of a command byte can be turned
over. -/
theorem replaced_byte_passes :
    ¬ ∀ (frame : Bytes) (f : Frame) (i : Nat) (b : UInt8), validate frame = .ok f →
      f.start = 0 → f.stop = frame.length → 0 < i → i < frame.length - 1 →
      frame[i]? ≠ some b → ∃ e, validate (frame.set i b) = .error (.checksumMismatch e) := by
  intro h
  have hvalid : validate [0x02, 0x0D, 0x20, 0xAD, 0x03]
      = .ok (frameAt 0 [0x02, 0x0D, 0x20, 0xAD, 0x03]) := rfl
  have hpasses : validate ([0x02, 0x0D, 0x20, 0xAD, 0x03].set 2 0xA0)
      = .ok (frameAt 0 [0x02, 0x0D, 0xA0, 0xAD, 0x03]) := rfl
  obtain ⟨e, he⟩ := h _ _ 2 0xA0 hvalid rfl rfl (by decide) (by decide) (by decide)
  rw [hpasses] at he
  cases he

end MotionBridge
