/-
MotionBridge/Proofs/Frame/Detection.lean

Which corruptions a checksum lets through.

The checksum is an exclusive or with bit 7 forced, so of any number of altered
bytes it sees only what their differences add up to.  Differences that cancel
out in the low seven bits leave a good frame, provided that the byte in the
checksum's place still has bit 7 set; all others are refused
(`validate_altered`).  Two bytes of a frame that have changed places are
therefore never noticed.
-/
import MotionBridge.Proofs.Frame.Corruption

namespace MotionBridge

namespace Checksum

/-! ### What differences add up to -/

/-- The exclusive or of all bytewise differences of two byte strings. -/
def difference (a b : Bytes) : UInt8 :=
  xorAll (List.zipWith (· ^^^ ·) a b)

/-- Differences add up to the difference of what the bytes add up to. -/
theorem difference_eq {a b : Bytes} (h : a.length = b.length) :
    difference a b = xorAll a ^^^ xorAll b := by
  induction a generalizing b with
  | nil =>
    obtain rfl : b = [] := List.eq_nil_of_length_eq_zero h.symm
    rfl
  | cons x a ih =>
    cases b with
    | nil => cases h
    | cons y b =>
      have htail : difference a b = xorAll a ^^^ xorAll b := ih (Nat.succ.inj h)
      calc difference (x :: a) (y :: b)
          = (x ^^^ y) ^^^ difference a b := by
            rw [difference, List.zipWith_cons_cons, xorAll_cons]
            rfl
        _ = (x ^^^ xorAll a) ^^^ (y ^^^ xorAll b) := by
            rw [htail]
            ac_rfl
        _ = xorAll (x :: a) ^^^ xorAll (y :: b) := by rw [xorAll_cons, xorAll_cons]

/-- What holds of the numbers below 256 as bytes holds of every byte. -/
theorem of_forall_ofNat {P : UInt8 → Prop} (h : ∀ n < 256, P (UInt8.ofNat n)) (x : UInt8) :
    P x := by
  have hx := h x.toNat x.toNat_lt
  rwa [UInt8.ofNat_toNat] at hx

/-- The checksum is blind to what leaves the low seven bits alone. -/
theorem low_eq_zero_iff : ∀ d : UInt8, d &&& 0x7F = 0 ↔ Blind d :=
  of_forall_ofNat (by decide +kernel)

/-- Bit 7 is set where forcing it changes nothing. -/
theorem high_eq_iff : ∀ x : UInt8, x &&& 0x80 = 0x80 ↔ x ||| 0x80 = x :=
  of_forall_ofNat (by decide +kernel)

/-- A difference that the checksum is blind to makes none to another. -/
theorem Blind.xor_iff {c d : UInt8} (hc : Blind c) : Blind (c ^^^ d) ↔ Blind d := by
  have hflip : ∀ d : UInt8, Blind (0x80 ^^^ d) ↔ Blind d := of_forall_ofNat (by decide +kernel)
  rcases hc with rfl | rfl
  · rw [UInt8.zero_xor]
  · exact hflip d

/-- A byte is the checksum of a body exactly if it differs from what the body
adds up to in bit 7 at most, and has that bit set. -/
theorem eq_ofBody_iff {body : Bytes} {sum : UInt8} :
    sum = ofBody body ↔ Blind (xorAll body ^^^ sum) ∧ sum &&& 0x80 = 0x80 := by
  have hforced : sum ||| 0x80 = ofBody body ↔ Blind (xorAll body ^^^ sum) := by
    rw [← marker_xor_iff (s := xorAll body), ← UInt8.xor_assoc, UInt8.xor_self, UInt8.zero_xor]
    rfl
  rw [high_eq_iff, ← hforced]
  constructor
  · rintro rfl
    have htwice : ofBody body ||| 0x80 = ofBody body := by
      rw [ofBody, UInt8.or_assoc, UInt8.or_self]
    exact ⟨htwice, htwice⟩
  · rintro ⟨hsum, hhigh⟩
    exact hhigh.symm.trans hsum

end Checksum

/-! ### Frames with altered bytes -/

/-- Alterations go undetected when their differences cancel out in the low
seven bits, and the byte in the checksum's place has bit 7 set. -/
def Undetected (frame other : Bytes) : Prop :=
  Checksum.difference frame other &&& 0x7F = 0 ∧
    other.getD (other.length - 2) 0 &&& 0x80 = 0x80

instance (frame other : Bytes) : Decidable (Undetected frame other) :=
  inferInstanceAs (Decidable (_ ∧ _))

/-- The two marks add nothing to what bytes add up to that the checksum would
see in a difference. -/
theorem xorAll_marked (covered : Bytes) (sum : UInt8) :
    Checksum.xorAll (stx :: (covered ++ [sum]) ++ [etx])
      = (stx ^^^ etx) ^^^ (Checksum.xorAll covered ^^^ sum) := by
  have hsingle : ∀ x : UInt8, Checksum.xorAll [x] = x := fun x => UInt8.zero_xor
  rw [List.cons_append, Checksum.xorAll_cons, Checksum.xorAll_append, Checksum.xorAll_append,
    hsingle, hsingle]
  ac_rfl

/-- **A frame of altered bytes closes exactly if the alterations go
undetected.** -/
theorem closes_altered_iff {covered other : Bytes} {sum otherSum : UInt8}
    (hsum : sum = Checksum.ofBody covered)
    (hlen : (stx :: (covered ++ [sum]) ++ [etx]).length
      = (stx :: (other ++ [otherSum]) ++ [etx]).length) :
    Checksum.closes (stx :: (other ++ [otherSum]) ++ [etx]) = true ↔
      Undetected (stx :: (covered ++ [sum]) ++ [etx]) (stx :: (other ++ [otherSum]) ++ [etx]) := by
  have hdifference : Checksum.difference (stx :: (covered ++ [sum]) ++ [etx])
        (stx :: (other ++ [otherSum]) ++ [etx])
      = (Checksum.xorAll covered ^^^ sum) ^^^ (Checksum.xorAll other ^^^ otherSum) := by
    rw [Checksum.difference_eq hlen, xorAll_marked, xorAll_marked]
    calc (stx ^^^ etx) ^^^ (Checksum.xorAll covered ^^^ sum)
          ^^^ ((stx ^^^ etx) ^^^ (Checksum.xorAll other ^^^ otherSum))
        = ((stx ^^^ etx) ^^^ (stx ^^^ etx))
            ^^^ ((Checksum.xorAll covered ^^^ sum) ^^^ (Checksum.xorAll other ^^^ otherSum)) := by
          ac_rfl
      _ = _ := by rw [UInt8.xor_self, UInt8.zero_xor]
  have hlast : (stx :: (other ++ [otherSum]) ++ [etx]).getD
      ((stx :: (other ++ [otherSum]) ++ [etx]).length - 2) 0 = otherSum := by
    simp [List.getD_eq_getElem?_getD]
  rw [closes_iff, Checksum.eq_ofBody_iff, Undetected, hdifference, hlast, Checksum.low_eq_zero_iff,
    (Checksum.eq_ofBody_iff.mp hsum).1.xor_iff]

/-- **Altered bytes are refused unless the alterations go undetected**, however
many they are: a frame whose inner bytes have been replaced by as many other
unmarked bytes is read from end to end exactly if the differences cancel out,
and is else refused at its end mark. -/
theorem validate_altered {frame body : Bytes} {f : Frame} (hvalid : validate frame = .ok f)
    (hstart : f.start = 0) (hstop : f.stop = frame.length) (hbody : Unmarked body)
    (hlen : (stx :: body ++ [etx]).length = frame.length) :
    ((∃ g, validate (stx :: body ++ [etx]) = .ok g ∧ g.start = 0 ∧ g.stop = frame.length) ↔
        Undetected frame (stx :: body ++ [etx])) ∧
      (¬ Undetected frame (stx :: body ++ [etx]) →
        validate (stx :: body ++ [etx]) = .error (.checksumMismatch (frame.length - 1))) := by
  have hframe := isFrame_of_validate hvalid hstart hstop
  have hcloses : Checksum.closes (stx :: body ++ [etx]) = true
      ↔ Undetected frame (stx :: body ++ [etx]) := by
    have hlong := hframe.three_le_length
    obtain ⟨inner, -, rfl⟩ := hframe.marked
    rcases List.eq_nil_or_concat inner with rfl | ⟨covered, sum, rfl⟩
    · exact absurd hlong (by decide)
    · rcases List.eq_nil_or_concat body with rfl | ⟨other, otherSum, rfl⟩
      · rw [← hlen] at hlong
        exact absurd hlong (by decide)
      · rw [List.concat_eq_append] at hframe hlen ⊢
        rw [List.concat_eq_append] at hlen ⊢
        exact closes_altered_iff ((closes_iff covered sum).mp hframe.closes) hlen.symm
  have hlast : frame.length - 1 = ([] : Bytes).length + body.length + 1 := by
    rw [← hlen]
    simp
  have hend : frame.length = frame.length - 1 + 1 := by
    have hlong := hframe.three_le_length
    omega
  have hwhole : stx :: body ++ [etx] = [] ++ (stx :: body ++ etx :: []) := rfl
  obtain ⟨hgood, hbad⟩ := quiet_nil.judged hbody [] hwhole hcloses rfl hlast hend
  refine ⟨⟨?_, hgood⟩, hbad⟩
  rintro ⟨g, hg, -, -⟩
  refine Decidable.byContradiction fun hnoticed => ?_
  rw [hbad hnoticed] at hg
  cases hg

/-- Two bytes that have changed places pass; two whose differences do not cancel
out are refused. -/
theorem validate_altered_of_swapped :
    (∃ g, validate [0x02, 0x20, 0x0D, 0xAD, 0x03] = .ok g ∧ g.start = 0 ∧ g.stop = 5) ∧
      validate [0x02, 0x21, 0x0E, 0xAD, 0x03] = .error (.checksumMismatch 4) := by
  have hvalid : validate [0x02, 0x0D, 0x20, 0xAD, 0x03]
      = .ok (frameAt 0 [0x02, 0x0D, 0x20, 0xAD, 0x03]) := rfl
  have hswapped := @validate_altered _ [0x20, 0x0D, 0xAD] _ hvalid rfl rfl (by decide) rfl
  have hchanged := @validate_altered _ [0x21, 0x0E, 0xAD] _ hvalid rfl rfl (by decide) rfl
  exact ⟨hswapped.1.mpr (by decide), hchanged.2 (by decide)⟩

end MotionBridge
