/-
MotionBridge/Proofs/Frame/Canonical.lean

Which bytes encode a value, and what value any five bytes have.

Encoded bytes lie between 32 and 159 (`inRange_encode`).  The number that five
such bytes form is read by its low 32 bits in two's complement (`toInt_decode`),
so that the top three bits of the first group count for nothing.  Written again,
the lower four groups come out as they were, and the first one with its sign bit
in place of these three (`group_decode`).  Five bytes therefore come back exactly
when they are `Canonical`.
-/
import Mathlib.Algebra.BigOperators.Fin
import MotionBridge.Proofs.Frame.Enclose

namespace MotionBridge.Base128

/-- The bytes that carry a group. -/
def InRange (x : UInt8) : Prop :=
  32 ≤ x.toNat ∧ x.toNat ≤ 159

instance (x : UInt8) : Decidable (InRange x) :=
  inferInstanceAs (Decidable (_ ∧ _))

/-- Five bytes that carry groups, of which the first repeats its sign, bit 3, in
the bits above. -/
structure Canonical (bytes : Fin 5 → UInt8) : Prop where
  inRange : ∀ i, InRange (bytes i)
  sign : ∀ k ∈ [4, 5, 6], ((bytes 0).toNat - 32).testBit k = ((bytes 0).toNat - 32).testBit 3

/-! ### Single bytes -/

theorem digit_lt (x : UInt8) : digit x < 128 :=
  Nat.mod_lt _ (by decide)

theorem digit_eq (x : UInt8) : digit x = (224 + x.toNat) % 128 := by
  have h32 : (32 : UInt8).toNat = 32 := rfl
  rw [digit, UInt8.toNat_sub, h32]
  omega

theorem digit_of_inRange {x : UInt8} (h : InRange x) : digit x = x.toNat - 32 := by
  obtain ⟨hlow, hhigh⟩ := h
  rw [digit_eq]
  omega

/-- A group written as a byte is that byte, if it is the byte's own and the byte is
in range. -/
theorem ofNat_group_eq_iff {g : Nat} (hg : g < 128) (x : UInt8) :
    UInt8.ofNat (g + 32) = x ↔ InRange x ∧ g = digit x := by
  -- out of range the byte has a digit all the same, but wraps around to it
  have hx := x.toNat_lt
  rw [← UInt8.toNat_inj, toNat_ofNat_group hg, digit_eq, InRange]
  omega

/-- **Encoded bytes are in range.** -/
theorem inRange_encode (v : Int32) : ∀ x ∈ encode v, InRange x := by
  intro x hx
  obtain ⟨k, -, rfl⟩ := List.mem_map.mp hx
  have hg := group_lt v.toInt k
  rw [InRange, toNat_ofNat_group hg]
  omega

/-! ### Values -/

/-- The low 32 bits of a number, in two's complement. -/
theorem toInt_decode (bytes : Bytes) :
    (decode bytes).toInt = (number bytes : Int).bmod (2 ^ 32) := by
  rw [decode, Int32.toInt_ofNat']
  rfl

theorem ofFn_eq (bytes : Fin 5 → UInt8) :
    List.ofFn bytes = [bytes 0, bytes 1, bytes 2, bytes 3, bytes 4] := rfl

/-- The groups weigh a power of 128 each. -/
theorem number_ofFn (bytes : Fin 5 → UInt8) :
    number (List.ofFn bytes) = ∑ i, digit (bytes i) * 128 ^ (4 - i.val) := by
  rw [ofFn_eq, number_eq, Fin.sum_univ_five]
  show _ = digit (bytes 0) * 128 ^ 4 + digit (bytes 1) * 128 ^ 3 + digit (bytes 2) * 128 ^ 2
    + digit (bytes 3) * 128 ^ 1 + digit (bytes 4) * 128 ^ 0
  omega

/-- A group with its sign bit in place of the bits above. -/
def extend (g : Nat) : Nat :=
  if g % 16 < 8 then g % 16 else g % 16 + 112

theorem extend_lt (g : Nat) : extend g < 128 := by
  rw [extend]
  split <;> omega

theorem extend_eq_self_iff {g : Nat} (hg : g < 128) :
    extend g = g ↔ ∀ k ∈ [4, 5, 6], g.testBit k = g.testBit 3 := by
  have hall : ∀ g : Fin 128,
      extend g = g ↔ ∀ k ∈ [4, 5, 6], g.val.testBit k = g.val.testBit 3 := by decide
  exact hall ⟨g, hg⟩

/-- **A value read from five bytes has their groups**, the first with its sign
extended. -/
theorem group_decode (a b c d e : UInt8) :
    let v := (decode [a, b, c, d, e]).toInt
    group v 4 = extend (digit a) ∧ group v 3 = digit b ∧ group v 2 = digit c ∧
      group v 1 = digit d ∧ group v 0 = digit e := by
  intro v
  have hv : v = (number [a, b, c, d, e] : Int).bmod (2 ^ 32) := toInt_decode _
  rw [number_eq] at hv
  obtain ⟨above, hgroups⟩ := exists_eq_groups v
  have hlt0 := group_lt v 0
  have hlt1 := group_lt v 1
  have hlt2 := group_lt v 2
  have hlt3 := group_lt v 3
  have hlt4 := group_lt v 4
  have ha := digit_lt a
  have hb := digit_lt b
  have hc := digit_lt c
  have hd := digit_lt d
  have he := digit_lt e
  -- two numbers in base 128 that differ by a multiple of 2 ^ 32, which is 16 * 128 ^ 4: only
  -- the first digits can tell
  rw [Int.bmod_def] at hv
  rw [extend]
  split at hv <;> split <;> omega

/-- **Five bytes come back exactly when they are canonical.** -/
theorem encode_decode_iff (bytes : Fin 5 → UInt8) :
    encode (decode (List.ofFn bytes)) = List.ofFn bytes ↔ Canonical bytes := by
  obtain ⟨h4, h3, h2, h1, h0⟩ :=
    group_decode (bytes 0) (bytes 1) (bytes 2) (bytes 3) (bytes 4)
  rw [ofFn_eq, encode_eq, h4, h3, h2, h1, h0]
  simp only [List.cons.injEq, and_true, ofNat_group_eq_iff, digit_lt, extend_lt]
  constructor
  · rintro ⟨⟨hfirst, hextend⟩, hb, hc, hd, he⟩
    have hsign := (extend_eq_self_iff (digit_lt _)).mp hextend
    rw [digit_of_inRange hfirst] at hsign
    refine ⟨fun i => ?_, hsign⟩
    match i with
    | 0 => exact hfirst
    | 1 => exact hb
    | 2 => exact hc
    | 3 => exact hd
    | 4 => exact he
  · rintro ⟨hrange, hsign⟩
    rw [← digit_of_inRange (hrange 0)] at hsign
    exact ⟨⟨hrange 0, (extend_eq_self_iff (digit_lt _)).mpr hsign⟩, hrange 1, hrange 2, hrange 3,
      hrange 4⟩

/-- **The codec**: every value is read back from its five bytes, which are in
range; five bytes in range are read as the low 32 bits, in two's complement, of
the number that they form; and of all five bytes exactly the canonical ones are
written again as they were. -/
theorem codec_exact (v : Int32) (bytes : Fin 5 → UInt8) :
    ((encode v).length = 5 ∧ (∀ x ∈ encode v, InRange x) ∧ decode (encode v) = v) ∧
      ((∀ i, InRange (bytes i)) →
        (decode (List.ofFn bytes)).toInt
          = (∑ i, ((bytes i).toNat - 32 : Int) * 128 ^ (4 - i.val)).bmod (2 ^ 32)) ∧
      (encode (decode (List.ofFn bytes)) = List.ofFn bytes ↔ Canonical bytes) := by
  refine ⟨⟨length_encode v, inRange_encode v, decode_encode v⟩, fun hrange => ?_,
    encode_decode_iff bytes⟩
  rw [toInt_decode, number_ofFn, Nat.cast_sum]
  refine congrArg (Int.bmod · (2 ^ 32)) (Finset.sum_congr rfl fun i _ => ?_)
  rw [digit_of_inRange (hrange i), Nat.cast_mul, Nat.cast_sub (hrange i).1, Nat.cast_pow]
  rfl

/-- The sign bit alone is the least value, and its bytes have the sign copied. -/
theorem codec_exact_of_sign :
    let bytes : Fin 5 → UInt8 := ![40, 32, 32, 32, 32]
    (∀ i, InRange (bytes i)) ∧ (decode (List.ofFn bytes)).toInt = -2 ^ 31 ∧ ¬ Canonical bytes := by
  intro bytes
  have hrange : ∀ i, InRange (bytes i) := by decide
  obtain ⟨-, hvalue, hback⟩ := codec_exact 0 bytes
  refine ⟨hrange, ?_, fun hcanonical => ?_⟩
  · rw [hvalue hrange]
    decide
  · have hsame := hback.mpr hcanonical
    revert hsame
    decide

end MotionBridge.Base128
