/-
MotionBridge/Proofs/Frame/Enclose.lean

What is written is what is read.

The five bytes of an encoded value decode to it again (`decode_encode`) and
hold no mark.  Unmarked bytes, enclosed, are a good frame (`isFrame_enclose`)
that `validate` finds alone in its buffer.  With one bit of the checksum
turned over, the enclosed bytes are still found, and are refused.
-/
import MotionBridge.Proofs.Frame.Scan
import MotionBridge.Frame.Build

namespace MotionBridge

/-! ### Values -/

namespace Base128

theorem group_lt (v : Int) (k : Nat) : group v k < 128 := by
  unfold group
  omega

theorem toNat_ofNat_group {g : Nat} (hg : g < 128) : (UInt8.ofNat (g + 32)).toNat = g + 32 := by
  rw [UInt8.toNat_ofNat']
  omega

/-- A group is what its byte carries. -/
theorem digit_ofNat {g : Nat} (hg : g < 128) : digit (UInt8.ofNat (g + 32)) = g := by
  have h32 : (32 : UInt8).toNat = 32 := rfl
  unfold digit
  rw [UInt8.toNat_sub, h32, toNat_ofNat_group hg]
  omega

/-- A number shifted down is what one more shift leaves, and one group. -/
theorem shiftRight_eq_add_group (v : Int) (k : Nat) :
    v >>> (7 * k) = v >>> (7 * (k + 1)) * 128 + group v k := by
  have hshift : v >>> (7 * (k + 1)) = v >>> (7 * k) / 128 := by
    rw [Nat.mul_succ, Int.shiftRight_add]
    exact Int.shiftRight_eq_div_pow _ 7
  rw [hshift, group]
  omega

/-- A number is its five groups and what is above them. -/
theorem exists_eq_groups (v : Int) :
    ∃ above : Int, v = ((((above * 128 + group v 4) * 128 + group v 3) * 128 + group v 2) * 128
      + group v 1) * 128 + group v 0 := by
  refine ⟨v >>> (7 * 5 : Nat), ?_⟩
  rw [← shiftRight_eq_add_group v 4, ← shiftRight_eq_add_group v 3, ← shiftRight_eq_add_group v 2,
    ← shiftRight_eq_add_group v 1, ← shiftRight_eq_add_group v 0]
  exact (Int.shiftRight_zero v).symm

/-- The bytes of a value, one by one. -/
theorem encode_eq (v : Int32) :
    encode v = [UInt8.ofNat (group v.toInt 4 + 32), UInt8.ofNat (group v.toInt 3 + 32),
      UInt8.ofNat (group v.toInt 2 + 32), UInt8.ofNat (group v.toInt 1 + 32),
      UInt8.ofNat (group v.toInt 0 + 32)] := rfl

/-- The number of five bytes. -/
theorem number_eq (a b c d e : UInt8) :
    number [a, b, c, d, e]
      = ((((0 * 128 + digit a) * 128 + digit b) * 128 + digit c) * 128 + digit d) * 128
        + digit e := rfl

/-- The five groups of a number form its residue: the top group is cut at
seven bits. -/
theorem number_encode (v : Int32) : (number (encode v) : Int) = v.toInt % 0x800000000 := by
  have hdigit : ∀ k, digit (UInt8.ofNat (group v.toInt k + 32)) = group v.toInt k :=
    fun k => digit_ofNat (group_lt _ k)
  rw [encode_eq, number_eq, hdigit, hdigit, hdigit, hdigit, hdigit]
  obtain ⟨above, hv⟩ := exists_eq_groups v.toInt
  have hlt0 := group_lt v.toInt 0
  have hlt1 := group_lt v.toInt 1
  have hlt2 := group_lt v.toInt 2
  have hlt3 := group_lt v.toInt 3
  have hlt4 := group_lt v.toInt 4
  omega

/-- **An encoded value decodes to itself.** -/
theorem decode_encode (v : Int32) : decode (encode v) = v := by
  apply Int32.toInt_inj.mp
  have hle := v.le_toInt
  have hlt := v.toInt_lt
  have hsize : (Int32.size : Int) = 0x100000000 := rfl
  rw [decode, Int32.toInt_ofNat', number_encode, Int.bmod_def, hsize]
  split <;> omega

@[simp] theorem length_encode (v : Int32) : (encode v).length = width := rfl

/-- A value is read back wherever its five bytes stand. -/
theorem decodeAt_encode (v : Int32) (front rest : Bytes) :
    decodeAt (front ++ (encode v ++ rest)) front.length = some v := by
  have htake : ((front ++ (encode v ++ rest)).drop front.length).take width = encode v := by
    rw [List.drop_left]
    exact List.take_left' (length_encode v)
  rw [decodeAt, htake]
  simp only [length_encode, if_true, decode_encode]

/-- A value is not read out of fewer bytes than it takes. -/
theorem decodeAt_of_short {bytes : Bytes} {offset : Nat} (h : bytes.length < offset + width) :
    decodeAt bytes offset = none := by
  have hlen : ((bytes.drop offset).take width).length ≠ width := by
    rw [List.length_take, List.length_drop]
    have : 0 < width := by decide
    omega
  rw [decodeAt]
  exact if_neg hlen

/-- The offset keeps encoded values clear of the marks. -/
theorem unmarked_encode (v : Int32) : Unmarked (encode v) := by
  intro x hx
  obtain ⟨k, -, rfl⟩ := List.mem_map.mp hx
  have hx := toNat_ofNat_group (group_lt v.toInt k)
  refine ⟨fun h => ?_, fun h => ?_⟩ <;> rw [h] at hx
  · have : stx.toNat = 2 := rfl
    omega
  · have : etx.toNat = 3 := rfl
    omega

end Base128

/-! ### Enclosed bytes -/

theorem Unmarked.append {a b : Bytes} (ha : Unmarked a) (hb : Unmarked b) : Unmarked (a ++ b) :=
  fun x hx => (List.mem_append.mp hx).elim (ha x) (hb x)

theorem Unmarked.cons {x : UInt8} {body : Bytes} (hx : x ≠ stx ∧ x ≠ etx) (hbody : Unmarked body) :
    Unmarked (x :: body) :=
  fun y hy => (List.mem_cons.mp hy).elim (fun h => h ▸ hx) (hbody y)

/-- With a start mark ahead of them, unmarked bytes still hold no end mark. -/
theorem Unmarked.ne_etx {body : Bytes} (hbody : Unmarked body) : ∀ x ∈ stx :: body, x ≠ etx := by
  intro x hx
  rcases List.mem_cons.mp hx with rfl | hx
  · decide
  · exact (hbody x hx).2

/-- A byte with its high bit set is no mark. -/
theorem unmarked_of_high {x : UInt8} (h : 128 ≤ x.toNat) : Unmarked [x] := by
  intro y hy
  rw [List.mem_singleton.mp hy]
  refine ⟨fun hs => ?_, fun he => ?_⟩
  · rw [hs] at h
    exact absurd h (by decide)
  · rw [he] at h
    exact absurd h (by decide)

/-- The checksum has its high bit set. -/
theorem Checksum.high_ofBody (body : Bytes) : 128 ≤ (Checksum.ofBody body).toNat := by
  rw [Checksum.ofBody, UInt8.toNat_or]
  exact Nat.right_le_or

@[simp] theorem length_enclose (body : Bytes) : (enclose body).length = body.length + 3 := by
  simp [enclose]

/-- What stands between the marks of enclosed bytes. -/
theorem enclose_eq (body : Bytes) :
    enclose body = stx :: (body ++ [Checksum.ofBody body]) ++ [etx] := by
  simp [enclose]

/-- Marks around bytes that end in a checksum: the span closes exactly when
the checksum is that of the bytes before it. -/
theorem closes_marked (body : Bytes) (sum : UInt8) :
    Checksum.closes (stx :: (body ++ [sum]) ++ [etx]) = (sum == Checksum.ofBody body) := by
  have hlen : (stx :: (body ++ [sum]) ++ [etx]).length = body.length + 3 := by simp
  have hbody : Checksum.body (stx :: (body ++ [sum]) ++ [etx]) = body := by
    rw [Checksum.body, hlen]
    simp
  have hsum : (stx :: (body ++ [sum]) ++ [etx])[body.length + 1]? = some sum := by
    simp
  have hlast : body.length + 3 - 2 = body.length + 1 := by omega
  have hlong : decide (3 ≤ body.length + 3) = true := decide_eq_true (by omega)
  rw [Checksum.closes, hlen, hbody, hlast, hsum, hlong, Bool.true_and]
  rfl

/-- **Unmarked bytes, enclosed, are a good frame.** -/
theorem isFrame_enclose {body : Bytes} (h : Unmarked body) : IsFrame (enclose body) where
  marked := ⟨body ++ [Checksum.ofBody body],
    h.append (unmarked_of_high (Checksum.high_ofBody body)), enclose_eq body⟩
  closes := by
    rw [enclose_eq, closes_marked]
    exact beq_self_eq_true _

/-! ### Commands -/

/-- The bytes of a command ahead of its checksum: address, command byte and the
parameter, if there is one. -/
def commandBody (address command : UInt8) (parameter : Option Int32) : Bytes :=
  address :: command :: (parameter.map Base128.encode).getD []

/-- The bytes of a parameter are no marks. -/
theorem unmarked_parameter (parameter : Option Int32) :
    Unmarked ((parameter.map Base128.encode).getD []) := by
  rcases parameter with - | v
  · exact unmarked_nil
  · exact Base128.unmarked_encode v

theorem Unmarked.commandBody {address command : UInt8} (haddress : address ≠ stx ∧ address ≠ etx)
    (hcommand : command ≠ stx ∧ command ≠ etx) (parameter : Option Int32) :
    Unmarked (commandBody address command parameter) :=
  .cons haddress (.cons hcommand (unmarked_parameter parameter))

/-- **A command is read out of its frame**, wherever that was found. -/
theorem frameAt_command (start : Nat) (address command : UInt8) (parameter : Option Int32) :
    (frameAt start (enclose (commandBody address command parameter))).command = some command ∧
      (frameAt start (enclose (commandBody address command parameter))).parameter = parameter := by
  rcases parameter with - | v
  · exact ⟨rfl, Base128.decodeAt_of_short (by decide : 3 < 3 + Base128.width)⟩
  · exact ⟨rfl, Base128.decodeAt_encode v [stx, address, command] []⟩

/-! ### Judgement -/

/-- A buffer is judged by its first span. -/
theorem validate_eq (buffer : Bytes) :
    validate buffer = match nextSpan buffer with
      | some (.frame f, _) => .ok f
      | some (.mismatch etxAt, _) => .error (.checksumMismatch etxAt)
      | none => .error .incomplete := by
  unfold nextSpan
  rcases validate buffer with (- | etxAt) | f <;> rfl

/-- A good frame is found in a buffer of its own. -/
theorem IsFrame.validate_eq {bytes : Bytes} (h : IsFrame bytes) :
    validate bytes = .ok (frameAt 0 bytes) := by
  have hnext := quiet_nil.nextSpan_frame h []
  rw [List.append_nil, List.nil_append] at hnext
  rw [MotionBridge.validate_eq, hnext]
  rfl

/-- With a byte of the high half in place of its checksum, a span is still
found, and is refused. -/
theorem validate_mismatch {body : Bytes} {sum : UInt8} (hbody : Unmarked body)
    (hsum : 128 ≤ sum.toNat) (hne : sum ≠ Checksum.ofBody body) :
    validate (stx :: (body ++ [sum]) ++ [etx]) = .error (.checksumMismatch (body.length + 2)) := by
  have hbad : Checksum.closes (stx :: (body ++ [sum]) ++ [etx]) = false := by
    rw [closes_marked]
    exact beq_eq_false_iff_ne.mpr hne
  have hnext := quiet_nil.nextSpan_marked (hbody.append (unmarked_of_high hsum)) []
  rw [List.nil_append, hbad, if_neg Bool.false_ne_true] at hnext
  rw [validate_eq, hnext]
  simp

end MotionBridge
