/-
MotionBridge/Proofs/Bus/CommandFrame.lean

The frames of an exchange with the motor controller.

A command frame carries its command byte and parameter to the other side
(`PendingCommand.frame_spec`), and a reply carries its answer back
(`interpretReply_frame`).  A reply whose checksum is off has the shape of the
reply and is refused (`validate_corrupt`).
-/
import MotionBridge.Proofs.Frame.Enclose
import MotionBridge.Bus.Master
import MotionBridge.Controller.Simulated

namespace MotionBridge

/-! ### Command bytes -/

namespace MotorCommand

theorem mem_all (c : MotorCommand) : c ∈ all := by
  cases c <;> decide

/-- **A command byte is split into its command and its axis.**  Codes are four
apart, so that the axis stays in the low two bits. -/
theorem ofWire_wire (c : MotorCommand) {axis : UInt8} (haxis : 1 ≤ axis ∧ axis ≤ 4)
    (parameter : Option Int32) :
    ofWire (PendingCommand.wire ⟨c.code, axis, parameter⟩) = some (c, axis) := by
  have hall : ∀ c ∈ all, ∀ axis ∈ ([1, 2, 3, 4] : List UInt8),
      ofWire (c.code + axis - 1) = some (c, axis) := by decide +kernel
  have hmem : axis ∈ ([1, 2, 3, 4] : List UInt8) := by
    have hle : 1 ≤ axis.toNat := UInt8.le_iff_toNat_le.mp haxis.1
    have hge : axis.toNat ≤ 4 := UInt8.le_iff_toNat_le.mp haxis.2
    have hsplit : axis.toNat = 1 ∨ axis.toNat = 2 ∨ axis.toNat = 3 ∨ axis.toNat = 4 := by omega
    simpa [← UInt8.toNat_inj] using hsplit
  exact hall c c.mem_all axis hmem

/-- No code is as low as a mark, and none is so high that an axis wraps it. -/
theorem code_bounds (c : MotorCommand) : 4 ≤ c.code.toNat ∧ c.code.toNat ≤ 224 := by
  cases c <;> decide

end MotorCommand

/-! ### Command frames -/

namespace PendingCommand

/-- The bytes between the address and the checksum's end of a command. -/
def body (c : PendingCommand) : Bytes :=
  busAddress :: c.wire :: (c.parameter.map Base128.encode).getD []

theorem frame_eq (c : PendingCommand) : c.frame = enclose c.body := by
  rcases c with ⟨code, axis, - | v⟩ <;> rfl

theorem unmarked_body {c : PendingCommand} (h : c.wire ≠ stx ∧ c.wire ≠ etx) : Unmarked c.body :=
  .commandBody (by decide) h c.parameter

/-- **A command frame is read as what was written**: a good frame that
carries the command byte and the parameter, if the command byte is no mark. -/
theorem frame_spec {c : PendingCommand} (h : c.wire ≠ stx ∧ c.wire ≠ etx) :
    ∃ f, validate c.frame = .ok f ∧ f.command = some c.wire ∧ f.parameter = c.parameter := by
  have hframe := isFrame_enclose (unmarked_body h)
  rw [frame_eq]
  exact ⟨_, hframe.validate_eq, frameAt_command 0 busAddress c.wire c.parameter⟩

theorem length_frame_le (c : PendingCommand) : c.frame.length ≤ 10 := by
  rcases c with ⟨code, axis, - | v⟩
  · exact (by decide : 5 ≤ 10)
  · exact Nat.le_refl 10

/-- A command frame as it goes across: unmarked bytes between the marks, few
enough to be buffered. -/
theorem exists_marked {c : PendingCommand} (h : c.wire ≠ stx ∧ c.wire ≠ etx) :
    ∃ body, Unmarked body ∧ body.length + 2 ≤ Controller.maxFrame ∧
      c.frame = stx :: body ++ [etx] := by
  obtain ⟨body, hbody, hframe⟩ := (isFrame_enclose (unmarked_body h)).marked
  rw [← frame_eq] at hframe
  have hle := c.length_frame_le
  rw [hframe] at hle
  simp only [List.length_append, List.length_cons, List.length_nil] at hle
  exact ⟨body, hbody, Nat.le_trans hle (by decide), hframe⟩

end PendingCommand

/-- The command byte of a motor command is no mark. -/
theorem wire_unmarked (c : MotorCommand) {axis : UInt8} (haxis : 1 ≤ axis ∧ axis ≤ 4)
    (parameter : Option Int32) :
    PendingCommand.wire ⟨c.code, axis, parameter⟩ ≠ stx ∧
      PendingCommand.wire ⟨c.code, axis, parameter⟩ ≠ etx := by
  have hwire : 4 ≤ (PendingCommand.wire ⟨c.code, axis, parameter⟩).toNat := by
    have hcode := c.code_bounds
    have hle : 1 ≤ axis.toNat := UInt8.le_iff_toNat_le.mp haxis.1
    have hge : axis.toNat ≤ 4 := UInt8.le_iff_toNat_le.mp haxis.2
    have h1 : (1 : UInt8).toNat = 1 := rfl
    rw [PendingCommand.wire, UInt8.toNat_sub, UInt8.toNat_add, h1]
    show 4 ≤ (2 ^ 8 - 1 + (c.code.toNat + axis.toNat) % 2 ^ 8) % 2 ^ 8
    omega
  refine ⟨fun h => ?_, fun h => ?_⟩
  · rw [h] at hwire
    exact absurd hwire (by decide)
  · rw [h] at hwire
    exact absurd hwire (by decide)

/-! ### Replies -/

namespace MotorAnswer

/-- The number that an answer stands for on the master's side. -/
def number : MotorAnswer → Int32
  | .value v => v
  | .done => 1
  | .unknown => 0

/-- A reply encloses at most five unmarked bytes. -/
theorem exists_body (a : MotorAnswer) :
    ∃ body, Unmarked body ∧ body.length ≤ Base128.width ∧ a.frame = enclose body := by
  cases a with
  | value v => exact ⟨_, Base128.unmarked_encode v, Nat.le_refl _, rfl⟩
  | done => exact ⟨[0x31], by decide, by decide, rfl⟩
  | unknown => exact ⟨[0x30], by decide, by decide, rfl⟩

end MotorAnswer

/-- **A reply is understood as the answer it carries.** -/
theorem interpretReply_frame (a : MotorAnswer) : interpretReply a.frame = some a.number := by
  cases a with
  | value v => exact Base128.decodeAt_encode v [stx] _
  | done => rfl
  | unknown => rfl

/-- A spoilt reply differs from the reply in its checksum only. -/
theorem corrupt_enclose (body : Bytes) :
    Controller.corrupt (enclose body)
      = stx :: (body ++ [Checksum.ofBody body ^^^ 1]) ++ [etx] := by
  have hat : (enclose body).length - 2 = (stx :: body).length := by simp
  have hsplit : enclose body = (stx :: body) ++ [Checksum.ofBody body, etx] := rfl
  rw [Controller.corrupt, hat, hsplit, List.modify]
  refine (List.modifyTailIdx_add _ 0 (stx :: body) _).trans ?_
  simp

/-- Turning the lowest bit of a byte over keeps its high bit. -/
theorem high_xor_one {x : UInt8} (h : 128 ≤ x.toNat) : 128 ≤ (x ^^^ 1).toNat := by
  have hx := x.toNat_lt
  have hbit : x.toNat.testBit 7 = true := by
    rw [Nat.testBit_eq_decide_div_mod_eq]
    exact decide_eq_true (by omega)
  rw [UInt8.toNat_xor]
  refine Nat.ge_two_pow_of_testBit (i := 7) ?_
  rw [Nat.testBit_xor, hbit]
  rfl

/-- **A spoilt reply has the marks of a reply, and is refused.** -/
theorem validate_corrupt {body : Bytes} (hbody : Unmarked body) :
    Unmarked (body ++ [Checksum.ofBody body ^^^ 1]) ∧
      validate (Controller.corrupt (enclose body))
        = .error (.checksumMismatch (body.length + 2)) := by
  have hhigh := high_xor_one (Checksum.high_ofBody body)
  have hne : Checksum.ofBody body ^^^ 1 ≠ Checksum.ofBody body := by
    intro h
    have h0 : (1 : UInt8) = 0 := by
      calc (1 : UInt8) = Checksum.ofBody body ^^^ (Checksum.ofBody body ^^^ 1) := by
            rw [← UInt8.xor_assoc, UInt8.xor_self, UInt8.zero_xor]
        _ = 0 := by rw [h, UInt8.xor_self]
    exact absurd h0 (by decide)
  refine ⟨hbody.append (unmarked_of_high hhigh), ?_⟩
  rw [corrupt_enclose]
  exact validate_mismatch hbody hhigh hne

end MotionBridge
