/-
MotionBridge/Controller/Machine.lean

The motor controller as a machine that executes commands: registers, busy
counters and a version, without any bus.
-/
import MotionBridge.Bus.Command
import MotionBridge.Frame.Build
import MotionBridge.Table

namespace MotionBridge

/-- The values stored by setting commands, for every command and axis.  What
was never stored is zero. -/
abbrev Registers := Table (MotorCommand × UInt8) Int32

namespace Registers

/-- The value of a register. -/
def read (r : Registers) (c : MotorCommand) (axis : UInt8) : Int32 :=
  (r.find? (c, axis)).getD 0

/-- Stores one value. -/
def store (r : Registers) (c : MotorCommand) (axis : UInt8) (v : Int32) : Registers :=
  r.insert (c, axis) v

theorem read_store (r : Registers) (c d : MotorCommand) (a b : UInt8) (v : Int32) :
    read (store r c a v) d b = if d = c ∧ b = a then v else read r d b := by
  simp only [read, store, Table.find?_insert, Prod.mk.injEq]
  split <;> rfl

/-- The values other than zero, by command and then by axis. -/
def nonzero (r : Registers) : List (MotorCommand × UInt8 × Int32) :=
  MotorCommand.all.flatMap fun c =>
    ([1, 2, 3, 4] : List UInt8).filterMap fun axis =>
      if read r c axis = 0 then none else some (c, axis, read r c axis)

end Registers

/-- The controller's machine. -/
structure Machine where
  registers : Registers := {}
  /-- How often each axis will still report busy; an axis that never moved
  will not. -/
  busy : Table UInt8 Nat := {}
  /-- How often an axis reports busy after a move. -/
  busyPolls : Nat := 0
  version : Int32 := 0x0100
deriving Repr

/-- What the machine answers. -/
inductive MotorAnswer
  | value (v : Int32)
  /-- The command was carried out. -/
  | done
  /-- There is no such command. -/
  | unknown
deriving Repr, DecidableEq

/-- The answer as a frame: a value reply, or an acknowledgement digit. -/
def MotorAnswer.frame : MotorAnswer → Bytes
  | .value v => valueReply v
  | .done => enclose [0x31]
  | .unknown => enclose [0x30]

namespace Machine

/-- How often an axis will still report busy. -/
def busyLeft (m : Machine) (axis : UInt8) : Nat :=
  (m.busy.find? axis).getD 0

/-- Sets both positions of an axis and makes it busy. -/
def move (m : Machine) (axis : UInt8) (target : Int32 → Int32) : Machine :=
  let positions := [MotorCommand.setLogicalPosition, .setEncoderPosition]
  { m with
    registers := positions.foldl
      (fun r c => Registers.store r c axis (target (m.registers.read c axis))) m.registers
    busy := m.busy.insert axis m.busyPolls }

/-- Counts one busy report of an axis down. -/
def pollBusy (m : Machine) (axis : UInt8) : Machine :=
  { m with busy := m.busy.insert axis (m.busyLeft axis - 1) }

/-- Executes a command.  Moves drive both positions of their axis; a query
reads the register of the command that sets it; any other command stores its
parameter. -/
def execute (m : Machine) (c : MotorCommand) (axis : UInt8) (parameter : Option Int32) :
    MotorAnswer × Machine :=
  match c with
  | .getVersionInfo => (.value m.version, m)
  | .isAxisBusy => (.value (if 0 < m.busyLeft axis then 1 else 0), m.pollBusy axis)
  | .moveAbs => (.done, m.move axis fun _ => parameter.getD 0)
  | .moveInc => (.done, m.move axis fun position => position + parameter.getD 0)
  | c =>
    if c.isQuery then
      (.value ((c.setter.map fun s => m.registers.read s axis).getD 0), m)
    else
      match parameter with
      | some v => (.done, { m with registers := Registers.store m.registers c axis v })
      | none => (.done, m)

end Machine

end MotionBridge
