/-
MotionBridge/Proofs/Bus/Refinement.lean

The bus, its frames and its retries, against a controller without a bus.

The reference is a machine of plain functions: what stands in a register, how
often an axis will still report busy.  `ideal` reads the controller's machine
as one, and each command is one step on either side (`ideal_execute`).  A
session of commands and adjustments reports the same values over the bus as on
the reference, and leaves the same machine behind (`run_refines`): a normal
controller steps once for a command, one whose reply is spoilt or missing once
for each attempt, and one that takes no frame not at all.
-/
import MotionBridge.Proofs.Bus.Exchange

namespace MotionBridge

/-! ### The reference machine -/

/-- A motor controller without frames, tables or bus. -/
structure IdealMachine where
  register : MotorCommand → UInt8 → Int32 := fun _ _ => 0
  /-- How often an axis will still report busy. -/
  busy : UInt8 → Nat := fun _ => 0
  busyPolls : Nat := 0
  version : Int32 := 0x0100

namespace IdealMachine

/-- Stores one value. -/
def store (a : IdealMachine) (c : MotorCommand) (axis : UInt8) (v : Int32) : IdealMachine :=
  { a with register := fun d b => if d = c ∧ b = axis then v else a.register d b }

/-- Moves an axis: both positions take their target, and the busy counter is
loaded. -/
def move (a : IdealMachine) (axis : UInt8) (target : Int32 → Int32) : IdealMachine :=
  { a with
    register := fun d b =>
      if (d = .setLogicalPosition ∨ d = .setEncoderPosition) ∧ b = axis then
        target (a.register d b)
      else a.register d b
    busy := fun b => if b = axis then a.busyPolls else a.busy b }

/-- Counts one busy report of an axis down. -/
def countDown (a : IdealMachine) (axis : UInt8) : IdealMachine :=
  { a with busy := fun b => if b = axis then a.busy b - 1 else a.busy b }

/-- One command: the number it is answered with, and the machine behind it. -/
def step (a : IdealMachine) (call : Call) : Int32 × IdealMachine :=
  match call with
  | (.getVersionInfo, _, _) => (a.version, a)
  | (.isAxisBusy, axis, _) => if 0 < a.busy axis then (1, a.countDown axis) else (0, a)
  | (.moveAbs, axis, parameter) => (1, a.move axis fun _ => parameter.getD 0)
  | (.moveInc, axis, parameter) => (1, a.move axis fun position => position + parameter.getD 0)
  | (c, axis, parameter) =>
    if c.isQuery then ((c.setter.map fun s => a.register s axis).getD 0, a)
    else
      match parameter with
      | some v => (1, a.store c axis v)
      | none => (1, a)

/-- Counting down an axis that is not busy changes nothing. -/
theorem countDown_of_idle {a : IdealMachine} {axis : UInt8} (h : ¬ 0 < a.busy axis) :
    a.countDown axis = a := by
  have hbusy : (fun b => if b = axis then a.busy b - 1 else a.busy b) = a.busy := by
    funext b
    by_cases hb : b = axis
    · -- nothing is left to count
      rw [if_pos hb, hb]
      omega
    · rw [if_neg hb]
  rw [countDown, hbusy]

end IdealMachine

/-! ### One command -/

namespace Machine

/-- The machine of a controller, read as a reference machine. -/
def ideal (m : Machine) : IdealMachine where
  register := m.registers.read
  busy := m.busyLeft
  busyPolls := m.busyPolls
  version := m.version

theorem busyLeft_insert (m : Machine) (axis b : UInt8) (n : Nat) :
    busyLeft { m with busy := m.busy.insert axis n } b = if b = axis then n else m.busyLeft b := by
  rw [busyLeft, Table.find?_insert]
  split <;> rfl

theorem ideal_store (m : Machine) (c : MotorCommand) (axis : UInt8) (v : Int32) :
    ideal { m with registers := m.registers.store c axis v } = m.ideal.store c axis v := by
  have hregister : ∀ d b, (m.registers.store c axis v).read d b
      = if d = c ∧ b = axis then v else m.registers.read d b := fun d b =>
    Registers.read_store ..
  simp only [ideal, IdealMachine.store, ← hregister]
  rfl

theorem ideal_move (m : Machine) (axis : UInt8) (target : Int32 → Int32) :
    (m.move axis target).ideal = m.ideal.move axis target := by
  have hregister : ∀ d b, (m.move axis target).registers.read d b
      = if (d = .setLogicalPosition ∨ d = .setEncoderPosition) ∧ b = axis then
          target (m.registers.read d b)
        else m.registers.read d b := by
    intro d b
    simp only [move, List.foldl_cons, List.foldl_nil, Registers.read_store]
    by_cases hb : b = axis
    · by_cases he : d = .setEncoderPosition
      · simp [hb, he]
      · by_cases hl : d = .setLogicalPosition <;> simp [hb, he, hl]
    · simp [hb]
  have hbusy : ∀ b, (m.move axis target).busyLeft b
      = if b = axis then m.busyPolls else m.busyLeft b := fun b =>
    busyLeft_insert m axis b m.busyPolls
  simp only [IdealMachine.move, ideal, ← hregister, ← hbusy]
  rfl

theorem ideal_pollBusy (m : Machine) (axis : UInt8) :
    (m.pollBusy axis).ideal = m.ideal.countDown axis := by
  have hbusy : ∀ b, (m.pollBusy axis).busyLeft b
      = if b = axis then m.busyLeft b - 1 else m.busyLeft b := by
    intro b
    rw [pollBusy, busyLeft_insert]
    by_cases hb : b = axis <;> simp [hb]
  simp only [IdealMachine.countDown, ideal, ← hbusy]
  rfl

/-- **One command is one step of the reference**, with the same answer. -/
theorem ideal_execute (m : Machine) (call : Call) :
    (m.execute call.1 call.2.1 call.2.2).1.number = (m.ideal.step call).1 ∧
      (m.execute call.1 call.2.1 call.2.2).2.ideal = (m.ideal.step call).2 := by
  obtain ⟨c, axis, parameter⟩ := call
  cases c
  case getVersionInfo => exact ⟨rfl, rfl⟩
  case isAxisBusy =>
    by_cases hbusy : 0 < m.busyLeft axis
    · have hstep : m.ideal.step (.isAxisBusy, axis, parameter)
          = (1, m.ideal.countDown axis) := if_pos hbusy
      rw [hstep]
      exact ⟨if_pos hbusy, ideal_pollBusy m axis⟩
    · have hstep : m.ideal.step (.isAxisBusy, axis, parameter) = (0, m.ideal) := if_neg hbusy
      rw [hstep]
      exact ⟨if_neg hbusy, (ideal_pollBusy m axis).trans (IdealMachine.countDown_of_idle hbusy)⟩
  case moveAbs => exact ⟨rfl, ideal_move m axis _⟩
  case moveInc => exact ⟨rfl, ideal_move m axis _⟩
  -- queries read a register, and all other commands store their parameter
  all_goals
    rcases parameter with - | v
    · exact ⟨rfl, rfl⟩
    · refine ⟨rfl, ?_⟩
      first | rfl | exact ideal_store m _ axis v

end Machine

/-! ### Sessions -/

/-- What happens to the controller and its master from outside. -/
inductive Operation
  | setBehavior (behavior : Behavior)
  | setVersion (version : Int32)
  | setBusyPolls (busyPolls : Nat)
  | command (call : Call)
deriving Repr, DecidableEq

/-- Commands are for one of four axes. -/
def Operation.Valid : Operation → Prop
  | .command (_, axis, _) => 1 ≤ axis ∧ axis ≤ 4
  | _ => True

instance (op : Operation) : Decidable op.Valid := by
  unfold Operation.Valid
  split <;> infer_instance

namespace Master

/-- One operation over the bus, with the value that a command brings. -/
def operate (m : Master Controller) : Operation → List (Option Int32) × Master Controller
  | .setBehavior behavior => ([], { m with lines := m.lines.setBehavior behavior })
  | .setVersion version => ([], { m with lines := m.lines.setVersion version })
  | .setBusyPolls busyPolls => ([], { m with lines := m.lines.setBusyPolls busyPolls })
  | .command (c, axis, parameter) =>
    let (x, m) := m.command c axis parameter
    ([x.value], m)

/-- A session over the bus. -/
def run : List Operation → Master Controller → List (Option Int32) × Master Controller
  | [], m => ([], m)
  | op :: ops, m =>
    let (values, m) := m.operate op
    let (later, m) := run ops m
    (values ++ later, m)

end Master

/-- The reference for a session: a machine, how the controller behaves, and
every step the machine has made. -/
structure Reference where
  behavior : Behavior := .normal
  machine : IdealMachine := {}
  steps : List Call := []

namespace Reference

/-- The machine steps so many times. -/
def stepTimes (r : Reference) (call : Call) : Nat → Reference
  | 0 => r
  | n + 1 =>
    stepTimes { r with machine := (r.machine.step call).2, steps := r.steps ++ [call] } call n

/-- One operation, where a command may be tried so many times. -/
def operate (attempts : Nat) (r : Reference) : Operation → List (Option Int32) × Reference
  | .setBehavior behavior => ([], { r with behavior })
  | .setVersion version => ([], { r with machine := { r.machine with version } })
  | .setBusyPolls busyPolls => ([], { r with machine := { r.machine with busyPolls } })
  | .command call =>
    match r.behavior with
    | .normal => ([some (r.machine.step call).1], r.stepTimes call 1)
    | .corruptReply | .silent => ([none], r.stepTimes call attempts)
    | .notReady | .neverAck => ([none], r)

/-- A command brings a value from a normal controller only, and the behavior
tells how often the machine steps. -/
theorem operate_command (attempts : Nat) (r : Reference) (call : Call) :
    r.operate attempts (.command call)
      = ([if r.behavior = .normal then some (r.machine.step call).1 else none],
          r.stepTimes call (r.behavior.runs attempts)) := by
  rcases r with ⟨behavior⟩
  cases behavior <;> rfl

/-- Commands that a machine carries out are steps of the reference that stands
for it. -/
theorem stepTimes_after (call : Call) (n : Nat) :
    ∀ {m : Machine} {r : Reference} {log : List Call}, m.ideal = r.machine → log = r.steps →
      (m.after (List.replicate n call)).ideal = (r.stepTimes call n).machine ∧
        log ++ List.replicate n call = (r.stepTimes call n).steps ∧
        r.behavior = (r.stepTimes call n).behavior := by
  induction n with
  | zero =>
    intro m r log hmachine hlog
    exact ⟨hmachine, (List.append_nil _).trans hlog, rfl⟩
  | succ n ih =>
    intro m r log hmachine hlog
    have hstep : (m.execute call.1 call.2.1 call.2.2).2.ideal = (r.machine.step call).2 := by
      rw [(m.ideal_execute call).2, hmachine]
    obtain ⟨hlater, hsteps, hbehavior⟩ :=
      @ih _ { r with machine := (r.machine.step call).2, steps := r.steps ++ [call] } _ hstep rfl
    refine ⟨hlater, ?_, hbehavior⟩
    rw [hlog, List.replicate_succ, List.append_cons]
    exact hsteps

/-- A session without a bus. -/
def run (attempts : Nat) : List Operation → Reference → List (Option Int32) × Reference
  | [], r => ([], r)
  | op :: ops, r =>
    let (values, r) := r.operate attempts op
    let (later, r) := run attempts ops r
    (values ++ later, r)

end Reference

/-! ### The simulation -/

/-- A master and its controller stand for a reference: between commands the
lines are at rest, and the controller's machine and log are those of the
reference. -/
structure Simulates (config : BusConfig) (m : Master Controller) (r : Reference) : Prop where
  atRest : m.lines.AtRest
  config : m.config = config
  behavior : m.lines.behavior = r.behavior
  machine : m.lines.machine.ideal = r.machine
  steps : m.lines.executed.toList = r.steps

namespace Simulates

variable {config : BusConfig} {m : Master Controller} {r : Reference}

/-- A new bus stands for a new reference. -/
theorem new (config : BusConfig) : Simulates config (Master.start {} config) {} :=
  ⟨Controller.atRest_new.facing .input, rfl, rfl, rfl, rfl⟩

/-- **One operation keeps the simulation** and brings the same value. -/
theorem operate (h : Simulates config m r) (hattempts : 1 ≤ config.attempts)
    (hroom : 8 ≤ config.maxReply) {op : Operation} (hop : op.Valid) :
    (m.operate op).1 = (r.operate config.attempts op).1 ∧
      Simulates config (m.operate op).2 (r.operate config.attempts op).2 := by
  have hrest := h.atRest
  cases op with
  | setBehavior behavior =>
    exact ⟨rfl, ⟨hrest.listening, hrest.signal, hrest.clockHigh, hrest.latched⟩, h.config, rfl,
      h.machine, h.steps⟩
  | setVersion version =>
    refine ⟨rfl, ⟨hrest.listening, hrest.signal, hrest.clockHigh, hrest.latched⟩, h.config,
      h.behavior, ?_, h.steps⟩
    show _ = { r.machine with version }
    rw [← h.machine]
    rfl
  | setBusyPolls busyPolls =>
    refine ⟨rfl, ⟨hrest.listening, hrest.signal, hrest.clockHigh, hrest.latched⟩, h.config,
      h.behavior, ?_, h.steps⟩
    show _ = { r.machine with busyPolls }
    rw [← h.machine]
    rfl
  | command call =>
    -- both sides carry the command out the same number of times
    obtain ⟨c, axis, parameter⟩ := call
    obtain ⟨hvalue, hserved⟩ := Master.command_served hrest c hop parameter
      (h.config ▸ hattempts) (h.config ▸ hroom)
    have hanswer := (m.lines.machine.ideal_execute (c, axis, parameter)).1
    rw [h.machine] at hanswer
    obtain ⟨hmachine, hsteps, hbehavior⟩ := Reference.stepTimes_after (c, axis, parameter)
      (r.behavior.runs config.attempts) h.machine h.steps
    rw [h.behavior, h.config] at hserved
    rw [h.behavior, hanswer] at hvalue
    rw [Reference.operate_command]
    refine ⟨congrArg ([·]) hvalue, hserved.atRest, hserved.config.trans h.config, ?_, ?_, ?_⟩
    · exact hserved.ran.behavior.trans (h.behavior.trans hbehavior)
    · rw [← hmachine]
      exact congrArg Machine.ideal hserved.ran.machine
    · exact hserved.ran.executed.trans hsteps

/-- **A session keeps the simulation** and brings the same values. -/
theorem run (hattempts : 1 ≤ config.attempts) (hroom : 8 ≤ config.maxReply)
    {ops : List Operation} (hops : ∀ op ∈ ops, op.Valid) :
    ∀ {m : Master Controller} {r : Reference}, Simulates config m r →
      (m.run ops).1 = (Reference.run config.attempts ops r).1 ∧
        Simulates config (m.run ops).2 (Reference.run config.attempts ops r).2 := by
  induction ops with
  | nil =>
    intro m r h
    exact ⟨rfl, h⟩
  | cons op ops ih =>
    intro m r h
    obtain ⟨hvalues, hop⟩ := h.operate hattempts hroom (hops op (List.mem_cons_self ..))
    obtain ⟨hlater, hrun⟩ := ih (fun o ho => hops o (List.mem_cons_of_mem op ho)) hop
    refine ⟨?_, hrun⟩
    show (m.operate op).1 ++ (Master.run ops (m.operate op).2).1
      = (r.operate config.attempts op).1
        ++ (Reference.run config.attempts ops (r.operate config.attempts op).2).1
    rw [hvalues, hlater]

end Simulates

namespace Master

/-- **The bus refines the reference.**  Every session on a new controller
brings the values that the reference does, whatever the commands, the
adjustments between them and the patience of the master; behind it the machine
is the reference's, and it has carried out exactly the reference's steps. -/
theorem run_refines {config : BusConfig} (hattempts : 1 ≤ config.attempts)
    (hroom : 8 ≤ config.maxReply) {ops : List Operation} (hops : ∀ op ∈ ops, op.Valid) :
    ((start {} config).run ops).1 = (Reference.run config.attempts ops {}).1 ∧
      ((start {} config).run ops).2.lines.machine.ideal
        = (Reference.run config.attempts ops {}).2.machine ∧
      ((start {} config).run ops).2.lines.executed.toList
        = (Reference.run config.attempts ops {}).2.steps := by
  obtain ⟨hvalues, h⟩ := Simulates.run hattempts hroom hops (Simulates.new config)
  exact ⟨hvalues, h.machine, h.steps⟩

/-- A move that is never answered is still made twice, and shows in the
position later; one that is never taken is not made. -/
theorem run_refines_of_faults :
    ((start {} { attempts := 2, maxReply := 8 }).run
        [.setBusyPolls 1, .command (.moveAbs, 2, some 500), .setBehavior .silent,
          .command (.moveInc, 2, some (-7)), .setBehavior .neverAck,
          .command (.moveInc, 2, some 100), .setBehavior .normal,
          .command (.getLogicalPosition, 2, none), .command (.isAxisBusy, 2, none),
          .command (.isAxisBusy, 2, none)]).1
      = [some 1, none, none, some 486, some 1, some 0] := by
  have hops : ∀ op ∈ [Operation.setBusyPolls 1, .command (.moveAbs, 2, some 500),
      .setBehavior .silent, .command (.moveInc, 2, some (-7)), .setBehavior .neverAck,
      .command (.moveInc, 2, some 100), .setBehavior .normal,
      .command (.getLogicalPosition, 2, none), .command (.isAxisBusy, 2, none),
      .command (.isAxisBusy, 2, none)], op.Valid := by decide
  have hvalues := (@run_refines { attempts := 2, maxReply := 8 } (by decide) (by decide) _ hops).1
  rw [hvalues]
  decide

end Master

end MotionBridge
