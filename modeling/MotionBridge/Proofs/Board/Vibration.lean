/-
MotionBridge/Proofs/Board/Vibration.lean

Vibration does not drift.

A poll moves an axis only after the controller has said that the axis is at
rest.  Only a normal controller at rest says so, and that makes the move
exactly once; so whatever the bus does, the positions of an axis change by
exactly the moves that were issued (`positions_after`).  The direction flips
with each move, so the moves of a vibration alternate (`issued_eq_alternation`)
and cancel out in pairs, also where a position wraps (`foldl_alternation`).

A run is any list of events: polls of the board, requests to it, and operations
on the bus.  The axis is *spared* by an event that neither starts its vibration
anew nor is heard as a command for it.  Behind every run that spares it, the
axis is where the vibration found it, or one move away (`vibration_positions`).
-/
import MotionBridge.Proofs.Bus.Settled
import MotionBridge.Router

namespace MotionBridge

/-! ### Positions -/

/-- The logical and the encoder position of an axis. -/
def Machine.positions (m : Machine) (axis : UInt8) : Int32 × Int32 :=
  (m.registers.read .setLogicalPosition axis, m.registers.read .setEncoderPosition axis)

/-- Both positions after some moves. -/
def displace (positions : Int32 × Int32) (moves : List Int32) : Int32 × Int32 :=
  (moves.foldl (· + ·) positions.1, moves.foldl (· + ·) positions.2)

theorem displace_append (positions : Int32 × Int32) (a b : List Int32) :
    displace positions (a ++ b) = displace (displace positions a) b := by
  simp only [displace, List.foldl_append]

/-- A command leaves an axis where it is when it is for another axis, or only
asks whether an axis is busy. -/
def Call.Rests (axis : UInt8) (call : Call) : Prop :=
  call.2.1 ≠ axis ∨ call.1 = .isAxisBusy

namespace IdealMachine

theorem register_move_of_ne (a : IdealMachine) {axis other : UInt8} (h : axis ≠ other)
    (target : Int32 → Int32) (c : MotorCommand) :
    (a.move other target).register c axis = a.register c axis :=
  if_neg fun hboth => h hboth.2

theorem register_store_of_ne (a : IdealMachine) {axis other : UInt8} (h : axis ≠ other)
    (d : MotorCommand) (v : Int32) (c : MotorCommand) :
    (a.store d other v).register c axis = a.register c axis :=
  if_neg fun hboth => h hboth.2

/-- Asking whether an axis is busy counts, and stores nothing. -/
theorem register_step_isAxisBusy (a : IdealMachine) (axis : UInt8) (parameter : Option Int32) :
    (a.step (.isAxisBusy, axis, parameter)).2.register = a.register := by
  rw [step]
  split <;> rfl

/-- A command that lets an axis rest leaves every register of it alone. -/
theorem register_step_of_rests (a : IdealMachine) {call : Call} {axis : UInt8}
    (h : call.Rests axis) (c : MotorCommand) :
    (a.step call).2.register c axis = a.register c axis := by
  obtain ⟨command, other, parameter⟩ := call
  rcases h with hne | hbusy
  · have hother : axis ≠ other := Ne.symm hne
    cases command
    case isAxisBusy => rw [register_step_isAxisBusy]
    case moveAbs => exact a.register_move_of_ne hother (fun _ => parameter.getD 0) c
    case moveInc => exact a.register_move_of_ne hother (· + parameter.getD 0) c
    -- queries change nothing, and all other commands store their parameter
    all_goals
      rcases parameter with - | v
      · rfl
      · first | rfl | exact a.register_store_of_ne hother _ v c
  · obtain rfl : command = .isAxisBusy := hbusy
    rw [register_step_isAxisBusy]

end IdealMachine

namespace Machine

/-- Registers behind a command are those of the reference. -/
theorem read_execute (m : Machine) (call : Call) (c : MotorCommand) (axis : UInt8) :
    (m.execute call.1 call.2.1 call.2.2).2.registers.read c axis
      = (m.ideal.step call).2.register c axis := by
  rw [← (m.ideal_execute call).2]
  rfl

theorem positions_execute (m : Machine) {call : Call} {axis : UInt8} (h : call.Rests axis) :
    (m.execute call.1 call.2.1 call.2.2).2.positions axis = m.positions axis := by
  rw [positions, read_execute, read_execute, m.ideal.register_step_of_rests h,
    m.ideal.register_step_of_rests h]
  rfl

/-- An axis that all commands let rest stays where it is. -/
theorem positions_after (m : Machine) {axis : UInt8} {calls : List Call}
    (h : ∀ call ∈ calls, call.Rests axis) : (m.after calls).positions axis = m.positions axis := by
  induction calls generalizing m with
  | nil => rfl
  | cons call calls ih =>
    have hlater := ih (m.execute call.1 call.2.1 call.2.2).2
      fun c hc => h c (List.mem_cons_of_mem call hc)
    exact hlater.trans (m.positions_execute (h call (List.mem_cons_self ..)))

/-- A move displaces its axis. -/
theorem positions_moveInc (m : Machine) (axis : UInt8) (distance : Int32) :
    (m.execute .moveInc axis (some distance)).2.positions axis
      = displace (m.positions axis) [distance] := by
  have hread := fun c => m.read_execute (.moveInc, axis, some distance) c axis
  rw [positions, hread, hread]
  simp [IdealMachine.step, IdealMachine.move, displace, positions, ideal]

/-- An axis that is asked whether it is busy, and then moved. -/
theorem positions_ask_move (m : Machine) (k : UInt8) (distance : Int32) (axis : UInt8) :
    (m.after [(.isAxisBusy, k, none), (.moveInc, k, some distance)]).positions axis
      = if axis = k then displace (m.positions axis) [distance] else m.positions axis := by
  have hask := @positions_execute m (.isAxisBusy, k, none) axis (.inr rfl)
  rw [← hask]
  split
  · subst axis
    exact positions_moveInc _ k distance
  · rename_i hne
    exact @positions_execute _ (.moveInc, k, some distance) axis (.inl (Ne.symm hne))

end Machine

namespace Controller

/-- Commands that leave an axis where it is, carried out. -/
theorem Ran.positions {c d : Controller} {calls : List Call} {axis : UInt8} (h : c.Ran d calls)
    (hrests : ∀ call ∈ calls, call.Rests axis) :
    d.machine.positions axis = c.machine.positions axis := by
  rw [h.machine]
  exact c.machine.positions_after hrests

/-- A command that is heard as none for the axis leaves it where it is. -/
theorem Obeyed.positions {c d : Controller} {call : Call} {axis : UInt8} (h : c.Obeyed d call)
    (hrests : ∀ heard, call.heardAs = some heard → heard.Rests axis) :
    d.machine.positions axis = c.machine.positions axis := by
  obtain ⟨calls, hran, hall⟩ := h
  exact hran.positions fun heard hmem => hrests heard (hall heard hmem)

end Controller

/-! ### One poll -/

theorem VibrateAxis.number_bounds (k : VibrateAxis) : 1 ≤ k.number ∧ k.number ≤ 4 := by
  cases k <;> decide

namespace Vibrate

/-- A poll issues the next move and turns around, or does neither. -/
theorem poll_vibrate {σ : Type} [Lines σ] (v : Vibrate) (axis : UInt8) (m : Master σ) :
    ((v.poll axis m).moved = none ∧ (v.poll axis m).vibrate = v) ∨
      ((v.poll axis m).moved = some v.nextMove ∧
        (v.poll axis m).vibrate = { v with reverse := !v.reverse }) := by
  rw [poll]
  split
  · dsimp only
    split
    · exact .inr ⟨rfl, rfl⟩
    · exact .inl ⟨rfl, rfl⟩
  · exact .inl ⟨rfl, rfl⟩

/-- The axis is asked, says that it is at rest, and is moved: both commands are
carried out exactly once. -/
theorem ran_ask_move {m : Master Controller} (h : m.lines.Settled) (k : VibrateAxis)
    (hidle : (m.command .isAxisBusy k.number none).1.value = some 0) (distance : Int32) :
    let bus := ((m.command .isAxisBusy k.number none).2.command .moveInc k.number
      (some distance)).2
    bus.lines.Settled ∧
      m.lines.Ran bus.lines
        [(.isAxisBusy, k.number, none), (.moveInc, k.number, some distance)] := by
  obtain ⟨hready, hfits⟩ :=
    @Master.ready_of_value m h (.isAxisBusy, k.number, none) k.number_bounds 0 hidle
  obtain ⟨hready, hconfig, hasked⟩ := hready.command k.number_bounds hfits
  -- an acknowledgement is shorter than the value that came
  have hfitsMove : BusConfig.Fits m.config (.moveInc, k.number, some distance) :=
    Nat.le_trans (by decide : 4 ≤ 8) hfits
  obtain ⟨hready, -, hmoved⟩ := @Master.Ready.command _ hready (.moveInc, k.number, some distance)
    k.number_bounds (hconfig ▸ hfitsMove)
  exact ⟨.inl hready.atRest, hasked.trans hmoved⟩

/-- **A poll displaces its axis by exactly the move that it issues**, and leaves
every other axis where it is, however the bus behaves. -/
theorem poll_positions (v : Vibrate) (k : VibrateAxis) {m : Master Controller}
    (h : m.lines.Settled) :
    (v.poll k.number m).bus.lines.Settled ∧
      ∀ axis, (v.poll k.number m).bus.lines.machine.positions axis
        = if axis = k.number then
            displace (m.lines.machine.positions axis) (v.poll k.number m).moved.toList
          else m.lines.machine.positions axis := by
  have still : ∀ {m' : Master Controller},
      (∀ axis, m'.lines.machine.positions axis = m.lines.machine.positions axis) →
      ∀ axis, m'.lines.machine.positions axis
        = if axis = k.number then displace (m.lines.machine.positions axis) []
          else m.lines.machine.positions axis := by
    intro m' hsame axis
    rw [hsame]
    split <;> rfl
  rw [poll]
  split
  · dsimp only
    split
    · -- the answer shows that the controller is ready for the move as well
      rename_i hidle
      obtain ⟨hsettled, hran⟩ := ran_ask_move h k hidle v.nextMove
      refine ⟨hsettled, fun axis => ?_⟩
      rw [hran.machine]
      exact m.lines.machine.positions_ask_move k.number v.nextMove axis
    · -- the question may have been carried out any number of times, and moves nothing
      obtain ⟨hleft, -⟩ := Master.command_settled h (.isAxisBusy, k.number, none)
      refine ⟨hleft.settled, still fun axis => hleft.obeyed.positions fun heard hheard => ?_⟩
      rw [Call.heardAs_of_axis k.number_bounds] at hheard
      cases hheard
      exact .inr rfl
  · exact ⟨h, still fun _ => rfl⟩

/-- Turning around turns the next move around. -/
theorem nextMove_reverse (v : Vibrate) :
    nextMove { v with reverse := !v.reverse } = -v.nextMove := by
  rcases v with ⟨enabled, distance, - | -⟩
  · rfl
  · exact (Int32.neg_neg).symm

end Vibrate

/-! ### The board -/

namespace Board

variable {ξ : Type}

/-- What a poll of the board does for an axis. -/
def polled {σ : Type} [Lines σ] (b : Board ξ) (m : Master σ) : VibrateAxis → Vibrate.Polled σ
  | .first => b.vibrate1.poll VibrateAxis.first.number m
  | .second =>
    b.vibrate2.poll VibrateAxis.second.number (b.vibrate1.poll VibrateAxis.first.number m).bus

/-- It issues the next move for the axis and turns around, or does neither. -/
theorem polled_nextMove {σ : Type} [Lines σ] (b : Board ξ) (m : Master σ) (k : VibrateAxis) :
    ((b.polled m k).moved = none ∧ (b.polled m k).vibrate = b.vibrate k) ∨
      ((b.polled m k).moved = some (b.vibrate k).nextMove ∧
        (b.polled m k).vibrate = { b.vibrate k with reverse := !(b.vibrate k).reverse }) := by
  cases k with
  | first => exact b.vibrate1.poll_vibrate _ m
  | second => exact b.vibrate2.poll_vibrate _ _

variable [Expander ξ]

/-- Sampling the watched input leaves the vibrations alone. -/
theorem watch_vibrate (b : Board ξ) (now : Time) :
    (b.watch now).1.vibrate1 = b.vibrate1 ∧ (b.watch now).1.vibrate2 = b.vibrate2 := by
  rw [watch]
  split <;> exact ⟨rfl, rfl⟩

/-- A poll of the board is a poll of each vibration. -/
theorem poll_eq {σ : Type} [Lines σ] (b : Board ξ) (m : Master σ) (now : Time) :
    (b.poll m now).bus = (b.polled m .second).bus ∧
      ∀ k, (b.poll m now).board.vibrate k = (b.polled m k).vibrate := by
  obtain ⟨hfirst, hsecond⟩ := b.watch_vibrate now
  simp only [poll, hfirst, hsecond]
  refine ⟨rfl, fun k => ?_⟩
  cases k <;> rfl

/-- **A poll of the board displaces each axis by the move issued for it.** -/
theorem poll_positions (b : Board ξ) {m : Master Controller} (h : m.lines.Settled) (now : Time) :
    (b.poll m now).bus.lines.Settled ∧
      ∀ k : VibrateAxis, (b.poll m now).bus.lines.machine.positions k.number
        = displace (m.lines.machine.positions k.number) (b.polled m k).moved.toList := by
  obtain ⟨hsettled, hfirst⟩ := b.vibrate1.poll_positions .first h
  obtain ⟨hsettled, hsecond⟩ := b.vibrate2.poll_positions .second hsettled
  rw [(b.poll_eq m now).1]
  refine ⟨hsettled, fun k => ?_⟩
  cases k with
  | first => exact (hsecond 1).trans (hfirst 1)
  | second => exact (hsecond 2).trans (congrArg (displace · _) (hfirst 2))

/-- A request changes the next move of an axis only if it starts its
vibration. -/
theorem nextMove_perform (b : Board ξ) {request : Request} {k : VibrateAxis}
    (h : ∀ distance, request ≠ .startVibrate k distance) (now : Time) :
    ((b.perform request now).board.vibrate k).nextMove = (b.vibrate k).nextMove := by
  cases request
  case startVibrate axis distance =>
    cases axis <;> cases k
    case first.first => exact absurd rfl (h distance)
    case second.second => exact absurd rfl (h distance)
    all_goals rfl
  case stopVibrate axis => cases axis <;> cases k <;> rfl
  all_goals cases k <;> rfl

end Board

/-! ### One event -/

namespace Router

/-- What happens around a board on a bus. -/
inductive Event
  /-- The board is polled. -/
  | poll (now : Time)
  /-- The board is asked for something. -/
  | request (request : Request) (now : Time)
  /-- A command is sent over the bus, or the controller is adjusted. -/
  | bus (op : Operation)
deriving Repr, DecidableEq

/-- An event spares an axis when it does not start its vibration, and is not
heard as a command for it. -/
def Event.Spares (k : VibrateAxis) : Event → Prop
  | .request (.startVibrate axis _) _ => axis ≠ k
  | .bus (.command call) => ∀ heard ∈ call.heardAs, heard.2.1 ≠ k.number
  | _ => True

instance (k : VibrateAxis) (e : Event) : Decidable (e.Spares k) := by
  unfold Event.Spares
  split <;> infer_instance

/-- A command for another of the four axes spares an axis. -/
theorem Event.spares_command {k : VibrateAxis} {call : Call} (haxis : 1 ≤ call.2.1 ∧ call.2.1 ≤ 4)
    (hother : call.2.1 ≠ k.number) : (Event.bus (.command call)).Spares k := by
  intro heard hheard
  rw [Call.heardAs_of_axis haxis] at hheard
  cases hheard
  exact hother

variable {ξ : Type} [Expander ξ]

/-- The board and the bus behind an event. -/
def meet (r : Router Controller ξ) : Event → Router Controller ξ
  | .poll now => (r.background now).1
  | .request request now => { r with board := (r.board.perform request now).board }
  | .bus op => { r with bus := (r.bus.operate op).2 }

/-- The moves that are issued for an axis in an event. -/
def issues (r : Router Controller ξ) (k : VibrateAxis) : Event → List Int32
  | .poll _ => (r.board.polled r.bus k).moved.toList
  | _ => []

/-- **An event that spares an axis displaces it by the moves issued for it.** -/
theorem meet_positions {r : Router Controller ξ} (h : r.bus.lines.Settled) {k : VibrateAxis}
    {e : Event} (he : e.Spares k) :
    (r.meet e).bus.lines.Settled ∧
      (r.meet e).bus.lines.machine.positions k.number
        = displace (r.bus.lines.machine.positions k.number) (r.issues k e) := by
  cases e with
  | poll now =>
    obtain ⟨hsettled, hpositions⟩ := r.board.poll_positions h now
    exact ⟨hsettled, hpositions k⟩
  | request request now => exact ⟨h, rfl⟩
  | bus op =>
    refine ⟨Master.operate_settled h op, ?_⟩
    cases op with
    | command call =>
      obtain ⟨hleft, -⟩ := Master.command_settled h call
      exact hleft.obeyed.positions fun heard hheard => .inl (he heard hheard)
    | _ => rfl

/-- **Each move issued turns the next one around.** -/
theorem meet_nextMove (r : Router Controller ξ) {k : VibrateAxis} {e : Event} (he : e.Spares k) :
    (r.issues k e = [] ∧
        ((r.meet e).board.vibrate k).nextMove = (r.board.vibrate k).nextMove) ∨
      (r.issues k e = [(r.board.vibrate k).nextMove] ∧
        ((r.meet e).board.vibrate k).nextMove = -(r.board.vibrate k).nextMove) := by
  cases e with
  | poll now =>
    have hvibrate : (r.meet (.poll now)).board.vibrate k = (r.board.polled r.bus k).vibrate :=
      (r.board.poll_eq r.bus now).2 k
    rcases r.board.polled_nextMove r.bus k with ⟨hmoved, hsame⟩ | ⟨hmoved, hturned⟩
    · refine .inl ⟨by rw [issues, hmoved]; rfl, ?_⟩
      rw [hvibrate, hsame]
    · refine .inr ⟨by rw [issues, hmoved]; rfl, ?_⟩
      rw [hvibrate, hturned]
      exact (r.board.vibrate k).nextMove_reverse
  | request request now =>
    refine .inl ⟨rfl, r.board.nextMove_perform ?_ now⟩
    rintro distance rfl
    exact he rfl
  | bus op => exact .inl ⟨rfl, rfl⟩

/-! ### Runs -/

/-- The board and the bus behind some events. -/
def after (r : Router Controller ξ) (events : List Event) : Router Controller ξ :=
  events.foldl meet r

/-- The moves issued for an axis along some events, in order. -/
def issued (k : VibrateAxis) : Router Controller ξ → List Event → List Int32
  | _, [] => []
  | r, e :: events => r.issues k e ++ issued k (r.meet e) events

/-- **An axis that is spared is displaced by exactly the moves issued for it**,
whatever the faults of the bus. -/
theorem positions_after {k : VibrateAxis} {events : List Event}
    (hspares : ∀ e ∈ events, e.Spares k) :
    ∀ {r : Router Controller ξ}, r.bus.lines.Settled →
      (r.after events).bus.lines.machine.positions k.number
        = displace (r.bus.lines.machine.positions k.number) (r.issued k events) := by
  induction events with
  | nil =>
    intro r _
    rfl
  | cons e events ih =>
    intro r h
    obtain ⟨hsettled, hpositions⟩ := r.meet_positions h (hspares e (List.mem_cons_self ..))
    have hlater := ih (fun x hx => hspares x (List.mem_cons_of_mem e hx)) hsettled
    rw [issued, displace_append, ← hpositions]
    exact hlater

end Router

/-- A move, the opposite move, and so on. -/
def alternation (move : Int32) : Nat → List Int32
  | 0 => []
  | n + 1 => move :: alternation (-move) n

/-- **Moves alternate when each of them turns the next one around.**  What is
issued along a run is put together from what each step issues: nothing, and the
next move stays, or the next move, and the one after it is the opposite. -/
theorem eq_alternation {S A : Type} (issued : S → List A → List Int32) (next : S → Int32)
    {issues : S → A → List Int32} {step : S → A → S} {P : A → Prop}
    (hnil : ∀ s, issued s [] = [])
    (hcons : ∀ s a as, issued s (a :: as) = issues s a ++ issued (step s a) as)
    (hturn : ∀ s a, P a → (issues s a = [] ∧ next (step s a) = next s) ∨
      (issues s a = [next s] ∧ next (step s a) = -next s))
    {as : List A} (has : ∀ a ∈ as, P a) :
    ∀ s, issued s as = alternation (next s) (issued s as).length := by
  induction as with
  | nil =>
    intro s
    rw [hnil]
    rfl
  | cons a as ih =>
    intro s
    have hlater := ih (fun x hx => has x (List.mem_cons_of_mem a hx)) (step s a)
    rw [hcons]
    rcases hturn s a (has a (List.mem_cons_self ..)) with ⟨hnone, hsame⟩ | ⟨hone, hturned⟩
    · rw [hnone, List.nil_append, ← hsame]
      exact hlater
    · rw [hone, List.singleton_append, List.length_cons, alternation, ← hturned, ← hlater]

/-- **Moves that alternate cancel out in pairs**, also where a position wraps. -/
theorem foldl_alternation (move position : Int32) (n : Nat) :
    (alternation move n).foldl (· + ·) position
      = if n % 2 = 0 then position else position + move := by
  induction n generalizing move position with
  | zero => rfl
  | succ n ih =>
    rw [alternation, List.foldl_cons, ih, Int32.add_assoc, Int32.add_right_neg, Int32.add_zero]
    by_cases hn : n % 2 = 0
    · rw [if_pos hn, if_neg (by omega)]
    · rw [if_neg hn, if_pos (by omega)]

theorem displace_alternation (positions : Int32 × Int32) (move : Int32) (n : Nat) :
    displace positions (alternation move n)
      = if n % 2 = 0 then positions else (positions.1 + move, positions.2 + move) := by
  rw [displace, foldl_alternation, foldl_alternation]
  split <;> rfl

namespace Router

variable {ξ : Type} [Expander ξ]

/-- **The moves of a vibration alternate.** -/
theorem issued_eq_alternation {k : VibrateAxis} {events : List Event}
    (hspares : ∀ e ∈ events, e.Spares k) :
    ∀ r : Router Controller ξ,
      r.issued k events = alternation (r.board.vibrate k).nextMove (r.issued k events).length :=
  eq_alternation (issued k) (fun r => (r.board.vibrate k).nextMove) (fun _ => rfl)
    (fun _ _ _ => rfl) (fun r _ he => r.meet_nextMove he) hspares

/-- **Vibration does not drift.**  After any session on a new bus a vibration is
started, and whatever happens that spares its axis, both positions are where
they were behind every even number of moves, and the distance away behind every
odd one. -/
theorem vibration_positions (config : BusConfig) (ops : List Operation) (board : Board ξ)
    (k : VibrateAxis) (distance : Int32) (now : Time) {events : List Event}
    (hspares : ∀ e ∈ events, e.Spares k) :
    let bus := ((Master.start ({} : Controller) config).run ops).2
    let r : Router Controller ξ := ⟨bus, (board.perform (.startVibrate k distance) now).board⟩
    let p := bus.lines.machine.registers.read .setLogicalPosition k.number
    let q := bus.lines.machine.registers.read .setEncoderPosition k.number
    (r.after events).bus.lines.machine.positions k.number
      = if (r.issued k events).length % 2 = 0 then (p, q) else (p + distance, q + distance) := by
  intro bus r p q
  have hsettled : r.bus.lines.Settled := Master.run_settled ops (Master.settled_start config)
  have hstart : (r.board.vibrate k).nextMove = distance := by
    cases k <;> rfl
  have hissued := issued_eq_alternation hspares r
  rw [hstart] at hissued
  calc (r.after events).bus.lines.machine.positions k.number
      = displace (p, q) (r.issued k events) := positions_after hspares hsettled
    _ = displace (p, q) (alternation distance (r.issued k events).length) :=
      congrArg (displace (p, q)) hissued
    _ = _ := displace_alternation (p, q) distance _

/-- From the greatest position upwards, through an outage and beside the other
axis: three moves are made, and the axis is one move away. -/
theorem vibration_positions_of_outage :
    (Router.after
        (⟨((Master.start ({} : Controller) { attempts := 2, maxReply := 8 }).run
            [.command (.moveAbs, 1, some 2147483647), .command (.setEncoderPosition, 1, some 5)]).2,
          ((Board.start ({} : Pins) {} 0).perform (.startVibrate .first 1000) 0).board⟩ :
          Router Controller Pins)
        [.poll 0, .bus (.setBehavior .silent), .poll 10, .request (.startVibrate .second 7) 20,
          .bus (.setBehavior .normal), .poll 20, .bus (.setBusyPolls 1), .poll 30,
          .poll 40]).bus.lines.machine.positions VibrateAxis.first.number
      = (-2147482649, 1005) := by
  refine (vibration_positions _ _ _ .first 1000 0 (by decide)).trans ?_
  decide +kernel

end Router

end MotionBridge
