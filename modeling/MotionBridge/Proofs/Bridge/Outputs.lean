/-
MotionBridge/Proofs/Bridge/Outputs.lean

The outputs follow the command stream, one pass behind.

What a frame makes of the outputs is a matter of its node, its command byte
and its parameter alone (`Frame.outputs`).  The board does just that to its own
byte when the router hands it the frame (`handle_outputs`), and nothing else
changes that byte.  The pins take the byte once in every pass, at its
beginning.  So the byte is ahead of the pins by the frames of the last pass,
which is an invariant of every event (`Follows.happen`), and in every run the
pins show what the frames of all passes but the last have made of them
(`pins_after`).
-/
import Mathlib.Algebra.Group.Nat.Defs
import MotionBridge.Controller.Simulated
import MotionBridge.Proofs.Board.Commands
import MotionBridge.Proofs.Bridge.Run
import MotionBridge.Proofs.Channel.Delivery

namespace MotionBridge

/-! ### What a command makes of the outputs -/

/-- The outputs behind a frame.  Frames for the board set them as a whole, to
the low byte of the value, or one of them, counted from one at the top bit. -/
def Frame.outputs (f : Frame) (o : UInt8) : UInt8 :=
  if f.node = 3 then
    match f.command, f.parameter with
    | some 32, some value => UInt8.ofNat (value.toInt % 256).toNat
    | some 229, some n =>
      if 1 ≤ n.toInt ∧ n.toInt ≤ 8 then o ||| UInt8.ofNat (2 ^ (8 - n.toInt).toNat) else o
    | some 230, some n =>
      if 1 ≤ n.toInt ∧ n.toInt ≤ 8 then o &&& ~~~UInt8.ofNat (2 ^ (8 - n.toInt).toNat) else o
    | _, _ => o
  else o

/-- A frame for another node changes no output. -/
theorem Frame.outputs_of_other {f : Frame} (h : ¬ f.node = 3) (o : UInt8) : f.outputs o = o :=
  if_neg h

/-- A frame without a command changes no output. -/
theorem Frame.outputs_of_short {f : Frame} (h : f.command = none) (o : UInt8) :
    f.outputs o = o := by
  rw [outputs, h]
  exact ite_self o

/-- A frame without a parameter changes no output. -/
theorem Frame.outputs_of_no_parameter {f : Frame} (h : f.parameter = none) (o : UInt8) :
    f.outputs o = o := by
  rw [outputs, h]
  split
  · split
    case h_4 => rfl
    all_goals contradiction
  · rfl

/-- What frames make of the outputs, beginning with none set. -/
def Frame.outputsOf (frames : List Frame) : UInt8 :=
  frames.foldl (fun o f => f.outputs o) 0

/-- The outputs behind a request. -/
def Request.outputs : Request → UInt8 → UInt8
  | .setOutputs value, _ => value
  | .setOutput bit, o => o ||| (1 <<< UInt8.ofNat bit)
  | .clearOutput bit, o => o &&& ~~~(1 <<< UInt8.ofNat bit)
  | _, o => o

/-- A command without its parameter changes no output. -/
theorem Request.ofCommand_none_outputs (command o : UInt8) :
    (Request.ofCommand command none).outputs o = o := by
  unfold Request.ofCommand
  split <;> rfl

/-- The mask of an output, as a power of two. -/
theorem one_shiftLeft_ofNat (bit : Fin 8) :
    (1 : UInt8) <<< UInt8.ofNat bit = UInt8.ofNat (2 ^ bit.val) := by
  decide +revert

/-- A request for one output changes its bit; a number that no output has is
refused. -/
theorem outputBit_outputs (request : Fin 8 → Request) (change : UInt8 → UInt8) {o : UInt8}
    (hchange : ∀ bit : Fin 8, (request bit).outputs o = change (UInt8.ofNat (2 ^ bit.val)))
    (n : Int32) :
    (Request.withParameter (some n) fun n => (Request.outputBit n).map request).outputs o
      = if 1 ≤ n.toInt ∧ n.toInt ≤ 8 then change (UInt8.ofNat (2 ^ (8 - n.toInt).toNat))
        else o := by
  by_cases h : 1 ≤ n.toInt ∧ n.toInt ≤ 8
  · rw [if_pos h, Request.withParameter, Option.bind_some, Request.outputBit, dif_pos h]
    exact hchange _
  · rw [if_neg h, Request.withParameter, Option.bind_some, Request.outputBit, dif_neg h]
    rfl

/-- **The request read from a frame for the board does what the frame says.** -/
theorem ofCommand_outputs {f : Frame} {command : UInt8} (hnode : f.node = 3)
    (hcommand : f.command = some command) (o : UInt8) :
    (Request.ofCommand command f.parameter).outputs o = f.outputs o := by
  rcases hparameter : f.parameter with - | value
  · rw [Request.ofCommand_none_outputs, Frame.outputs_of_no_parameter hparameter]
  · rw [Frame.outputs, if_pos hnode, hcommand, hparameter]
    unfold Request.ofCommand
    split
    case h_2 => exact toUInt8_toInt8 value
    case h_4 =>
      exact outputBit_outputs .setOutput (o ||| ·)
        (fun bit => congrArg (o ||| ·) (one_shiftLeft_ofNat bit)) value
    case h_5 =>
      exact outputBit_outputs .clearOutput (o &&& ~~~·)
        (fun bit => congrArg (o &&& ~~~·) (one_shiftLeft_ofNat bit)) value
    case h_11 => split <;> simp_all [Request.outputs]
    all_goals rfl

namespace Board

variable {σ : Type} [Lines σ] (b : Board Pins) (now : Time)

/-- A request changes the board's byte as it should, and no pin. -/
theorem perform_outputs (request : Request) :
    (b.perform request now).board.outputs = request.outputs b.outputs ∧
      (b.perform request now).board.expander = b.expander := by
  cases request with
  | startVibrate axis distance => cases axis <;> exact ⟨rfl, rfl⟩
  | stopVibrate axis => cases axis <;> exact ⟨rfl, rfl⟩
  | _ => exact ⟨rfl, rfl⟩

/-- Background work changes neither the board's byte nor a pin. -/
theorem poll_outputs (bus : Master σ) :
    (b.poll bus now).board.outputs = b.outputs ∧
      (b.poll bus now).board.expander = b.expander := by
  show (b.watch now).1.outputs = b.outputs ∧ (b.watch now).1.expander = b.expander
  rw [watch]
  split <;> exact ⟨rfl, rfl⟩

end Board

namespace Router

variable {σ : Type} [Lines σ]

/-- **The router does to the board's byte what the frame says**, and touches no
pin. -/
theorem handle_outputs (now : Time) (frame : Frame) (r : Router σ Pins) :
    (handle now frame r).state.board.outputs = frame.outputs r.board.outputs ∧
      (handle now frame r).state.board.expander = r.board.expander := by
  by_cases hnode : frame.node = boardNode
  · have hother : ¬ frame.node = controllerNode := by
      rw [hnode]
      decide
    rw [handle, if_neg hother, if_pos hnode, runLocal]
    rcases hcommand : frame.command with - | command
    · exact ⟨(Frame.outputs_of_short hcommand _).symm, rfl⟩
    · obtain ⟨houtputs, hexpander⟩ :=
        r.board.perform_outputs now (.ofCommand command frame.parameter)
      exact ⟨houtputs.trans (ofCommand_outputs hnode hcommand _), hexpander⟩
  · rw [Frame.outputs_of_other hnode, handle]
    split
    · exact ⟨rfl, rfl⟩
    · exact ⟨rfl, rfl⟩

/-- Frames in a row do what they say in order. -/
theorem stateAfter_outputs (now : Time) (frames : List Frame) (r : Router σ Pins) :
    (CommandChannel.stateAfter (handle now) frames r).board.outputs
        = frames.foldl (fun o f => f.outputs o) r.board.outputs ∧
      (CommandChannel.stateAfter (handle now) frames r).board.expander = r.board.expander := by
  induction frames generalizing r with
  | nil => exact ⟨rfl, rfl⟩
  | cons frame rest ih =>
    obtain ⟨hfirst, hpins⟩ := handle_outputs now frame r
    obtain ⟨hrest, hpinsRest⟩ := ih (handle now frame r).state
    rw [hfirst] at hrest
    exact ⟨hrest, hpinsRest.trans hpins⟩

end Router

namespace Bridge

open Accumulator

variable {σ : Type} [Lines σ]

/-! ### Passes -/

/-- The frames that a pass hands to the router, as a recording router sees
them. -/
def handedIn (b : Bridge σ Pins) (now : Time) : List Frame :=
  (b.command.poll (Router.handle now).recorded (b.router.refresh, [])).state.2

/-- A pass first writes the board's byte to the pins, and then does to the byte
what the frames say that it hands to the router. -/
theorem pass_outputs (b : Bridge σ Pins) (now : Time) :
    (b.pass now).bridge.router.board.expander
        = Expander.writeOutputs b.router.board.expander b.router.board.outputs ∧
      (b.pass now).bridge.router.board.outputs
        = (b.handedIn now).foldl (fun o f => f.outputs o) b.router.board.outputs := by
  have hrecord := CommandChannel.reactAll_state b.command.answerUnreachable
    (Router.handle now).recorded (b.command.accumulator.receive b.command.ring.toList).1
    b.command.link (b.router.refresh, [])
  rw [CommandChannel.stateAfter_recorded] at hrecord
  have hhanded : b.handedIn now
      = framesOf (b.command.accumulator.receive b.command.ring.toList).1 :=
    congrArg Prod.snd hrecord
  have hrouter := CommandChannel.reactAll_state b.command.answerUnreachable (Router.handle now)
    (b.command.accumulator.receive b.command.ring.toList).1 b.command.link b.router.refresh
  rw [← hhanded] at hrouter
  obtain ⟨houtputs, hpins⟩ := Router.stateAfter_outputs now (b.handedIn now) b.router.refresh
  obtain ⟨hlater, hpinsLater⟩ := Board.poll_outputs
    (CommandChannel.stateAfter (Router.handle now) (b.handedIn now) b.router.refresh).board now
    (CommandChannel.stateAfter (Router.handle now) (b.handedIn now) b.router.refresh).bus
  have hpass : (b.pass now).bridge.router.board
      = ((CommandChannel.stateAfter (Router.handle now) (b.handedIn now)
          b.router.refresh).board.poll (CommandChannel.stateAfter (Router.handle now)
            (b.handedIn now) b.router.refresh).bus now).board := by
    rw [← hrouter]
    rfl
  rw [hpass]
  exact ⟨hpinsLater.trans hpins, hlater.trans houtputs⟩

/-! ### Runs -/

/-- The frames that an event hands to the router, as one entry for a pass. -/
def handedAt (b : Bridge σ Pins) : Event σ → List (List Frame)
  | .pass now => [b.handedIn now]
  | _ => []

/-- The frames that a run hands to the router, pass by pass. -/
def handed : Bridge σ Pins → List (Event σ) → List (List Frame)
  | _, [] => []
  | b, event :: rest => b.handedAt event ++ handed (b.happen event) rest

/-- There is an entry for each pass. -/
theorem length_handed (b : Bridge σ Pins) (events : List (Event σ)) :
    (b.handed events).length = events.countP Event.isPass := by
  induction events generalizing b with
  | nil => rfl
  | cons event rest ih =>
    rw [handed, List.length_append, ih]
    cases event with
    | pass now => exact (Nat.add_comm ..).trans (List.countP_cons_of_pos rfl).symm
    | _ => exact (Nat.zero_add _).trans (List.countP_cons_of_neg Bool.false_ne_true).symm

/-- The outputs agree with the frames that were handed over so far: the board's
byte with all of them, the pins with those of all passes but the last. -/
structure Follows (b : Bridge σ Pins) (before : List (List Frame)) : Prop where
  outputs : b.router.board.outputs = Frame.outputsOf before.flatten
  pins : b.router.board.expander.outputs = Frame.outputsOf before.dropLast.flatten
  writes : b.router.board.expander.writes = before.length

/-- **Every event keeps the outputs in agreement.** -/
theorem Follows.happen {b : Bridge σ Pins} {before : List (List Frame)} (h : b.Follows before)
    (event : Event σ) : (b.happen event).Follows (before ++ b.handedAt event) := by
  cases event with
  | pass now =>
    obtain ⟨hpins, houtputs⟩ := b.pass_outputs now
    refine ⟨?_, ?_, ?_⟩
    · rw [Bridge.happen, houtputs, h.outputs, handedAt, List.flatten_append, List.flatten_singleton]
      exact List.foldl_append.symm
    · rw [Bridge.happen, hpins, handedAt, List.dropLast_concat]
      exact h.outputs
    · rw [Bridge.happen, hpins, handedAt, List.length_append]
      exact congrArg (· + 1) h.writes
  | inputs bank value =>
    show Follows _ (before ++ [])
    rw [List.append_nil]
    cases bank <;> exact ⟨h.outputs, h.pins, h.writes⟩
  | _ =>
    show Follows _ (before ++ [])
    rw [List.append_nil]
    exact ⟨h.outputs, h.pins, h.writes⟩

/-- A run keeps the outputs in agreement. -/
theorem Follows.after {b : Bridge σ Pins} {before : List (List Frame)} (h : b.Follows before)
    (events : List (Event σ)) : (b.after events).Follows (before ++ b.handed events) := by
  induction events generalizing b before with
  | nil =>
    rw [handed, List.append_nil]
    exact h
  | cons event rest ih =>
    rw [handed, ← List.append_assoc]
    exact ih (h.happen event)

/-- **The outputs follow the command stream with one pass of delay.**  Whatever
the channels, the bus and the peer behind it, and whatever happens in whatever
order: the pins were written once for each pass, and they show what the frames
of all passes but the last have made of them. -/
theorem pins_after (command : CommandChannel) (bus : Master σ) (firstBank secondBank : UInt8)
    (config : BoardConfig) (begun : Nat) (inbound : List Inbound) (tunnels : Tunnels)
    (events : List (Event σ)) :
    let board := Board.start { firstBank, secondBank : Pins } config begun
    let b : Bridge σ Pins := { command, router := { bus, board }, inbound, tunnels }
    let pins := (b.after events).router.board.expander
    (b.handed events).length = events.countP Event.isPass ∧
      pins.writes = events.countP Event.isPass ∧
      pins.outputs = Frame.outputsOf (b.handed events).dropLast.flatten := by
  intro board b pins
  have hfollows : (b.after events).Follows (b.handed events) :=
    @Follows.after σ _ b [] ⟨rfl, rfl, rfl⟩ events
  exact ⟨b.length_handed events, hfollows.writes.trans (b.length_handed events), hfollows.pins⟩

/-- A frame that sets the outputs to one and comes in two parts: it is complete
in the second pass, and the third one shows it. -/
example :
    let command := CommandChannel.start (.ofCapacity 16) { name := "command" } 16 true
    let b : Bridge Controller Pins :=
      { command, router := { bus := .start {} {}, board := .start {} {} 0 } }
    let events : List (Event Controller) :=
      [.command [2, 13, 32, 32, 32], .pass 0, .command [32, 32, 33, 140, 3], .pass 1]
    (b.after events).router.board.expander.outputs = 0 ∧
      (b.after (events ++ [.pass 2])).router.board.expander.outputs = 1 := by
  decide +kernel

end Bridge

end MotionBridge
