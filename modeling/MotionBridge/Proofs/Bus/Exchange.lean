/-
MotionBridge/Proofs/Bus/Exchange.lean

What an exchange with the simulated controller comes to.

One attempt at a command ends as the controller's behavior has it, runs the
command once if the controller listens and not at all if it does not, and
leaves the lines at rest (`attempt_command`).  A whole exchange runs the
command once if it is answered, and else once for each attempt of a controller
that listens (`command_served`).
-/
import MotionBridge.Proofs.Bus.Handshake

namespace MotionBridge

/-- A command as the controller logs it: with its axis and parameter. -/
abbrev Call := MotorCommand × UInt8 × Option Int32

/-- The machine after some commands. -/
def Machine.after (m : Machine) (calls : List Call) : Machine :=
  calls.foldl (fun m call => (m.execute call.1 call.2.1 call.2.2).2) m

theorem Machine.after_append (m : Machine) (xs ys : List Call) :
    m.after (xs ++ ys) = (m.after xs).after ys :=
  List.foldl_append

/-! ### The controller's answer -/

namespace Controller

/-- The controller when its machine has carried out a command. -/
def carryOut (c : Controller) (call : Call) : Controller :=
  { c with
    machine := (c.machine.execute call.1 call.2.1 call.2.2).2
    executed := c.executed.push call }

/-- **A frame is carried out as what its command byte says**: the command of
that byte, for the axis of that byte. -/
theorem respond_pending (c : Controller) {p : PendingCommand} (h : p.wire ≠ stx ∧ p.wire ≠ etx) :
    c.respond p.frame = match MotorCommand.ofWire p.wire with
      | none => (some MotorAnswer.unknown.frame, c)
      | some (command, axis) =>
        (some (c.machine.execute command axis p.parameter).1.frame,
          c.carryOut (command, axis, p.parameter)) := by
  obtain ⟨f, hvalid, hcommand, hparameter⟩ := PendingCommand.frame_spec h
  simp only [respond, hvalid, hcommand, hparameter]
  rfl

/-- **A command frame is carried out as the command it was built from.** -/
theorem respond_commandFrame (c : Controller) (command : MotorCommand) {axis : UInt8}
    (haxis : 1 ≤ axis ∧ axis ≤ 4) (parameter : Option Int32) :
    c.respond (PendingCommand.frame ⟨command.code, axis, parameter⟩)
      = (some (c.machine.execute command axis parameter).1.frame,
          c.carryOut (command, axis, parameter)) := by
  rw [respond_pending c (wire_unmarked command haxis parameter),
    MotorCommand.ofWire_wire command haxis parameter]

/-- What a controller that listens makes of the reply to a frame. -/
def replyTurn (b : Behavior) (reply : Bytes) : Turn :=
  match b with
  | .silent => .listening
  | .corruptReply => .armed (corrupt reply)
  | _ => .armed reply

/-- A frame that does not check out changes nothing more. -/
theorem answer_of_invalid {frame : Bytes} {e : FrameError} (h : validate frame = .error e)
    (c : Controller) : c.answer frame = c := by
  simp only [answer, respond, h]

/-- A reply is made ready, as far as the behavior allows. -/
theorem answer_of_some {c d : Controller} {frame reply : Bytes}
    (h : c.respond frame = (some reply, d)) (hturn : d.turn = .listening) :
    c.answer frame = { d with turn := replyTurn d.behavior reply } := by
  rw [answer, h]
  rcases d with ⟨behavior, turn⟩
  obtain rfl : turn = .listening := hturn
  cases behavior <;> rfl

/-- The answer to a command frame, while the controller listens. -/
theorem answer_commandFrame {c : Controller} (hturn : c.turn = .listening)
    (command : MotorCommand) {axis : UInt8} (haxis : 1 ≤ axis ∧ axis ≤ 4)
    (parameter : Option Int32) :
    c.answer (PendingCommand.frame ⟨command.code, axis, parameter⟩)
      = { c.carryOut (command, axis, parameter) with
          turn := replyTurn c.behavior (c.machine.execute command axis parameter).1.frame } :=
  answer_of_some (respond_commandFrame c command haxis parameter) hturn

end Controller

/-! ### Serving commands -/

/-- How an attempt at a command ends, given the answer's frame. -/
def Behavior.outcome (reply : Bytes) : Behavior → Attempt
  | .normal => .accepted reply
  | .neverAck => .sendFailed (.timeout .peerAck)
  | .notReady => .sendFailed .peerNotReady
  | .corruptReply =>
    .invalid (Controller.corrupt reply) (.checksumMismatch (reply.length - 1))
  | .silent => .receiveFailed (.timeout .replyStart)

/-- From one state to another the controller has carried out exactly some
commands, with its behavior unchanged. -/
structure Controller.Ran (c d : Controller) (calls : List Call) : Prop where
  behavior : d.behavior = c.behavior
  machine : d.machine = c.machine.after calls
  executed : d.executed.toList = c.executed.toList ++ calls

theorem Controller.Ran.trans {c d e : Controller} {xs ys : List Call} (h : c.Ran d xs)
    (h' : d.Ran e ys) : c.Ran e (xs ++ ys) where
  behavior := h'.behavior.trans h.behavior
  machine := by rw [h'.machine, h.machine, Machine.after_append]
  executed := by rw [h'.executed, h.executed, List.append_assoc]

namespace Master

/-- From one master to another some commands have been carried out, and the
controller is at rest again. -/
structure Served (m m' : Master Controller) (calls : List Call) : Prop where
  atRest : m'.lines.AtRest
  config : m'.config = m.config
  ran : m.lines.Ran m'.lines calls

theorem Served.trans {m m' m'' : Master Controller} {xs ys : List Call} (h : Served m m' xs)
    (h' : Served m' m'' ys) : Served m m'' (xs ++ ys) :=
  ⟨h'.atRest, h'.config.trans h.config, h.ran.trans h'.ran⟩

/-- A controller that has taken a command: the command is carried out, the
lines are high, and the reply is ready as far as the behavior allows. -/
structure Answered (c d : Controller) (call : Call) : Prop where
  ran : c.Ran d [call]
  signal : d.signal = true
  clockHigh : d.clockHigh = true
  latched : d.latched = none
  turn : d.turn = Controller.replyTurn c.behavior
    (c.machine.execute call.1 call.2.1 call.2.2).1.frame

section Attempt

variable {c d : Controller} {command : MotorCommand} {axis : UInt8} {parameter : Option Int32}
  {config : BusConfig} {state : BusState}

/-- A command frame reaches a controller that listens, which takes it. -/
theorem send_command (hrest : c.AtRest) (hlistens : c.behavior.listens = true)
    (haxis : 1 ≤ axis ∧ axis ≤ 4) :
    ∃ d, send ⟨c, config, state⟩ (PendingCommand.frame ⟨command.code, axis, parameter⟩)
        = (.ok (), ⟨d, config, .done⟩) ∧ Answered c d (command, axis, parameter) := by
  obtain ⟨body, hbody, hlen, hframe⟩ :=
    PendingCommand.exists_marked (wire_unmarked command haxis parameter)
  have hsent := send_marked hrest hlistens hbody hlen config state
  rw [← hframe] at hsent
  have hheard := (hrest.facing .output).heard (body.length + 2)
    (PendingCommand.frame ⟨command.code, axis, parameter⟩)
  rw [Controller.answer_commandFrame hheard.listening command haxis parameter] at hsent
  exact ⟨_, hsent, ⟨rfl, rfl, Array.toList_push⟩, hrest.signal, hrest.clockHigh, hrest.latched, rfl⟩

/-- A reply that a controller has ready is received, and the controller is at
rest behind it. -/
theorem receive_reply (hready : d.behavior ≠ .notReady) (hclock : d.clockHigh = true)
    (hlatched : d.latched = none) {body : Bytes} {sum : UInt8}
    (hturn : d.turn = .armed (stx :: (body ++ [sum]) ++ [etx])) (hbody : Unmarked (body ++ [sum]))
    (hlen : body.length ≤ Base128.width) (hroom : 8 ≤ config.maxReply) :
    ∃ m', receive ⟨d, config, state⟩ = (.ok (stx :: (body ++ [sum]) ++ [etx]), m') ∧
      Served ⟨d, config, state⟩ m' [] := by
  have hshort : (stx :: (body ++ [sum])).length < config.maxReply := by
    have hwidth : Base128.width = 5 := rfl
    simp only [List.length_cons, List.length_append, List.length_nil]
    omega
  exact ⟨_, receive_armed hready hturn hclock hbody.ne_etx hshort state,
    ⟨rfl, rfl, hclock, hlatched⟩, rfl, rfl, rfl, (List.append_nil _).symm⟩

/-- **A reply that is ready is accepted**, if there is room for it. -/
theorem attempt_of_armed {frame : Bytes} {a : MotorAnswer}
    (hsend : send ⟨c, config, state⟩ frame = (.ok (), ⟨d, config, .done⟩))
    (hready : d.behavior ≠ .notReady) (hclock : d.clockHigh = true)
    (hturn : d.turn = .armed a.frame) (hroom : a.frame.length ≤ config.maxReply) :
    attempt ⟨c, config, state⟩ frame
      = (.accepted a.frame,
          ⟨Controller.replied { d with hostDirection := .input } a.frame.length, config,
            .done⟩) := by
  obtain ⟨body, hbody, -, hreply⟩ := a.exists_body
  have hvalid := (isFrame_enclose hbody).validate_eq
  rw [← hreply] at hvalid
  have hfront : a.frame = stx :: (body ++ [Checksum.ofBody body]) ++ [etx] :=
    hreply.trans (enclose_eq body)
  have hlength : a.frame.length = (stx :: (body ++ [Checksum.ofBody body])).length + 1 := by
    rw [hfront, List.length_append, List.length_singleton]
  have hreceive := receive_armed hready (hfront ▸ hturn) hclock
    (hbody.append (unmarked_of_high (Checksum.high_ofBody body))).ne_etx
    (Nat.lt_of_succ_le (hlength ▸ hroom)) .done
  rw [← hfront, ← hlength] at hreceive
  simp only [attempt, hsend, hreceive, hvalid]

/-- A controller that does not listen fails the send and is left as it was. -/
theorem attempt_of_deaf (hrest : c.AtRest) (hdeaf : c.behavior.listens = false) (reply : Bytes) :
    ∃ m', attempt ⟨c, config, state⟩ (PendingCommand.frame ⟨command.code, axis, parameter⟩)
        = (c.behavior.outcome reply, m') ∧ Served ⟨c, config, state⟩ m' [] := by
  rcases hb : c.behavior
  case notReady =>
    have hsend := send_of_notReady hrest hb config state
      (PendingCommand.frame ⟨command.code, axis, parameter⟩)
    refine ⟨⟨{ c with hostDirection := .input }, config, .idle⟩, ?_, hrest.facing .input, rfl,
      rfl, rfl, (List.append_nil _).symm⟩
    simp only [attempt, hsend, Behavior.outcome]
  case neverAck =>
    obtain ⟨rest, hframe⟩ : ∃ rest,
        PendingCommand.frame ⟨command.code, axis, parameter⟩ = stx :: rest := ⟨_, rfl⟩
    have hsend := send_of_neverAck hrest hb config state stx rest
    refine ⟨⟨{ c.clocked stx with hostDirection := .input }, config, .idle⟩, ?_,
      (hrest.clocked stx).facing .input, rfl, rfl, rfl, (List.append_nil _).symm⟩
    simp only [attempt, hframe, hsend, Behavior.outcome]
  all_goals
    rw [hb] at hdeaf
    cases hdeaf

/-- One that listens takes the frame, and the rest depends on its reply. -/
theorem attempt_of_listening (hrest : c.AtRest) (hlistens : c.behavior.listens = true)
    (haxis : 1 ≤ axis ∧ axis ≤ 4) (hroom : 8 ≤ config.maxReply) :
    ∃ m', attempt ⟨c, config, state⟩ (PendingCommand.frame ⟨command.code, axis, parameter⟩)
        = (c.behavior.outcome (c.machine.execute command axis parameter).1.frame, m') ∧
      Served ⟨c, config, state⟩ m' [(command, axis, parameter)] := by
  obtain ⟨body, hbody, hlen, hreply⟩ := (c.machine.execute command axis parameter).1.exists_body
  obtain ⟨d, hsend, hran, hsignal, hclock, hlatched, hturn⟩ :=
    @send_command c command axis parameter config state hrest hlistens haxis
  have hready : d.behavior ≠ .notReady := by
    rw [hran.behavior]
    exact (Behavior.listens_iff.mp hlistens).2
  rcases hb : c.behavior <;> rw [hb] at hturn
  case silent =>
    have hdrest : d.AtRest := ⟨hturn, hsignal, hclock, hlatched⟩
    have hreceive := receive_of_rest hdrest hready config .done
    refine ⟨⟨{ d with hostDirection := .input }, config, .idle⟩, ?_, hdrest.facing .input, rfl,
      hran.behavior, hran.machine, hran.executed⟩
    simp only [attempt, hsend, hreceive, Behavior.outcome]
  case normal =>
    have hfits : (c.machine.execute command axis parameter).1.frame.length ≤ config.maxReply := by
      have hwidth : Base128.width = 5 := rfl
      rw [hreply, length_enclose]
      omega
    exact ⟨_, attempt_of_armed hsend hready hclock hturn hfits, ⟨rfl, rfl, hclock, hlatched⟩, rfl,
      hran.behavior, hran.machine, hran.executed⟩
  case corruptReply =>
    obtain ⟨hsum, hinvalid⟩ := validate_corrupt hbody
    rw [hreply] at hturn ⊢
    rw [show Controller.replyTurn .corruptReply (enclose body)
        = .armed (Controller.corrupt (enclose body)) from rfl, corrupt_enclose] at hturn
    obtain ⟨m', hreceive, hserved⟩ := @receive_reply d config .done hready hclock hlatched _ _ hturn
      hsum hlen hroom
    rw [← corrupt_enclose] at hreceive
    refine ⟨m', ?_, hserved.atRest, hserved.config, hran.trans hserved.ran⟩
    have hat : body.length + 2 = (enclose body).length - 1 := by
      rw [length_enclose]
      omega
    simp only [attempt, hsend, hreceive, hinvalid, Behavior.outcome, hat]
  all_goals
    rw [hb] at hlistens
    cases hlistens

end Attempt

/-- **One attempt at a command**: it ends as the behavior has it, and a
controller that listens has carried the command out once. -/
theorem attempt_command {c : Controller} (hrest : c.AtRest) (command : MotorCommand)
    {axis : UInt8} (haxis : 1 ≤ axis ∧ axis ≤ 4) (parameter : Option Int32) {config : BusConfig}
    (hroom : 8 ≤ config.maxReply) (state : BusState) :
    ∃ m', attempt ⟨c, config, state⟩ (PendingCommand.frame ⟨command.code, axis, parameter⟩)
        = (c.behavior.outcome (c.machine.execute command axis parameter).1.frame, m') ∧
      Served ⟨c, config, state⟩ m'
        (if c.behavior.listens then [(command, axis, parameter)] else []) := by
  rcases hlistens : c.behavior.listens
  · exact attempt_of_deaf hrest hlistens _
  · exact attempt_of_listening hrest hlistens haxis hroom

/-! ### Retries -/

/-- A failed attempt is followed by the next. -/
theorem tryUpTo_succ_of_failed {frame : Bytes} {m m₁ : Master Controller} {a : Attempt}
    (h : m.attempt frame = (a, m₁)) (ha : a.reply? = none) (n : Nat) :
    tryUpTo frame (n + 1) m = (a :: (tryUpTo frame n m₁).1, (tryUpTo frame n m₁).2) := by
  rw [tryUpTo, h]
  cases a
  case accepted reply => cases ha
  all_goals rfl

/-- Without an answer every attempt is made, and a controller that listens
carries the command out in each. -/
theorem tryUpTo_command {command : MotorCommand} {axis : UInt8} (haxis : 1 ≤ axis ∧ axis ≤ 4)
    {parameter : Option Int32} {config : BusConfig} (hroom : 8 ≤ config.maxReply) (n : Nat) :
    ∀ {c : Controller} {state : BusState}, c.AtRest → c.behavior ≠ .normal →
      (∀ a ∈ (tryUpTo (PendingCommand.frame ⟨command.code, axis, parameter⟩) n
          ⟨c, config, state⟩).1, a.reply? = none) ∧
        Served ⟨c, config, state⟩
          (tryUpTo (PendingCommand.frame ⟨command.code, axis, parameter⟩) n ⟨c, config, state⟩).2
          (if c.behavior.listens then List.replicate n (command, axis, parameter) else []) := by
  induction n with
  | zero =>
    intro c state hrest _
    refine ⟨fun a ha => absurd ha List.not_mem_nil, hrest, rfl, rfl, ?_, ?_⟩
    · rcases c.behavior.listens <;> rfl
    · rcases c.behavior.listens <;> exact (List.append_nil _).symm
  | succ n ih =>
    intro c state hrest hb
    obtain ⟨⟨d, config', state'⟩, hattempt, hserved⟩ :=
      attempt_command hrest command haxis parameter hroom state
    obtain rfl : config' = config := hserved.config
    have hsame : d.behavior = c.behavior := hserved.ran.behavior
    have hfailed : (c.behavior.outcome (c.machine.execute command axis parameter).1.frame).reply?
        = none := by
      rcases hc : c.behavior
      case normal => exact absurd hc hb
      all_goals rfl
    obtain ⟨hlater, hrun⟩ := @ih d state' hserved.atRest (by rw [hsame]; exact hb)
    rw [tryUpTo_succ_of_failed hattempt hfailed]
    refine ⟨fun a ha => ?_, ?_⟩
    · rcases List.mem_cons.mp ha with rfl | ha
      · exact hfailed
      · exact hlater a ha
    · have hboth := hserved.trans hrun
      rw [hsame] at hboth
      rcases hl : c.behavior.listens <;> rw [hl] at hboth <;> exact hboth

end Master

/-! ### Exchanges -/

/-- How often one command is carried out in an exchange of so many attempts. -/
def Behavior.runs (attempts : Nat) : Behavior → Nat
  | .normal => 1
  | .corruptReply | .silent => attempts
  | .neverAck | .notReady => 0

/-- An exchange of failed attempts brings no reply. -/
theorem Exchange.reply_of_failed {x : Exchange} (h : ∀ a ∈ x.attempts, a.reply? = none) :
    x.reply = [] := by
  rw [reply]
  rcases hlast : x.attempts.getLast? with - | a
  · rfl
  · rw [Option.bind_some, h a (List.mem_of_getLast? hlast)]
    rfl

/-- An exchange of failed attempts brings no value. -/
theorem Exchange.value_of_failed {x : Exchange} (h : ∀ a ∈ x.attempts, a.reply? = none) :
    x.value = none := by
  rw [value, reply_of_failed h]
  rfl

namespace Master

/-- **One command, from rest to rest.**  A normal controller answers with the
number that its machine does; any other brings no value.  How often the command
is carried out depends on the behavior alone. -/
theorem command_served {m : Master Controller} (hrest : m.lines.AtRest) (command : MotorCommand)
    {axis : UInt8} (haxis : 1 ≤ axis ∧ axis ≤ 4) (parameter : Option Int32)
    (hattempts : 1 ≤ m.config.attempts) (hroom : 8 ≤ m.config.maxReply) :
    (m.command command axis parameter).1.value
        = (if m.lines.behavior = .normal then
            some (m.lines.machine.execute command axis parameter).1.number
          else none) ∧
      Served m (m.command command axis parameter).2
        (List.replicate (m.lines.behavior.runs m.config.attempts) (command, axis, parameter)) := by
  rcases m with ⟨c, config, state⟩
  by_cases hb : c.behavior = .normal
  · obtain ⟨n, hn⟩ : ∃ n, config.attempts = n + 1 := Nat.exists_eq_add_one.mpr hattempts
    obtain ⟨m', hattempt, hserved⟩ := attempt_command hrest command haxis parameter hroom state
    have hfirst : attempt ⟨c, config, state⟩ (PendingCommand.frame ⟨command.code, axis, parameter⟩)
        = (.accepted (c.machine.execute command axis parameter).1.frame, m') := by
      rw [hattempt, hb]
      rfl
    have hexchange : Master.command ⟨c, config, state⟩ command axis parameter
        = (⟨PendingCommand.frame ⟨command.code, axis, parameter⟩,
            [.accepted (c.machine.execute command axis parameter).1.frame]⟩, m') := by
      simp only [Master.command, transceive, hn, tryUpTo, hfirst]
    rw [hexchange, if_pos hb]
    refine ⟨interpretReply_frame _, ?_⟩
    rw [hb] at hserved ⊢
    exact hserved
  · obtain ⟨hall, hserved⟩ :=
      @tryUpTo_command command axis haxis parameter config hroom config.attempts c state hrest hb
    refine ⟨(Exchange.value_of_failed hall).trans (if_neg hb).symm, ?_⟩
    show Served _ (tryUpTo _ config.attempts _).2 _
    rcases hc : c.behavior
    case normal => exact absurd hc hb
    all_goals
      rw [hc] at hserved
      exact hserved

end Master

end MotionBridge
