/-
MotionBridge/Proofs/Router/Relay.lean

Frames from the host, relayed to a normal controller.

A frame for the controller goes out as it came, so it may be of any length.
One that carries a command and is not too long is received once, and answered
by the controller's machine (`attempt_answered`).  A shorter one is received in
every attempt and never answered; a longer one is dropped on its way in, and
what is stored of it is no beginning of a frame (`sendBytes_overgrown`).

Each of them leaves the controller at rest, so what the next frame meets does
not depend on those before it, but for the machine (`handle_controller`).
-/
import MotionBridge.Proofs.Bus.Receivers
import MotionBridge.Proofs.Bus.Settled
import MotionBridge.Router

namespace MotionBridge

/-! ### The machine's reply -/

/-- What a machine replies to a command byte, and the machine behind it: the
value that a query asks for, a one for any other command, and a zero for a byte
that stands for no command. -/
def IdealMachine.reply (a : IdealMachine) (wire : UInt8) (parameter : Option Int32) :
    Bytes × IdealMachine :=
  match MotorCommand.ofWire wire with
  | none => (enclose [0x30], a)
  | some (c, axis) =>
    (if c.isQuery then valueReply (a.step (c, axis, parameter)).1 else enclose [0x31],
      (a.step (c, axis, parameter)).2)

/-- A reply is never empty, and no longer than a value. -/
theorem IdealMachine.length_reply (a : IdealMachine) (wire : UInt8) (parameter : Option Int32) :
    4 ≤ (a.reply wire parameter).1.length ∧ (a.reply wire parameter).1.length ≤ 8 := by
  rw [reply]
  rcases MotorCommand.ofWire wire with - | ⟨c, axis⟩
  · exact ⟨Nat.le_refl 4, Nat.le_add_left 4 4⟩
  · by_cases hquery : c.isQuery = true
    · simp [hquery, valueReply, Base128.width]
    · simp [hquery]

/-- Queries are answered with a value, all other commands are acknowledged. -/
theorem Machine.frame_execute (m : Machine) (call : Call) :
    (m.execute call.1 call.2.1 call.2.2).1.frame
      = if call.1.isQuery then valueReply (m.ideal.step call).1 else enclose [0x31] := by
  have hanswer : (m.execute call.1 call.2.1 call.2.2).1
      = if call.1.isQuery then .value (m.execute call.1 call.2.1 call.2.2).1.number
        else .done := by
    obtain ⟨c, axis, parameter⟩ := call
    cases c <;> cases parameter <;> rfl
  rw [hanswer, (m.ideal_execute call).1]
  split <;> rfl

/-- A frame has a command exactly if it is long enough for one. -/
theorem Frame.command_cases (f : Frame) :
    (f.bytes.length < 5 ∧ f.command = none) ∨
      (5 ≤ f.bytes.length ∧ ∃ wire, f.command = some wire) := by
  by_cases hshort : f.bytes.length < 5
  · exact .inl ⟨hshort, if_pos hshort⟩
  · have htwo : 2 < f.bytes.length := by omega
    refine .inr ⟨Nat.le_of_not_lt hshort, f.bytes[2], ?_⟩
    rw [command, if_neg hshort, List.getElem?_eq_getElem htwo]

namespace Controller

variable {c : Controller} {frame : Bytes}

/-- A frame that carries no command has no answer. -/
theorem answer_of_short (hframe : IsFrame frame) (hshort : frame.length < 5) (c : Controller) :
    c.answer frame = c := by
  have hcommand : (frameAt 0 frame).command = none := if_pos hshort
  simp only [answer, respond, hframe.validate_eq, hcommand]

/-- **A frame that carries a command is answered by the machine.** -/
theorem respond_of_command (c : Controller) (hframe : IsFrame frame) {wire : UInt8}
    (hcommand : (frameAt 0 frame).command = some wire) :
    ∃ (a : MotorAnswer) (machine : Machine) (executed : Array Call),
      c.respond frame = (some a.frame, { c with machine, executed }) ∧
        (a.frame, machine.ideal) = c.machine.ideal.reply wire (frameAt 0 frame).parameter := by
  rcases hof : MotorCommand.ofWire wire with - | ⟨command, axis⟩
  · refine ⟨.unknown, c.machine, c.executed, ?_, ?_⟩
    · simp only [respond, hframe.validate_eq, hcommand, hof]
    · rw [IdealMachine.reply, hof]
      rfl
  · obtain ⟨-, hmachine⟩ := c.machine.ideal_execute (command, axis, (frameAt 0 frame).parameter)
    have hreply := c.machine.frame_execute (command, axis, (frameAt 0 frame).parameter)
    refine ⟨(c.machine.execute command axis (frameAt 0 frame).parameter).1,
      (c.machine.execute command axis (frameAt 0 frame).parameter).2,
      c.executed.push (command, axis, (frameAt 0 frame).parameter), ?_, ?_⟩
    · simp only [respond, hframe.validate_eq, hcommand, hof]
    · rw [IdealMachine.reply, hof]
      exact Prod.ext hreply hmachine

/-- From one state to another the controller has received some frames and its
machine has become another; it is at rest again, and behaves as before. -/
structure Took (c d : Controller) (frames : List Bytes) (machine : IdealMachine) : Prop where
  atRest : d.AtRest
  behavior : d.behavior = c.behavior
  received : d.received.toList = c.received.toList ++ frames
  machine : d.machine.ideal = machine

theorem Took.trans {d e : Controller} {xs ys : List Bytes} {between behind : IdealMachine}
    (h : c.Took d xs between) (h' : d.Took e ys behind) : c.Took e (xs ++ ys) behind where
  atRest := h'.atRest
  behavior := h'.behavior.trans h.behavior
  received := by rw [h'.received, h.received, List.append_assoc]
  machine := h'.machine

/-- What the controller receives of a frame that is sent to it so often. -/
def receipts (frame : Bytes) (n : Nat) : List Bytes :=
  if frame.length ≤ maxFrame then List.replicate n frame else []

theorem receipts_succ (frame : Bytes) (n : Nat) :
    receipts frame (n + 1) = receipts frame 1 ++ receipts frame n := by
  rw [receipts, receipts, receipts]
  split <;> rfl

end Controller

namespace Master

section Attempt

variable {c : Controller} {config : BusConfig} {state : BusState} {frame : Bytes}

theorem listens_of_normal (hnormal : c.behavior = .normal) : c.behavior.listens = true := by
  rw [hnormal]
  rfl

/-! ### Frames that are answered -/

/-- A controller that has received a frame and has a reply ready. -/
structure Prepared (c d : Controller) (frame : Bytes) (a : MotorAnswer) : Prop where
  turn : d.turn = .armed a.frame
  clockHigh : d.clockHigh = true
  latched : d.latched = none
  behavior : d.behavior = c.behavior
  received : d.received.toList = c.received.toList ++ [frame]

/-- A frame with a command is received, and the machine's reply made ready. -/
theorem send_answered (hrest : c.AtRest) (hnormal : c.behavior = .normal)
    (hframe : IsFrame frame) (hlen : frame.length ≤ Controller.maxFrame) {wire : UInt8}
    (hcommand : (frameAt 0 frame).command = some wire) :
    ∃ d a, send ⟨c, config, state⟩ frame = (.ok (), ⟨d, config, .done⟩) ∧
      Prepared c d frame a ∧
      (a.frame, d.machine.ideal) = c.machine.ideal.reply wire (frameAt 0 frame).parameter := by
  obtain ⟨body, hbody, heq⟩ := hframe.marked
  have hlength : frame.length = body.length + 2 := by
    rw [heq]
    simp
  have hsent := send_marked hrest (listens_of_normal hnormal) hbody (hlength ▸ hlen) config state
  rw [← heq] at hsent
  have hheard := (hrest.facing .output).heard (body.length + 2) frame
  obtain ⟨a, machine, executed, hrespond, hreply⟩ :=
    Controller.respond_of_command
      (Controller.heard { c with hostDirection := .output } (body.length + 2) frame) hframe hcommand
  rw [Controller.answer_of_some hrespond hheard.listening] at hsent
  have hturn : Controller.replyTurn c.behavior a.frame = .armed a.frame := by
    rw [hnormal]
    rfl
  exact ⟨_, a, hsent, ⟨hturn, hrest.clockHigh, hrest.latched, rfl, Array.toList_push⟩, hreply⟩

/-- **A frame with a command is received once, and its reply accepted.** -/
theorem attempt_answered (hrest : c.AtRest) (hnormal : c.behavior = .normal)
    (hframe : IsFrame frame) (hlen : frame.length ≤ Controller.maxFrame) {wire : UInt8}
    (hcommand : (frameAt 0 frame).command = some wire) (hroom : 8 ≤ config.maxReply) :
    ∃ d state', attempt ⟨c, config, state⟩ frame
        = (.accepted (c.machine.ideal.reply wire (frameAt 0 frame).parameter).1,
            ⟨d, config, state'⟩) ∧
      c.Took d [frame] (c.machine.ideal.reply wire (frameAt 0 frame).parameter).2 := by
  obtain ⟨d, a, hsend, hprepared, hreply⟩ :=
    @send_answered c config state frame hrest hnormal hframe hlen wire hcommand
  have hready : d.behavior ≠ .notReady := by
    rw [hprepared.behavior, hnormal]
    exact nofun
  rw [← hreply]
  refine ⟨_, _, attempt_of_armed hsend hready hprepared.clockHigh hprepared.turn ?_,
    ⟨rfl, rfl, hprepared.clockHigh, hprepared.latched⟩, hprepared.behavior, hprepared.received, rfl⟩
  -- the reply is one of the machine's, and none of them is too long
  have hlength := (c.machine.ideal.length_reply wire (frameAt 0 frame).parameter).2
  rw [← hreply] at hlength
  exact Nat.le_trans hlength hroom

/-! ### Frames that are not -/

/-- A frame that is sent and leaves the controller at rest is waited for in
vain. -/
theorem attempt_of_silence {d : Controller}
    (hsend : send ⟨c, config, state⟩ frame = (.ok (), ⟨d, config, .done⟩)) (hrest : d.AtRest)
    (hready : d.behavior ≠ .notReady) :
    attempt ⟨c, config, state⟩ frame
      = (.receiveFailed (.timeout .replyStart),
          ⟨{ d with hostDirection := .input }, config, .idle⟩) := by
  simp only [attempt, hsend, receive_of_rest hrest hready config .done]

/-- The rest of a frame that grows too long: it is dropped with the byte for
which there is no room, and what follows that begins no frame. -/
theorem sendBytes_overgrown (config : BusConfig) {body : Bytes} (hbody : Unmarked body) :
    ∀ {c : Controller} {front : Bytes} (state : BusState), c.AtRest →
      c.behavior.listens = true → c.incoming = stx :: front →
      Controller.maxFrame < front.length + body.length + 2 →
      ∃ d state', sendBytes (body ++ [etx]) ⟨c, config, state⟩ = (.ok (), ⟨d, config, state'⟩) ∧
        c.Unheard d := by
  induction body with
  | nil =>
    -- the end mark is the byte for which there is no room
    intro c front state hrest hlistens hbegun hlong
    have hfull : Controller.maxFrame ≤ (c.clocked etx).incoming.length := by
      show _ ≤ c.incoming.length
      rw [hbegun, List.length_cons]
      rw [List.length_nil] at hlong
      omega
    refine ⟨c.holding etx [], .nextByte, ?_, c.unheard_holding etx []⟩
    rw [List.nil_append, sendBytes_cons hrest hlistens,
      Controller.acceptByte_of_full (by decide) hfull]
    rfl
  | cons x body ih =>
    intro c front state hrest hlistens hbegun hlong
    obtain ⟨hs, he⟩ := hbody x (List.mem_cons_self ..)
    have hunmarked : Unmarked body := fun y hy => hbody y (List.mem_cons_of_mem x hy)
    rw [List.length_cons] at hlong
    rw [List.cons_append, sendBytes_cons hrest hlistens]
    by_cases hspace : c.incoming.length < Controller.maxFrame
    · -- there is room for this one still
      have hbegunNext : (c.holding x (c.incoming ++ [x])).incoming = stx :: (front ++ [x]) := by
        show c.incoming ++ [x] = _
        rw [hbegun]
        rfl
      have hlongStill : Controller.maxFrame < (front ++ [x]).length + body.length + 2 := by
        rw [List.length_append, List.length_singleton]
        omega
      obtain ⟨d, state', hrun, hunheard⟩ := ih hunmarked .nextByte (hrest.holding x _) hlistens
        hbegunNext hlongStill
      rw [Controller.acceptByte_of_ne hs he hspace]
      exact ⟨d, state', hrun, (c.unheard_holding x _).trans hunheard⟩
    · obtain ⟨d, state', hrun, hunheard⟩ := sendBytes_of_not_begun config hunmarked.stx_not_mem
        .nextByte (hrest.holding x []) hlistens nofun
      rw [Controller.acceptByte_of_full (c := c.clocked x) hs (Nat.le_of_not_lt hspace)]
      exact ⟨d, state', hrun, (c.unheard_holding x []).trans hunheard⟩

/-- **A frame without an answer** is received if it is not too long, and is
waited for in vain. -/
theorem attempt_unanswered (hrest : c.AtRest) (hnormal : c.behavior = .normal)
    (hframe : IsFrame frame) (hlen : frame.length < 5 ∨ Controller.maxFrame < frame.length) :
    ∃ d state', attempt ⟨c, config, state⟩ frame
        = (.receiveFailed (.timeout .replyStart), ⟨d, config, state'⟩) ∧
      c.Took d (Controller.receipts frame 1) c.machine.ideal := by
  have hlistens := listens_of_normal hnormal
  have hready : c.behavior ≠ .notReady := (Behavior.listens_iff.mp hlistens).2
  have hopen := hrest.facing .output
  obtain ⟨body, hbody, heq⟩ := hframe.marked
  have hlength : frame.length = body.length + 2 := by
    rw [heq]
    simp
  by_cases hfits : frame.length ≤ Controller.maxFrame
  · -- it is received, and carries no command
    have hsent := send_marked hrest hlistens hbody (hlength ▸ hfits) config state
    have hshort := hlen.resolve_right (Nat.not_lt_of_le hfits)
    rw [← heq, Controller.answer_of_short hframe hshort] at hsent
    have hheard := hopen.heard (body.length + 2) frame
    refine ⟨_, _, attempt_of_silence hsent (hheard.facing .input) hready, ?_⟩
    rw [Controller.receipts, if_pos hfits]
    exact ⟨(hheard.facing .input).facing .input, rfl, Array.toList_push, rfl⟩
  · -- it begins, and outgrows the room there is
    have hbegun : Controller.maxFrame < ([] : Bytes).length + body.length + 2 := by
      rw [List.length_nil]
      omega
    obtain ⟨d, state', hbytes, hunheard⟩ := sendBytes_overgrown config hbody .nextByte
      (hopen.holding stx [stx]) hlistens rfl hbegun
    have hpassed := (Controller.unheard_holding { c with hostDirection := .output } stx
      [stx]).trans hunheard
    have hbytesAll : sendBytes frame ⟨{ c with hostDirection := .output }, config, .checkReady⟩
        = (.ok (), ⟨d, config, state'⟩) := by
      rw [heq, List.cons_append, sendBytes_cons hopen hlistens, Controller.acceptByte_stx]
      exact hbytes
    have hsent := send_of_sendBytes hrest hlistens state hbytesAll
    have hdrest := (hpassed.atRest hopen).facing .input
    have hran := hpassed.ran
    refine ⟨_, _, attempt_of_silence hsent hdrest (hran.behavior ▸ hready), ?_⟩
    rw [Controller.receipts, if_neg hfits]
    exact ⟨hdrest.facing .input, hran.behavior,
      (congrArg Array.toList hpassed.received).trans (List.append_nil _).symm,
      congrArg Machine.ideal hran.machine⟩

/-- **However often it is tried**, a frame without an answer brings none, and is
received in each attempt or in none. -/
theorem tryUpTo_unanswered (hframe : IsFrame frame)
    (hlen : frame.length < 5 ∨ Controller.maxFrame < frame.length) (n : Nat) :
    ∀ {c : Controller} {state : BusState}, c.AtRest → c.behavior = .normal →
      ∃ attempts d state', tryUpTo frame n ⟨c, config, state⟩ = (attempts, ⟨d, config, state'⟩) ∧
        (∀ a ∈ attempts, a.reply? = none) ∧
        c.Took d (Controller.receipts frame n) c.machine.ideal := by
  induction n with
  | zero =>
    intro c state hrest _
    have hnone : Controller.receipts frame 0 = [] := by
      rw [Controller.receipts]
      split <;> rfl
    rw [hnone]
    exact ⟨[], c, .idle, rfl, fun a ha => absurd ha List.not_mem_nil, hrest, rfl,
      (List.append_nil _).symm, rfl⟩
  | succ n ih =>
    intro c state hrest hnormal
    obtain ⟨d, state', hattempt, htook⟩ :=
      @attempt_unanswered c config state frame hrest hnormal hframe hlen
    obtain ⟨attempts, e, state'', hlater, hnone, htookLater⟩ :=
      @ih d state' htook.atRest (htook.behavior.trans hnormal)
    rw [htook.machine] at htookLater
    rw [tryUpTo_succ_of_failed hattempt rfl, hlater, Controller.receipts_succ]
    refine ⟨_, e, state'', rfl, fun a ha => ?_, htook.trans htookLater⟩
    rcases List.mem_cons.mp ha with rfl | ha
    · rfl
    · exact hnone a ha

end Attempt

end Master

/-! ### The router -/

namespace Router

variable {ξ : Type}

/-- A router with a normal controller at rest, which it asks so often. -/
structure Serves (config : BusConfig) (r : Router Controller ξ) : Prop where
  atRest : r.bus.lines.AtRest
  normal : r.bus.lines.behavior = .normal
  config : r.bus.config = config

variable {config : BusConfig} {r : Router Controller ξ} {f : Frame}

/-- A new router serves. -/
theorem serves_start (config : BusConfig) (machine : Machine) (board : Board ξ) :
    Serves config ⟨Master.start { machine } config, board⟩ :=
  ⟨⟨rfl, rfl, rfl, rfl⟩, rfl, rfl⟩

/-- A frame that has been relayed: what became of it, what the controller has
received of it, and what its machine is now. -/
structure Relayed (r : Router Controller ξ) (h : Handled (Router Controller ξ))
    (dispatch : Dispatch) (frames : List Bytes) (machine : IdealMachine) : Prop where
  dispatch : h.dispatch = dispatch
  config : h.state.bus.config = r.bus.config
  took : r.bus.lines.Took h.state.bus.lines frames machine

theorem Relayed.serves {h : Handled (Router Controller ξ)} {dispatch : Dispatch}
    {frames : List Bytes} {machine : IdealMachine} (hr : r.Serves config)
    (hrelayed : r.Relayed h dispatch frames machine) : h.state.Serves config :=
  ⟨hrelayed.took.atRest, hrelayed.took.behavior.trans hr.normal, hrelayed.config.trans hr.config⟩

/-- What a frame's exchange comes to. -/
theorem forward_of_transceive {x : Exchange} {bus : Master Controller}
    (h : r.bus.transceive f.bytes = (x, bus)) :
    (r.forward f).dispatch
        = (if x.reply = [] then .unreachable else .reply (x.reply.take r.bus.config.maxReply)) ∧
      (r.forward f).state = { r with bus } := by
  rw [forward, h]
  refine ⟨?_, rfl⟩
  simp only [List.isEmpty_iff, dataReply]

/-- **A frame with a command is relayed once**, and its reply passed on whole. -/
theorem forward_answered (hr : r.Serves config) (hattempts : 1 ≤ config.attempts)
    (hroom : 8 ≤ config.maxReply) (hframe : IsFrame f.bytes)
    (hlen : f.bytes.length ≤ Controller.maxFrame) {wire : UInt8}
    (hcommand : f.command = some wire) :
    r.Relayed (r.forward f) (.reply (r.bus.lines.machine.ideal.reply wire f.parameter).1)
      [f.bytes] (r.bus.lines.machine.ideal.reply wire f.parameter).2 := by
  rcases r with ⟨⟨c, config', state⟩, board⟩
  obtain rfl : config' = config := hr.config
  obtain ⟨n, hn⟩ : ∃ n, config'.attempts = n + 1 := Nat.exists_eq_add_one.mpr hattempts
  obtain ⟨d, state', hattempt, htook⟩ := @Master.attempt_answered c config' state f.bytes
    hr.atRest hr.normal hframe hlen wire hcommand hroom
  have htransceive : Master.transceive ⟨c, config', state⟩ f.bytes
      = (⟨f.bytes, [.accepted (c.machine.ideal.reply wire f.parameter).1]⟩,
          ⟨d, config', state'⟩) := by
    simp only [Master.transceive, hn, Master.tryUpTo]
    rw [hattempt]
    rfl
  obtain ⟨hdispatch, hstate⟩ := @forward_of_transceive ξ ⟨⟨c, config', state⟩, board⟩ f _ _
    htransceive
  -- the reply is there, and within the limit to which the router cuts it
  obtain ⟨hlow, hhigh⟩ := c.machine.ideal.length_reply wire f.parameter
  have hnonempty : (c.machine.ideal.reply wire f.parameter).1 ≠ [] := by
    rw [← List.length_pos_iff]
    omega
  have huncut := List.take_of_length_le (Nat.le_trans hhigh hroom)
  refine ⟨?_, ?_, ?_⟩
  · rw [hdispatch]
    show (if (c.machine.ideal.reply wire f.parameter).1 = [] then Dispatch.unreachable else _) = _
    rw [if_neg hnonempty]
    exact congrArg Dispatch.reply huncut
  · rw [hstate]
  · rw [hstate]
    exact htook

/-- **A frame without an answer is relayed in every attempt**, if it is not too
long to be received, and reported unreachable. -/
theorem forward_unanswered (hr : r.Serves config) (hframe : IsFrame f.bytes)
    (hlen : f.bytes.length < 5 ∨ Controller.maxFrame < f.bytes.length) :
    r.Relayed (r.forward f) .unreachable (Controller.receipts f.bytes config.attempts)
      r.bus.lines.machine.ideal := by
  rcases r with ⟨⟨c, config', state⟩, board⟩
  obtain rfl : config' = config := hr.config
  obtain ⟨attempts, d, state', htried, hnone, htook⟩ := @Master.tryUpTo_unanswered config' f.bytes
    hframe hlen config'.attempts c state hr.atRest hr.normal
  have htransceive : Master.transceive ⟨c, config', state⟩ f.bytes
      = (⟨f.bytes, attempts⟩, ⟨d, config', state'⟩) := by
    simp only [Master.transceive, htried]
  obtain ⟨hdispatch, hstate⟩ := @forward_of_transceive ξ ⟨⟨c, config', state⟩, board⟩ f _ _
    htransceive
  refine ⟨?_, ?_, ?_⟩
  · rw [hdispatch, if_pos (Exchange.reply_of_failed hnone)]
  · rw [hstate]
  · rw [hstate]
    exact htook

/-! ### Sessions -/

variable [Expander ξ]

/-- The router behind some frames, each handled at a time of its own. -/
def serve (r : Router Controller ξ) (frames : List (Nat × Frame)) : Router Controller ξ :=
  frames.foldl (fun r x => (handle x.1 x.2 r).state) r

/-- A frame for the controller carries its address, so it is no shorter than
four bytes. -/
theorem length_of_controllerNode {buffer : Bytes} (hf : validate buffer = .ok f)
    (hnode : f.node = controllerNode) : IsFrame f.bytes ∧ 4 ≤ f.bytes.length := by
  obtain ⟨noise, rest, -, -, hframe, heq⟩ := validate_ok_iff.mp hf
  refine ⟨hframe, Nat.lt_of_not_le fun hthree => ?_⟩
  obtain ⟨body, -, hbytes⟩ := hframe.marked
  have hone : body.length = 1 := by
    have hlow := hframe.three_le_length
    rw [hbytes] at hlow hthree
    simp only [List.length_append, List.length_cons, List.length_nil] at hlow hthree
    omega
  obtain ⟨sum, rfl⟩ := List.length_eq_one_iff.mp hone
  -- the one byte is the checksum of nothing, which is no address of the controller
  have hsum : (sum == Checksum.ofBody []) = true := by
    rw [← closes_marked [] sum]
    exact hbytes ▸ hframe.closes
  have hother : (frameAt 0 [stx, Checksum.ofBody [], etx]).node ≠ controllerNode := by decide
  rw [heq, hbytes, beq_iff_eq.mp hsum] at hnode
  exact hother hnode

/-- **A frame leaves a router serving** as it was. -/
theorem Serves.handle (hr : r.Serves config) (hattempts : 1 ≤ config.attempts)
    (hroom : 8 ≤ config.maxReply) {buffer : Bytes} (hf : validate buffer = .ok f) (now : Time) :
    (handle now f r).state.Serves config := by
  obtain ⟨-, -, -, -, hframe, -⟩ := validate_ok_iff.mp hf
  rw [Router.handle]
  by_cases hnode : f.node = controllerNode
  · rw [if_pos hnode]
    by_cases hanswered : 5 ≤ f.bytes.length ∧ f.bytes.length ≤ Controller.maxFrame
    · obtain ⟨hshort, -⟩ | ⟨-, wire, hcommand⟩ := f.command_cases
      · omega
      · exact (forward_answered hr hattempts hroom hframe hanswered.2 hcommand).serves hr
    · exact (forward_unanswered hr hframe (by omega)).serves hr
  · rw [if_neg hnode]
    -- no other frame concerns the bus
    split
    · rw [runLocal]
      split
      · exact hr
      · exact ⟨hr.atRest, hr.normal, hr.config⟩
    · exact hr

/-- **A router serves behind every session** of frames. -/
theorem Serves.serve (hattempts : 1 ≤ config.attempts) (hroom : 8 ≤ config.maxReply)
    (frames : List (Nat × Frame)) :
    ∀ {r : Router Controller ξ}, r.Serves config →
      (∀ x ∈ frames, ∃ buffer, validate buffer = .ok x.2) → (r.serve frames).Serves config := by
  induction frames with
  | nil => exact fun hr _ => hr
  | cons x frames ih =>
    intro r hr hframes
    obtain ⟨buffer, hf⟩ := hframes x (List.mem_cons_self ..)
    exact ih (hr.handle hattempts hroom hf x.1) fun y hy => hframes y (List.mem_cons_of_mem x hy)

/-- **A frame for the controller, in any session.**  It holds a command, and is
received once and answered, unless it is too short, and received in every
attempt, or too long, and never received; it is then unreachable.  In either
case the controller is left at rest, with its signal high. -/
theorem handle_controller (hattempts : 1 ≤ config.attempts) (hroom : 8 ≤ config.maxReply)
    (machine : Machine) (board : Board ξ) {earlier : List (Nat × Frame)}
    (hearlier : ∀ x ∈ earlier, ∃ buffer, validate buffer = .ok x.2) {buffer : Bytes}
    (hf : validate buffer = .ok f) (hnode : f.node = controllerNode) (now : Time) :
    let r := serve ⟨Master.start { machine } config, board⟩ earlier
    let h := handle now f r
    let c := r.bus.lines
    let d := h.state.bus.lines
    (5 ≤ f.bytes.length → f.bytes.length ≤ Controller.maxFrame →
        ∃ wire, f.command = some wire ∧
          h.dispatch = .reply (c.machine.ideal.reply wire f.parameter).1 ∧
          d.machine.ideal = (c.machine.ideal.reply wire f.parameter).2 ∧
          d.received.toList = c.received.toList ++ [f.bytes]) ∧
      (f.bytes.length = 4 →
        h.dispatch = .unreachable ∧ d.machine.ideal = c.machine.ideal ∧
          d.received.toList = c.received.toList ++ List.replicate config.attempts f.bytes) ∧
      (Controller.maxFrame < f.bytes.length →
        h.dispatch = .unreachable ∧ d.machine.ideal = c.machine.ideal ∧
          d.received.toList = c.received.toList) ∧
      4 ≤ f.bytes.length ∧ d.AtRest ∧ d.peerLevel = true := by
  obtain ⟨hframe, hfour⟩ := length_of_controllerNode hf hnode
  have hr := (serves_start config machine board).serve hattempts hroom earlier hearlier
  obtain ⟨hrest, hnormal, -⟩ := hr.handle hattempts hroom hf now
  have hforward : handle now f (serve ⟨Master.start { machine } config, board⟩ earlier)
      = (serve ⟨Master.start { machine } config, board⟩ earlier).forward f := if_pos hnode
  refine ⟨fun hlong hfits => ?_, fun hshort => ?_, fun hlong => ?_, hfour, hrest,
    hrest.peerLevel (by rw [hnormal]; exact nofun)⟩
  · obtain ⟨hshort, -⟩ | ⟨-, wire, hcommand⟩ := f.command_cases
    · omega
    · have hrelayed := forward_answered hr hattempts hroom hframe hfits hcommand
      rw [hforward]
      exact ⟨wire, hcommand, hrelayed.dispatch, hrelayed.took.machine, hrelayed.took.received⟩
  · have hrelayed := forward_unanswered hr hframe (by omega)
    rw [Controller.receipts, if_pos (hshort ▸ by decide)] at hrelayed
    rw [hforward]
    exact ⟨hrelayed.dispatch, hrelayed.took.machine, hrelayed.took.received⟩
  · have hrelayed := forward_unanswered hr hframe (.inr hlong)
    rw [Controller.receipts, if_neg (Nat.not_le_of_lt hlong)] at hrelayed
    rw [hforward]
    exact ⟨hrelayed.dispatch, hrelayed.took.machine,
      hrelayed.took.received.trans (List.append_nil _)⟩

/-- A move, behind a frame that is too long, one that is too short, and one for
the board. -/
theorem handle_controller_of_move :
    let earlier := [(0, frameAt 0 (enclose (0x0B :: List.replicate 70 0x20))),
      (0, frameAt 0 (enclose [0x0B])), (0, frameAt 0 (enclose [0x0D, 0x21]))]
    let move := frameAt 0 (enclose (0x0B :: 0x08 :: Base128.encode 5))
    (∀ x ∈ earlier, ∃ buffer, validate buffer = .ok x.2) ∧
      validate move.bytes = .ok move ∧ move.node = controllerNode ∧
      (handle 0 move (serve ⟨Master.start {} { attempts := 2, maxReply := 8 },
        Board.start ({} : Pins) {} 0⟩ earlier)).dispatch = .reply (enclose [0x31]) := by
  intro earlier move
  have hearlier : ∀ x ∈ earlier, ∃ buffer, validate buffer = .ok x.2 := by
    have hframes : ∀ body, Unmarked body →
        ∃ buffer, validate buffer = .ok (frameAt 0 (enclose body)) := fun body h =>
      ⟨enclose body, (isFrame_enclose h).validate_eq⟩
    simp only [earlier, List.forall_mem_cons]
    exact ⟨hframes _ (by decide), hframes _ (by decide), hframes _ (by decide), nofun⟩
  have hmove : validate move.bytes = .ok move := (isFrame_enclose (by decide)).validate_eq
  have hnode : move.node = controllerNode := by decide
  refine ⟨hearlier, hmove, hnode, ?_⟩
  obtain ⟨wire, hcommand, hdispatch, -⟩ :=
    (@handle_controller Pins { attempts := 2, maxReply := 8 } move _ (by decide) (by decide) {}
      (Board.start {} {} 0) earlier hearlier _ hmove hnode 0).1 (by decide) (by decide)
  cases hcommand
  exact hdispatch

end Router

end MotionBridge
