/-
MotionBridge/Proofs/Bus/Overlong.lean

Replies that are longer than the master takes.

The master gives such a reply up in the middle and puts its own lines to rest,
but the controller stays *stalled*: it keeps offering the next byte, its
signal low, and waits for clock edges that no later attempt makes.  A stalled
controller refuses every frame and stays stalled (`attempt_stalled`).

So what a session of commands brings is decided by the first command whose
reply does not fit (`run_commands`): every command before it is answered, it is
itself carried out once without an answer, and no command after it is carried
out at all, whether its own reply would fit or not.
-/
import MotionBridge.Proofs.Bus.Refinement

namespace MotionBridge

/-! ### The length of a reply -/

/-- A value takes eight bytes, an acknowledgement four. -/
def MotorCommand.replyLength (c : MotorCommand) : Nat :=
  if c.isQuery then 8 else 4

/-- The reply to a command has the length that goes with the command. -/
theorem Machine.length_frame_execute (m : Machine) (c : MotorCommand) (axis : UInt8)
    (parameter : Option Int32) : (m.execute c axis parameter).1.frame.length = c.replyLength := by
  cases c <;> cases parameter <;> rfl

/-- Whether the master takes a command's reply whole. -/
def BusConfig.Fits (config : BusConfig) (call : Call) : Prop :=
  call.1.replyLength ≤ config.maxReply

instance (config : BusConfig) (call : Call) : Decidable (config.Fits call) :=
  inferInstanceAs (Decidable (_ ≤ _))

/-! ### A stalled controller -/

namespace Controller

/-- A controller that was left in the middle of its reply: it offers a byte
and waits for the clock to fall. -/
structure Stalled (c : Controller) : Prop where
  replying : ∃ reply index, c.turn = .replying reply index
  signal : c.signal = false
  clockHigh : c.clockHigh = true

/-- Setting the clock high once more does not move a stalled controller. -/
theorem Stalled.onClock_high {c : Controller} (h : c.Stalled) : c.onClock true = c := by
  obtain ⟨⟨reply, index, hturn⟩, -, hclock⟩ := h
  rcases c with ⟨behavior, turn, signal, clockHigh⟩
  obtain rfl : turn = .replying reply index := hturn
  obtain rfl : clockHigh = true := hclock
  rfl

theorem Stalled.facing {c : Controller} (h : c.Stalled) (direction : Direction) :
    Stalled { c with hostDirection := direction } :=
  ⟨h.replying, h.signal, h.clockHigh⟩

end Controller

namespace Master

/-- From one master to another some commands have been carried out, and the
controller is stalled. -/
structure Wedged (m m' : Master Controller) (calls : List Call) : Prop where
  stalled : m'.lines.Stalled
  config : m'.config = m.config
  ran : m.lines.Ran m'.lines calls

/-- Where nothing happens, nothing is carried out. -/
theorem ran_refl (c : Controller) : c.Ran c [] :=
  ⟨rfl, rfl, (List.append_nil _).symm⟩

/-- Nothing is carried out where only the direction changes. -/
theorem ran_facing (c : Controller) (direction : Direction) :
    c.Ran { c with hostDirection := direction } [] :=
  ⟨rfl, rfl, (List.append_nil _).symm⟩

section Stalled

variable {c : Controller} {config : BusConfig} {state : BusState}

/-- Giving up leaves a stalled controller as it is, but for the direction. -/
theorem abort_stalled (h : c.Stalled) :
    abort ⟨c, config, state⟩ = ⟨{ c with hostDirection := .input }, config, .idle⟩ := by
  have hclock : setClock ⟨c, config, state⟩ true = ⟨c, config, state⟩ := by
    show Master.mk (Controller.onClock c true) _ _ = _
    rw [h.onClock_high]
  rw [abort, hclock]
  rfl

/-- **A stalled controller refuses every frame**, and stays stalled. -/
theorem attempt_stalled (h : c.Stalled) (frame : Bytes) :
    attempt ⟨c, config, state⟩ frame
      = (.sendFailed .peerNotReady, ⟨{ c with hostDirection := .input }, config, .idle⟩) := by
  have hlevel : c.peerLevel = false := Controller.peerLevel_of_low h.signal
  simp only [attempt, send, sendRaw, checkReady_eq, hlevel, abort_stalled h]

/-- However often a frame is tried on a stalled controller, nothing comes of
it. -/
theorem tryUpTo_stalled (frame : Bytes) (n : Nat) :
    ∀ {c : Controller} {state : BusState}, c.Stalled →
      (∀ a ∈ (tryUpTo frame n ⟨c, config, state⟩).1, a.reply? = none) ∧
        Wedged ⟨c, config, state⟩ (tryUpTo frame n ⟨c, config, state⟩).2 [] := by
  induction n with
  | zero =>
    intro c state h
    exact ⟨fun a ha => absurd ha List.not_mem_nil, h, rfl, ran_refl c⟩
  | succ n ih =>
    intro c state h
    obtain ⟨hlater, hwedged⟩ := @ih { c with hostDirection := .input } .idle (h.facing .input)
    rw [tryUpTo_succ_of_failed (attempt_stalled h frame) rfl]
    refine ⟨fun a ha => ?_, hwedged.stalled, hwedged.config,
      (ran_facing c .input).trans hwedged.ran⟩
    rcases List.mem_cons.mp ha with rfl | ha
    · rfl
    · exact hlater a ha

end Stalled

/-! ### Receiving too much -/

/-- A reply whose end mark lies beyond what is taken is given up where the
room ends, with its next byte on offer. -/
theorem receiveBytes_overlong (config : BusConfig) (state : BusState) (room : Nat) :
    ∀ {c : Controller} {taken front : Bytes}, (∀ x ∈ front, x ≠ etx) → room ≤ front.length →
      c.behavior ≠ .notReady → c.turn = .replying (taken ++ (front ++ [etx])) taken.length →
      c.signal = false → c.clockHigh = true →
      ∃ d, receiveBytes room ⟨c, config, state⟩ = (.error .replyOverflow, ⟨d, config, state⟩) ∧
        d.Stalled ∧ c.Ran d [] := by
  induction room with
  | zero =>
    intro c taken front _ _ _ hturn hsignal hclock
    exact ⟨c, rfl, ⟨⟨_, _, hturn⟩, hsignal, hclock⟩, ran_refl c⟩
  | succ room ih =>
    intro c taken front hfront hroom hready hturn hsignal hclock
    rcases front with - | ⟨x, front⟩
    · cases hroom
    have hrest : ∀ y ∈ front, y ≠ etx := fun y hy => hfront y (List.mem_cons_of_mem x hy)
    obtain ⟨d, hbehind, hstalled, hran⟩ :=
      @ih (c.offering (taken ++ [x] ++ (front ++ [etx])) (taken ++ [x]).length) (taken ++ [x]) front
        hrest (Nat.le_of_succ_le_succ hroom) hready rfl rfl hclock
    refine ⟨d, ?_, hstalled, hran.behavior, hran.machine, hran.executed⟩
    rw [receiveBytes_of_ne hready hturn hclock (hfront x (List.mem_cons_self ..)), hbehind]

/-- **An overlong reply stalls the controller.** -/
theorem receive_overlong {c : Controller} {front : Bytes} (hready : c.behavior ≠ .notReady)
    (hturn : c.turn = .armed (front ++ [etx])) (hclock : c.clockHigh = true)
    (hfront : ∀ x ∈ front, x ≠ etx) {config : BusConfig} (hlong : config.maxReply ≤ front.length)
    (state : BusState) :
    ∃ m', receive ⟨c, config, state⟩ = (.error .replyOverflow, m') ∧
      Wedged ⟨c, config, state⟩ m' [] := by
  obtain ⟨d, hbytes, hstalled, hran⟩ := @receiveBytes_overlong config .receiving config.maxReply
    { c with hostDirection := .input, signal := false, turn := .replying (front ++ [etx]) 0 } []
    front hfront hlong hready rfl rfl hclock
  refine ⟨⟨{ d with hostDirection := .input }, config, .idle⟩, ?_, hstalled.facing .input, rfl,
    hran.behavior, hran.machine, hran.executed⟩
  simp only [receive_offered hturn hclock, hbytes, abort_stalled hstalled]

/-! ### One command -/

section Command

variable {m : Master Controller} {command : MotorCommand} {axis : UInt8} {parameter : Option Int32}

/-- What a normal controller has taken and not yet replied to. -/
theorem send_normal (hrest : m.lines.AtRest) (hnormal : m.lines.behavior = .normal)
    (haxis : 1 ≤ axis ∧ axis ≤ 4) :
    ∃ (d : Controller) (front : Bytes),
      m.send (PendingCommand.frame ⟨command.code, axis, parameter⟩)
          = (.ok (), ⟨d, m.config, .done⟩) ∧
        m.lines.Ran d [(command, axis, parameter)] ∧ d.clockHigh = true ∧ d.latched = none ∧
        d.turn = .armed (front ++ [etx]) ∧ (∀ x ∈ front, x ≠ etx) ∧
        (m.lines.machine.execute command axis parameter).1.frame = front ++ [etx] ∧
        front.length + 1 = command.replyLength := by
  rcases m with ⟨c, config, state⟩
  have hlistens : c.behavior.listens = true := by
    rw [show c.behavior = .normal from hnormal]
    rfl
  obtain ⟨d, hsend, hran, -, hclock, hlatched, hturn⟩ :=
    @send_command c command axis parameter config state hrest hlistens haxis
  obtain ⟨body, hbody, -, hreply⟩ := (c.machine.execute command axis parameter).1.exists_body
  have hunmarked := hbody.append (unmarked_of_high (Checksum.high_ofBody body))
  rw [show c.behavior = .normal from hnormal] at hturn
  have hframe : (c.machine.execute command axis parameter).1.frame
      = stx :: (body ++ [Checksum.ofBody body]) ++ [etx] := hreply.trans (enclose_eq body)
  refine ⟨d, stx :: (body ++ [Checksum.ofBody body]), hsend, hran, hclock, hlatched,
    hturn.trans (congrArg Turn.armed hframe), hunmarked.ne_etx, hframe, ?_⟩
  rw [← c.machine.length_frame_execute command axis parameter, hframe, List.length_append,
    List.length_singleton]

/-- A command whose reply fits is answered in the first attempt. -/
theorem command_fits (hrest : m.lines.AtRest) (hnormal : m.lines.behavior = .normal)
    (haxis : 1 ≤ axis ∧ axis ≤ 4) (hattempts : 1 ≤ m.config.attempts)
    (hfits : m.config.Fits (command, axis, parameter)) :
    (m.command command axis parameter).1.value
        = some (m.lines.machine.execute command axis parameter).1.number ∧
      Served m (m.command command axis parameter).2 [(command, axis, parameter)] := by
  obtain ⟨d, front, hsend, hran, hclock, hlatched, hturn, -, hframe, hlen⟩ :=
    @send_normal m command axis parameter hrest hnormal haxis
  have hready : d.behavior ≠ .notReady := by
    rw [hran.behavior, hnormal]
    exact nofun
  rw [← hframe] at hturn
  have hroom : (m.lines.machine.execute command axis parameter).1.frame.length
      ≤ m.config.maxReply := by
    rw [hframe, List.length_append, List.length_singleton, hlen]
    exact hfits
  have hattempt := attempt_of_armed hsend hready hclock hturn hroom
  obtain ⟨n, hn⟩ : ∃ n, m.config.attempts = n + 1 := Nat.exists_eq_add_one.mpr hattempts
  have hexchange : m.command command axis parameter
      = (⟨PendingCommand.frame ⟨command.code, axis, parameter⟩,
            [.accepted (m.lines.machine.execute command axis parameter).1.frame]⟩,
          ⟨Controller.replied { d with hostDirection := .input }
            (m.lines.machine.execute command axis parameter).1.frame.length, m.config, .done⟩) := by
    simp only [Master.command, transceive, hn, tryUpTo, hattempt]
  rw [hexchange]
  exact ⟨interpretReply_frame _, ⟨rfl, rfl, hclock, hlatched⟩, rfl, hran.behavior, hran.machine,
    hran.executed⟩

/-- A command whose reply does not fit is carried out once, brings nothing, and
stalls the controller. -/
theorem command_overlong (hrest : m.lines.AtRest) (hnormal : m.lines.behavior = .normal)
    (haxis : 1 ≤ axis ∧ axis ≤ 4) (hattempts : 1 ≤ m.config.attempts)
    (hlong : ¬ m.config.Fits (command, axis, parameter)) :
    (m.command command axis parameter).1.value = none ∧
      Wedged m (m.command command axis parameter).2 [(command, axis, parameter)] := by
  obtain ⟨d, front, hsend, hran, hclock, -, hturn, hfront, -, hlen⟩ :=
    @send_normal m command axis parameter hrest hnormal haxis
  have hready : d.behavior ≠ .notReady := by
    rw [hran.behavior, hnormal]
    exact nofun
  have hroom : m.config.maxReply ≤ front.length := by
    have hlt : m.config.maxReply < command.replyLength := Nat.lt_of_not_le hlong
    omega
  obtain ⟨⟨e, config, state⟩, hreceive, hwedged⟩ :=
    receive_overlong hready hturn hclock hfront hroom .done
  obtain rfl : config = m.config := hwedged.config
  have hattempt : m.attempt (PendingCommand.frame ⟨command.code, axis, parameter⟩)
      = (.receiveFailed .replyOverflow, ⟨e, m.config, state⟩) := by
    simp only [attempt, hsend, hreceive]
  obtain ⟨n, hn⟩ : ∃ n, m.config.attempts = n + 1 := Nat.exists_eq_add_one.mpr hattempts
  obtain ⟨hlater, hrest⟩ := @tryUpTo_stalled m.config
    (PendingCommand.frame ⟨command.code, axis, parameter⟩) n e state hwedged.stalled
  have htried := tryUpTo_succ_of_failed hattempt rfl n
  rw [← hn] at htried
  rw [Master.command, transceive, htried]
  refine ⟨Exchange.value_of_failed fun a ha => ?_, hrest.stalled, hrest.config,
    (hran.trans hwedged.ran).trans hrest.ran⟩
  rcases List.mem_cons.mp ha with rfl | ha
  · rfl
  · exact hlater a ha

/-- On a stalled controller a command brings nothing and is not carried out. -/
theorem command_stalled (h : m.lines.Stalled) (command : MotorCommand) (axis : UInt8)
    (parameter : Option Int32) :
    (m.command command axis parameter).1.value = none ∧
      Wedged m (m.command command axis parameter).2 [] := by
  obtain ⟨hall, hwedged⟩ := @tryUpTo_stalled m.config
    (PendingCommand.frame ⟨command.code, axis, parameter⟩) m.config.attempts m.lines m.state h
  exact ⟨Exchange.value_of_failed hall, hwedged⟩

end Command

end Master

/-! ### Sessions -/

/-- The numbers with which a reference machine answers commands, in order. -/
def IdealMachine.answers : IdealMachine → List Call → List Int32
  | _, [] => []
  | a, call :: rest => (a.step call).1 :: answers (a.step call).2 rest

namespace Master

/-- A session of commands is its first command and the session behind it. -/
theorem run_command_cons (m : Master Controller) (call : Call) (rest : List Call) :
    m.run ((call :: rest).map .command)
      = ((m.command call.1 call.2.1 call.2.2).1.value
            :: ((m.command call.1 call.2.1 call.2.2).2.run (rest.map .command)).1,
          ((m.command call.1 call.2.1 call.2.2).2.run (rest.map .command)).2) :=
  rfl

/-- A command whose reply fits is one step of the reference machine. -/
theorem command_answered {m : Master Controller} {call : Call} (hrest : m.lines.AtRest)
    (hnormal : m.lines.behavior = .normal) (haxis : 1 ≤ call.2.1 ∧ call.2.1 ≤ 4)
    (hattempts : 1 ≤ m.config.attempts) (hfits : m.config.Fits call) :
    (m.command call.1 call.2.1 call.2.2).1.value = some (m.lines.machine.ideal.step call).1 ∧
      (m.command call.1 call.2.1 call.2.2).2.lines.machine.ideal
        = (m.lines.machine.ideal.step call).2 ∧
      Served m (m.command call.1 call.2.1 call.2.2).2 [call] := by
  obtain ⟨hvalue, hserved⟩ := command_fits hrest hnormal haxis hattempts hfits
  obtain ⟨hnumber, hmachine⟩ := m.lines.machine.ideal_execute call
  refine ⟨hvalue.trans (congrArg some hnumber), ?_, hserved⟩
  rw [hserved.ran.machine, ← hmachine]
  rfl

/-- A session of commands on a stalled controller. -/
theorem run_stalled (calls : List Call) :
    ∀ {m : Master Controller}, m.lines.Stalled →
      (m.run (calls.map .command)).1 = List.replicate calls.length none ∧
        Wedged m (m.run (calls.map .command)).2 [] := by
  induction calls with
  | nil =>
    intro m h
    exact ⟨rfl, h, rfl, ran_refl m.lines⟩
  | cons call rest ih =>
    intro m h
    obtain ⟨hvalue, hwedged⟩ := command_stalled h call.1 call.2.1 call.2.2
    obtain ⟨hvalues, hlater⟩ := ih hwedged.stalled
    refine ⟨?_, hlater.stalled, hlater.config.trans hwedged.config, hwedged.ran.trans hlater.ran⟩
    rw [run_command_cons, hvalue, hvalues]
    rfl

/-- **The first overlong reply decides a session.**  Commands on a normal
controller are answered as the reference machine answers them, up to the first
one whose reply does not fit.  That one is carried out once and brings no
value.  No command behind it brings a value or is carried out, whether its own
reply would fit or not: the controller is left stalled. -/
theorem run_commands {calls : List Call} (haxes : ∀ call ∈ calls, 1 ≤ call.2.1 ∧ call.2.1 ≤ 4) :
    ∀ {m : Master Controller}, m.lines.AtRest → m.lines.behavior = .normal →
      1 ≤ m.config.attempts →
      let served := calls.takeWhile fun call => m.config.Fits call
      let after := (m.run (calls.map .command)).2.lines
      (m.run (calls.map .command)).1
          = (m.lines.machine.ideal.answers served).map some
            ++ List.replicate (calls.length - served.length) none ∧
        m.lines.Ran after (calls.take (served.length + 1)) ∧
        (if served = calls then after.AtRest else after.Stalled) := by
  induction calls with
  | nil =>
    intro m hrest _ _
    exact ⟨rfl, ran_refl m.lines, hrest⟩
  | cons call rest ih =>
    intro m hrest hnormal hattempts
    have haxis := haxes call (List.mem_cons_self ..)
    have haxesRest : ∀ c ∈ rest, 1 ≤ c.2.1 ∧ c.2.1 ≤ 4 :=
      fun c hc => haxes c (List.mem_cons_of_mem call hc)
    by_cases hfits : m.config.Fits call
    · -- answered, and the rest of the session begins at rest again
      obtain ⟨hvalue, hideal, hserved⟩ := command_answered hrest hnormal haxis hattempts hfits
      have hnext := ih haxesRest hserved.atRest (hserved.ran.behavior.trans hnormal)
        (hserved.config.symm ▸ hattempts)
      rw [hserved.config, hideal] at hnext
      obtain ⟨hvalues, hran, hend⟩ := hnext
      have htake : (call :: rest).takeWhile (fun c => decide (m.config.Fits c))
          = call :: rest.takeWhile fun c => decide (m.config.Fits c) :=
        List.takeWhile_cons_of_pos (decide_eq_true hfits)
      intro served after
      simp only [served, after, htake, run_command_cons]
      refine ⟨?_, hserved.ran.trans hran, ?_⟩
      · rw [hvalue, hvalues, List.length_cons, List.length_cons, Nat.succ_sub_succ]
        rfl
      · simpa only [List.cons.injEq, true_and] using hend
    · -- nothing comes of it, nor of anything behind it
      obtain ⟨hvalue, hwedged⟩ := command_overlong hrest hnormal haxis hattempts hfits
      obtain ⟨hvalues, hlater⟩ := run_stalled rest hwedged.stalled
      have htake : (call :: rest).takeWhile (fun c => decide (m.config.Fits c)) = [] :=
        List.takeWhile_cons_of_neg (by simpa using hfits)
      intro served after
      simp only [served, after, htake, run_command_cons]
      refine ⟨?_, hwedged.ran.trans hlater.ran, ?_⟩
      · rw [hvalue, hvalues]
        rfl
      · rw [if_neg (List.cons_ne_nil _ _).symm]
        exact hlater.stalled

/-- One query too many with room for acknowledgements only: the move behind it
is neither answered nor made. -/
theorem run_commands_of_overlong :
    let m := start {} { attempts := 2, maxReply := 4 }
    let calls : List Call := [(.moveAbs, 1, some 5), (.isAxisBusy, 1, none), (.moveAbs, 1, some 7)]
    (m.run (calls.map .command)).1 = [some 1, none, none] ∧
      (m.run (calls.map .command)).2.lines.executed.toList
        = [(.moveAbs, 1, some 5), (.isAxisBusy, 1, none)] := by
  intro m calls
  obtain ⟨hvalues, hran, -⟩ := @run_commands calls (by decide) m
    (Controller.atRest_new.facing .input) rfl (by decide)
  refine ⟨hvalues.trans (by decide), ?_⟩
  rw [hran.executed]
  decide

/-- It is not so that every command whose reply fits is answered. -/
theorem unanswered_after_overlong :
    ¬ ∀ (config : BusConfig) (calls : List Call), 1 ≤ config.attempts →
      (∀ call ∈ calls, 1 ≤ call.2.1 ∧ call.2.1 ≤ 4) →
      ∀ (i : Nat) (call : Call), calls[i]? = some call → config.Fits call →
        ((start {} config).run (calls.map .command)).1[i]? ≠ some none := by
  intro h
  exact h { attempts := 1, maxReply := 4 } [(.isAxisBusy, 1, none), (.moveAbs, 1, some 5)]
    (by decide) (by decide) 1 (.moveAbs, 1, some 5) rfl (by decide) (by decide +kernel)

end Master

end MotionBridge
