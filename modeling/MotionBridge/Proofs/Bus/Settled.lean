/-
MotionBridge/Proofs/Bus/Settled.lean

What any command does to any controller, however the bus is configured.

Between exchanges a controller is either at rest or stalled in the middle of a
reply (`Settled`), and no command changes that, whatever its axis and however
the exchange goes (`command_settled`).  The controller carries out nothing but
what it heard, which is told by the command byte alone (`Call.heardAs`): for
one of the four axes the command itself, for any other number a command of
another code, or none.  Two command bytes are marks, and cut their own frame;
what is left of such a frame is refused or never completed (`send_of_start`,
`send_of_end`).

A value tells more: it comes from a normal controller at rest only
(`ready_of_value`), and that carries every command out exactly once
(`Ready.command`).
-/
import MotionBridge.Proofs.Bus.Overlong
import MotionBridge.Proofs.Frame.Corruption

namespace MotionBridge

/-! ### What a command is heard as -/

/-- The command as it is built. -/
def Call.pending (call : Call) : PendingCommand :=
  ⟨call.1.code, call.2.1, call.2.2⟩

/-- What the controller hears: the command and the axis of the command byte. -/
def Call.heardAs (call : Call) : Option Call :=
  (MotorCommand.ofWire call.pending.wire).map fun heard => (heard.1, heard.2, call.2.2)

/-- A command for one of the four axes is heard as itself. -/
theorem Call.heardAs_of_axis {call : Call} (haxis : 1 ≤ call.2.1 ∧ call.2.1 ≤ 4) :
    call.heardAs = some call := by
  obtain ⟨command, axis, parameter⟩ := call
  have hwire : MotorCommand.ofWire (Call.pending (command, axis, parameter)).wire
      = some (command, axis) := MotorCommand.ofWire_wire command haxis parameter
  rw [heardAs, hwire]
  rfl

namespace Controller

/-- From one state to another the controller has carried out nothing but what
it heard the command as, any number of times. -/
def Obeyed (c d : Controller) (call : Call) : Prop :=
  ∃ calls, c.Ran d calls ∧ ∀ x ∈ calls, call.heardAs = some x

theorem obeyed_of_ran_nil {c d : Controller} {call : Call} (h : c.Ran d []) : c.Obeyed d call :=
  ⟨[], h, fun _ hx => absurd hx List.not_mem_nil⟩

theorem Obeyed.trans {c d e : Controller} {call : Call} (h : c.Obeyed d call)
    (h' : d.Obeyed e call) : c.Obeyed e call := by
  obtain ⟨xs, hxs, hall⟩ := h
  obtain ⟨ys, hys, hall'⟩ := h'
  exact ⟨xs ++ ys, hxs.trans hys,
    fun x hx => (List.mem_append.mp hx).elim (hall x) (hall' x)⟩

theorem Obeyed.behavior {c d : Controller} {call : Call} (h : c.Obeyed d call) :
    d.behavior = c.behavior := by
  obtain ⟨calls, hran, -⟩ := h
  exact hran.behavior

/-- From one state to another bytes have been clocked in and come to nothing:
they were stored or dropped. -/
def Unheard (c d : Controller) : Prop :=
  ∃ data edges incoming, d = { c with hostData := data, fallingEdges := edges, incoming }

theorem unheard_refl (c : Controller) : c.Unheard c :=
  ⟨_, _, _, rfl⟩

theorem unheard_holding (c : Controller) (byte : UInt8) (incoming : Bytes) :
    c.Unheard (c.holding byte incoming) :=
  ⟨_, _, _, rfl⟩

theorem Unheard.trans {c d e : Controller} (h : c.Unheard d) (h' : d.Unheard e) : c.Unheard e := by
  obtain ⟨_, _, _, rfl⟩ := h
  obtain ⟨_, _, _, rfl⟩ := h'
  exact ⟨_, _, _, rfl⟩

theorem Unheard.atRest {c d : Controller} (h : c.Unheard d) (hrest : c.AtRest) : d.AtRest := by
  obtain ⟨_, _, _, rfl⟩ := h
  exact ⟨hrest.listening, hrest.signal, hrest.clockHigh, hrest.latched⟩

theorem Unheard.ran {c d : Controller} (h : c.Unheard d) : c.Ran d [] := by
  obtain ⟨_, _, _, rfl⟩ := h
  exact ⟨rfl, rfl, (List.append_nil _).symm⟩

theorem Unheard.received {c d : Controller} (h : c.Unheard d) : d.received = c.received := by
  obtain ⟨_, _, _, rfl⟩ := h
  rfl

/-- How a controller is between exchanges. -/
def Settled (c : Controller) : Prop :=
  c.AtRest ∨ c.Stalled

/-- A controller behind a frame that it has taken whole. -/
structure Heard (c d : Controller) (call : Call) : Prop where
  signal : d.signal = true
  clockHigh : d.clockHigh = true
  latched : d.latched = none
  obeyed : c.Obeyed d call
  turn : d.turn = .listening ∨ ∃ a : MotorAnswer, d.turn = replyTurn c.behavior a.frame

theorem Heard.facing {c d : Controller} {call : Call} (h : c.Heard d call) (direction : Direction) :
    c.Heard { d with hostDirection := direction } call where
  signal := h.signal
  clockHigh := h.clockHigh
  latched := h.latched
  obeyed := h.obeyed.trans (obeyed_of_ran_nil (Master.ran_facing d direction))
  turn := h.turn

/-- One at rest that carried nothing out. -/
theorem AtRest.heard_of_ran_nil {c d : Controller} {call : Call} (h : d.AtRest)
    (hran : c.Ran d []) : c.Heard d call :=
  ⟨h.signal, h.clockHigh, h.latched, obeyed_of_ran_nil hran, .inl h.listening⟩

end Controller

/-! ### Frames go across -/

namespace Master

section Send

variable {c : Controller} {call : Call} {config : BusConfig} {state : BusState}

/-- A frame whose command byte is no mark is heard as what that byte says. -/
theorem send_of_unmarked (hrest : c.AtRest) (hlistens : c.behavior.listens = true)
    (hwire : call.pending.wire ≠ stx ∧ call.pending.wire ≠ etx) :
    ∃ d, send ⟨c, config, state⟩ call.pending.frame = (.ok (), ⟨d, config, .done⟩) ∧
      c.Heard d call := by
  obtain ⟨body, hbody, hlen, hframe⟩ := PendingCommand.exists_marked hwire
  have hsent := send_marked hrest hlistens hbody hlen config state
  rw [← hframe] at hsent
  refine ⟨_, hsent, Controller.Heard.facing ?_ .input⟩
  have hheard := (hrest.facing .output).heard (body.length + 2) call.pending.frame
  have hrespond := Controller.respond_pending
    (Controller.heard { c with hostDirection := .output } (body.length + 2) call.pending.frame)
    hwire
  rcases hof : MotorCommand.ofWire call.pending.wire with - | ⟨command, axis⟩
  · -- no such command, and the reply says so
    rw [hof] at hrespond
    rw [Controller.answer_of_some hrespond hheard.listening]
    refine ⟨hrest.signal, hrest.clockHigh, hrest.latched, ?_, .inr ⟨_, rfl⟩⟩
    exact Controller.obeyed_of_ran_nil ⟨rfl, rfl, (List.append_nil _).symm⟩
  · rw [hof] at hrespond
    rw [Controller.answer_of_some hrespond hheard.listening]
    have hcall : call.heardAs = some (command, axis, call.2.2) := by
      rw [Call.heardAs, hof]
      rfl
    refine ⟨hrest.signal, hrest.clockHigh, hrest.latched,
      ⟨[(command, axis, call.2.2)], ⟨rfl, rfl, Array.toList_push⟩, ?_⟩, .inr ⟨_, rfl⟩⟩
    intro x hx
    rw [List.mem_singleton.mp hx]
    exact hcall

/-- Bytes without a start mark go across to a controller that has begun no
frame, and come to nothing. -/
theorem sendBytes_of_not_begun (config : BusConfig) {bytes : Bytes} (hnone : stx ∉ bytes) :
    ∀ {c : Controller} (state : BusState), c.AtRest → c.behavior.listens = true →
      c.incoming.head? ≠ some stx →
      ∃ d state', sendBytes bytes ⟨c, config, state⟩ = (.ok (), ⟨d, config, state'⟩) ∧
        c.Unheard d := by
  induction bytes with
  | nil =>
    intro c state _ _ _
    exact ⟨c, state, rfl, c.unheard_refl⟩
  | cons byte bytes ih =>
    intro c state hrest hlistens hbegun
    rw [List.mem_cons, not_or] at hnone
    obtain ⟨incoming, haccept, hstill⟩ := Controller.acceptByte_of_not_begun
      (c := c.clocked byte) hbegun (Ne.symm hnone.1)
    obtain ⟨d, state', hrun, hunheard⟩ :=
      ih hnone.2 .nextByte (hrest.holding byte incoming) hlistens hstill
    refine ⟨d, state', ?_, (c.unheard_holding byte incoming).trans hunheard⟩
    rw [sendBytes_cons hrest hlistens, haccept]
    exact hrun

/-- The first two bytes of a command frame are stored. -/
theorem sendBytes_head (hrest : c.AtRest) (hlistens : c.behavior.listens = true) (rest : Bytes) :
    sendBytes (stx :: busAddress :: rest) ⟨c, config, state⟩
      = sendBytes rest
          ⟨(c.holding stx [stx]).holding busAddress [stx, busAddress], config, .nextByte⟩ := by
  have hroom : (c.holding stx [stx]).incoming.length < Controller.maxFrame :=
    (by decide : 1 < Controller.maxFrame)
  rw [sendBytes_cons hrest hlistens, Controller.acceptByte_stx,
    sendBytes_cons (hrest.holding stx [stx]) hlistens,
    Controller.acceptByte_of_ne (by decide) (by decide) hroom]
  rfl

/-- A command frame behind its command byte. -/
theorem exists_tail (call : Call) :
    ∃ tail sum, Unmarked tail ∧ 128 ≤ sum.toNat ∧ tail.length ≤ Base128.width ∧
      sum = Checksum.ofBody ([busAddress, call.pending.wire] ++ tail) ∧
      call.pending.frame
        = stx :: busAddress :: call.pending.wire :: (tail ++ [sum] ++ [etx]) := by
  refine ⟨(call.2.2.map Base128.encode).getD [], _, unmarked_parameter _, Checksum.high_ofBody _,
    ?_, rfl, ?_⟩
  · rcases call.2.2 with - | v
    · exact Nat.zero_le _
    · exact Nat.le_refl _
  · rw [PendingCommand.frame_eq, PendingCommand.body, enclose]
    simp [Call.pending]

/-- A frame whose command byte is a start mark begins anew at that byte, and is
refused: its checksum also counts the bytes before. -/
theorem send_of_start (hrest : c.AtRest) (hlistens : c.behavior.listens = true)
    (hwire : call.pending.wire = stx) :
    ∃ d, send ⟨c, config, state⟩ call.pending.frame = (.ok (), ⟨d, config, .done⟩) ∧
      c.Heard d call := by
  obtain ⟨tail, sum, htail, hhigh, hlen, hsum, hframe⟩ := exists_tail call
  rw [hwire] at hsum hframe
  have hinvalid : validate (stx :: (tail ++ [sum]) ++ [etx])
      = .error (.checksumMismatch (tail.length + 2)) := by
    refine validate_mismatch htail hhigh ?_
    rw [hsum, Ne, Checksum.ofBody_append_eq_iff]
    decide
  have hroom : (tail ++ [sum]).length + 2 ≤ Controller.maxFrame := by
    have hwidth : Base128.width = 5 := rfl
    have hmax : Controller.maxFrame = 64 := rfl
    rw [List.length_append, List.length_singleton]
    omega
  have hopen := hrest.facing .output
  have hstored := (hopen.holding stx [stx]).holding busAddress [stx, busAddress]
  -- what was stored does not matter to the frame that begins at the command byte
  have hmarked := sendBytes_marked hstored hlistens (htail.append (unmarked_of_high hhigh)) hroom
    config .nextByte
  rw [Controller.answer_of_invalid hinvalid] at hmarked
  have hsent := send_of_sendBytes hrest hlistens state
    ((sendBytes_head hopen hlistens _).trans hmarked)
  refine ⟨_, hframe ▸ hsent, ?_⟩
  exact ((hstored.heard _ _).facing .input).heard_of_ran_nil
    ⟨rfl, rfl, (List.append_nil _).symm⟩

/-- A frame whose command byte is an end mark ends at that byte, and is refused;
the rest of it begins no frame. -/
theorem send_of_end (hrest : c.AtRest) (hlistens : c.behavior.listens = true)
    (hwire : call.pending.wire = etx) :
    ∃ d, send ⟨c, config, state⟩ call.pending.frame = (.ok (), ⟨d, config, .done⟩) ∧
      c.Heard d call := by
  obtain ⟨tail, sum, htail, hhigh, -, -, hframe⟩ := exists_tail call
  rw [hwire] at hframe
  have hnone := (htail.append (unmarked_of_high hhigh)).stx_not_mem
  have hopen := hrest.facing .output
  have hstored := (hopen.holding stx [stx]).holding busAddress [stx, busAddress]
  have hshort : validate (stx :: [busAddress] ++ [etx]) = .error (.checksumMismatch 2) := rfl
  -- the command byte completes a frame of three bytes
  have hcut := sendBytes_cons hstored hlistens config .nextByte etx (tail ++ [sum] ++ [etx])
  rw [@Controller.acceptByte_etx _ [busAddress] rfl (by decide),
    Controller.answer_of_invalid hshort] at hcut
  -- and the master sends the rest to a controller that stores it in vain
  have hcutRest := hstored.heard 1 (stx :: [busAddress] ++ [etx])
  obtain ⟨d, state', hrun, hunheard⟩ :=
    sendBytes_of_not_begun config hnone .nextByte hcutRest hlistens nofun
  have hsent := send_of_sendBytes hrest hlistens state
    ((sendBytes_head hopen hlistens _).trans (hcut.trans hrun))
  have hran := hunheard.ran
  refine ⟨_, hframe ▸ hsent, ?_⟩
  exact ((hunheard.atRest hcutRest).facing .input).heard_of_ran_nil
    ⟨hran.behavior, hran.machine, hran.executed⟩

/-- **Every command is heard** by a controller at rest that listens. -/
theorem send_heard (hrest : c.AtRest) (hlistens : c.behavior.listens = true) (call : Call) :
    ∃ d, send ⟨c, config, state⟩ call.pending.frame = (.ok (), ⟨d, config, .done⟩) ∧
      c.Heard d call := by
  by_cases hs : call.pending.wire = stx
  · exact send_of_start hrest hlistens hs
  · by_cases he : call.pending.wire = etx
    · exact send_of_end hrest hlistens he
    · exact send_of_unmarked hrest hlistens ⟨hs, he⟩

end Send

/-! ### What comes back -/

/-- From one master to another nothing was carried out but what one command was
heard as, and the controller is settled. -/
structure Left (m m' : Master Controller) (call : Call) : Prop where
  settled : m'.lines.Settled
  config : m'.config = m.config
  obeyed : m.lines.Obeyed m'.lines call

theorem Left.trans {m m' m'' : Master Controller} {call : Call} (h : Left m m' call)
    (h' : Left m' m'' call) : Left m m'' call :=
  ⟨h'.settled, h'.config.trans h.config, h.obeyed.trans h'.obeyed⟩

theorem Served.left {m m' : Master Controller} {call : Call} (h : Served m m' []) :
    Left m m' call :=
  ⟨.inl h.atRest, h.config, Controller.obeyed_of_ran_nil h.ran⟩

theorem Wedged.left {m m' : Master Controller} {call : Call} (h : Wedged m m' []) :
    Left m m' call :=
  ⟨.inr h.stalled, h.config, Controller.obeyed_of_ran_nil h.ran⟩

section Receive

variable {c d : Controller} {call : Call} {config : BusConfig} {state : BusState}

/-- A reply comes in or is given up, and the controller is settled. -/
theorem receive_terminated (hready : d.behavior ≠ .notReady) {front : Bytes}
    (hturn : d.turn = .armed (front ++ [etx])) (hclock : d.clockHigh = true)
    (hlatched : d.latched = none) (hfront : ∀ x ∈ front, x ≠ etx) :
    ∃ result m', receive ⟨d, config, state⟩ = (result, m') ∧ Left ⟨d, config, state⟩ m' call ∧
      ∀ reply, result = .ok reply → reply = front ++ [etx] := by
  by_cases hroom : front.length < config.maxReply
  · refine ⟨_, _, receive_armed hready hturn hclock hfront hroom state, ?_, ?_⟩
    · exact Served.left ⟨⟨rfl, rfl, hclock, hlatched⟩, rfl, rfl, rfl, (List.append_nil _).symm⟩
    · rintro reply ⟨⟩
      rfl
  · obtain ⟨m', hreceive, hwedged⟩ :=
      receive_overlong hready hturn hclock hfront (Nat.le_of_not_lt hroom) state
    exact ⟨_, m', hreceive, hwedged.left, fun _ h => nomatch h⟩

/-- **What a controller has to say comes in or is given up.**  What comes in from
any but a normal one is refused. -/
theorem receive_heard (hlistens : c.behavior.listens = true) (h : c.Heard d call) :
    ∃ result m', receive ⟨d, config, state⟩ = (result, m') ∧ Left ⟨d, config, state⟩ m' call ∧
      (c.behavior ≠ .normal → ∀ reply, result = .ok reply → ∃ e, validate reply = .error e) := by
  have hready : d.behavior ≠ .notReady := by
    rw [h.obeyed.behavior]
    exact (Behavior.listens_iff.mp hlistens).2
  have hsilent : d.turn = .listening →
      ∃ result m', receive ⟨d, config, state⟩ = (result, m') ∧ Left ⟨d, config, state⟩ m' call ∧
        (c.behavior ≠ .normal → ∀ reply, result = .ok reply → ∃ e, validate reply = .error e) := by
    intro hturn
    have hdrest : d.AtRest := ⟨hturn, h.signal, h.clockHigh, h.latched⟩
    exact ⟨_, _, receive_of_rest hdrest hready config state,
      Served.left ⟨hdrest.facing .input, rfl, ran_facing d .input⟩, fun _ _ hok => nomatch hok⟩
  rcases h.turn with hturn | ⟨answer, hturn⟩
  · exact hsilent hturn
  · obtain ⟨body, hbody, -, hreply⟩ := answer.exists_body
    rw [hreply] at hturn
    rcases hb : c.behavior <;> rw [hb] at hturn hsilent hlistens
    case silent => exact hsilent hturn
    case normal =>
      have hsum := unmarked_of_high (Checksum.high_ofBody body)
      have hend : d.turn = .armed (stx :: (body ++ [Checksum.ofBody body]) ++ [etx]) :=
        hturn.trans (congrArg Turn.armed (enclose_eq body))
      obtain ⟨result, m', hreceive, hleft, -⟩ :=
        @receive_terminated d call config state hready _ hend h.clockHigh h.latched
          (hbody.append hsum).ne_etx
      exact ⟨result, m', hreceive, hleft, fun hne => absurd rfl hne⟩
    case corruptReply =>
      obtain ⟨hsum, hinvalid⟩ := validate_corrupt hbody
      have hend : d.turn = .armed (stx :: (body ++ [Checksum.ofBody body ^^^ 1]) ++ [etx]) :=
        hturn.trans (congrArg Turn.armed (corrupt_enclose body))
      obtain ⟨result, m', hreceive, hleft, hok⟩ := @receive_terminated d call config state hready _
        hend h.clockHigh h.latched hsum.ne_etx
      refine ⟨result, m', hreceive, hleft, ?_⟩
      intro _ reply hreply
      rw [hok reply hreply, ← corrupt_enclose]
      exact ⟨_, hinvalid⟩
    all_goals cases hlistens

end Receive

/-! ### Exchanges -/

/-- An attempt whose frame went out is accepted only with a reply that came in
and checks out. -/
theorem attempt_of_send {σ : Type} [Lines σ] {m m₁ m₂ : Master σ} {frame : Bytes}
    {result : Except BusError Bytes} (hsend : m.send frame = (.ok (), m₁))
    (hreceive : m₁.receive = (result, m₂)) :
    ∃ a, m.attempt frame = (a, m₂) ∧
      ((∀ reply, result = .ok reply → ∃ e, validate reply = .error e) → a.reply? = none) := by
  rcases result with e | reply
  · exact ⟨.receiveFailed e, by simp only [attempt, hsend, hreceive], fun _ => rfl⟩
  · rcases hvalid : validate reply with e | f
    · exact ⟨.invalid reply e, by simp only [attempt, hsend, hreceive, hvalid], fun _ => rfl⟩
    · refine ⟨.accepted reply, by simp only [attempt, hsend, hreceive, hvalid], fun h => ?_⟩
      obtain ⟨e, he⟩ := h reply rfl
      rw [hvalid] at he
      cases he

/-- **One attempt at any command leaves the controller settled**, and only a
normal one answers. -/
theorem attempt_settled {c : Controller} (h : c.Settled) (call : Call) (config : BusConfig)
    (state : BusState) :
    ∃ a m', attempt ⟨c, config, state⟩ call.pending.frame = (a, m') ∧
      Left ⟨c, config, state⟩ m' call ∧ (c.behavior ≠ .normal → a.reply? = none) := by
  rcases h with hrest | hstalled
  · rcases hlistens : c.behavior.listens
    · -- the frame does not get through
      obtain ⟨m', hattempt, hserved⟩ := @attempt_of_deaf c call.1 call.2.1 call.2.2 config state
        hrest hlistens []
      refine ⟨_, m', hattempt, hserved.left, fun hb => ?_⟩
      rcases hbehavior : c.behavior
      case normal => exact absurd hbehavior hb
      all_goals rfl
    · obtain ⟨d, hsend, hheard⟩ := @send_heard c config state hrest hlistens call
      obtain ⟨result, m', hreceive, hleft, hrefused⟩ :=
        @receive_heard c d call config .done hlistens hheard
      obtain ⟨a, hattempt, hreply⟩ := attempt_of_send hsend hreceive
      exact ⟨a, m', hattempt, ⟨hleft.settled, hleft.config, hheard.obeyed.trans hleft.obeyed⟩,
        fun hb => hreply (hrefused hb)⟩
  · exact ⟨_, _, attempt_stalled hstalled _,
      Wedged.left ⟨hstalled.facing .input, rfl, ran_facing c .input⟩, fun _ => rfl⟩

/-- Nor do any number of attempts change that. -/
theorem tryUpTo_settled (call : Call) (config : BusConfig) (n : Nat) :
    ∀ {c : Controller} {state : BusState}, c.Settled →
      Left ⟨c, config, state⟩ (tryUpTo call.pending.frame n ⟨c, config, state⟩).2 call ∧
        (c.behavior ≠ .normal →
          ∀ a ∈ (tryUpTo call.pending.frame n ⟨c, config, state⟩).1, a.reply? = none) := by
  induction n with
  | zero =>
    intro c state h
    exact ⟨⟨h, rfl, Controller.obeyed_of_ran_nil (ran_refl c)⟩,
      fun _ a ha => absurd ha List.not_mem_nil⟩
  | succ n ih =>
    intro c state h
    obtain ⟨a, ⟨d, config', state'⟩, hattempt, hleft, hreply⟩ := attempt_settled h call config state
    obtain rfl : config' = config := hleft.config
    rcases ha : a.reply? with - | reply
    · obtain ⟨hlater, hnone⟩ := @ih d state' hleft.settled
      rw [tryUpTo_succ_of_failed hattempt ha]
      refine ⟨hleft.trans hlater, fun hb x hx => ?_⟩
      rcases List.mem_cons.mp hx with rfl | hx
      · exact ha
      · exact hnone (hleft.obeyed.behavior ▸ hb) x hx
    · -- accepted, and no more is tried
      have hb : c.behavior = .normal := Decidable.byContradiction fun hb => by
        rw [hreply hb] at ha
        cases ha
      cases a
      case accepted bytes =>
        rw [tryUpTo, hattempt]
        exact ⟨hleft, fun hne => absurd hb hne⟩
      all_goals cases ha

section Command

variable {m : Master Controller}

/-- **Any command leaves a settled controller settled**, which has carried out
nothing but what it heard; and only a normal one brings a value. -/
theorem command_settled (h : m.lines.Settled) (call : Call) :
    Left m (m.command call.1 call.2.1 call.2.2).2 call ∧
      (m.lines.behavior ≠ .normal → (m.command call.1 call.2.1 call.2.2).1.value = none) := by
  obtain ⟨hleft, hnone⟩ := @tryUpTo_settled call m.config m.config.attempts m.lines m.state h
  exact ⟨hleft, fun hb => Exchange.value_of_failed (hnone hb)⟩

/-- A normal controller at rest, and a master that tries at all. -/
structure Ready (m : Master Controller) : Prop where
  atRest : m.lines.AtRest
  normal : m.lines.behavior = .normal
  attempts : 1 ≤ m.config.attempts

/-- **A value comes from a ready controller only**, and only where its reply
fits. -/
theorem ready_of_value (h : m.lines.Settled) {call : Call} (haxis : 1 ≤ call.2.1 ∧ call.2.1 ≤ 4)
    {v : Int32} (hvalue : (m.command call.1 call.2.1 call.2.2).1.value = some v) :
    m.Ready ∧ m.config.Fits call := by
  have hnormal : m.lines.behavior = .normal := Decidable.byContradiction fun hb => by
    rw [(command_settled h call).2 hb] at hvalue
    cases hvalue
  have hattempts : 1 ≤ m.config.attempts := by
    rcases hn : m.config.attempts with - | n
    · have hnone : (m.command call.1 call.2.1 call.2.2).1.value = none := by
        refine Exchange.value_of_failed ?_
        rw [command, transceive, hn]
        exact fun a ha => absurd ha List.not_mem_nil
      rw [hnone] at hvalue
      cases hvalue
    · exact Nat.succ_pos n
  rcases h with hrest | hstalled
  · refine ⟨⟨hrest, hnormal, hattempts⟩, Decidable.byContradiction fun hlong => ?_⟩
    rw [(command_overlong hrest hnormal haxis hattempts hlong).1] at hvalue
    cases hvalue
  · rw [(command_stalled hstalled call.1 call.2.1 call.2.2).1] at hvalue
    cases hvalue

/-- **A ready controller carries a command out exactly once**, and is ready
again. -/
theorem Ready.command (h : m.Ready) {call : Call} (haxis : 1 ≤ call.2.1 ∧ call.2.1 ≤ 4)
    (hfits : m.config.Fits call) :
    (m.command call.1 call.2.1 call.2.2).2.Ready ∧
      (m.command call.1 call.2.1 call.2.2).2.config = m.config ∧
      m.lines.Ran (m.command call.1 call.2.1 call.2.2).2.lines [call] := by
  obtain ⟨-, hserved⟩ := command_fits h.atRest h.normal haxis h.attempts hfits
  exact ⟨⟨hserved.atRest, hserved.ran.behavior.trans h.normal, hserved.config.symm ▸ h.attempts⟩,
    hserved.config, hserved.ran⟩

end Command

/-! ### Sessions -/

/-- An adjustment from outside leaves the controller settled, and so does a
command. -/
theorem operate_settled {m : Master Controller} (h : m.lines.Settled) (op : Operation) :
    (m.operate op).2.lines.Settled := by
  cases op with
  | command call => exact (command_settled h call).1.settled
  | _ =>
    rcases h with hrest | hstalled
    · exact .inl ⟨hrest.listening, hrest.signal, hrest.clockHigh, hrest.latched⟩
    · exact .inr ⟨hstalled.replying, hstalled.signal, hstalled.clockHigh⟩

/-- **A controller is settled behind every session**, whatever its commands. -/
theorem run_settled (ops : List Operation) :
    ∀ {m : Master Controller}, m.lines.Settled → (m.run ops).2.lines.Settled := by
  induction ops with
  | nil => exact fun h => h
  | cons op ops ih => exact fun h => ih (operate_settled h op)

/-- A new controller is settled. -/
theorem settled_start (config : BusConfig) : (start ({} : Controller) config).lines.Settled :=
  .inl (Controller.atRest_new.facing .input)

end Master

end MotionBridge
