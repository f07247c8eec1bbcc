/-
MotionBridge/Proofs/Bus/Parking.lean

Where an operation on the bus leaves the lines and the master.

Whatever the peer answers, every operation leaves the lines parked: the clock
high and the data lines let go of.  A run of calls *rests* when it does not
leave the clock low or the direction output; resting runs compose
(`Rests.append`), and the calls of every operation rest (`SendCalls.rests`,
`ReceiveCalls.rests`, `OperationCalls.rests`), also where it was cut short in
the middle of a byte.  So parked lines stay parked through any operations in
any order (`parked_after`).
-/
import MotionBridge.Proofs.Bus.Cycles

namespace MotionBridge

/-! ### Operations -/

/-- What a master can be asked to do on its bus. -/
inductive BusOperation
  | send (frame : Bytes)
  | receive
  | transceive (frame : Bytes)
  | command (c : MotorCommand) (axis : UInt8) (parameter : Option Int32)
deriving Repr, DecidableEq

/-- What an operation came to. -/
inductive BusOutcome
  | sent (result : Except BusError Unit)
  | received (result : Except BusError Bytes)
  | exchanged (x : Exchange)

/-- The state in which an operation leaves the master: done when it
succeeded, and idle when it failed or brought no reply. -/
def BusOutcome.state : BusOutcome → BusState
  | .sent (.ok ()) => .done
  | .sent (.error _) => .idle
  | .received (.ok _) => .done
  | .received (.error _) => .idle
  | .exchanged x => if x.reply = [] then .idle else .done

/-- No operation leaves the master in the middle of a handshake. -/
theorem BusOutcome.state_cases (outcome : BusOutcome) :
    outcome.state = .idle ∨ outcome.state = .done := by
  rcases outcome with (e | _) | (e | reply) | x
  · exact Or.inl rfl
  · exact Or.inr rfl
  · exact Or.inl rfl
  · exact Or.inr rfl
  · rw [state]
    by_cases hempty : x.reply = []
    · exact Or.inl (if_pos hempty)
    · exact Or.inr (if_neg hempty)

namespace Master

variable {σ : Type} [Lines σ]

/-- Carries an operation out. -/
def perform (m : Master σ) : BusOperation → BusOutcome × Master σ
  | .send frame => let (result, m) := m.send frame; (.sent result, m)
  | .receive => let (result, m) := m.receive; (.received result, m)
  | .transceive frame => let (x, m) := m.transceive frame; (.exchanged x, m)
  | .command c axis parameter => let (x, m) := m.command c axis parameter; (.exchanged x, m)

/-- The master after some operations. -/
def after (m : Master σ) (ops : List BusOperation) : Master σ :=
  ops.foldl (fun m op => (m.perform op).2) m

/-! ### The state of the master -/

/-- A send that went through leaves the master done. -/
theorem sendRaw_ok_state {m m' : Master σ} {frame : Bytes} (h : sendRaw frame m = (.ok (), m')) :
    m'.state = .done := by
  rw [sendRaw] at h
  rcases hlook : (m.enter .checkReady).peerSignal with ⟨ready, m₁⟩
  rw [hlook] at h
  cases ready with
  | false => cases h
  | true =>
    rcases hbytes : sendBytes frame (m₁.setDirection .output) with ⟨result, m₂⟩
    simp only [hbytes] at h
    cases result with
    | error e => cases h
    | ok =>
      cases h
      rfl

/-- So does a receive that went through. -/
theorem receiveRaw_ok_state {m m' : Master σ} {reply : Bytes}
    (h : receiveRaw m = (.ok reply, m')) : m'.state = .done := by
  rw [receiveRaw] at h
  rcases hwait : (((m.enter .receiving).setDirection .input).setClock true).await false
    .replyStart with ⟨waitResult, m₁⟩
  simp only [hwait] at h
  cases waitResult with
  | error e => cases h
  | ok =>
    rcases hbytes : receiveBytes m₁.config.maxReply m₁ with ⟨result, m₂⟩
    simp only [hbytes] at h
    cases result with
    | error e => cases h
    | ok _ =>
      cases h
      rfl

theorem state_send {m m' : Master σ} {frame : Bytes} {result : Except BusError Unit}
    (h : m.send frame = (result, m')) : m'.state = (BusOutcome.sent result).state := by
  rcases hraw : sendRaw frame m with ⟨raw, m₁⟩
  rw [send, hraw] at h
  cases raw with
  | error e =>
    cases h
    rfl
  | ok =>
    cases h
    exact sendRaw_ok_state hraw

theorem state_receive {m m' : Master σ} {result : Except BusError Bytes}
    (h : m.receive = (result, m')) : m'.state = (BusOutcome.received result).state := by
  rcases hraw : receiveRaw m with ⟨raw, m₁⟩
  rw [receive, hraw] at h
  cases raw with
  | error e =>
    cases h
    rfl
  | ok reply =>
    cases h
    exact receiveRaw_ok_state hraw

/-- An attempt with an accepted reply ends with its receive. -/
theorem attempt_accepted {m m' : Master σ} {frame reply : Bytes}
    (h : m.attempt frame = (.accepted reply, m')) :
    m'.state = .done ∧ ∃ f, validate reply = .ok f := by
  rcases hsend : m.send frame with ⟨sendResult, m₁⟩
  rw [attempt, hsend] at h
  cases sendResult with
  | error e => cases h
  | ok =>
    rcases hreceive : m₁.receive with ⟨receiveResult, m₂⟩
    simp only [hreceive] at h
    cases receiveResult with
    | error e => cases h
    | ok bytes =>
      rcases hvalid : validate bytes with e | f
      · simp only [hvalid] at h
        cases h
      · simp only [hvalid] at h
        cases h
        exact ⟨state_receive hreceive, f, hvalid⟩

theorem state_transceive {m m' : Master σ} {frame : Bytes} {x : Exchange}
    (h : m.transceive frame = (x, m')) : m'.state = (BusOutcome.exchanged x).state := by
  rcases hrun : tryUpTo frame m.config.attempts m with ⟨attempts, m₁⟩
  rw [transceive, hrun] at h
  cases h
  rw [BusOutcome.state]
  obtain ⟨earlier, reply, heq, -, -, last, hlast⟩ | ⟨-, hfailed, hstate⟩ :=
    tryUpTo_cases frame _ hrun
  · obtain ⟨hstate, f, hvalid⟩ := attempt_accepted hlast
    have hreply : Exchange.reply ⟨frame, attempts⟩ = reply := Exchange.reply_of_accepted heq
    have hne : reply ≠ [] := by
      rintro rfl
      cases hvalid
    rw [hreply, if_neg hne, hstate]
  · have hreply : Exchange.reply ⟨frame, attempts⟩ = [] := Exchange.reply_of_failed hfailed
    rw [hreply, if_pos rfl, hstate]

/-- **The state tells how the last operation went.** -/
theorem state_perform (m : Master σ) (op : BusOperation) :
    (m.perform op).2.state = (m.perform op).1.state := by
  cases op with
  | send frame => exact state_send rfl
  | receive => exact state_receive rfl
  | transceive frame => exact state_transceive rfl
  | command c axis parameter => exact state_transceive rfl

end Master

/-! ### Calls that rest -/

/-- The calls of one operation: a send, a receive, or the cycles of an
exchange. -/
inductive OperationCalls (config : BusConfig) : List LineCall → Prop
  | sent {frame calls result} : SendCalls config.patience frame calls result →
      OperationCalls config calls
  | received {calls result} : ReceiveCalls config calls result → OperationCalls config calls
  | exchanged {frame} {cycles : List Cycle} :
      (∀ c ∈ cycles, AttemptCalls config frame c.calls c.attempt) →
      OperationCalls config (cycles.flatMap Cycle.calls)

open LineCall (lastClock lastDirection clock? direction?)

/-- Calls rest when they leave neither the clock low nor the direction
output, unless it was so before. -/
structure Rests (calls : List LineCall) : Prop where
  clock : lastClock calls ≠ some false
  direction : lastDirection calls ≠ some .output

theorem rests_nil : Rests [] :=
  ⟨nofun, nofun⟩

theorem or_ne_some {α : Type} {a b : Option α} {x : α} (ha : a ≠ some x) (hb : b ≠ some x) :
    b.or a ≠ some x := by
  cases b with
  | none => exact ha
  | some y => exact hb

theorem Rests.append {a b : List LineCall} (ha : Rests a) (hb : Rests b) : Rests (a ++ b) := by
  constructor
  · rw [LineCall.lastClock_append]
    exact or_ne_some ha.clock hb.clock
  · rw [LineCall.lastDirection_append]
    exact or_ne_some ha.direction hb.direction

/-- Whatever was called before, an abort puts the lines to rest. -/
theorem rests_abort (calls : List LineCall) :
    Rests (calls ++ [.setClock true, .setDirection .input]) := by
  constructor
  · simp [clock?]
  · simp [direction?]

theorem rests_flatMap {cycles : List Cycle} (h : ∀ c ∈ cycles, Rests c.calls) :
    Rests (cycles.flatMap Cycle.calls) := by
  induction cycles with
  | nil => exact rests_nil
  | cons c cycles ih =>
    rw [List.flatMap_cons]
    exact (h c (List.mem_cons_self ..)).append (ih fun d hd => h d (List.mem_cons_of_mem c hd))

section Shapes

variable {patience : Nat} {config : BusConfig} {frame : Bytes} {calls : List LineCall}

/-- Bytes that went out leave the clock high, or untouched if there were
none. -/
theorem SendBytesCalls.clock_ok {bytes : Bytes} {result : Except BusError Unit}
    (h : SendBytesCalls patience bytes calls result) :
    result = .ok () → lastClock calls ≠ some false := by
  induction h with
  | done => exact fun _ => nofun
  | notTaken _ | notReleased _ _ => exact nofun
  | @next byte rest ack release later result hack hrelease _ ih =>
    intro hok
    -- the last edge before the later bytes is a rising one
    rw [LineCall.lastClock_append]
    refine or_ne_some ?_ (ih hok)
    simp [hack.silent, hrelease.silent, clock?]

/-- The calls of a send rest. -/
theorem SendCalls.rests {result : Except BusError Unit}
    (h : SendCalls patience frame calls result) : Rests calls := by
  cases h with
  | notReady => exact rests_abort _
  | failed _ => exact rests_abort _
  | @sent bytes hbytes =>
    constructor
    · simpa [clock?] using hbytes.clock_ok rfl
    · simp [direction?]

/-- Bytes that came in leave the clock high, and the direction as it was. -/
theorem ReceiveBytesCalls.untouched {room : Nat} {result : Except BusError Bytes}
    (h : ReceiveBytesCalls patience room calls result) :
    lastDirection calls = none ∧
      ∀ reply, result = .ok reply → lastClock calls = some true := by
  induction h with
  | overflow => exact ⟨rfl, nofun⟩
  | notReleased hrelease => exact ⟨by simp [hrelease.silent, direction?], nofun⟩
  | last hrelease => simp [hrelease.silent, clock?, direction?]
  | notOffered _ hrelease hoffer =>
    exact ⟨by simp [hrelease.silent, hoffer.silent, direction?], nofun⟩
  | @next room byte release offer later result _ hrelease hoffer _ ih =>
    obtain ⟨hdirection, hclock⟩ := ih
    refine ⟨by simp [hrelease.silent, hoffer.silent, hdirection, direction?], ?_⟩
    intro reply hreply
    cases result with
    | error e => cases hreply
    | ok rest => simp [hclock rest rfl]

/-- The calls of a receive rest. -/
theorem ReceiveCalls.rests {result : Except BusError Bytes} (h : ReceiveCalls config calls result) :
    Rests calls := by
  cases h with
  | noReply _ => exact rests_abort _
  | failed _ _ => exact rests_abort _
  | received hstart hbytes =>
    obtain ⟨hdirection, hclock⟩ := hbytes.untouched
    constructor
    · simp [hclock _ rfl]
    · simp [hstart.silent, hdirection, direction?]

/-- The calls of an attempt rest. -/
theorem AttemptCalls.rests {a : Attempt} (h : AttemptCalls config frame calls a) : Rests calls := by
  cases h with
  | sendFailed hsend => exact hsend.rests
  | receiveFailed hsend hreceive | invalid hsend hreceive _ | accepted hsend hreceive _ =>
    exact hsend.rests.append hreceive.rests

/-- The calls of an operation rest. -/
theorem OperationCalls.rests (h : OperationCalls config calls) : Rests calls := by
  cases h with
  | sent hsend => exact hsend.rests
  | received hreceive => exact hreceive.rests
  | exchanged hcycles => exact rests_flatMap fun c hc => (hcycles c hc).rests

end Shapes

/-! ### Parked lines -/

namespace Master

variable {σ : Type}

/-- The lines are parked when the clock was last driven high and the
direction last set to input; the master then is between two operations. -/
structure Parked (w : Master (Recorded σ)) : Prop where
  clock : lastClock w.lines.trace = some true
  direction : lastDirection w.lines.trace = some .input
  state : w.state = .idle ∨ w.state = .done

/-- Calls that rest keep the lines parked. -/
theorem Made.parked {w w' : Master (Recorded σ)} {calls : List LineCall} (h : Made w calls w')
    (hw : w.Parked) (hcalls : Rests calls) (hstate : w'.state = .idle ∨ w'.state = .done) :
    w'.Parked := by
  refine ⟨?_, ?_, hstate⟩
  · rw [h.trace, LineCall.lastClock_append, hw.clock]
    cases hclock : lastClock calls with
    | none => rfl
    | some level =>
      cases level with
      | true => rfl
      | false => exact absurd hclock hcalls.clock
  · rw [h.trace, LineCall.lastDirection_append, hw.direction]
    cases hdirection : lastDirection calls with
    | none => rfl
    | some direction =>
      cases direction with
      | input => rfl
      | output => exact absurd hdirection hcalls.direction

variable [Lines σ]

/-- A new master parks its lines. -/
theorem parked_start (peer : σ) (config : BusConfig) :
    (start (Recorded.new peer) config).Parked :=
  ⟨rfl, rfl, Or.inl rfl⟩

/-- An exchange makes the calls of an operation. -/
theorem exchange_calls {w w' : Master (Recorded σ)} {frame : Bytes} {x : Exchange}
    (h : w.transceive frame = (x, w')) :
    w.bare.transceive frame = (x, w'.bare) ∧
      ∃ calls, Made w calls w' ∧ OperationCalls w.config calls := by
  obtain ⟨hbare, hmade, hcalls, -⟩ := transceive_calls h
  exact ⟨hbare, _, hmade, .exchanged hcalls⟩

/-- **Every operation makes the calls of an operation**, and watching changes
nothing. -/
theorem perform_calls {w w' : Master (Recorded σ)} {op : BusOperation} {outcome : BusOutcome}
    (h : w.perform op = (outcome, w')) :
    w.bare.perform op = (outcome, w'.bare) ∧
      ∃ calls, Made w calls w' ∧ OperationCalls w.config calls := by
  cases op with
  | send frame =>
    rcases hsend : w.send frame with ⟨result, w₁⟩
    obtain ⟨hbare, calls, hmade, hcalls⟩ := send_calls hsend
    rw [perform, hsend] at h
    cases h
    rw [perform, hbare]
    exact ⟨rfl, calls, hmade, .sent hcalls⟩
  | receive =>
    rcases hreceive : w.receive with ⟨result, w₁⟩
    obtain ⟨hbare, calls, hmade, hcalls⟩ := receive_calls hreceive
    rw [perform, hreceive] at h
    cases h
    rw [perform, hbare]
    exact ⟨rfl, calls, hmade, .received hcalls⟩
  | transceive frame =>
    rcases hexchange : w.transceive frame with ⟨x, w₁⟩
    rw [perform, hexchange] at h
    cases h
    obtain ⟨hbare, hcalls⟩ := exchange_calls hexchange
    rw [perform, hbare]
    exact ⟨rfl, hcalls⟩
  | command c axis parameter =>
    rcases hexchange : w.command c axis parameter with ⟨x, w₁⟩
    rw [perform, hexchange] at h
    cases h
    obtain ⟨hbare, hcalls⟩ := exchange_calls hexchange
    rw [perform, show w.bare.command c axis parameter = _ from hbare]
    exact ⟨rfl, hcalls⟩

/-- Every operation leaves parked lines parked. -/
theorem Parked.perform {w : Master (Recorded σ)} (hw : w.Parked) (op : BusOperation) :
    (w.perform op).2.Parked := by
  rcases hperform : w.perform op with ⟨outcome, w'⟩
  obtain ⟨-, calls, hmade, hcalls⟩ := perform_calls hperform
  have hstate := state_perform w op
  rw [hperform] at hstate
  refine hmade.parked hw hcalls.rests ?_
  rw [hstate]
  exact outcome.state_cases

/-- So do any operations one after the other. -/
theorem Parked.after {w : Master (Recorded σ)} (hw : w.Parked) (ops : List BusOperation) :
    (w.after ops).Parked := by
  induction ops generalizing w with
  | nil => exact hw
  | cons op ops ih => exact ih (hw.perform op)

/-- Watching changes nothing, through any operations. -/
theorem bare_after (w : Master (Recorded σ)) (ops : List BusOperation) :
    (w.after ops).bare = w.bare.after ops := by
  induction ops generalizing w with
  | nil => rfl
  | cons op ops ih =>
    rcases hperform : w.perform op with ⟨outcome, w'⟩
    obtain ⟨hbare, -⟩ := perform_calls hperform
    show ((w.perform op).2.after ops).bare = (w.bare.perform op).2.after ops
    rw [ih, hperform, hbare]

/-- **The lines are parked after every operation**, successful or failed, and
the state tells how it went.  This holds against any peer, from the start and
after operations in any number and order; the watched master does what the
bare one does. -/
theorem parked_after (peer : σ) (config : BusConfig) (ops : List BusOperation) :
    ((start (Recorded.new peer) config).after ops).Parked ∧
      ((start (Recorded.new peer) config).after ops).bare = (start peer config).after ops ∧
      ∀ op, (((start peer config).after ops).perform op).2.state
        = (((start peer config).after ops).perform op).1.state := by
  refine ⟨(parked_start peer config).after ops, ?_, state_perform _⟩
  rw [bare_after]
  rfl

end Master

end MotionBridge
