/-
MotionBridge/Proofs/Bus/LineCalls.lean

The calls that a master makes on its lines, whatever the peer answers.

Any peer can be watched through recorded lines.  The calls of a wait, a send,
a receive and an attempt each have a shape of their own (`WaitCalls`,
`SendCalls`, `ReceiveCalls`, `AttemptCalls`), one case for each way out, which
also tells the result.  Every run has its shape, and watching changes nothing:
on the bare lines the result and the peer are the same (`send_calls`,
`receive_calls`, `attempt_calls`).  What holds of a master against any peer is
then read off the shapes, by cases.
-/
import MotionBridge.Bus.Master

namespace MotionBridge

/-! ### What a trace shows -/

namespace LineCall

/-- The level that a call drives on the clock. -/
def clock? : LineCall → Option Bool
  | .setClock high => some high
  | _ => none

/-- The direction that a call sets. -/
def direction? : LineCall → Option Direction
  | .setDirection direction => some direction
  | _ => none

/-- The byte that a call drives on the data lines. -/
def written? : LineCall → Option UInt8
  | .writeData byte => some byte
  | _ => none

/-- The byte that a call samples. -/
def sampled? : LineCall → Option UInt8
  | .readData byte => some byte
  | _ => none

/-- The last level driven on the clock. -/
def lastClock (calls : List LineCall) : Option Bool :=
  (calls.filterMap clock?).getLast?

/-- The last direction set. -/
def lastDirection (calls : List LineCall) : Option Direction :=
  (calls.filterMap direction?).getLast?

/-- The bytes driven on the data lines. -/
def written (calls : List LineCall) : Bytes :=
  calls.filterMap written?

/-- The bytes sampled. -/
def sampled (calls : List LineCall) : Bytes :=
  calls.filterMap sampled?

section Views

variable (a b : List LineCall) (call : LineCall)

@[simp] theorem lastClock_nil : lastClock [] = none := rfl

@[simp] theorem lastDirection_nil : lastDirection [] = none := rfl

@[simp] theorem written_nil : written [] = [] := rfl

@[simp] theorem sampled_nil : sampled [] = [] := rfl

@[simp] theorem lastClock_append : lastClock (a ++ b) = (lastClock b).or (lastClock a) := by
  rw [lastClock, List.filterMap_append, List.getLast?_append]
  rfl

@[simp] theorem lastDirection_append :
    lastDirection (a ++ b) = (lastDirection b).or (lastDirection a) := by
  rw [lastDirection, List.filterMap_append, List.getLast?_append]
  rfl

@[simp] theorem written_append : written (a ++ b) = written a ++ written b :=
  List.filterMap_append

@[simp] theorem sampled_append : sampled (a ++ b) = sampled a ++ sampled b :=
  List.filterMap_append

@[simp] theorem lastClock_cons : lastClock (call :: b) = (lastClock b).or call.clock? := by
  have h := lastClock_append [call] b
  cases call <;> exact h

@[simp] theorem lastDirection_cons :
    lastDirection (call :: b) = (lastDirection b).or call.direction? := by
  have h := lastDirection_append [call] b
  cases call <;> exact h

@[simp] theorem written_cons : written (call :: b) = call.written?.toList ++ written b := by
  have h := written_append [call] b
  cases call <;> exact h

@[simp] theorem sampled_cons : sampled (call :: b) = call.sampled?.toList ++ sampled b := by
  have h := sampled_append [call] b
  cases call <;> exact h

end Views

end LineCall

/-! ### Watched masters -/

/-- A peer of which nothing has been recorded yet. -/
def Recorded.new {σ : Type} (peer : σ) : Recorded σ :=
  { peer }

namespace Master

variable {σ : Type}

/-- A master whose calls are recorded from now on. -/
def watched (m : Master σ) : Master (Recorded σ) :=
  ⟨Recorded.new m.lines, m.config, m.state⟩

/-- A master without its record. -/
def bare (w : Master (Recorded σ)) : Master σ :=
  ⟨w.lines.peer, w.config, w.state⟩

@[simp] theorem bare_watched (m : Master σ) : m.watched.bare = m := rfl

/-- From one watched master to another exactly these calls were made. -/
structure Made (w : Master (Recorded σ)) (calls : List LineCall) (w' : Master (Recorded σ)) :
    Prop where
  trace : w'.lines.trace = w.lines.trace ++ calls
  config : w'.config = w.config

namespace Made

variable {w w' w'' : Master (Recorded σ)} {a b : List LineCall}

theorem refl (w : Master (Recorded σ)) : Made w [] w :=
  ⟨(List.append_nil _).symm, rfl⟩

theorem trans (h : Made w a w') (h' : Made w' b w'') : Made w (a ++ b) w'' := by
  refine ⟨?_, h'.config.trans h.config⟩
  rw [h'.trace, h.trace, List.append_assoc]

/-- Moving on to another state makes no call. -/
theorem enter (h : Made w a w') (state : BusState) : Made w a (w'.enter state) :=
  ⟨h.trace, h.config⟩

end Made

variable [Lines σ] {w w' : Master (Recorded σ)}

omit [Lines σ] in
/-- A call is recorded behind the others. -/
theorem made_of_calls {call : LineCall} (hcalls : w'.lines.calls = call :: w.lines.calls)
    (hconfig : w'.config = w.config) : Made w [call] w' := by
  refine ⟨?_, hconfig⟩
  rw [Recorded.trace, hcalls, List.reverse_cons]
  rfl

theorem made_setDirection (w : Master (Recorded σ)) (direction : Direction) :
    Made w [.setDirection direction] (w.setDirection direction) :=
  made_of_calls rfl rfl

theorem made_writeData (w : Master (Recorded σ)) (byte : UInt8) :
    Made w [.writeData byte] (w.writeData byte) :=
  made_of_calls rfl rfl

theorem made_setClock (w : Master (Recorded σ)) (high : Bool) :
    Made w [.setClock high] (w.setClock high) :=
  made_of_calls rfl rfl

theorem peerSignal_calls {level : Bool} (h : w.peerSignal = (level, w')) :
    w.bare.peerSignal = (level, w'.bare) ∧ Made w [.peerSignal level] w' := by
  cases h
  exact ⟨rfl, made_of_calls rfl rfl⟩

theorem readData_calls {byte : UInt8} (h : w.readData = (byte, w')) :
    w.bare.readData = (byte, w'.bare) ∧ Made w [.readData byte] w' := by
  cases h
  exact ⟨rfl, made_of_calls rfl rfl⟩

theorem made_abort (w : Master (Recorded σ)) :
    Made w [.setClock true, .setDirection .input] w.abort :=
  ((made_setClock w true).trans (made_setDirection _ .input)).enter .idle

end Master

/-! ### Waits -/

/-- The looks of a wait for a level, with so many further ones to come at most.
It may be given up after any of them. -/
inductive WaitCalls (level : Bool) (step : HandshakeStep) :
    Nat → List LineCall → Except BusError Unit → Prop
  | seen {more} : WaitCalls level step more [.peerSignal level] (.ok ())
  | gaveUp {more look} : look ≠ level →
      WaitCalls level step more [.peerSignal look] (.error (.timeout step))
  | again {look more calls result} : look ≠ level → WaitCalls level step more calls result →
      WaitCalls level step (more + 1) (.peerSignal look :: calls) result

/-- A wait drives nothing and samples nothing. -/
theorem WaitCalls.silent {level : Bool} {step : HandshakeStep} {more : Nat}
    {calls : List LineCall} {result : Except BusError Unit}
    (h : WaitCalls level step more calls result) :
    LineCall.lastClock calls = none ∧ LineCall.lastDirection calls = none ∧
      LineCall.written calls = [] ∧ LineCall.sampled calls = [] := by
  induction h with
  | seen => exact ⟨rfl, rfl, rfl, rfl⟩
  | gaveUp _ => exact ⟨rfl, rfl, rfl, rfl⟩
  | again _ _ ih =>
    obtain ⟨hclock, hdirection, hwritten, hsampled⟩ := ih
    simp [hclock, hdirection, hwritten, hsampled, LineCall.clock?, LineCall.direction?,
      LineCall.written?, LineCall.sampled?]

namespace Master

variable {σ : Type} [Lines σ] {w w' : Master (Recorded σ)} {result : Except BusError Unit}

theorem awaitLevel_calls {level : Bool} {step : HandshakeStep} (more : Nat) :
    ∀ {w w' : Master (Recorded σ)}, awaitLevel level step more w = (result, w') →
      awaitLevel level step more w.bare = (result, w'.bare) ∧
        ∃ calls, Made w calls w' ∧ WaitCalls level step more calls result := by
  induction more with
  | zero =>
    intro w w' h
    rcases hlook : w.peerSignal with ⟨look, looked⟩
    obtain ⟨hbare, hmade⟩ := peerSignal_calls hlook
    simp only [awaitLevel, hlook, hbare] at h ⊢
    by_cases hlevel : look = level
    · rw [if_pos hlevel] at h ⊢
      cases h
      exact ⟨rfl, _, hmade, hlevel ▸ .seen⟩
    · rw [if_neg hlevel] at h ⊢
      cases h
      exact ⟨rfl, _, hmade.enter .timedOut, .gaveUp hlevel⟩
  | succ more ih =>
    intro w w' h
    rcases hlook : w.peerSignal with ⟨look, looked⟩
    obtain ⟨hbare, hmade⟩ := peerSignal_calls hlook
    simp only [awaitLevel, hlook, hbare] at h ⊢
    by_cases hlevel : look = level
    · rw [if_pos hlevel] at h ⊢
      cases h
      exact ⟨rfl, _, hmade, hlevel ▸ .seen⟩
    · rw [if_neg hlevel] at h ⊢
      -- the recorded peer and the bare one keep the same time
      have htime : Lines.timeUp looked.bare.lines = Lines.timeUp looked.lines := rfl
      rw [htime]
      split at h
      · rw [if_pos ‹_›]
        cases h
        exact ⟨rfl, _, hmade.enter .timedOut, .gaveUp hlevel⟩
      · rw [if_neg ‹_›]
        obtain ⟨hrest, calls, hlater, hwait⟩ := ih h
        exact ⟨hrest, _, hmade.trans hlater, .again hlevel hwait⟩

/-- A wait looks at the signal, and does nothing else. -/
theorem await_calls {level : Bool} {step : HandshakeStep} (h : w.await level step = (result, w')) :
    w.bare.await level step = (result, w'.bare) ∧
      ∃ calls, Made w calls w' ∧ WaitCalls level step w.config.patience calls result :=
  awaitLevel_calls w.config.patience h

end Master

/-! ### Sending -/

/-- The calls that clock bytes out. -/
inductive SendBytesCalls (patience : Nat) :
    Bytes → List LineCall → Except BusError Unit → Prop
  | done : SendBytesCalls patience [] [] (.ok ())
  | notTaken {byte rest ack e} : WaitCalls false .peerAck patience ack (.error e) →
      SendBytesCalls patience (byte :: rest)
        ([.writeData byte, .setClock false] ++ ack) (.error e)
  | notReleased {byte rest ack release e} : WaitCalls false .peerAck patience ack (.ok ()) →
      WaitCalls true .peerRelease patience release (.error e) →
      SendBytesCalls patience (byte :: rest)
        ([.writeData byte, .setClock false] ++ ack ++ [.setClock true] ++ release) (.error e)
  | next {byte rest ack release later result} : WaitCalls false .peerAck patience ack (.ok ()) →
      WaitCalls true .peerRelease patience release (.ok ()) →
      SendBytesCalls patience rest later result →
      SendBytesCalls patience (byte :: rest)
        ([.writeData byte, .setClock false] ++ ack ++ [.setClock true] ++ release ++ later) result

/-- The calls of a send. -/
inductive SendCalls (patience : Nat) (frame : Bytes) :
    List LineCall → Except BusError Unit → Prop
  | notReady : SendCalls patience frame
      ([.peerSignal false] ++ [.setClock true, .setDirection .input]) (.error .peerNotReady)
  | failed {calls e} : SendBytesCalls patience frame calls (.error e) →
      SendCalls patience frame
        ([.peerSignal true, .setDirection .output] ++ calls
          ++ [.setClock true, .setDirection .input]) (.error e)
  | sent {calls} : SendBytesCalls patience frame calls (.ok ()) →
      SendCalls patience frame
        ([.peerSignal true, .setDirection .output] ++ calls ++ [.setDirection .input]) (.ok ())

namespace Master

variable {σ : Type} [Lines σ] {w w' : Master (Recorded σ)} {result : Except BusError Unit}

theorem sendBytes_calls (bytes : Bytes) :
    ∀ {w w' : Master (Recorded σ)}, sendBytes bytes w = (result, w') →
      sendBytes bytes w.bare = (result, w'.bare) ∧
        ∃ calls, Made w calls w' ∧ SendBytesCalls w.config.patience bytes calls result := by
  induction bytes with
  | nil =>
    intro w w' h
    cases h
    exact ⟨rfl, [], .refl w, .done⟩
  | cons byte rest ih =>
    intro w w' h
    -- the byte is offered, and the peer is to take it
    have hoffer : Made w [.writeData byte, .setClock false]
        ((((w.enter .sendByte).writeData byte).setClock false).enter .waitAck) :=
      (((Made.refl w).enter .sendByte).trans
        ((made_writeData _ byte).trans (made_setClock _ false))).enter .waitAck
    rcases hack : ((((w.enter .sendByte).writeData byte).setClock false).enter .waitAck).await
      false .peerAck with ⟨ackResult, taken⟩
    obtain ⟨hackBare, ack, hmade, hackCalls⟩ := await_calls hack
    rw [hoffer.config] at hackCalls
    have htaken := hoffer.trans hmade
    change ((((w.bare.enter .sendByte).writeData byte).setClock false).enter .waitAck).await
      false .peerAck = _ at hackBare
    cases ackResult with
    | error e =>
      simp only [sendBytes, hack, hackBare] at h ⊢
      cases h
      exact ⟨rfl, _, htaken, .notTaken hackCalls⟩
    | ok =>
      -- it is taken, and the peer is to let go
      have hrise := htaken.trans (made_setClock taken true)
      rcases hrelease : (taken.setClock true).await true .peerRelease with ⟨releaseResult, released⟩
      obtain ⟨hreleaseBare, release, hmade', hreleaseCalls⟩ := await_calls hrelease
      rw [hrise.config] at hreleaseCalls
      have hreleased := hrise.trans hmade'
      change (taken.bare.setClock true).await true .peerRelease = _ at hreleaseBare
      cases releaseResult with
      | error e =>
        simp only [sendBytes, hack, hackBare, hrelease, hreleaseBare] at h ⊢
        cases h
        exact ⟨rfl, _, hreleased, .notReleased hackCalls hreleaseCalls⟩
      | ok =>
        simp only [sendBytes, hack, hackBare, hrelease, hreleaseBare] at h ⊢
        obtain ⟨hrest, later, hlater, hlaterCalls⟩ := ih h
        rw [show (released.enter .nextByte).config = w.config from hreleased.config] at hlaterCalls
        exact ⟨hrest, _, (hreleased.enter .nextByte).trans hlater,
          .next hackCalls hreleaseCalls hlaterCalls⟩

/-- **A send makes the calls of a send**, and does the same unwatched. -/
theorem send_calls {frame : Bytes} (h : w.send frame = (result, w')) :
    w.bare.send frame = (result, w'.bare) ∧
      ∃ calls, Made w calls w' ∧ SendCalls w.config.patience frame calls result := by
  rcases hlook : (w.enter .checkReady).peerSignal with ⟨ready, looked⟩
  obtain ⟨hlookBare, hmade⟩ := peerSignal_calls hlook
  change (w.bare.enter .checkReady).peerSignal = _ at hlookBare
  replace hmade := ((Made.refl w).enter .checkReady).trans hmade
  cases ready with
  | false =>
    simp only [send, sendRaw, hlook, hlookBare] at h ⊢
    cases h
    exact ⟨rfl, _, hmade.trans (made_abort looked), .notReady⟩
  | true =>
    have hout := hmade.trans (made_setDirection looked .output)
    rcases hbytes : sendBytes frame (looked.setDirection .output) with ⟨sentResult, sent⟩
    obtain ⟨hbytesBare, calls, hmade', hcalls⟩ := sendBytes_calls frame hbytes
    rw [hout.config] at hcalls
    change sendBytes frame (looked.bare.setDirection .output) = _ at hbytesBare
    have hsent := hout.trans hmade'
    cases sentResult with
    | error e =>
      simp only [send, sendRaw, hlook, hlookBare, hbytes, hbytesBare] at h ⊢
      cases h
      exact ⟨rfl, _, hsent.trans (made_abort sent), .failed hcalls⟩
    | ok =>
      simp only [send, sendRaw, hlook, hlookBare, hbytes, hbytesBare] at h ⊢
      cases h
      exact ⟨rfl, _, (hsent.trans (made_setDirection sent .input)).enter .done, .sent hcalls⟩

end Master

/-! ### Receiving -/

/-- The calls that clock reply bytes in, with room for so many more. -/
inductive ReceiveBytesCalls (patience : Nat) :
    Nat → List LineCall → Except BusError Bytes → Prop
  | overflow {byte} : ReceiveBytesCalls patience 0 [.readData byte] (.error .replyOverflow)
  | notReleased {room byte release e} : WaitCalls true .replyRelease patience release (.error e) →
      ReceiveBytesCalls patience (room + 1)
        ([.readData byte, .setClock false] ++ release) (.error e)
  | last {room release} : WaitCalls true .replyRelease patience release (.ok ()) →
      ReceiveBytesCalls patience (room + 1)
        ([.readData etx, .setClock false] ++ release ++ [.setClock true]) (.ok [etx])
  | notOffered {room byte release offer e} : byte ≠ etx →
      WaitCalls true .replyRelease patience release (.ok ()) →
      WaitCalls false .nextReplyByte patience offer (.error e) →
      ReceiveBytesCalls patience (room + 1)
        ([.readData byte, .setClock false] ++ release ++ [.setClock true] ++ offer) (.error e)
  | next {room byte release offer later result} : byte ≠ etx →
      WaitCalls true .replyRelease patience release (.ok ()) →
      WaitCalls false .nextReplyByte patience offer (.ok ()) →
      ReceiveBytesCalls patience room later result →
      ReceiveBytesCalls patience (room + 1)
        ([.readData byte, .setClock false] ++ release ++ [.setClock true] ++ offer ++ later)
        (result.map (byte :: ·))

/-- The calls of a receive. -/
inductive ReceiveCalls (config : BusConfig) : List LineCall → Except BusError Bytes → Prop
  | noReply {start e} : WaitCalls false .replyStart config.patience start (.error e) →
      ReceiveCalls config
        ([.setDirection .input, .setClock true] ++ start ++ [.setClock true, .setDirection .input])
        (.error e)
  | failed {start calls e} : WaitCalls false .replyStart config.patience start (.ok ()) →
      ReceiveBytesCalls config.patience config.maxReply calls (.error e) →
      ReceiveCalls config
        ([.setDirection .input, .setClock true] ++ start ++ calls
          ++ [.setClock true, .setDirection .input]) (.error e)
  | received {start calls reply} : WaitCalls false .replyStart config.patience start (.ok ()) →
      ReceiveBytesCalls config.patience config.maxReply calls (.ok reply) →
      ReceiveCalls config ([.setDirection .input, .setClock true] ++ start ++ calls) (.ok reply)

namespace Master

variable {σ : Type} [Lines σ] {w w' : Master (Recorded σ)} {result : Except BusError Bytes}

theorem receiveBytes_calls (room : Nat) :
    ∀ {w w' : Master (Recorded σ)} {result : Except BusError Bytes},
      receiveBytes room w = (result, w') →
      receiveBytes room w.bare = (result, w'.bare) ∧
        ∃ calls, Made w calls w' ∧ ReceiveBytesCalls w.config.patience room calls result := by
  induction room with
  | zero =>
    -- the byte that has no room is sampled all the same
    intro w w' result h
    rcases hread : w.readData with ⟨byte, read⟩
    obtain ⟨hreadBare, hmade⟩ := readData_calls hread
    simp only [receiveBytes, hread, hreadBare] at h ⊢
    cases h
    exact ⟨rfl, _, hmade, .overflow⟩
  | succ room ih =>
    intro w w' result h
    rcases hread : w.readData with ⟨byte, read⟩
    obtain ⟨hreadBare, hmade⟩ := readData_calls hread
    have hfall := hmade.trans (made_setClock read false)
    rcases hrelease : (read.setClock false).await true .replyRelease with ⟨releaseResult, released⟩
    obtain ⟨hreleaseBare, release, hmade', hreleaseCalls⟩ := await_calls hrelease
    rw [hfall.config] at hreleaseCalls
    change (read.bare.setClock false).await true .replyRelease = _ at hreleaseBare
    have hreleased := hfall.trans hmade'
    cases releaseResult with
    | error e =>
      simp only [receiveBytes, hread, hreadBare, hrelease, hreleaseBare] at h ⊢
      cases h
      exact ⟨rfl, _, hreleased, .notReleased hreleaseCalls⟩
    | ok =>
      -- the clock rises before the byte is looked at
      have hrise := hreleased.trans (made_setClock released true)
      simp only [receiveBytes, hread, hreadBare, hrelease, hreleaseBare] at h ⊢
      by_cases hetx : byte = etx
      · rw [if_pos hetx] at h ⊢
        cases h
        rw [hetx] at hrise ⊢
        exact ⟨rfl, _, hrise, .last hreleaseCalls⟩
      · rw [if_neg hetx] at h ⊢
        rcases hoffer : (released.setClock true).await false .nextReplyByte with
          ⟨offerResult, offered⟩
        obtain ⟨hofferBare, offer, hmade'', hofferCalls⟩ := await_calls hoffer
        rw [hrise.config] at hofferCalls
        change (released.bare.setClock true).await false .nextReplyByte = _ at hofferBare
        have hoffered := hrise.trans hmade''
        cases offerResult with
        | error e =>
          simp only [hoffer, hofferBare] at h ⊢
          cases h
          exact ⟨rfl, _, hoffered, .notOffered hetx hreleaseCalls hofferCalls⟩
        | ok =>
          rcases hrest : receiveBytes room offered with ⟨restResult, received⟩
          obtain ⟨hrestBare, later, hlater, hlaterCalls⟩ := ih hrest
          rw [hoffered.config] at hlaterCalls
          -- the shape carries the result of the rest, with this byte in front
          have hnext := ReceiveBytesCalls.next hetx hreleaseCalls hofferCalls hlaterCalls
          simp only [hoffer, hofferBare, hrest, hrestBare] at h ⊢
          cases restResult with
          | error e =>
            cases h
            exact ⟨rfl, _, hoffered.trans hlater, hnext⟩
          | ok rest =>
            cases h
            exact ⟨rfl, _, hoffered.trans hlater, hnext⟩

/-- **A receive makes the calls of a receive**, and does the same unwatched. -/
theorem receive_calls (h : w.receive = (result, w')) :
    w.bare.receive = (result, w'.bare) ∧
      ∃ calls, Made w calls w' ∧ ReceiveCalls w.config calls result := by
  have hstart : Made w [.setDirection .input, .setClock true]
      (((w.enter .receiving).setDirection .input).setClock true) :=
    ((Made.refl w).enter .receiving).trans
      ((made_setDirection _ .input).trans (made_setClock _ true))
  rcases hwait : (((w.enter .receiving).setDirection .input).setClock true).await false .replyStart
    with ⟨waitResult, waited⟩
  obtain ⟨hwaitBare, start, hmade, hwaitCalls⟩ := await_calls hwait
  rw [hstart.config] at hwaitCalls
  change (((w.bare.enter .receiving).setDirection .input).setClock true).await false .replyStart
    = _ at hwaitBare
  have hwaited := hstart.trans hmade
  cases waitResult with
  | error e =>
    simp only [receive, receiveRaw, hwait, hwaitBare] at h ⊢
    cases h
    exact ⟨rfl, _, hwaited.trans (made_abort waited), .noReply hwaitCalls⟩
  | ok =>
    rcases hbytes : receiveBytes waited.config.maxReply waited with ⟨bytesResult, received⟩
    obtain ⟨hbytesBare, calls, hmade', hcalls⟩ := receiveBytes_calls _ hbytes
    rw [hwaited.config] at hcalls
    have hreceived := hwaited.trans hmade'
    change receiveBytes waited.bare.config.maxReply waited.bare = _ at hbytesBare
    cases bytesResult with
    | error e =>
      simp only [receive, receiveRaw, hwait, hwaitBare, hbytes, hbytesBare] at h ⊢
      cases h
      exact ⟨rfl, _, hreceived.trans (made_abort received), .failed hwaitCalls hcalls⟩
    | ok reply =>
      simp only [receive, receiveRaw, hwait, hwaitBare, hbytes, hbytesBare] at h ⊢
      cases h
      exact ⟨rfl, _, hreceived.enter .done, .received hwaitCalls hcalls⟩

end Master

/-! ### Attempts -/

/-- The calls of one attempt at an exchange. -/
inductive AttemptCalls (config : BusConfig) (frame : Bytes) : List LineCall → Attempt → Prop
  | sendFailed {calls e} : SendCalls config.patience frame calls (.error e) →
      AttemptCalls config frame calls (.sendFailed e)
  | receiveFailed {sent calls e} : SendCalls config.patience frame sent (.ok ()) →
      ReceiveCalls config calls (.error e) →
      AttemptCalls config frame (sent ++ calls) (.receiveFailed e)
  | invalid {sent calls reply e} : SendCalls config.patience frame sent (.ok ()) →
      ReceiveCalls config calls (.ok reply) → validate reply = .error e →
      AttemptCalls config frame (sent ++ calls) (.invalid reply e)
  | accepted {sent calls reply f} : SendCalls config.patience frame sent (.ok ()) →
      ReceiveCalls config calls (.ok reply) → validate reply = .ok f →
      AttemptCalls config frame (sent ++ calls) (.accepted reply)

namespace Master

variable {σ : Type} [Lines σ] {w w' : Master (Recorded σ)}

/-- **An attempt makes the calls of an attempt**, and does the same
unwatched. -/
theorem attempt_calls {frame : Bytes} {a : Attempt} (h : w.attempt frame = (a, w')) :
    w.bare.attempt frame = (a, w'.bare) ∧
      ∃ calls, Made w calls w' ∧ AttemptCalls w.config frame calls a := by
  rcases hsend : w.send frame with ⟨sendResult, sent⟩
  obtain ⟨hsendBare, calls, hmade, hsendCalls⟩ := send_calls hsend
  cases sendResult with
  | error e =>
    simp only [attempt, hsend, hsendBare] at h ⊢
    cases h
    exact ⟨rfl, _, hmade, .sendFailed hsendCalls⟩
  | ok =>
    rcases hreceive : sent.receive with ⟨receiveResult, received⟩
    obtain ⟨hreceiveBare, calls', hmade', hreceiveCalls⟩ := receive_calls hreceive
    rw [hmade.config] at hreceiveCalls
    cases receiveResult with
    | error e =>
      simp only [attempt, hsend, hsendBare, hreceive, hreceiveBare] at h ⊢
      cases h
      exact ⟨rfl, _, hmade.trans hmade', .receiveFailed hsendCalls hreceiveCalls⟩
    | ok reply =>
      rcases hvalid : validate reply with e | f
      · simp only [attempt, hsend, hsendBare, hreceive, hreceiveBare, hvalid] at h ⊢
        cases h
        exact ⟨rfl, _, hmade.trans hmade', .invalid hsendCalls hreceiveCalls hvalid⟩
      · simp only [attempt, hsend, hsendBare, hreceive, hreceiveBare, hvalid] at h ⊢
        cases h
        exact ⟨rfl, _, hmade.trans hmade', .accepted hsendCalls hreceiveCalls hvalid⟩

end Master

end MotionBridge
