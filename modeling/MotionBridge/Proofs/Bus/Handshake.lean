/-
MotionBridge/Proofs/Bus/Handshake.lean

The two sides of the handshake, run against each other.

Between exchanges the controller is *at rest*: it listens, both signals are
high and no byte is latched.  From there a marked frame goes across byte by
byte and is answered exactly once (`sendBytes_marked`), and an armed reply
comes back through its end mark (`receiveBytes_replying`); both end at rest.
No wait depends on how many looks the master takes, because a look at the
signal changes nothing on the controller's side.
-/
import MotionBridge.Proofs.Bus.CommandFrame

namespace MotionBridge

/-! ### Waits -/

namespace Master

variable {c : Controller} (config : BusConfig) (state : BusState)

/-- A wait for the level that the signal has is over at once. -/
theorem await_of_level {level : Bool} (h : c.peerLevel = level) (step : HandshakeStep) :
    await ⟨c, config, state⟩ level step = (.ok (), ⟨c, config, state⟩) := by
  have hseen : peerSignal ⟨c, config, state⟩ = (level, ⟨c, config, state⟩) := by
    rw [← h]
    rfl
  rw [await]
  rcases (⟨c, config, state⟩ : Master Controller).config.patience with - | more <;>
    simp only [awaitLevel, hseen, if_true]

/-- A wait for the other level times out, however patient the master is. -/
theorem await_of_not_level {level : Bool} (h : c.peerLevel ≠ level) (step : HandshakeStep) :
    await ⟨c, config, state⟩ level step
      = (.error (.timeout step), ⟨c, config, .timedOut⟩) := by
  have hseen : peerSignal ⟨c, config, state⟩ = (c.peerLevel, ⟨c, config, state⟩) := rfl
  rw [await]
  induction (⟨c, config, state⟩ : Master Controller).config.patience with
  | zero => simp only [awaitLevel, hseen, if_neg h, enter]
  | succ more ih =>
    simp only [awaitLevel, hseen, if_neg h]
    split
    · rfl
    · exact ih

end Master

/-! ### A controller at rest -/

/-- Whether the controller takes the bytes of a frame. -/
def Behavior.listens : Behavior → Bool
  | .normal | .corruptReply | .silent => true
  | .neverAck | .notReady => false

theorem Behavior.listens_iff {b : Behavior} :
    b.listens = true ↔ b ≠ .neverAck ∧ b ≠ .notReady := by
  cases b <;> decide

namespace Controller

/-- How a controller waits for the next frame. -/
structure AtRest (c : Controller) : Prop where
  listening : c.turn = .listening
  signal : c.signal = true
  clockHigh : c.clockHigh = true
  latched : c.latched = none

/-- A new controller is at rest. -/
theorem atRest_new : AtRest {} := ⟨rfl, rfl, rfl, rfl⟩

/-- The master sees the signal of a controller that is ready. -/
theorem peerLevel_of_ready {c : Controller} (h : c.behavior ≠ .notReady) :
    c.peerLevel = c.signal := by
  rw [peerLevel, bne_iff_ne.mpr h, Bool.true_and]

/-- A low signal is seen low, whatever the behavior. -/
theorem peerLevel_of_low {c : Controller} (h : c.signal = false) : c.peerLevel = false := by
  rw [peerLevel, h, Bool.and_false]

/-- A high clock does nothing to a controller that listens with no byte
latched. -/
theorem onClock_high_of_none {c : Controller} (hturn : c.turn = .listening)
    (hlatched : c.latched = none) : c.onClock true = { c with clockHigh := true } := by
  simp [onClock, hturn, hlatched]

/-- At rest the signal of a controller that is ready is high. -/
theorem AtRest.peerLevel {c : Controller} (h : c.AtRest) (hb : c.behavior ≠ .notReady) :
    c.peerLevel = true := by
  rw [peerLevel_of_ready hb]
  exact h.signal

/-- Setting the clock high again changes nothing at rest. -/
theorem AtRest.onClock_high {c : Controller} (h : c.AtRest) : c.onClock true = c := by
  rw [onClock_high_of_none h.listening h.latched, ← h.clockHigh]

/-- The direction of the data lines is not the controller's business. -/
theorem AtRest.facing {c : Controller} (h : c.AtRest) (direction : Direction) :
    AtRest { c with hostDirection := direction } :=
  ⟨h.listening, h.signal, h.clockHigh, h.latched⟩

/-! ### What a frame changes -/

/-- Executing a frame changes the machine and the log of commands only. -/
theorem respond_frame (c : Controller) (frame : Bytes) :
    ∃ reply machine executed, c.respond frame = (reply, { c with machine, executed }) := by
  unfold respond
  split
  · exact ⟨none, c.machine, c.executed, rfl⟩
  · split
    · exact ⟨none, c.machine, c.executed, rfl⟩
    · split
      · exact ⟨_, c.machine, c.executed, rfl⟩
      · exact ⟨_, _, _, rfl⟩

/-- Answering a frame may also arm a reply. -/
theorem answer_frame (c : Controller) (frame : Bytes) :
    ∃ turn machine executed, c.answer frame = { c with turn, machine, executed } := by
  obtain ⟨reply, machine, executed, h⟩ := c.respond_frame frame
  rw [answer, h]
  rcases reply with - | reply
  · exact ⟨c.turn, machine, executed, rfl⟩
  · rcases hb : c.behavior
    case silent => exact ⟨c.turn, machine, executed, rfl⟩
    all_goals exact ⟨_, machine, executed, rfl⟩

/-- Accepting a byte leaves the signal and the behavior alone. -/
theorem acceptByte_frame (c : Controller) (byte : UInt8) :
    (c.acceptByte byte).signal = c.signal ∧ (c.acceptByte byte).behavior = c.behavior := by
  simp only [acceptByte]
  generalize (if byte = stx then [byte] else c.incoming ++ [byte]) = incoming
  split
  · exact ⟨rfl, rfl⟩
  · split
    · obtain ⟨turn, machine, executed, h⟩ :=
        answer_frame { c with incoming := [], received := c.received.push incoming } incoming
      rw [h]
      exact ⟨rfl, rfl⟩
    · exact ⟨rfl, rfl⟩

/-- A start mark begins a new frame, whatever was stored. -/
theorem acceptByte_start (c : Controller) : c.acceptByte stx = { c with incoming := [stx] } := by
  simp [acceptByte, maxFrame, stx, etx]

/-- A byte that is no mark is stored, if there is room. -/
theorem acceptByte_of_room {c : Controller} {byte : UInt8} (hs : byte ≠ stx) (he : byte ≠ etx)
    (hroom : c.incoming.length < maxFrame) :
    c.acceptByte byte = { c with incoming := c.incoming ++ [byte] } := by
  have hfits : ¬ maxFrame < (c.incoming ++ [byte]).length := by
    rw [List.length_append, List.length_singleton]
    omega
  simp only [acceptByte, if_neg hs, if_neg hfits, he, false_and, if_false]

/-- With no frame begun, a byte that is no start mark is stored or dropped: it
begins none, and completes none. -/
theorem acceptByte_of_not_begun {c : Controller} {byte : UInt8}
    (hbegun : c.incoming.head? ≠ some stx) (hs : byte ≠ stx) :
    ∃ incoming, c.acceptByte byte = { c with incoming } ∧ incoming.head? ≠ some stx := by
  have hhead : (c.incoming ++ [byte]).head? ≠ some stx := by
    rcases hin : c.incoming with - | ⟨first, more⟩
    · simpa using hs
    · rw [hin] at hbegun
      simpa using hbegun
  simp only [acceptByte, if_neg hs]
  split
  · exact ⟨[], rfl, by simp⟩
  · rw [if_neg fun h => hhead h.2]
    exact ⟨_, rfl, hhead⟩

/-- An end mark completes the frame that was begun. -/
theorem acceptByte_etx {c : Controller} {body : Bytes} (hbegun : c.incoming = stx :: body)
    (hroom : body.length + 2 ≤ maxFrame) :
    c.acceptByte etx = answer
      { c with incoming := [], received := c.received.push (stx :: body ++ [etx]) }
      (stx :: body ++ [etx]) := by
  have hfits : ¬ maxFrame < (stx :: body ++ [etx]).length := by
    simp only [List.length_append, List.length_cons, List.length_nil]
    omega
  have hne : ¬ etx = stx := by decide
  have hhead : (stx :: body ++ [etx]).head? = some stx := rfl
  simp only [acceptByte, if_neg hne, hbegun, if_neg hfits, hhead, and_self, if_true]

end Controller

/-! ### Bytes out -/

namespace Controller

/-- The controller when a byte has been driven and the clock has fallen once
more. -/
def clocked (c : Controller) (byte : UInt8) : Controller :=
  { c with hostData := byte, fallingEdges := c.fallingEdges + 1 }

/-- The controller when the last `n` bytes of a frame, through its end mark,
have been clocked in, before it answers. -/
def heard (c : Controller) (n : Nat) (frame : Bytes) : Controller :=
  { c with
    hostData := etx, incoming := [], fallingEdges := c.fallingEdges + n,
    received := c.received.push frame }

/-- The controller when a byte has been clocked in and some bytes of a frame
are stored. -/
def holding (c : Controller) (byte : UInt8) (incoming : Bytes) : Controller :=
  { c.clocked byte with incoming }

theorem AtRest.clocked {c : Controller} (h : c.AtRest) (byte : UInt8) : (c.clocked byte).AtRest :=
  ⟨h.listening, h.signal, h.clockHigh, h.latched⟩

theorem AtRest.heard {c : Controller} (h : c.AtRest) (n : Nat) (frame : Bytes) :
    (c.heard n frame).AtRest :=
  ⟨h.listening, h.signal, h.clockHigh, h.latched⟩

theorem AtRest.holding {c : Controller} (h : c.AtRest) (byte : UInt8) (incoming : Bytes) :
    (c.holding byte incoming).AtRest :=
  ⟨h.listening, h.signal, h.clockHigh, h.latched⟩

/-- One byte more has been clocked in. -/
theorem heard_holding (c : Controller) (byte : UInt8) (incoming : Bytes) (n : Nat) (frame : Bytes) :
    (c.holding byte incoming).heard n frame = c.heard (n + 1) frame := by
  simp only [heard, holding, clocked, Nat.add_assoc, Nat.add_comm 1]

/-- A byte that completes no frame is stored. -/
theorem acceptByte_of_ne {c : Controller} {byte : UInt8} (hs : byte ≠ stx) (he : byte ≠ etx)
    (hroom : c.incoming.length < maxFrame) :
    (c.clocked byte).acceptByte byte = c.holding byte (c.incoming ++ [byte]) :=
  acceptByte_of_room (c := c.clocked byte) hs he hroom

/-- A start mark is stored alone. -/
theorem acceptByte_stx (c : Controller) :
    (c.clocked stx).acceptByte stx = c.holding stx [stx] :=
  acceptByte_start (c.clocked stx)

/-- **A clock pulse hands one byte over**: the fall latches it and pulls the
signal low, the rise accepts it and lets the signal go. -/
theorem AtRest.onClock_pulse {c : Controller} (h : c.AtRest) (hb : c.behavior ≠ .neverAck)
    (byte : UInt8) :
    (onClock { c with hostData := byte } false).signal = false ∧
      (onClock { c with hostData := byte } false).behavior = c.behavior ∧
      onClock (onClock { c with hostData := byte } false) true
        = (c.clocked byte).acceptByte byte := by
  rcases c with ⟨behavior, turn, signal, clockHigh, direction, data, latched⟩
  obtain ⟨rfl, rfl, rfl, rfl⟩ := h
  cases behavior
  case neverAck => exact absurd rfl hb
  all_goals exact ⟨rfl, rfl, rfl⟩

end Controller

namespace Master

/-- **One byte goes across.**  Both waits of the handshake are over at once. -/
theorem sendBytes_cons {c : Controller} (hrest : c.AtRest) (hlistens : c.behavior.listens = true)
    (config : BusConfig) (state : BusState) (byte : UInt8) (rest : Bytes) :
    sendBytes (byte :: rest) ⟨c, config, state⟩
      = sendBytes rest ⟨(c.clocked byte).acceptByte byte, config, .nextByte⟩ := by
  obtain ⟨hack, hready⟩ := Behavior.listens_iff.mp hlistens
  obtain ⟨hlow, hsame, hhigh⟩ := hrest.onClock_pulse hack byte
  obtain ⟨hsignal, hbehavior⟩ := (c.clocked byte).acceptByte_frame byte
  have htaken : (Controller.onClock { c with hostData := byte } false).peerLevel = false := by
    rw [Controller.peerLevel_of_ready (by rw [hsame]; exact hready), hlow]
  have hreleased : ((c.clocked byte).acceptByte byte).peerLevel = true := by
    rw [Controller.peerLevel_of_ready (by rw [hbehavior]; exact hready), hsignal]
    exact hrest.signal
  have hfall : (((enter ⟨c, config, state⟩ .sendByte).writeData byte).setClock false).enter .waitAck
      = ⟨Controller.onClock { c with hostData := byte } false, config, .waitAck⟩ := rfl
  have hrise :
      setClock ⟨Controller.onClock { c with hostData := byte } false, config, .waitAck⟩ true
        = ⟨(c.clocked byte).acceptByte byte, config, .waitAck⟩ := by
    rw [← hhigh]
    rfl
  simp only [sendBytes, hfall, await_of_level config .waitAck htaken, hrise,
    await_of_level config .waitAck hreleased]
  rfl

/-- The rest of a frame goes across: its unmarked bytes are stored, its end
mark completes it. -/
theorem sendBytes_body (config : BusConfig) {body : Bytes} (hbody : Unmarked body) :
    ∀ {c : Controller} {front : Bytes} (state : BusState), c.AtRest →
      c.behavior.listens = true → c.incoming = stx :: front →
      front.length + body.length + 2 ≤ Controller.maxFrame →
      sendBytes (body ++ [etx]) ⟨c, config, state⟩
        = (.ok (), ⟨(c.heard (body.length + 1) (stx :: (front ++ body) ++ [etx])).answer
            (stx :: (front ++ body) ++ [etx]), config, .nextByte⟩) := by
  induction body with
  | nil =>
    -- the end mark: it completes the frame, which is answered
    intro c front state hrest hlistens hbegun hroom
    rw [List.nil_append, List.append_nil, sendBytes_cons hrest hlistens,
      Controller.acceptByte_etx (c := c.clocked etx) hbegun hroom]
    rfl
  | cons x body ih =>
    -- any other byte joins what is stored, and the controller is at rest again
    intro c front state hrest hlistens hbegun hroom
    obtain ⟨hs, he⟩ := hbody x (List.mem_cons_self ..)
    have hunmarked : Unmarked body := fun y hy => hbody y (List.mem_cons_of_mem x hy)
    rw [List.length_cons] at hroom
    have hspace : c.incoming.length < Controller.maxFrame := by
      rw [hbegun, List.length_cons]
      omega
    have hbegunNext : (c.holding x (c.incoming ++ [x])).incoming = stx :: (front ++ [x]) := by
      show c.incoming ++ [x] = _
      rw [hbegun]
      rfl
    have hroomLeft : (front ++ [x]).length + body.length + 2 ≤ Controller.maxFrame := by
      rw [List.length_append, List.length_singleton]
      omega
    rw [List.cons_append, sendBytes_cons hrest hlistens, Controller.acceptByte_of_ne hs he hspace,
      ih hunmarked .nextByte (hrest.holding x _) hlistens hbegunNext hroomLeft,
      Controller.heard_holding, List.append_assoc, List.length_cons]
    rfl

/-- **A marked frame goes across whole**, whatever the controller had stored
before, and is answered once. -/
theorem sendBytes_marked {c : Controller} (hrest : c.AtRest)
    (hlistens : c.behavior.listens = true) {body : Bytes} (hbody : Unmarked body)
    (hlen : body.length + 2 ≤ Controller.maxFrame) (config : BusConfig) (state : BusState) :
    sendBytes (stx :: body ++ [etx]) ⟨c, config, state⟩
      = (.ok (), ⟨(c.heard (body.length + 2) (stx :: body ++ [etx])).answer (stx :: body ++ [etx]),
          config, .nextByte⟩) := by
  have hroom : ([] : Bytes).length + body.length + 2 ≤ Controller.maxFrame := by
    rw [List.length_nil]
    omega
  rw [List.cons_append, sendBytes_cons hrest hlistens, Controller.acceptByte_stx,
    sendBytes_body config hbody .nextByte (hrest.holding stx [stx]) hlistens rfl hroom,
    Controller.heard_holding]
  rfl

/-- What the master sees before it sends. -/
theorem checkReady_eq (c : Controller) (config : BusConfig) (state : BusState) :
    (enter ⟨c, config, state⟩ .checkReady).peerSignal
      = (c.peerLevel, ⟨c, config, .checkReady⟩) := rfl

/-- Bytes that all go across are sent, and the master lets go of the data
lines. -/
theorem send_of_sendBytes {c d : Controller} (hrest : c.AtRest)
    (hlistens : c.behavior.listens = true) (state : BusState) {config : BusConfig}
    {state' : BusState} {frame : Bytes}
    (h : sendBytes frame ⟨{ c with hostDirection := .output }, config, .checkReady⟩
      = (.ok (), ⟨d, config, state'⟩)) :
    send ⟨c, config, state⟩ frame
      = (.ok (), ⟨{ d with hostDirection := .input }, config, .done⟩) := by
  have hlevel := hrest.peerLevel (Behavior.listens_iff.mp hlistens).2
  have hdirection : setDirection ⟨c, config, .checkReady⟩ .output
      = ⟨{ c with hostDirection := .output }, config, .checkReady⟩ := rfl
  simp only [send, sendRaw, checkReady_eq, hlevel, hdirection, h]
  rfl

/-- **A marked frame is sent** to a controller at rest that listens. -/
theorem send_marked {c : Controller} (hrest : c.AtRest) (hlistens : c.behavior.listens = true)
    {body : Bytes} (hbody : Unmarked body) (hlen : body.length + 2 ≤ Controller.maxFrame)
    (config : BusConfig) (state : BusState) :
    send ⟨c, config, state⟩ (stx :: body ++ [etx])
      = (.ok (), ⟨{ Controller.answer
            (Controller.heard { c with hostDirection := .output } (body.length + 2)
              (stx :: body ++ [etx])) (stx :: body ++ [etx]) with hostDirection := .input },
          config, .done⟩) :=
  send_of_sendBytes hrest hlistens state
    (sendBytes_marked (hrest.facing .output) hlistens hbody hlen config .checkReady)

end Master

/-! ### Bytes in -/

namespace Controller

/-- The controller when `n` bytes of its reply have been clocked through, the
last of them included. -/
def replied (c : Controller) (n : Nat) : Controller :=
  { c with turn := .listening, signal := true, fallingEdges := c.fallingEdges + n }

/-- The controller when it has moved on to another byte of its reply. -/
def offering (c : Controller) (reply : Bytes) (index : Nat) : Controller :=
  { c with
    turn := .replying reply index, signal := false, fallingEdges := c.fallingEdges + 1 }

/-- **A clock pulse moves a reply on by one byte**; behind the last one the
controller listens again. -/
theorem onClock_reply {c : Controller} {reply : Bytes} {index : Nat}
    (hturn : c.turn = .replying reply index) (hclock : c.clockHigh = true) :
    (onClock c false).signal = true ∧ (onClock c false).behavior = c.behavior ∧
      onClock (onClock c false) true
        = if index + 1 < reply.length then c.offering reply (index + 1) else c.replied 1 := by
  rcases c with ⟨behavior, turn, signal, clockHigh⟩
  obtain rfl : turn = .replying reply index := hturn
  obtain rfl : clockHigh = true := hclock
  exact ⟨rfl, rfl, rfl⟩

end Controller

namespace Master

/-- A controller that has a reply on offer lets go when the clock falls. -/
theorem await_replyRelease {c : Controller} {reply : Bytes} {index : Nat}
    (hturn : c.turn = .replying reply index) (hclock : c.clockHigh = true)
    (hready : c.behavior ≠ .notReady) (config : BusConfig) (state : BusState) :
    await (setClock ⟨c, config, state⟩ false) true .replyRelease
      = (.ok (), ⟨c.onClock false, config, state⟩) := by
  obtain ⟨hlow, hsame, -⟩ := Controller.onClock_reply hturn hclock
  have hreleased : (c.onClock false).peerLevel = true := by
    rw [Controller.peerLevel_of_ready (by rw [hsame]; exact hready), hlow]
  exact await_of_level config state hreleased .replyRelease

/-- The last byte of a reply comes in. -/
theorem receiveBytes_etx {c : Controller} {reply : Bytes} {index : Nat}
    (hturn : c.turn = .replying reply index) (hclock : c.clockHigh = true)
    (hready : c.behavior ≠ .notReady) (hoffer : c.offered = etx)
    (room : Nat) (config : BusConfig) (state : BusState) :
    receiveBytes (room + 1) ⟨c, config, state⟩
      = (.ok [etx], ⟨Controller.onClock (c.onClock false) true, config, state⟩) := by
  have hread : readData ⟨c, config, state⟩ = (etx, ⟨c, config, state⟩) := by
    rw [← hoffer]
    rfl
  simp only [receiveBytes, hread, await_replyRelease hturn hclock hready config state, if_true]
  rfl

/-- Any other byte of a reply comes in, and goes ahead of what comes in behind
it, if that does. -/
theorem receiveBytes_of_ne {c : Controller} {taken front : Bytes} {x : UInt8}
    (hready : c.behavior ≠ .notReady)
    (hturn : c.turn = .replying (taken ++ (x :: front ++ [etx])) taken.length)
    (hclock : c.clockHigh = true) (hne : x ≠ etx) (room : Nat) (config : BusConfig)
    (state : BusState) :
    receiveBytes (room + 1) ⟨c, config, state⟩
      = match receiveBytes room
          ⟨c.offering (taken ++ [x] ++ (front ++ [etx])) (taken ++ [x]).length, config, state⟩ with
        | (.error e, m) => (.error e, m)
        | (.ok rest, m) => (.ok (x :: rest), m) := by
  have hoffer : c.offered = x := by
    simp [Controller.offered, hturn]
  have hread : readData ⟨c, config, state⟩ = (x, ⟨c, config, state⟩) := by
    rw [← hoffer]
    rfl
  obtain ⟨-, -, hpulse⟩ := Controller.onClock_reply hturn hclock
  rw [if_pos (by simp)] at hpulse
  have hrise : setClock ⟨c.onClock false, config, state⟩ true
      = ⟨c.offering (taken ++ [x] ++ (front ++ [etx])) (taken ++ [x]).length, config, state⟩ := by
    show Master.mk (Controller.onClock (c.onClock false) true) _ _ = _
    rw [hpulse]
    simp [Controller.offering]
  have hnext : Controller.peerLevel
      (c.offering (taken ++ [x] ++ (front ++ [etx])) (taken ++ [x]).length) = false :=
    Controller.peerLevel_of_low rfl
  simp only [receiveBytes, hread, await_replyRelease hturn hclock hready config state, hrise,
    if_neg hne, await_of_level config state hnext]
  rcases receiveBytes room _ with ⟨- | -, -⟩ <;> rfl

/-- **A reply comes in through its end mark**, and leaves the controller at
rest. -/
theorem receiveBytes_replying (config : BusConfig) (state : BusState) {front : Bytes}
    (hfront : ∀ x ∈ front, x ≠ etx) :
    ∀ {c : Controller} {taken : Bytes} {room : Nat}, front.length < room →
      c.behavior ≠ .notReady → c.turn = .replying (taken ++ (front ++ [etx])) taken.length →
      c.clockHigh = true →
      receiveBytes room ⟨c, config, state⟩
        = (.ok (front ++ [etx]), ⟨c.replied (front.length + 1), config, state⟩) := by
  induction front with
  | nil =>
    -- the end mark: its pulse ends the reply
    intro c taken room hroom hready hturn hclock
    rcases room with - | room
    · cases hroom
    have hoffer : c.offered = etx := by
      simp [Controller.offered, hturn]
    obtain ⟨-, -, hpulse⟩ := Controller.onClock_reply hturn hclock
    rw [if_neg (by simp)] at hpulse
    rw [receiveBytes_etx hturn hclock hready hoffer, hpulse]
    rfl
  | cons x front ih =>
    -- any other byte moves from what is to come to what was taken
    intro c taken room hroom hready hturn hclock
    rcases room with - | room
    · cases hroom
    have hne : x ≠ etx := hfront x (List.mem_cons_self ..)
    have hrest : ∀ y ∈ front, y ≠ etx := fun y hy => hfront y (List.mem_cons_of_mem x hy)
    have hreplied : (c.offering (taken ++ [x] ++ (front ++ [etx])) (taken ++ [x]).length).replied
        (front.length + 1) = c.replied (front.length + 1 + 1) := by
      simp only [Controller.replied, Controller.offering, Nat.add_assoc, Nat.add_comm 1]
    have hbehind := @ih hrest (c.offering (taken ++ [x] ++ (front ++ [etx])) (taken ++ [x]).length)
      (taken ++ [x]) room (Nat.lt_of_succ_lt_succ hroom) hready rfl hclock
    rw [receiveBytes_of_ne hready hturn hclock hne, hbehind, hreplied]
    rfl

/-- **An armed reply is offered** when the master begins to receive. -/
theorem receive_offered {c : Controller} {reply : Bytes} (hturn : c.turn = .armed reply)
    (hclock : c.clockHigh = true) (config : BusConfig) (state : BusState) :
    receive ⟨c, config, state⟩
      = match receiveBytes config.maxReply
          ⟨{ c with hostDirection := .input, signal := false, turn := .replying reply 0 },
            config, .receiving⟩ with
        | (.ok bytes, m) => (.ok bytes, m.enter .done)
        | (.error e, m) => (.error e, m.abort) := by
  have hstarted : Controller.onClock { c with hostDirection := .input } true
      = { c with hostDirection := .input, signal := false, turn := .replying reply 0 } := by
    simp [Controller.onClock, hturn, hclock]
  have hwait : ((enter ⟨c, config, state⟩ .receiving).setDirection .input).setClock true
      = ⟨{ c with hostDirection := .input, signal := false, turn := .replying reply 0 },
          config, .receiving⟩ := by
    rw [← hstarted]
    rfl
  have hoffered : Controller.peerLevel
      { c with hostDirection := .input, signal := false, turn := .replying reply 0 } = false :=
    Controller.peerLevel_of_low rfl
  simp only [receive, receiveRaw, hwait, await_of_level config .receiving hoffered]
  rcases receiveBytes config.maxReply _ with ⟨- | -, -⟩ <;> rfl

/-- **An armed reply is received.** -/
theorem receive_armed {c : Controller} {front : Bytes} (hready : c.behavior ≠ .notReady)
    (hturn : c.turn = .armed (front ++ [etx])) (hclock : c.clockHigh = true)
    (hfront : ∀ x ∈ front, x ≠ etx) {config : BusConfig} (hroom : front.length < config.maxReply)
    (state : BusState) :
    receive ⟨c, config, state⟩
      = (.ok (front ++ [etx]),
          ⟨Controller.replied { c with hostDirection := .input } (front.length + 1),
            config, .done⟩) := by
  have hbytes := @receiveBytes_replying config .receiving front hfront
    { c with hostDirection := .input, signal := false, turn := .replying (front ++ [etx]) 0 } []
    config.maxReply hroom hready rfl hclock
  rw [receive_offered hturn hclock, hbytes]
  rfl

/-! ### Failures -/

/-- Behind a failure the lines are at rest, if only the clock was left low. -/
theorem abort_rest {c : Controller} (hturn : c.turn = .listening) (hlatched : c.latched = none)
    (config : BusConfig) (state : BusState) :
    abort ⟨c, config, state⟩
      = ⟨{ c with clockHigh := true, hostDirection := .input }, config, .idle⟩ := by
  have hclock : setClock ⟨c, config, state⟩ true
      = ⟨{ c with clockHigh := true }, config, state⟩ := by
    show Master.mk (Controller.onClock c true) _ _ = _
    rw [Controller.onClock_high_of_none hturn hlatched]
  rw [abort, hclock]
  rfl

/-- A controller that is not ready refuses every frame. -/
theorem send_of_notReady {c : Controller} (hrest : c.AtRest) (hb : c.behavior = .notReady)
    (config : BusConfig) (state : BusState) (frame : Bytes) :
    send ⟨c, config, state⟩ frame
      = (.error .peerNotReady, ⟨{ c with hostDirection := .input }, config, .idle⟩) := by
  have hlevel : c.peerLevel = false := by
    rw [Controller.peerLevel, hb]
    rfl
  simp only [send, sendRaw, checkReady_eq, hlevel]
  rw [abort_rest hrest.listening hrest.latched, ← hrest.clockHigh]

/-- A controller that never takes a byte lets the first wait time out. -/
theorem sendBytes_of_neverAck {c : Controller} (hrest : c.AtRest) (hb : c.behavior = .neverAck)
    (config : BusConfig) (state : BusState) (byte : UInt8) (rest : Bytes) :
    sendBytes (byte :: rest) ⟨c, config, state⟩
      = (.error (.timeout .peerAck),
          ⟨{ c.clocked byte with clockHigh := false }, config, .timedOut⟩) := by
  have hignored : Controller.onClock { c with hostData := byte } false
      = { c.clocked byte with clockHigh := false } := by
    simp [Controller.onClock, Controller.clocked, hrest.listening, hrest.clockHigh, hb]
  have hfall : (((enter ⟨c, config, state⟩ .sendByte).writeData byte).setClock false).enter .waitAck
      = ⟨{ c.clocked byte with clockHigh := false }, config, .waitAck⟩ := by
    rw [← hignored]
    rfl
  have hkept : Controller.peerLevel { c.clocked byte with clockHigh := false } ≠ false := by
    have hlevel := hrest.peerLevel (by rw [hb]; exact nofun)
    exact fun h => Bool.noConfusion (hlevel.symm.trans h)
  simp only [sendBytes, hfall, await_of_not_level config .waitAck hkept]

/-- So no frame goes out to it. -/
theorem send_of_neverAck {c : Controller} (hrest : c.AtRest) (hb : c.behavior = .neverAck)
    (config : BusConfig) (state : BusState) (byte : UInt8) (rest : Bytes) :
    send ⟨c, config, state⟩ (byte :: rest)
      = (.error (.timeout .peerAck),
          ⟨{ c.clocked byte with hostDirection := .input }, config, .idle⟩) := by
  have hlevel := hrest.peerLevel (by rw [hb]; exact nofun)
  have hdirection : setDirection ⟨c, config, .checkReady⟩ .output
      = ⟨{ c with hostDirection := .output }, config, .checkReady⟩ := rfl
  have hsent := sendBytes_of_neverAck (hrest.facing .output) hb config .checkReady byte rest
  -- the failure left the clock low, and that is all there is to restore
  have hclocked := (hrest.facing .output).clocked byte
  have habort := @abort_rest { Controller.clocked { c with hostDirection := .output } byte with
    clockHigh := false } hclocked.listening hclocked.latched config .timedOut
  simp only [send, sendRaw, checkReady_eq, hlevel, hdirection, hsent, habort]
  rw [← hrest.clockHigh]
  rfl

/-- A controller with no reply lets the wait for it time out. -/
theorem receive_of_rest {c : Controller} (hrest : c.AtRest) (hready : c.behavior ≠ .notReady)
    (config : BusConfig) (state : BusState) :
    receive ⟨c, config, state⟩
      = (.error (.timeout .replyStart),
          ⟨{ c with hostDirection := .input }, config, .idle⟩) := by
  have hinput := hrest.facing .input
  have hwait : ((enter ⟨c, config, state⟩ .receiving).setDirection .input).setClock true
      = ⟨{ c with hostDirection := .input }, config, .receiving⟩ := by
    show Master.mk (Controller.onClock { c with hostDirection := .input } true) _ _ = _
    rw [hinput.onClock_high]
    rfl
  have hquiet : Controller.peerLevel { c with hostDirection := .input } ≠ false :=
    fun h => Bool.noConfusion ((hinput.peerLevel hready).symm.trans h)
  have habort := abort_rest hinput.listening hinput.latched config .timedOut
  simp only [receive, receiveRaw, hwait, await_of_not_level config .receiving hquiet, habort]
  rw [← hrest.clockHigh]

end Master

end MotionBridge
