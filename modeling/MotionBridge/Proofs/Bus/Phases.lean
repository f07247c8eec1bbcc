/-
MotionBridge/Proofs/Bus/Phases.lean

What the controller's side of the bus looks like, whatever is done to its lines.

A master works the lines in an order of its own, but the controller has to stand
any, with its behavior changed in between.  Its turn, the byte it has latched,
its signal and the clock go together in five ways only (`Phase`), and only
unmarked bytes are stored behind a start mark (`Buffered`).  Only the clock moves
the lines (`onClock_cases`), and every stimulus keeps them in one of these ways
(`Consistent.stimulate`), so they are in one after any stimuli.  The bounds on a
reply's index and on the frames received are read off it (`lines_after`).
-/
import MotionBridge.Proofs.Bus.Receivers

namespace MotionBridge

namespace Controller

/-! ### Stimuli -/

/-- What can be done to a controller from outside. -/
inductive Stimulus
  | setDirection (direction : Direction)
  | writeData (byte : UInt8)
  | readData
  | peerSignal
  | setClock (high : Bool)
  | setBehavior (behavior : Behavior)
  | setVersion (version : Int32)
  | setBusyPolls (busyPolls : Nat)
deriving Repr, DecidableEq

/-- The controller behind a stimulus. -/
def stimulate (c : Controller) : Stimulus → Controller
  | .setDirection direction => Lines.setDirection c direction
  | .writeData byte => Lines.writeData c byte
  | .readData => (Lines.readData c).2
  | .peerSignal => (Lines.peerSignal c).2
  | .setClock high => Lines.setClock c high
  | .setBehavior behavior => c.setBehavior behavior
  | .setVersion version => c.setVersion version
  | .setBusyPolls busyPolls => c.setBusyPolls busyPolls

/-- The controller behind some stimuli. -/
def after (c : Controller) (stimuli : List Stimulus) : Controller :=
  stimuli.foldl stimulate c

/-! ### Phases -/

/-- How a controller's turn, its latched byte, its signal and the clock go
together. -/
inductive Phase : (turn : Turn) → (latched : Option UInt8) → (signal clockHigh : Bool) → Prop
  /-- It listens. -/
  | idle {clockHigh} : Phase .listening none true clockHigh
  /-- It has latched a byte, and holds its signal low until the clock rises. -/
  | latched {byte} : Phase .listening (some byte) false false
  /-- A reply is ready, and the clock is to be set high. -/
  | armed {reply clockHigh} : reply ≠ [] → Phase (.armed reply) none true clockHigh
  /-- A reply byte is on offer. -/
  | offered {reply index} : index < reply.length → Phase (.replying reply index) none false true
  /-- The byte before the index was taken. -/
  | taken {reply index} : 1 ≤ index → index ≤ reply.length →
      Phase (.replying reply index) none true false

/-- A reply may be armed while the controller listens with no byte latched. -/
theorem Phase.arm {signal clockHigh : Bool} (h : Phase .listening none signal clockHigh)
    {reply : Bytes} (hne : reply ≠ []) : Phase (.armed reply) none signal clockHigh := by
  cases h with
  | idle => exact .armed hne

/-- What is stored of a frame: behind a start mark no further mark. -/
structure Buffered (incoming : Bytes) : Prop where
  fits : incoming.length ≤ maxFrame
  unmarked : ∀ body, incoming = stx :: body → Unmarked body

theorem Buffered.nil : Buffered [] :=
  ⟨Nat.zero_le _, nofun⟩

/-- A frame as the controller receives it. -/
structure Marked (frame : Bytes) : Prop where
  fits : frame.length ≤ maxFrame
  marked : ∃ body, Unmarked body ∧ frame = stx :: body ++ [etx]

/-- A controller whose lines are in a phase, with what it stores in order. -/
structure Consistent (c : Controller) : Prop where
  phase : Phase c.turn c.latched c.signal c.clockHigh
  buffered : Buffered c.incoming
  received : ∀ frame ∈ c.received, Marked frame

theorem consistent_new (behavior : Behavior) : Consistent { behavior } where
  phase := .idle
  buffered := .nil
  received := nofun

/-! ### Storing a byte -/

theorem Buffered.start : Buffered [stx] := by
  refine ⟨by decide, ?_⟩
  intro body h
  cases h
  exact unmarked_nil

/-- A byte joins what is stored, unless it completes a frame. -/
theorem Buffered.snoc {incoming : Bytes} (h : Buffered incoming) {byte : UInt8} (hs : byte ≠ stx)
    (he : byte = etx → incoming.head? ≠ some stx) (hroom : incoming.length < maxFrame) :
    Buffered (incoming ++ [byte]) := by
  refine ⟨?_, ?_⟩
  · rw [List.length_append, List.length_singleton]
    exact hroom
  · intro body hbody
    rcases incoming with - | ⟨first, front⟩
    · cases hbody
      exact absurd rfl hs
    · -- behind a start mark stand the bytes that stood there and the new one
      cases hbody
      intro x hx
      rcases List.mem_append.mp hx with hx | hx
      · exact h.unmarked front rfl x hx
      · rw [List.mem_singleton.mp hx]
        exact ⟨hs, fun hetx => he hetx rfl⟩

/-- An end mark that ends nothing is stored like any other byte. -/
theorem acceptByte_etx_of_not_begun {c : Controller} (hbegun : c.incoming.head? ≠ some stx)
    (hroom : c.incoming.length < maxFrame) :
    c.acceptByte etx = { c with incoming := c.incoming ++ [etx] } := by
  have hne : ¬ etx = stx := by decide
  have hfits : ¬ maxFrame < (c.incoming ++ [etx]).length := by
    rw [List.length_append, List.length_singleton]
    omega
  have hhead : (c.incoming ++ [etx]).head? ≠ some stx := by
    rcases hin : c.incoming with - | ⟨first, front⟩
    · decide
    · rwa [hin] at hbegun
  simp only [acceptByte, if_neg hne, if_neg hfits]
  rw [if_neg fun h => hhead h.2]

/-- **All that a byte can do**: it changes what is stored, or it completes a
frame, which is answered. -/
theorem Buffered.acceptByte {c : Controller} (h : Buffered c.incoming) (byte : UInt8) :
    (∃ incoming, Buffered incoming ∧ c.acceptByte byte = { c with incoming }) ∨
    (∃ frame, Marked frame ∧ c.acceptByte byte
      = answer { c with incoming := [], received := c.received.push frame } frame) := by
  by_cases hs : byte = stx
  · subst hs
    exact .inl ⟨[stx], .start, c.acceptByte_start⟩
  by_cases hfull : maxFrame ≤ c.incoming.length
  · exact .inl ⟨[], .nil, acceptByte_of_full hs hfull⟩
  have hroom : c.incoming.length < maxFrame := Nat.lt_of_not_le hfull
  by_cases he : byte = etx
  · subst he
    by_cases hbegun : c.incoming.head? = some stx
    · -- an end mark behind a start mark
      obtain ⟨body, hbody⟩ := List.head?_eq_some_iff.mp hbegun
      have hlen : body.length + 2 ≤ maxFrame := by
        rw [hbody, List.length_cons] at hroom
        omega
      refine .inr ⟨stx :: body ++ [etx], ⟨?_, body, h.unmarked body hbody, rfl⟩,
        acceptByte_etx hbody hlen⟩
      rw [List.length_append, List.length_cons, List.length_singleton]
      omega
    · exact .inl ⟨_, h.snoc hs (fun _ => hbegun) hroom, acceptByte_etx_of_not_begun hbegun hroom⟩
  · exact .inl ⟨_, h.snoc hs (fun hetx => absurd hetx he) hroom, acceptByte_of_room hs he hroom⟩

/-! ### Arming a reply -/

/-- What a frame is answered with is not empty. -/
theorem respond_ne_nil {c : Controller} {frame reply : Bytes}
    (h : (c.respond frame).1 = some reply) : reply ≠ [] := by
  have hanswer : ∃ a : MotorAnswer, a.frame = reply := by
    unfold respond at h
    split at h
    · cases h
    · split at h
      · cases h
      · split at h
        · exact ⟨.unknown, Option.some.inj h⟩
        · exact ⟨_, Option.some.inj h⟩
  obtain ⟨a, rfl⟩ := hanswer
  obtain ⟨body, -, -, henclosed⟩ := a.exists_body
  rw [henclosed]
  exact List.cons_ne_nil _ _

theorem corrupt_ne_nil {reply : Bytes} (h : reply ≠ []) : corrupt reply ≠ [] := by
  rw [← List.length_pos_iff, corrupt, List.length_modify]
  exact List.length_pos_iff.mpr h

/-- Answering a frame may arm a reply, which is not empty. -/
theorem answer_arms (c : Controller) (frame : Bytes) :
    ∃ turn machine executed, c.answer frame = { c with turn, machine, executed } ∧
      (turn = c.turn ∨ ∃ reply, reply ≠ [] ∧ turn = .armed reply) := by
  obtain ⟨reply, machine, executed, hrespond⟩ := c.respond_frame frame
  rw [answer, hrespond]
  rcases reply with - | reply
  · exact ⟨c.turn, machine, executed, rfl, .inl rfl⟩
  · have hne : reply ≠ [] := respond_ne_nil (congrArg Prod.fst hrespond)
    cases hb : c.behavior with
    | silent => exact ⟨c.turn, machine, executed, rfl, .inl rfl⟩
    | corruptReply => exact ⟨_, machine, executed, rfl, .inr ⟨_, corrupt_ne_nil hne, rfl⟩⟩
    | normal | neverAck | notReady => exact ⟨_, machine, executed, rfl, .inr ⟨_, hne, rfl⟩⟩

/-! ### Setting the clock -/

/-- From one controller to the other the lines have moved to a phase, and what is
stored is the same. -/
structure Moved (c d : Controller) : Prop where
  phase : Phase d.turn d.latched d.signal d.clockHigh
  incoming : d.incoming = c.incoming
  received : d.received = c.received

/-- **All that a level of the clock can do**: the lines move to another phase or
stay, or a latched byte is accepted. -/
theorem onClock_cases {c : Controller} (h : Phase c.turn c.latched c.signal c.clockHigh)
    (high : Bool) :
    Moved c (c.onClock high) ∨
    ∃ byte, c.turn = .listening ∧ c.latched = some byte ∧ c.onClock high
      = acceptByte { c with latched := none, signal := true, clockHigh := true } byte := by
  -- the phase decides every test that the clock makes but the one on the behavior
  generalize hturn : c.turn = turn at h
  generalize hlatched : c.latched = latched at h
  generalize hsignal : c.signal = signal at h
  generalize hclock : c.clockHigh = clockHigh at h
  cases h with
  | idle =>
    left
    cases high with
    | true => constructor <;> simp [onClock, hturn, hlatched, hsignal, Phase.idle]
    | false =>
      -- when the clock falls, a byte is latched by all who take any
      by_cases htakes : clockHigh = true ∧ c.behavior ≠ .neverAck
      · obtain ⟨rfl, hb⟩ := htakes
        constructor <;> simp [onClock, hturn, hclock, hb, Phase.latched]
      · have hstays : (c.clockHigh && c.behavior != .neverAck) = false := by
          rw [hclock]
          simpa using htakes
        constructor <;> simp [onClock, hturn, hlatched, hsignal, hstays, Phase.idle]
  | @latched byte =>
    cases high with
    | true =>
      -- the clock rises: whatever the behavior has become, the byte is accepted
      exact .inr ⟨byte, rfl, rfl, by simp [onClock, hturn, hlatched, hclock]⟩
    | false =>
      left
      constructor <;> simp [onClock, hturn, hlatched, hsignal, hclock, Phase.latched]
  | armed hne =>
    left
    cases high with
    | true =>
      -- no edge is needed: a high clock that is set high again starts the reply
      have hfirst := List.length_pos_iff.mpr hne
      constructor <;> simp [onClock, hturn, hlatched, Phase.offered hfirst]
    | false => constructor <;> simp [onClock, hturn, hlatched, hsignal, Phase.armed hne]
  | offered hlt =>
    left
    cases high with
    | true => constructor <;> simp [onClock, hturn, hlatched, hsignal, hclock, Phase.offered hlt]
    | false =>
      constructor <;> simp [onClock, hturn, hlatched, hclock, Phase.taken, Nat.succ_le_of_lt hlt]
  | @taken reply index hpos hle =>
    left
    cases high with
    | true =>
      -- the next byte is offered, or the reply is over
      by_cases hlt : index < reply.length
      · constructor <;> simp [onClock, hturn, hlatched, hclock, hlt, Phase.offered hlt]
      · constructor <;> simp [onClock, hturn, hlatched, hclock, hlt, Phase.idle]
    | false =>
      constructor <;> simp [onClock, hturn, hlatched, hsignal, hclock, Phase.taken hpos hle]

/-! ### Every stimulus -/

namespace Consistent

variable {c : Controller}

/-- A controller that listens accepts a byte. -/
theorem acceptByte (h : c.Consistent) (hturn : c.turn = .listening) (hlatched : c.latched = none)
    (byte : UInt8) : (c.acceptByte byte).Consistent := by
  have hphase := h.phase
  rw [hturn, hlatched] at hphase
  obtain ⟨incoming, hbuffered, haccept⟩ | ⟨frame, hframe, haccept⟩ := h.buffered.acceptByte byte
  · rw [haccept]
    exact ⟨h.phase, hbuffered, h.received⟩
  · obtain ⟨turn, machine, executed, hanswer, hturn'⟩ :=
      answer_arms { c with incoming := [], received := c.received.push frame } frame
    rw [haccept, hanswer]
    refine ⟨?_, .nil, ?_⟩
    · show Phase turn c.latched c.signal c.clockHigh
      rw [hlatched]
      obtain rfl | ⟨reply, hne, rfl⟩ := hturn'
      · exact hturn ▸ hphase
      · exact hphase.arm hne
    · intro f hf
      rcases Array.mem_push.mp hf with hf | rfl
      · exact h.received f hf
      · exact hframe

/-- **Setting the clock**, to whichever level it had. -/
theorem onClock (h : c.Consistent) (high : Bool) : (c.onClock high).Consistent := by
  obtain hmoved | ⟨byte, hturn, -, haccept⟩ := onClock_cases h.phase high
  · exact ⟨hmoved.phase, hmoved.incoming ▸ h.buffered, hmoved.received ▸ h.received⟩
  · rw [haccept]
    have hfreed : Consistent { c with latched := none, signal := true, clockHigh := true } :=
      ⟨by rw [hturn]; exact .idle, h.buffered, h.received⟩
    exact hfreed.acceptByte hturn rfl byte

/-- Only the clock changes anything about the lines. -/
theorem stimulate (h : c.Consistent) (stimulus : Stimulus) : (c.stimulate stimulus).Consistent := by
  cases stimulus with
  | setClock high => exact h.onClock high
  | setDirection _ | writeData _ | readData | peerSignal | setBehavior _ | setVersion _
  | setBusyPolls _ => exact ⟨h.phase, h.buffered, h.received⟩

theorem after (stimuli : List Stimulus) :
    ∀ {c : Controller}, c.Consistent → (c.after stimuli).Consistent := by
  induction stimuli with
  | nil => exact fun h => h
  | cons stimulus rest ih => exact fun h => ih (h.stimulate stimulus)

end Consistent

/-! ### What a phase says -/

namespace Phase

variable {turn : Turn} {latched : Option UInt8} {signal clockHigh : Bool}

theorem of_latched (h : Phase turn latched signal clockHigh) (hlatched : latched ≠ none) :
    turn = .listening ∧ clockHigh = false := by
  cases h with
  | latched => exact ⟨rfl, rfl⟩
  | idle | armed _ | offered _ | taken _ _ => exact absurd rfl hlatched

theorem signal_low_iff (h : Phase turn latched signal clockHigh) :
    signal = false ↔
      latched ≠ none ∨ (∃ reply index, turn = .replying reply index) ∧ clockHigh = true := by
  cases h with
  | idle | armed _ => simp
  | latched | offered _ | taken _ _ => simp

theorem index_bounds {reply : Bytes} {index : Nat}
    (h : Phase (.replying reply index) latched signal clockHigh) :
    (clockHigh = true → index < reply.length) ∧
      (clockHigh = false → 1 ≤ index ∧ index ≤ reply.length) := by
  cases h with
  | offered hlt => exact ⟨fun _ => hlt, nofun⟩
  | taken hpos hle => exact ⟨nofun, fun _ => ⟨hpos, hle⟩⟩

end Phase

/-- The byte at a reply's index is what a sample reads. -/
theorem readData_of_lt {c : Controller} {reply : Bytes} {index : Nat}
    (hturn : c.turn = .replying reply index) (hlt : index < reply.length) :
    reply[index]? = some (Lines.readData c).1 := by
  show reply[index]? = some c.offered
  simp only [offered, hturn, List.getD_eq_getElem?_getD, List.getElem?_eq_getElem hlt,
    Option.getD_some]

/-- A frame that was received is at least its two marks, with no other mark
between them. -/
theorem Marked.enclosed {frame : Bytes} (h : Marked frame) :
    2 ≤ frame.length ∧ frame.length ≤ maxFrame ∧
      ∃ body, frame = stx :: body ++ [etx] ∧ stx ∉ body ∧ etx ∉ body := by
  obtain ⟨hfits, body, hbody, rfl⟩ := h
  refine ⟨?_, hfits, body, rfl, fun hs => (hbody stx hs).1 rfl, fun he => (hbody etx he).2 rfl⟩
  rw [List.length_append, List.length_cons, List.length_singleton]
  omega

/-- **The lines are consistent after any stimuli**, in any order, from a fresh
controller of any behavior.  A byte is latched only while the controller listens
with the clock low; its signal is low exactly while a byte is latched or it
replies with the clock high.  While it replies, a sample with the clock high
reads a byte of the reply, and with the clock low the index has passed a byte
and no more than all.  What is stored never exceeds the buffer, and every frame
received stands between its only two marks. -/
theorem lines_after (behavior : Behavior) (stimuli : List Stimulus) :
    let c := after { behavior } stimuli
    (c.latched ≠ none → c.turn = .listening ∧ c.clockHigh = false) ∧
      (c.signal = false ↔
        c.latched ≠ none ∨ (∃ reply index, c.turn = .replying reply index) ∧ c.clockHigh = true) ∧
      (∀ reply index, c.turn = .replying reply index →
        (c.clockHigh = true → index < reply.length ∧ reply[index]? = some (Lines.readData c).1) ∧
        (c.clockHigh = false → 1 ≤ index ∧ index ≤ reply.length)) ∧
      c.incoming.length ≤ 64 ∧
      ∀ frame ∈ c.received, 2 ≤ frame.length ∧ frame.length ≤ 64 ∧
        ∃ body, frame = stx :: body ++ [etx] ∧ stx ∉ body ∧ etx ∉ body := by
  intro c
  have h : c.Consistent := (consistent_new behavior).after stimuli
  refine ⟨h.phase.of_latched, h.phase.signal_low_iff, ?_, h.buffered.fits,
    fun frame hframe => (h.received frame hframe).enclosed⟩
  intro reply index hturn
  have hphase := h.phase
  rw [hturn] at hphase
  obtain ⟨hhigh, hlow⟩ := hphase.index_bounds
  exact ⟨fun hclock => ⟨hhigh hclock, readData_of_lt hturn (hhigh hclock)⟩, hlow⟩

/-- When a query has gone across, the next high clock offers the first byte of its
reply. -/
example :
    let sent : List Stimulus := (enclose [0x0B, 0xD8]).flatMap fun byte =>
      [.writeData byte, .setClock false, .setClock true]
    (after {} (sent ++ [.setClock true])).offered = stx ∧
      (after {} (sent ++ [.setClock true])).signal = false := by decide +kernel

/-- A byte that was latched is stored even when the behavior has changed to one
that takes none. -/
example :
    (after {} [.writeData stx, .setClock false, .setBehavior .neverAck, .setClock false,
      .setClock true]).incoming = [stx] := by decide

end Controller

end MotionBridge
