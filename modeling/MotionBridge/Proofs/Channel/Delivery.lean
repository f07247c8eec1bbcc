/-
MotionBridge/Proofs/Channel/Delivery.lean

A byte stream delivered to the command channel, cut and polled in any way.

A *delivery* is a list of steps: chunks written to the channel's ring, and
polls in between; one more poll ends it.  What it leaves to be seen is its
*report*: the frames that reached the handler, the handler's state, how many
spans were worked off, how many bytes were lost, and the frame buffer.

The report is a function of the stream alone (`report_deliver`): each poll
extends the report by the bytes that waited (`report_poll`), and an extension
may be cut anywhere (`Report.extend_append`).  So all deliveries of a stream
have one report, overflows included.
-/
import MotionBridge.Channel.Command
import MotionBridge.Proofs.Frame.ByteFeed
import MotionBridge.Proofs.RingQueue

namespace MotionBridge

variable {τ : Type}

/-! ### What the handler is handed -/

/-- A handler that also keeps a record of the frames it was handed. -/
def Handler.recorded (handler : Handler τ) : Handler (τ × List Frame) := fun frame s =>
  let handled := handler frame s.1
  { dispatch := handled.dispatch
    state := (handled.state, s.2 ++ [frame])
    log := handled.log }

/-- A handler that counts the frames it is handed and answers none. -/
def Handler.counting : Handler Nat := fun _ n => { dispatch := .noReply, state := n + 1 }

namespace Accumulator

/-- The frame that an event hands over. -/
def Event.frame? : Event → Option Frame
  | .span s => s.frame?
  | .overflow _ => none

/-- The frames that events hand over, in order. -/
def framesOf (events : List Event) : List Frame :=
  events.filterMap Event.frame?

@[simp] theorem framesOf_append (a b : List Event) :
    framesOf (a ++ b) = framesOf a ++ framesOf b :=
  List.filterMap_append

@[simp] theorem framesOf_map_span (found : List Span) :
    framesOf (found.map Event.span) = found.filterMap Span.frame? := by
  rw [framesOf, List.filterMap_map]
  rfl

end Accumulator

open Accumulator

namespace CommandChannel

/-- The handler's state after it was handed frames in order. -/
def stateAfter (handler : Handler τ) (frames : List Frame) (state : τ) : τ :=
  frames.foldl (fun s frame => (handler frame s).state) state

/-- The handler sees exactly the frames among the events. -/
theorem reactAll_state (answerUnreachable : Bool) (handler : Handler τ) (events : List Event)
    (link : Link) (state : τ) :
    (reactAll answerUnreachable handler events link state).state
      = stateAfter handler (framesOf events) state := by
  induction events generalizing link state with
  | nil => rfl
  | cons event rest ih =>
    rw [reactAll]
    show (reactAll answerUnreachable handler rest _ _).state = _
    rw [ih]
    rcases event with (frame | etxAt) | lost <;> rfl

/-- A recording handler goes through the same states and records what it is
handed. -/
theorem stateAfter_recorded (handler : Handler τ) (frames : List Frame) (state : τ)
    (seen : List Frame) :
    stateAfter handler.recorded frames (state, seen)
      = (stateAfter handler frames state, seen ++ frames) := by
  induction frames generalizing state seen with
  | nil => rw [List.append_nil]; rfl
  | cons frame rest ih =>
    show stateAfter handler.recorded rest ((handler frame state).state, seen ++ [frame]) = _
    rw [ih, List.append_assoc]
    rfl

/-- Recording changes neither the replies nor the log. -/
theorem reactAll_recorded (answerUnreachable : Bool) (handler : Handler τ) (events : List Event)
    (link : Link) (state : τ) (seen : List Frame) :
    (reactAll answerUnreachable handler.recorded events link (state, seen)).link
        = (reactAll answerUnreachable handler events link state).link ∧
      (reactAll answerUnreachable handler.recorded events link (state, seen)).log
        = (reactAll answerUnreachable handler events link state).log := by
  induction events generalizing link state seen with
  | nil => exact ⟨rfl, rfl⟩
  | cons event rest ih =>
    rcases event with (frame | etxAt) | lost
    · obtain ⟨hlink, hlog⟩ := ih (answer answerUnreachable link (handler frame state).dispatch).1
        (handler frame state).state (seen ++ [frame])
      exact ⟨hlink, congrArg (_ ++ ·) hlog⟩
    · obtain ⟨hlink, hlog⟩ := ih link state seen
      exact ⟨hlink, congrArg (_ ++ ·) hlog⟩
    · obtain ⟨hlink, hlog⟩ := ih link state seen
      exact ⟨hlink, congrArg (_ ++ ·) hlog⟩

/-- **Recording changes nothing** of what a poll does. -/
theorem poll_recorded (c : CommandChannel) (handler : Handler τ) (state : τ)
    (seen : List Frame) :
    (c.poll handler.recorded (state, seen)).channel = (c.poll handler state).channel ∧
      (c.poll handler.recorded (state, seen)).log = (c.poll handler state).log ∧
      (c.poll handler.recorded (state, seen)).handled = (c.poll handler state).handled ∧
      (c.poll handler.recorded (state, seen)).discarded = (c.poll handler state).discarded ∧
      (c.poll handler.recorded (state, seen)).state.1 = (c.poll handler state).state := by
  obtain ⟨hlink, hlog⟩ := reactAll_recorded c.answerUnreachable handler
    (c.accumulator.receive c.ring.toList).1 c.link state seen
  refine ⟨?_, hlog, rfl, rfl, ?_⟩
  · exact congrArg (fun link => { c with
      ring := c.ring.drain.2
      accumulator := (c.accumulator.receive c.ring.toList).2
      link }) hlink
  · show (reactAll _ handler.recorded _ _ _).state.1 = (reactAll _ handler _ _ _).state
    rw [reactAll_state, reactAll_state, stateAfter_recorded]

/-- A fresh channel with a given frame limit: its ring, its link and its way
of answering may be any. -/
def Fresh (maxFrame : Nat) (c : CommandChannel) : Prop :=
  ∃ ringSize link answerUnreachable,
    c = start (Ring.ofCapacity ringSize) link maxFrame answerUnreachable

theorem Fresh.accumulator_eq {maxFrame : Nat} {c : CommandChannel} (h : c.Fresh maxFrame) :
    c.accumulator = { capacity := maxFrame } := by
  obtain ⟨_, _, _, rfl⟩ := h
  rfl

theorem Fresh.toList_ring {maxFrame : Nat} {c : CommandChannel} (h : c.Fresh maxFrame) :
    c.ring.toList = [] := by
  obtain ⟨n, _, _, rfl⟩ := h
  exact Ring.toList_ofCapacity n

/-- A fresh channel on a link without a client. -/
def unconnected (ringSize maxFrame : Nat) : CommandChannel :=
  start (Ring.ofCapacity ringSize) { name := "command" } maxFrame true

theorem fresh_unconnected (ringSize maxFrame : Nat) :
    (unconnected ringSize maxFrame).Fresh maxFrame :=
  ⟨ringSize, _, true, rfl⟩

end CommandChannel

/-! ### Deliveries -/

namespace Delivery

/-- One step of a delivery. -/
inductive Step
  /-- A chunk of the stream is written to the ring. -/
  | bytes (chunk : Bytes)
  | poll
deriving Repr, DecidableEq

/-- The bytes that steps deliver, in order. -/
def stream (steps : List Step) : Bytes :=
  steps.flatMap fun
    | .bytes chunk => chunk
    | .poll => []

/-- What can be seen of a delivery. -/
structure Report (τ : Type) where
  /-- The frames that the handler was handed, in order. -/
  frames : List Frame
  /-- The handler's state. -/
  state : τ
  /-- Spans worked off, good or bad. -/
  handled : Nat
  /-- Bytes lost because they did not fit the frame buffer. -/
  discarded : Nat
  accumulator : Accumulator

/-- How far a delivery has come. -/
structure Progress (τ : Type) where
  channel : CommandChannel
  frames : List Frame
  state : τ
  handled : Nat
  discarded : Nat
  /-- Bytes that the ring did not take. -/
  refused : Nat

/-- A delivery that has not begun. -/
def Progress.begin (channel : CommandChannel) (state : τ) : Progress τ :=
  { channel, frames := [], state, handled := 0, discarded := 0, refused := 0 }

def Progress.report (p : Progress τ) : Report τ :=
  { frames := p.frames
    state := p.state
    handled := p.handled
    discarded := p.discarded
    accumulator := p.channel.accumulator }

/-- The channel is polled. -/
def Progress.poll (handler : Handler τ) (p : Progress τ) : Progress τ :=
  let polled := p.channel.poll handler.recorded (p.state, p.frames)
  { p with
    channel := polled.channel
    frames := polled.state.2
    state := polled.state.1
    handled := p.handled + polled.handled
    discarded := p.discarded + polled.discarded }

/-- A chunk is written to the ring. -/
def Progress.write (p : Progress τ) (chunk : Bytes) : Progress τ :=
  let (stored, ring) := p.channel.ring.pushAll chunk
  { p with
    channel := { p.channel with ring }
    refused := p.refused + (chunk.length - stored) }

def Progress.step (handler : Handler τ) (p : Progress τ) : Step → Progress τ
  | .bytes chunk => p.write chunk
  | .poll => p.poll handler

/-- The steps of a delivery, and a last poll. -/
def Progress.finish (handler : Handler τ) (p : Progress τ) (steps : List Step) : Progress τ :=
  (steps.foldl (Progress.step handler) p).poll handler

/-- A whole delivery to a channel, from a state of the handler. -/
def deliver (handler : Handler τ) (channel : CommandChannel) (state : τ) (steps : List Step) :
    Progress τ :=
  (Progress.begin channel state).finish handler steps

/-- The delivery that polls after every single byte. -/
def bytewise (bytes : Bytes) : List Step :=
  bytes.flatMap fun byte => [.bytes [byte], .poll]

theorem stream_bytewise (bytes : Bytes) : stream (bytewise bytes) = bytes := by
  induction bytes with
  | nil => rfl
  | cons byte rest ih =>
    show byte :: stream (bytewise rest) = byte :: rest
    rw [ih]

/-! ### The report as a function of the bytes -/

/-- What more bytes make of a report. -/
def Report.extend (handler : Handler τ) (r : Report τ) (bytes : Bytes) : Report τ :=
  let (events, accumulator) := r.accumulator.feed bytes
  { frames := r.frames ++ framesOf events
    state := CommandChannel.stateAfter handler (framesOf events) r.state
    handled := r.handled + events.countP Event.isSpan
    discarded := r.discarded + Accumulator.discarded events
    accumulator }

/-- **An extension may be cut anywhere.** -/
theorem Report.extend_append (handler : Handler τ) {r : Report τ} (h : r.accumulator.Settled)
    (x y : Bytes) : r.extend handler (x ++ y) = (r.extend handler x).extend handler y := by
  have hfeed := h.feed_append x y
  simp only [extend, hfeed, framesOf_append, List.countP_append, discarded_append,
    List.append_assoc, Nat.add_assoc, CommandChannel.stateAfter, List.foldl_append]

theorem Report.settled_extend (handler : Handler τ) {r : Report τ} (h : r.accumulator.Settled)
    (bytes : Bytes) : (r.extend handler bytes).accumulator.Settled :=
  h.feed bytes

/-- A poll extends the report by the bytes that waited. -/
theorem report_poll (handler : Handler τ) {p : Progress τ}
    (h : p.channel.accumulator.Settled) :
    (p.poll handler).report = p.report.extend handler p.channel.ring.toList := by
  have hstate := CommandChannel.reactAll_state p.channel.answerUnreachable handler.recorded
    (p.channel.accumulator.feed p.channel.ring.toList).1 p.channel.link (p.state, p.frames)
  rw [CommandChannel.stateAfter_recorded] at hstate
  simp only [Progress.poll, CommandChannel.poll, Ring.drain_fst, h.receive, Progress.report,
    Report.extend, hstate]

/-- A chunk that the ring takes as a whole waits behind what waited before. -/
theorem toList_ring_write {p : Progress τ} {chunk : Bytes}
    (h : (p.write chunk).refused = p.refused) :
    (p.write chunk).channel.ring.toList = p.channel.ring.toList ++ chunk := by
  obtain ⟨hcount, hview, -⟩ := p.channel.ring.pushAll_eq chunk
  have hall : (p.channel.ring.pushAll chunk).1 = chunk.length := by
    have hrefused : p.refused + (chunk.length - (p.channel.ring.pushAll chunk).1) = p.refused := h
    omega
  rw [hall, List.take_length] at hview
  exact hview

/-- Bytes once refused stay refused. -/
theorem refused_le_foldl (handler : Handler τ) (p : Progress τ) (steps : List Step) :
    p.refused ≤ (steps.foldl (Progress.step handler) p).refused := by
  induction steps generalizing p with
  | nil => exact Nat.le_refl _
  | cons step rest ih =>
    have hstep : p.refused ≤ (p.step handler step).refused := by
      rcases step with chunk | -
      · exact Nat.le_add_right _ _
      · exact Nat.le_refl _
    exact Nat.le_trans hstep (ih (p.step handler step))

/-- A delivery of which the ring refuses nothing extends the report by its
stream. -/
theorem report_finish (handler : Handler τ) {p : Progress τ} {steps : List Step}
    (h : p.channel.accumulator.Settled)
    (hall : (p.finish handler steps).refused = p.refused) :
    (p.finish handler steps).report
      = p.report.extend handler (p.channel.ring.toList ++ stream steps) := by
  induction steps generalizing p with
  | nil =>
    show (p.poll handler).report = _
    rw [report_poll handler h, show stream [] = [] from rfl, List.append_nil]
  | cons step rest ih =>
    -- what a step refuses counts to the end, so no step refuses anything
    have hkept : (p.step handler step).refused = p.refused := by
      have hle : (p.step handler step).refused ≤ (p.finish handler (step :: rest)).refused :=
        refused_le_foldl handler (p.step handler step) rest
      have hge : p.refused ≤ (p.step handler step).refused :=
        refused_le_foldl handler p [step]
      omega
    have hrest : ((p.step handler step).finish handler rest).refused
        = (p.step handler step).refused := hall.trans hkept.symm
    rcases step with chunk | -
    · -- the chunk waits in the ring, and the report is not touched
      show ((p.write chunk).finish handler rest).report = _
      rw [ih (p := p.write chunk) h hrest]
      show (p.write chunk).report.extend handler
        ((p.write chunk).channel.ring.toList ++ stream rest) = _
      rw [toList_ring_write hkept, List.append_assoc]
      rfl
    · -- what waited moves into the report, and the rest of the stream behind it
      show ((p.poll handler).finish handler rest).report = _
      have hpoll := report_poll handler h
      have hsettled : (p.poll handler).channel.accumulator.Settled := by
        have := Report.settled_extend handler (r := p.report) h p.channel.ring.toList
        rwa [← hpoll] at this
      have hring : (p.poll handler).channel.ring.toList = [] := p.channel.ring.toList_drain
      rw [ih hsettled hrest, hpoll, hring, List.nil_append,
        ← Report.extend_append handler (r := p.report) h]
      rfl

/-- **The report of a delivery is a function of its stream**: what the stream
does to an empty frame buffer. -/
theorem report_deliver (handler : Handler τ) {maxFrame : Nat} (hmax : 0 < maxFrame)
    {channel : CommandChannel} (hfresh : channel.Fresh maxFrame) (state : τ)
    {steps : List Step} (hall : (deliver handler channel state steps).refused = 0) :
    (deliver handler channel state steps).report
      = ({ frames := [], state, handled := 0, discarded := 0,
            accumulator := { capacity := maxFrame } } : Report τ).extend handler
          (stream steps) := by
  have hsettled : channel.accumulator.Settled := by
    rw [hfresh.accumulator_eq]
    exact settled_empty hmax
  rw [deliver, report_finish handler (p := Progress.begin channel state) hsettled hall]
  show (Progress.begin channel state).report.extend handler
    (channel.ring.toList ++ stream steps) = _
  rw [hfresh.toList_ring, List.nil_append, Progress.report]
  show Report.extend handler { accumulator := channel.accumulator, .. } _ = _
  rw [hfresh.accumulator_eq]
  rfl

/-- A ring that can hold one byte refuses nothing of a bytewise delivery. -/
theorem refused_bytewise (handler : Handler τ) {p : Progress τ} (bytes : Bytes)
    (hring : p.channel.ring.toList = []) (hcap : 0 < p.channel.ring.capacity) :
    (p.finish handler (bytewise bytes)).refused = p.refused := by
  induction bytes generalizing p with
  | nil => rfl
  | cons byte rest ih =>
    obtain ⟨hcount, -, hcapacity⟩ := p.channel.ring.pushAll_eq [byte]
    have hsize : p.channel.ring.size = 0 := by
      rw [← Ring.length_toList, hring, List.length_nil]
    -- the ring is empty before each byte, so the byte is taken
    have hone : (p.channel.ring.pushAll [byte]).1 = 1 := by
      rw [hcount, hsize, List.length_singleton]
      omega
    have hkept : ((p.write [byte]).poll handler).refused = p.refused := by
      show p.refused + (1 - (p.channel.ring.pushAll [byte]).1) = p.refused
      rw [hone, Nat.sub_self, Nat.add_zero]
    have hnext := ih (p := (p.write [byte]).poll handler)
      (Ring.toList_drain (p.channel.ring.pushAll [byte]).2)
      (hcapacity.symm ▸ hcap : 0 < (p.channel.ring.pushAll [byte]).2.capacity)
    exact hnext.trans hkept

/-! ### Segmentation -/

/-- **Segmentation independence**: any two deliveries of one stream to fresh
channels with the same frame limit, of which the rings refuse nothing, have
the same report; and it is that of the delivery that polls after every byte,
of which no ring that holds a byte refuses anything. -/
theorem report_deliver_eq (handler : Handler τ) (state : τ) {maxFrame : Nat} (hmax : 1 ≤ maxFrame)
    {bytes : Bytes} {c₁ c₂ : CommandChannel} (hc₁ : c₁.Fresh maxFrame) (hc₂ : c₂.Fresh maxFrame)
    {steps₁ steps₂ : List Step} (h₁ : stream steps₁ = bytes) (h₂ : stream steps₂ = bytes)
    (hall₁ : (deliver handler c₁ state steps₁).refused = 0)
    (hall₂ : (deliver handler c₂ state steps₂).refused = 0) :
    (deliver handler c₁ state steps₁).report = (deliver handler c₂ state steps₂).report ∧
      ∀ c : CommandChannel, c.Fresh maxFrame → 0 < c.ring.capacity →
        (deliver handler c state (bytewise bytes)).refused = 0 ∧
          (deliver handler c₁ state steps₁).report
            = (deliver handler c state (bytewise bytes)).report := by
  have hreport₁ := report_deliver handler hmax hc₁ state hall₁
  have hreport₂ := report_deliver handler hmax hc₂ state hall₂
  rw [h₁] at hreport₁
  rw [h₂] at hreport₂
  refine ⟨hreport₁.trans hreport₂.symm, fun c hc hcap => ?_⟩
  have hall : (deliver handler c state (bytewise bytes)).refused = 0 :=
    refused_bytewise handler (p := Progress.begin c state) bytes hc.toList_ring hcap
  have hreport := report_deliver handler hmax hc state hall
  rw [stream_bytewise] at hreport
  exact ⟨hall, hreport₁.trans hreport.symm⟩

/-- Five bytes of noise overflow a buffer of four: written at once or with a
poll in between, they leave one report. -/
theorem report_deliver_eq_of_overflow :
    (deliver Handler.counting (.unconnected 8 4) 0
        [.bytes [0x41, 0x41, 0x41, 0x41, 0x41, 2, 128, 3]]).report
      = (deliver Handler.counting (.unconnected 6 4) 0
          [.bytes [0x41, 0x41, 0x41], .poll, .bytes [0x41, 0x41, 2, 128, 3]]).report := by
  have hall₁ : (deliver Handler.counting (.unconnected 8 4) 0
      [.bytes [0x41, 0x41, 0x41, 0x41, 0x41, 2, 128, 3]]).refused = 0 := by decide
  have hall₂ : (deliver Handler.counting (.unconnected 6 4) 0
      [.bytes [0x41, 0x41, 0x41], .poll, .bytes [0x41, 0x41, 2, 128, 3]]).refused = 0 := by decide
  exact (report_deliver_eq Handler.counting 0 (by decide) (CommandChannel.fresh_unconnected 8 4)
    (CommandChannel.fresh_unconnected 6 4) (by rfl) (by rfl) hall₁ hall₂).1

end Delivery

end MotionBridge
