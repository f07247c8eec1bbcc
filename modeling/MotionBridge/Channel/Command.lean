/-
MotionBridge/Channel/Command.lean

The command channel: received bytes wait in a ring, come together to frames
in the accumulator, and the frames go to a handler one by one in the order
of arrival.  Replies go back over the channel's link.
-/
import MotionBridge.Channel.Link
import MotionBridge.Frame.Accumulator
import MotionBridge.Ring
import MotionBridge.Router

namespace MotionBridge

/-- The command channel. -/
structure CommandChannel where
  /-- Bytes received and not yet looked at. -/
  ring : Ring
  link : Link
  accumulator : Accumulator
  /-- Whether a frame that the controller left unanswered is answered with
  the error value. -/
  answerUnreachable : Bool := true

namespace CommandChannel

/-- A fresh channel. -/
def start (ring : Ring) (link : Link) (maxFrame : Nat) (answerUnreachable : Bool) :
    CommandChannel :=
  { ring, link, accumulator := { capacity := maxFrame }, answerUnreachable }

/-- The value that stands for an unanswered frame. -/
def unreachableValue : Int32 := -1

/-- The bytes that a dispatch sends back, if any. -/
def replyBytes (answerUnreachable : Bool) : Dispatch → Option Bytes
  | .reply bytes => some bytes
  | .noReply => none
  | .unreachable => if answerUnreachable then some (valueReply unreachableValue) else none

/-- Sends a reply. -/
def sendReply (link : Link) (bytes : Bytes) : Link × Log :=
  let sent := link.send bytes
  (sent.link,
    .trace s!"[command] -> {hex bytes}" :: sent.log ++
      if sent.accepted then [] else [.trace "[command] No client connected, reply dropped"])

/-- Sends what a dispatch calls for. -/
def answer (answerUnreachable : Bool) (link : Link) (d : Dispatch) : Link × Log :=
  let noted : Log := match d with
    | .unreachable => [.note "[command] Motor controller did not reply"]
    | _ => []
  match replyBytes answerUnreachable d with
  | some bytes =>
    let (link, log) := sendReply link bytes
    (link, noted ++ log)
  | none => (link, noted)

/-- The link and the handler's state after events were worked off. -/
structure Reaction (τ : Type) where
  link : Link
  state : τ
  log : Log := []

/-- Works one event off: only a good frame reaches the handler. -/
def react {τ : Type} (answerUnreachable : Bool) (handler : Handler τ) (link : Link) (state : τ) :
    Accumulator.Event → Reaction τ
  | .overflow discarded =>
    { link, state, log := [.note s!"[command] Frame buffer overflow, discarded {discarded} bytes"] }
  | .span (.mismatch _) =>
    { link, state, log := [.note "[command] Checksum mismatch, frame dropped"] }
  | .span (.frame frame) =>
    let handled := handler frame state
    let (link, log) := answer answerUnreachable link handled.dispatch
    { link
      state := handled.state
      log := .trace s!"[command] <- node {frame.node} {hex frame.bytes}" :: handled.log ++ log }

/-- Works events off in order. -/
def reactAll {τ : Type} (answerUnreachable : Bool) (handler : Handler τ) :
    List Accumulator.Event → Link → τ → Reaction τ
  | [], link, state => { link, state }
  | event :: rest, link, state =>
    let first := react answerUnreachable handler link state event
    let later := reactAll answerUnreachable handler rest first.link first.state
    { later with log := first.log ++ later.log }

/-- What one poll of the channel did. -/
structure Polled (τ : Type) where
  /-- Complete spans worked off, good or bad. -/
  handled : Nat
  /-- Bytes lost because they did not fit the frame buffer. -/
  discarded : Nat
  channel : CommandChannel
  state : τ
  log : Log

/-- Works off everything received since the last poll. -/
def poll {τ : Type} (c : CommandChannel) (handler : Handler τ) (state : τ) : Polled τ :=
  let (backlog, ring) := c.ring.drain
  let (events, accumulator) := c.accumulator.receive backlog
  let reaction := reactAll c.answerUnreachable handler events c.link state
  { handled := events.countP Accumulator.Event.isSpan
    discarded := Accumulator.discarded events
    channel := { c with ring, accumulator, link := reaction.link }
    state := reaction.state
    log := reaction.log }

end CommandChannel

end MotionBridge
