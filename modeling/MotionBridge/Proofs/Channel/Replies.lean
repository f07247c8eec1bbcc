/-
MotionBridge/Proofs/Channel/Replies.lean

The replies of a poll stand in the order of the frames they answer.

A poll hands the good frames among its events to the handler, one by one, and
the handler's dispatches call for replies in that order.  Sending replies one
by one is queueing as many of them as there is room for (`sendAll_eq`), so a
poll appends the first of the replies to the link's queue and drops the rest
(`poll_replies`).  No frame stays behind: a poll goes on until no span is
complete in the frame buffer, and if it lost no bytes its events are all the
spans that waited.  Nothing is asked of the handler, of what waits in the ring
and in the frame buffer, or of the link.
-/
import MotionBridge.Proofs.Channel.Delivery
import MotionBridge.Proofs.Frame.Accounting
import MotionBridge.Proofs.Frame.Consumption

namespace MotionBridge

variable {τ : Type}

/-! ### Sending in a row -/

namespace Link

/-- Sends replies in order. -/
def sendAll (l : Link) (replies : List Bytes) : Link :=
  replies.foldl (fun l reply => (l.send reply).link) l

/-- Whether chunks are queued at all: for a client, by a writer. -/
def IsOpen (l : Link) : Prop :=
  l.connected = true ∧ l.hasReceiver = true

instance (l : Link) : Decidable l.IsOpen := by
  unfold IsOpen
  infer_instance

theorem send_nil (l : Link) : (l.send []).link = l := rfl

/-- Without a client or a writer nothing is queued. -/
theorem send_of_not_open {l : Link} (h : ¬ l.IsOpen) (data : Bytes) : (l.send data).link = l := by
  have hclosed : (data.isEmpty || !l.connected || !l.hasReceiver) = true := by
    rw [Bool.or_assoc, Bool.or_eq_true]
    right
    rcases hc : l.connected
    · rfl
    · rcases hr : l.hasReceiver
      · rfl
      · exact absurd ⟨hc, hr⟩ h
  rw [send, if_pos hclosed]

/-- With a client and room in the queue, bytes join its end. -/
theorem send_of_room {l : Link} (h : l.IsOpen) (hroom : l.queue.length < depth) {data : Bytes}
    (hne : data ≠ []) : (l.send data).link = { l with queue := l.queue ++ [⟨l.newest, data⟩] } := by
  have hready : (data.isEmpty || !l.connected || !l.hasReceiver) = false := by
    simp [h.1, h.2, hne]
  rw [send, if_neg (by rw [hready]; exact Bool.false_ne_true), if_pos hroom]

/-- A full queue takes no more. -/
theorem send_of_full {l : Link} (hfull : depth ≤ l.queue.length) (data : Bytes) :
    (l.send data).link = l := by
  rw [send]
  split
  · rfl
  · rw [if_neg (Nat.not_lt.mpr hfull)]

/-- What is queued by one send. -/
theorem send_eq (l : Link) (data : Bytes) :
    (l.send data).link
      = { l with queue := l.queue ++
            if data ≠ [] ∧ l.IsOpen ∧ l.queue.length < depth then [⟨l.newest, data⟩] else [] } := by
  by_cases hne : data = []
  · rw [if_neg (fun h => h.1 hne), List.append_nil, hne, send_nil]
  by_cases hopen : l.IsOpen
  · by_cases hroom : l.queue.length < depth
    · rw [if_pos ⟨hne, hopen, hroom⟩, send_of_room hopen hroom hne]
    · rw [if_neg (fun h => hroom h.2.2), List.append_nil, send_of_full (Nat.not_lt.mp hroom)]
  · rw [if_neg (fun h => hopen h.2.1), List.append_nil, send_of_not_open hopen]

/-- **Sending in a row queues as many as there is room for**, in order, all
for the connection that is the newest. -/
theorem sendAll_eq (l : Link) {replies : List Bytes} (hne : ∀ reply ∈ replies, reply ≠ []) :
    l.sendAll replies
      = { l with queue := l.queue ++
            if l.IsOpen then
              (replies.take (depth - l.queue.length)).map fun reply => ⟨l.newest, reply⟩
            else [] } := by
  induction replies generalizing l with
  | nil => simp [sendAll]
  | cons reply rest ih =>
    have hrest : ∀ r ∈ rest, r ≠ [] := fun r hr => hne r (List.mem_cons_of_mem reply hr)
    show (l.send reply).link.sendAll rest = _
    by_cases hopen : l.IsOpen
    · by_cases hroom : l.queue.length < depth
      · -- the reply takes one place, and the others what is left
        have hplaces : depth - l.queue.length = depth - (l.queue.length + 1) + 1 := by omega
        rw [send_of_room hopen hroom (hne reply (List.mem_cons_self ..)), ih _ hrest]
        simp only [show Link.IsOpen { l with queue := l.queue ++ [⟨l.newest, reply⟩] } from hopen,
          if_pos hopen, if_true, List.length_append, List.length_singleton, hplaces,
          List.take_succ_cons, List.map_cons, List.append_assoc, List.singleton_append]
      · have hnone : depth - l.queue.length = 0 := by omega
        rw [send_of_full (Nat.not_lt.mp hroom), ih l hrest]
        simp only [hnone, List.take_zero]
    · rw [send_of_not_open hopen, ih l hrest]
      simp only [if_neg hopen]

end Link

/-! ### What is sent -/

/-- A handler that answers each frame with its number. -/
def Handler.numbering : Handler Nat := fun _ n =>
  { dispatch := .reply [UInt8.ofNat n], state := n + 1 }

namespace CommandChannel

open Accumulator

/-- What a handler makes of frames, in order. -/
def dispatches (handler : Handler τ) : List Frame → τ → List Dispatch
  | [], _ => []
  | frame :: rest, state =>
    (handler frame state).dispatch :: dispatches handler rest (handler frame state).state

/-- The reply that a dispatch calls for, if there is anything to send. -/
def reply? (answerUnreachable : Bool) : Dispatch → Option Bytes
  | .reply bytes => if bytes = [] then none else some bytes
  | .unreachable => if answerUnreachable then some (valueReply (-1)) else none
  | .noReply => none

/-- The replies to frames, in order. -/
def replies (answerUnreachable : Bool) (handler : Handler τ) (frames : List Frame) (state : τ) :
    List Bytes :=
  (dispatches handler frames state).filterMap (reply? answerUnreachable)

/-- No reply is empty. -/
theorem reply?_ne_nil {answerUnreachable : Bool} {d : Dispatch} {bytes : Bytes}
    (h : reply? answerUnreachable d = some bytes) : bytes ≠ [] := by
  cases d with
  | reply data =>
    simp only [reply?] at h
    split at h
    · cases h
    · cases h
      assumption
  | noReply => cases h
  | unreachable =>
    simp only [reply?] at h
    split at h
    · cases h
      exact List.cons_ne_nil _ _
    · cases h

/-- A dispatch is answered by sending its reply. -/
theorem answer_link (answerUnreachable : Bool) (link : Link) (d : Dispatch) :
    (answer answerUnreachable link d).1 = link.sendAll (reply? answerUnreachable d).toList := by
  cases d with
  | reply bytes =>
    by_cases hempty : bytes = []
    · subst hempty
      exact link.send_nil
    · rw [reply?, if_neg hempty]
      rfl
  | noReply => rfl
  | unreachable => cases answerUnreachable <;> rfl

/-- **Working events off sends the replies to their frames**, in order. -/
theorem reactAll_link (answerUnreachable : Bool) (handler : Handler τ) (events : List Event)
    (link : Link) (state : τ) :
    (reactAll answerUnreachable handler events link state).link
      = link.sendAll (replies answerUnreachable handler (framesOf events) state) := by
  induction events generalizing link state with
  | nil => rfl
  | cons event rest ih =>
    rw [reactAll]
    show (reactAll answerUnreachable handler rest _ _).link = _
    rw [ih]
    rcases event with (frame | etxAt) | lost
    · have hframes : framesOf (.span (.frame frame) :: rest) = frame :: framesOf rest := rfl
      have hreplies : replies answerUnreachable handler (frame :: framesOf rest) state
          = (reply? answerUnreachable (handler frame state).dispatch).toList
            ++ replies answerUnreachable handler (framesOf rest) (handler frame state).state := by
        simp only [replies, dispatches, List.filterMap_cons]
        rcases reply? answerUnreachable (handler frame state).dispatch with - | bytes <;> rfl
      have hlink : (react answerUnreachable handler link state (.span (.frame frame))).link
          = link.sendAll (reply? answerUnreachable (handler frame state).dispatch).toList :=
        answer_link answerUnreachable link (handler frame state).dispatch
      rw [hlink, hframes, hreplies]
      exact List.foldl_append.symm
    · rfl
    · rfl

/-! ### A poll -/

/-- Whether an event is a complete span with a wrong checksum. -/
def isMismatch : Event → Bool
  | .span (.mismatch _) => true
  | _ => false

/-- Spans are frames and mismatches. -/
theorem countP_isSpan (events : List Event) :
    events.countP Event.isSpan = (framesOf events).length + events.countP isMismatch := by
  induction events with
  | nil => rfl
  | cons event rest ih =>
    rcases event with (frame | etxAt) | lost
    · rw [List.countP_cons_of_pos rfl, List.countP_cons_of_neg Bool.false_ne_true, ih,
        show framesOf (.span (.frame frame) :: rest) = frame :: framesOf rest from rfl,
        List.length_cons]
      omega
    · rw [List.countP_cons_of_pos rfl, List.countP_cons_of_pos rfl, ih]
      exact Nat.add_assoc ..
    · rw [List.countP_cons_of_neg Bool.false_ne_true,
        List.countP_cons_of_neg Bool.false_ne_true, ih]
      rfl

/-- The handler is handed the frames among the events of the backlog. -/
theorem handed_eq (c : CommandChannel) (handler : Handler τ) (state : τ) (seen : List Frame) :
    (c.poll handler.recorded (state, seen)).state.2
      = seen ++ framesOf (c.accumulator.receive c.ring.toList).1 := by
  have hstate := reactAll_state c.answerUnreachable handler.recorded
    (c.accumulator.receive c.ring.toList).1 c.link (state, seen)
  rw [stateAfter_recorded] at hstate
  exact congrArg Prod.snd hstate

/-- **Replies match frames in order.**  The events of a poll consume what
waited in the frame buffer and then in the ring until no span is complete in
what is left, unless the buffer can hold nothing, when a backlog would never be
worked off; if no bytes were lost, the events are all the spans of what waited.
The handler is called with the good frames among them, in that order and for
nothing else, and spans with a wrong checksum only count.  Of the replies to
these frames the first are queued, in order, as far as the queue has room;
without a client none are, nor when nothing is there to take them out. -/
theorem poll_replies (c : CommandChannel) (handler : Handler τ) (state : τ) :
    let waiting := c.accumulator.buffer ++ c.ring.toList
    let events := (c.accumulator.receive c.ring.toList).1
    let frames := framesOf events
    let polled := c.poll handler state
    (c.ring.toList = [] ∨ 0 < c.accumulator.capacity →
        Consumes c.accumulator.capacity events waiting polled.channel.accumulator.buffer ∧
          polled.channel.accumulator.next = none ∧
          (polled.discarded = 0 → events = (spans waiting).1.map .span ∧
            polled.channel.accumulator.buffer = (spans waiting).2)) ∧
      (∀ seen, (c.poll handler.recorded (state, seen)).state.2 = seen ++ frames) ∧
      polled.handled = frames.length + events.countP isMismatch ∧
      polled.channel.link
        = { c.link with queue := c.link.queue ++
              if c.link.connected ∧ c.link.hasReceiver then
                ((replies c.answerUnreachable handler frames state).take
                  (32 - c.link.queue.length)).map fun reply => ⟨c.link.newest, reply⟩
              else [] } := by
  intro waiting events frames polled
  refine ⟨fun hcap => ?_, c.handed_eq handler state, countP_isSpan _, ?_⟩
  · have hconsumes : Consumes c.accumulator.capacity events waiting
        polled.channel.accumulator.buffer := consumes_receive hcap
    exact ⟨hconsumes, next_eq_none_iff.mpr hconsumes.quiet, hconsumes.eq_spans⟩
  · have hlink := reactAll_link c.answerUnreachable handler
      (c.accumulator.receive c.ring.toList).1 c.link state
    rw [Link.sendAll_eq] at hlink
    · exact hlink
    · intro bytes hbytes
      obtain ⟨d, -, hd⟩ := List.mem_filterMap.mp hbytes
      exact reply?_ne_nil hd

/-- Two good frames with a spoilt one between them, and room for one reply:
the first frame's is queued, all three spans count, and nothing is left. -/
theorem poll_replies_of_backlog :
    let queue : List Chunk := List.replicate 31 ⟨3, [0]⟩
    let c : CommandChannel :=
      { ring := ((Ring.ofCapacity 16).pushAll [128, 3, 2, 129, 3, 2, 128, 3]).2
        link := { name := "command", connected := true, newest := 3, queue }
        accumulator := { buffer := [2], capacity := 8 } }
    let polled := c.poll .numbering 1
    0 < c.accumulator.capacity ∧ polled.discarded = 0 ∧ polled.handled = 3 ∧
      polled.channel.link = { c.link with queue := queue ++ [⟨3, [1]⟩] } ∧
      polled.channel.accumulator.next = none ∧
      Consumes 8 [.span (.frame (frameAt 0 [2, 128, 3])), .span (.mismatch 2),
        .span (.frame (frameAt 0 [2, 128, 3]))] [2, 128, 3, 2, 129, 3, 2, 128, 3] [] := by
  intro queue c polled
  have hcap : 0 < c.accumulator.capacity := by decide
  have hkept : polled.discarded = 0 := by decide +kernel
  obtain ⟨hread, -, hhandled, hlink⟩ := poll_replies c .numbering 1
  obtain ⟨hconsumes, hnext, hspans⟩ := hread (.inr hcap)
  have hwaiting : c.accumulator.buffer ++ c.ring.toList = [2, 128, 3, 2, 129, 3, 2, 128, 3] := by
    decide +kernel
  have hfound : (spans [2, 128, 3, 2, 129, 3, 2, 128, 3])
      = ([.frame (frameAt 0 [2, 128, 3]), .mismatch 2, .frame (frameAt 0 [2, 128, 3])], []) := by
    decide +kernel
  refine ⟨hcap, hkept, ?_, ?_, hnext, ?_⟩
  · rw [hhandled]
    decide +kernel
  · rw [hlink]
    decide +kernel
  · obtain ⟨hevents, hrest⟩ := hspans hkept
    rw [hevents, hrest, hwaiting, hfound] at hconsumes
    exact hconsumes

end CommandChannel

end MotionBridge
