/-
MotionBridge/Proofs/Channel/Termination.lean

A poll of the command channel comes to its end.

A poll is run here round by round (`Polling.round`): as long as a span is
complete in the frame buffer it is worked off, then the next portion of the
backlog goes in, and with nothing left to put in the poll is over.  Nothing in
a round counts down.  The rounds end all the same when the buffer can hold
anything at all (`reaches_drain`, `reaches_feed`), and they end with just what
`poll` says; a buffer that can hold nothing would stay at its first byte for
good (`not_ends_of_empty`).

What a poll works off is bounded by what it consumes: a span is two bytes or
more, and no frame is longer than the buffer it was found in (`poll_ends`).
-/
import Mathlib.Computability.StateTransition
import MotionBridge.Proofs.Channel.Replies
import MotionBridge.Proofs.Frame.Accounting

namespace MotionBridge

variable {τ : Type}

namespace CommandChannel

open Accumulator StateTransition

/-- What a backlog leaves of a buffer is settled, whatever spans were in it. -/
theorem settled_receive {a : Accumulator} (hcap : 0 < a.capacity)
    (hfits : a.buffer.length ≤ a.capacity) (backlog : Bytes) : (a.receive backlog).2.Settled :=
  Settled.feed (settled_spans hfits hcap) backlog

/-! ### Rounds -/

/-- A poll at work. -/
structure Polling (τ : Type) where
  channel : CommandChannel
  /-- What was drained from the ring and has not gone into the frame buffer. -/
  pending : Bytes
  /-- The handler's state. -/
  state : τ
  /-- Complete spans worked off, good or bad. -/
  handled : Nat := 0
  /-- Bytes lost because they did not fit the frame buffer. -/
  discarded : Nat := 0
  log : Log := []

namespace Polling

/-- A poll begins by draining the ring. -/
def begun (c : CommandChannel) (state : τ) : Polling τ :=
  { channel := { c with ring := c.ring.drain.2 }, pending := c.ring.drain.1, state }

/-- What a poll that is over has done. -/
def polled (p : Polling τ) : Polled τ :=
  { handled := p.handled
    discarded := p.discarded
    channel := p.channel
    state := p.state
    log := p.log }

/-- The poll with a frame buffer and a backlog of its own. -/
def holding (p : Polling τ) (accumulator : Accumulator) (pending : Bytes) : Polling τ :=
  { p with channel := { p.channel with accumulator }, pending }

/-- Works one event off. -/
def work (handler : Handler τ) (p : Polling τ) (event : Event) : Polling τ :=
  let reaction := react p.channel.answerUnreachable handler p.channel.link p.state event
  { p with
    channel := { p.channel with link := reaction.link }
    state := reaction.state
    handled := p.handled + event.isSpan.toNat
    discarded := p.discarded + event.discarded
    log := p.log ++ reaction.log }

/-- Works events off in order. -/
def workAll (handler : Handler τ) (p : Polling τ) (events : List Event) : Polling τ :=
  events.foldl (work handler) p

/-- One round of a poll: the next complete span is worked off.  Where there is
none the next portion of the backlog goes in, and with no backlog the poll is
over. -/
def round (handler : Handler τ) (p : Polling τ) : Option (Polling τ) :=
  match p.channel.accumulator.next with
  | some (found, left) => some ((p.holding left p.pending).work handler (.span found))
  | none =>
    if p.pending = [] then none
    else
      let size := p.channel.accumulator.portion p.pending
      let (lost, filled) := p.channel.accumulator.push (p.pending.take size)
      some ((p.holding filled (p.pending.drop size)).workAll handler (overflowEvent lost))

/-! ### Events worked off -/

section Events

variable (handler : Handler τ) (p : Polling τ)

theorem workAll_append (a b : List Event) :
    p.workAll handler (a ++ b) = (p.workAll handler a).workAll handler b :=
  List.foldl_append

/-- What is in the frame buffer is no matter to the events. -/
theorem workAll_holding (accumulator : Accumulator) (pending : Bytes) (events : List Event) :
    (p.holding accumulator pending).workAll handler events
      = (p.workAll handler events).holding accumulator pending := by
  induction events generalizing p with
  | nil => rfl
  | cons event rest ih => exact ih (p.work handler event)

/-- **Working events off one by one is working them off together.** -/
theorem workAll_eq (events : List Event) :
    p.workAll handler events =
      let reaction := reactAll p.channel.answerUnreachable handler events p.channel.link p.state
      { p with
        channel := { p.channel with link := reaction.link }
        state := reaction.state
        handled := p.handled + events.countP Event.isSpan
        discarded := p.discarded + Accumulator.discarded events
        log := p.log ++ reaction.log } := by
  induction events generalizing p with
  | nil => simp [workAll, reactAll]
  | cons event rest ih =>
    show (p.work handler event).workAll handler rest = _
    rw [ih]
    have hcount : (event :: rest).countP Event.isSpan
        = event.isSpan.toNat + rest.countP Event.isSpan := by
      cases event with
      | span s =>
        rw [List.countP_cons_of_pos rfl, Nat.add_comm]
        rfl
      | overflow lost =>
        rw [List.countP_cons_of_neg Bool.false_ne_true]
        exact (Nat.zero_add _).symm
    simp only [work, reactAll, hcount, discarded_cons, Nat.add_assoc, List.append_assoc]

end Events

/-! ### The rounds of a poll -/

section Rounds

variable (handler : Handler τ)

/-- A round in which a span is complete. -/
theorem round_of_span (p : Polling τ) {buffer rest : Bytes} {capacity : Nat} {found : Span}
    (h : nextSpan buffer = some (found, rest)) (pending : Bytes) :
    (p.holding ⟨buffer, capacity⟩ pending).round handler
      = some ((p.work handler (.span found)).holding ⟨rest, capacity⟩ pending) := by
  have hnext : (⟨buffer, capacity⟩ : Accumulator).next = some (found, ⟨rest, capacity⟩) :=
    next_eq_some_iff.mpr ⟨rest, h, rfl⟩
  rw [round]
  simp only [holding, hnext]
  rfl

/-- A round in which nothing is complete and something is pending. -/
theorem round_of_quiet (p : Polling τ) {a : Accumulator} (hquiet : Quiet a.buffer)
    {pending : Bytes} (hne : pending ≠ []) {lost : Nat} {filled : Accumulator}
    (hpush : a.push (pending.take (a.portion pending)) = (lost, filled)) :
    (p.holding a pending).round handler
      = some ((p.workAll handler (overflowEvent lost)).holding filled
          (pending.drop (a.portion pending))) := by
  have hnext : (p.holding a pending).channel.accumulator.next = none :=
    next_eq_none_iff.mpr hquiet
  rw [← workAll_holding, round, hnext]
  show (if pending = [] then none
    else some (((p.holding a pending).holding (a.push (pending.take (a.portion pending))).2
      (pending.drop (a.portion pending))).workAll handler
        (overflowEvent (a.push (pending.take (a.portion pending))).1))) = _
  rw [if_neg hne, hpush]
  rfl

/-- **Every complete span is worked off**, one a round. -/
theorem reaches_drain (a : Accumulator) (pending : Bytes) :
    -- the poll changes with every span, so it is bound behind the buffer
    ∀ p : Polling τ, Reaches (round handler) (p.holding a pending)
      ((p.workAll handler (a.drain.1.map .span)).holding a.drain.2 pending) := by
  rcases a with ⟨buffer, capacity⟩
  induction buffer using spans_induction with
  | quiet buffer h =>
    intro p
    simp only [drain, spans_of_quiet h]
    exact .refl
  | span buffer found rest h ih =>
    intro p
    simp only [drain, spans_of_nextSpan h]
    exact .head (round_of_span handler p h pending) (ih (p.work handler (.span found)))

/-- **A backlog goes in**, portion by portion. -/
theorem reaches_feed {a : Accumulator} (hcap : 0 < a.capacity) (hquiet : Quiet a.buffer)
    (pending : Bytes) :
    ∀ p : Polling τ, Reaches (round handler) (p.holding a pending)
      ((p.workAll handler (a.feed pending).1).holding (a.feed pending).2 []) := by
  induction hn : pending.length using Nat.strongRecOn generalizing a pending with
  | ind n ih =>
    intro p
    by_cases hne : pending = []
    · rw [hne, feed_nil]
      exact .refl
    · obtain ⟨hpos, hportion⟩ := push_portion hcap hne
      have hlt : (pending.drop (a.portion pending)).length < n := by
        have : 0 < pending.length := List.length_pos_iff.mpr hne
        rw [List.length_drop]
        omega
      rcases hpush : a.push (pending.take (a.portion pending)) with ⟨lost, filled⟩
      have hcapacity : filled.capacity = a.capacity := by
        rw [hpush] at hportion
        obtain h | ⟨-, h⟩ := hportion <;> cases h <;> rfl
      -- the portion goes in, its spans are worked off, and the rest follows
      have hin := round_of_quiet handler p hquiet hne hpush
      have hspans := reaches_drain handler filled (pending.drop (a.portion pending))
        (p.workAll handler (overflowEvent lost))
      have hrest := ih _ hlt (a := filled.drain.2) (hcapacity.symm ▸ hcap)
        (quiet_spans_snd filled.buffer) _ rfl
        ((p.workAll handler (overflowEvent lost)).workAll handler (filled.drain.1.map .span))
      rw [feed, dif_pos hpos]
      simp only [hpush, workAll_append]
      exact .head hin (hspans.trans hrest)

end Rounds

/-! ### The end of a poll -/

/-- **A poll comes to its end**, with every event of the backlog worked off and
nothing pending. -/
theorem mem_eval_begun {c : CommandChannel} (hcap : 0 < c.accumulator.capacity)
    (hfits : c.accumulator.buffer.length ≤ c.accumulator.capacity) (handler : Handler τ)
    (state : τ) :
    ((begun c state).workAll handler (c.accumulator.receive c.ring.toList).1).holding
        (c.accumulator.receive c.ring.toList).2 []
      ∈ eval (round handler) (begun c state) := by
  have hdrained : c.accumulator.drain.2.Settled := settled_spans hfits hcap
  have hspans := reaches_drain handler c.accumulator c.ring.toList (begun c state)
  have hfeed := reaches_feed handler (a := c.accumulator.drain.2) hcap hdrained.quiet c.ring.toList
    ((begun c state).workAll handler (c.accumulator.drain.1.map .span))
  rw [← workAll_append] at hfeed
  refine mem_eval.mpr ⟨hspans.trans hfeed, ?_⟩
  -- no span is complete in what the backlog leaves, and nothing is pending
  have hnext : (c.accumulator.receive c.ring.toList).2.next = none :=
    next_eq_none_iff.mpr (settled_receive hcap hfits c.ring.toList).quiet
  rw [round]
  simp only [holding, hnext, if_true]

/-- What the last round leaves is what `poll` says. -/
theorem polled_workAll (c : CommandChannel) (handler : Handler τ) (state : τ) :
    (((begun c state).workAll handler (c.accumulator.receive c.ring.toList).1).holding
        (c.accumulator.receive c.ring.toList).2 []).polled
      = c.poll handler state := by
  rw [workAll_eq]
  simp only [holding, polled, begun, Nat.zero_add, List.nil_append]
  rfl

/-- **A buffer that can hold nothing would stay at its first byte for good**: the
round is the same again. -/
theorem not_ends_of_empty (handler : Handler τ) (p : Polling τ) {pending : Bytes}
    (hne : pending ≠ []) :
    ¬ (eval (round handler) (p.holding { capacity := 0 } pending)).Dom := by
  let stuck := p.holding { capacity := 0 } pending
  -- the portion is empty, so neither the buffer nor the backlog changes
  have hround : stuck.round handler = some stuck := by
    have hportion : ({ capacity := 0 } : Accumulator).portion pending = 0 := Nat.min_zero _
    have hpush : ({ capacity := 0 } : Accumulator).push
        (pending.take (({ capacity := 0 } : Accumulator).portion pending))
        = (0, { capacity := 0 }) := by
      rw [hportion]
      rfl
    have h := round_of_quiet handler p (a := { capacity := 0 }) quiet_nil hne hpush
    rwa [hportion, List.drop_zero] at h
  -- then no other state is ever reached, and this one is not the last
  have hstays : ∀ q, Reaches (round handler) stuck q → q = stuck := by
    intro q hq
    induction hq with
    | refl => rfl
    | tail _ hstep ih =>
      subst ih
      rw [hround] at hstep
      exact (Option.some.inj hstep).symm
  intro hends
  obtain ⟨hreaches, hlast⟩ := mem_eval.mp (Part.get_mem hends)
  rw [hstays _ hreaches, hround] at hlast
  cases hlast

end Polling

end CommandChannel

/-! ### What the events of a backlog amount to -/

namespace Accumulator

/-- A complete span has two marks. -/
theorem two_le_of_nextSpan {bytes rest : Bytes} {s : Span}
    (h : nextSpan bytes = some (s, rest)) : 2 ≤ bytes.length := by
  obtain ⟨i, e, -, hlt, hle, -, -⟩ := nextSpan_some h
  omega

/-- **A span takes two bytes or more**, so there are at most half as many spans
as bytes. -/
theorem Consumes.two_mul_countP_le {capacity : Nat} {events : List Event} {bytes rest : Bytes}
    (h : Consumes capacity events bytes rest) :
    2 * events.countP Event.isSpan + discarded events + rest.length ≤ bytes.length := by
  induction h with
  | done _ => simp
  | @span s piece bytes rest later found _ ih =>
    have hpiece := two_le_of_nextSpan found
    rw [List.countP_cons_of_pos rfl, discarded_cons, Event.discarded, List.length_append]
    omega
  | @overflow piece bytes rest later _ _ _ _ ih =>
    rw [List.countP_cons_of_neg Bool.false_ne_true, discarded_cons, Event.discarded,
      List.length_append]
    omega

/-- No frame is longer than the bytes it was found in. -/
theorem length_le_of_mem_spans (bytes : Bytes) :
    ∀ frame ∈ (spans bytes).1.filterMap Span.frame?, frame.bytes.length ≤ bytes.length := by
  induction bytes using spans_induction with
  | quiet bytes h =>
    rw [spans_of_quiet h]
    exact fun frame hframe => absurd hframe List.not_mem_nil
  | span bytes s rest h ih =>
    have hrest := nextSpan_length_lt h
    intro frame hframe
    rw [spans_of_nextSpan h, List.mem_filterMap] at hframe
    obtain ⟨found, hfound, hsome⟩ := hframe
    obtain rfl | hlater := List.mem_cons.mp hfound
    · -- the first span's bytes are a part of the bytes
      cases found with
      | frame f =>
        cases hsome
        obtain ⟨front, hsplit, -, -⟩ := exists_front_of_frame h
        rw [hsplit, List.length_append, List.length_append]
        omega
      | mismatch etxAt => cases hsome
    · have := ih frame (List.mem_filterMap.mpr ⟨found, hlater, hsome⟩)
      omega

/-- One byte completes no frame that is longer than the buffer. -/
theorem length_le_of_mem_accept (a : Accumulator) (byte : UInt8) :
    ∀ frame ∈ framesOf (a.accept byte).1, frame.bytes.length ≤ a.capacity := by
  intro frame hframe
  by_cases hroom : a.buffer.length < a.capacity
  · rw [accept_of_room hroom, framesOf_map_span] at hframe
    have := length_le_of_mem_spans _ frame hframe
    rw [List.length_append, List.length_singleton] at this
    omega
  · rw [accept_of_full (Nat.not_lt.mp hroom)] at hframe
    exact absurd hframe List.not_mem_nil

/-- Nor do any bytes. -/
theorem length_le_of_mem_acceptAll (bytes : Bytes) :
    ∀ a : Accumulator, ∀ frame ∈ framesOf (a.acceptAll bytes).1,
      frame.bytes.length ≤ a.capacity := by
  induction bytes with
  | nil => exact fun _ frame hframe => absurd hframe List.not_mem_nil
  | cons byte rest ih =>
    intro a frame hframe
    rw [acceptAll_cons, framesOf_append, List.mem_append] at hframe
    obtain hfirst | hlater := hframe
    · exact a.length_le_of_mem_accept byte frame hfirst
    · have := ih (a.accept byte).2 frame hlater
      rwa [capacity_accept] at this

/-- **No frame is longer than the frame buffer** that it came together in. -/
theorem length_le_of_mem_receive {a : Accumulator} (hcap : 0 < a.capacity)
    (hfits : a.buffer.length ≤ a.capacity) (backlog : Bytes) :
    ∀ frame ∈ framesOf (a.receive backlog).1, frame.bytes.length ≤ a.capacity := by
  have hdrained : a.drain.2.Settled := settled_spans hfits hcap
  intro frame hframe
  rw [receive, framesOf_append, List.mem_append] at hframe
  -- a frame was in the buffer before, or the backlog completed it byte by byte
  obtain hheld | hfed := hframe
  · rw [framesOf_map_span] at hheld
    exact Nat.le_trans (length_le_of_mem_spans _ frame hheld) hfits
  · rw [hdrained.feed_eq_acceptAll] at hfed
    exact length_le_of_mem_acceptAll backlog a.drain.2 frame hfed

end Accumulator

namespace CommandChannel

open Accumulator StateTransition

/-- **Every poll comes to its end.**  The frame buffer may have been through any
operations as long as it can hold a byte, and the ring, the link and the
handler may be any.  The rounds of a poll end with nothing pending and with
what `poll` says; the spans worked off are at most half as many as the bytes
that waited in the buffer and in the ring; the ring is then empty, no span is
complete in the buffer and no more is in it than it can hold; and no frame that
the handler was handed was longer than that. -/
theorem poll_ends (ring : Ring) (link : Link) (answerUnreachable : Bool) {maxFrame : Nat}
    (hmax : 1 ≤ maxFrame) (operations : List AccumulatorOperation) (handler : Handler τ)
    (state : τ) :
    let accumulator := Accumulator.after { capacity := maxFrame } operations
    let c : CommandChannel := { ring, link, accumulator, answerUnreachable }
    let polled := c.poll handler state
    (∃ last ∈ eval (Polling.round handler) (.begun c state),
        last.pending = [] ∧ last.polled = polled) ∧
      2 * polled.handled ≤ accumulator.buffer.length + ring.toList.length ∧
      polled.channel.ring.isEmpty ∧
      polled.channel.accumulator.buffer.length ≤ maxFrame ∧
      polled.channel.accumulator.next = none ∧
      ∀ frame ∈ (c.poll handler.recorded (state, [])).state.2, frame.bytes.length ≤ maxFrame := by
  intro accumulator c polled
  -- all that the operations matter for is that the buffer is not over its capacity
  obtain ⟨hcapacity, hfits⟩ : accumulator.capacity = maxFrame ∧
      accumulator.buffer.length ≤ maxFrame :=
    after_fits operations (a := { capacity := maxFrame }) (Nat.zero_le _)
  rw [← hcapacity] at hmax hfits ⊢
  have hsettled : (accumulator.receive ring.toList).2.Settled :=
    settled_receive hmax hfits ring.toList
  have hsame : (accumulator.receive ring.toList).2.capacity = accumulator.capacity :=
    Settled.capacity_feed (settled_spans hfits hmax) ring.toList
  refine ⟨⟨_, Polling.mem_eval_begun (c := c) hmax hfits handler state, rfl,
    Polling.polled_workAll c handler state⟩, ?_, ?_, ?_, ?_, ?_⟩
  · have hconsumes : Consumes accumulator.capacity (accumulator.receive ring.toList).1
        (accumulator.buffer ++ ring.toList) (accumulator.receive ring.toList).2.buffer :=
      consumes_receive (.inr hmax)
    have hcount := hconsumes.two_mul_countP_le
    rw [List.length_append] at hcount
    show 2 * (accumulator.receive ring.toList).1.countP Event.isSpan ≤ _
    omega
  · exact beq_self_eq_true ring.head
  · exact hsame ▸ hsettled.fits
  · exact next_eq_none_iff.mpr hsettled.quiet
  · intro frame hframe
    rw [handed_eq, List.nil_append] at hframe
    exact length_le_of_mem_receive hmax hfits ring.toList frame hframe

/-- A buffer of three bytes that has lost some already: a span begun in it is
completed from the ring, the noise behind it fills the buffer and is lost, and a
second span is found. -/
theorem poll_ends_of_noise :
    let ring := ((Ring.ofCapacity 16).pushAll [3, 9, 9, 9, 2, 128, 3]).2
    let accumulator := Accumulator.after { capacity := 3 } [.push [5, 5], .push [2, 128]]
    let c : CommandChannel := { ring, link := { name := "command" }, accumulator }
    (∃ last ∈ eval (Polling.round .counting) (.begun c 0),
        last.pending = [] ∧ last.polled = c.poll .counting 0) ∧
      (c.poll .counting 0).handled = 2 ∧ (c.poll .counting 0).discarded = 3 ∧
      accumulator.buffer.length + ring.toList.length = 9 := by
  intro ring accumulator c
  have h := poll_ends ring c.link true (by decide : 1 ≤ 3) [.push [5, 5], .push [2, 128]]
    .counting 0
  exact ⟨h.1, by decide +kernel⟩

end CommandChannel

end MotionBridge
