/-
MotionBridge/Proofs/Bus/Cycles.lean

The cycles of an exchange, against any peer.

An exchange is run in cycles of one send and one receive each, and the record
of a watched bus falls into their calls (`tryUpTo_calls`).  From the shapes of
these calls: a cycle writes a prefix of the frame and samples only behind the
whole of it (`Cycle.data`), and a reply that is accepted is all that its cycle
sampled, ends with its only end mark, and holds its frame as a tail.

Together with the way retries end (`tryUpTo_cases`) this settles what an
exchange brings, and that the router passes it on uncut
(`transceive_cycles`).
-/
import MotionBridge.Proofs.Bus.LineCalls
import MotionBridge.Proofs.Bus.Exchange
import MotionBridge.Proofs.Frame.Found
import MotionBridge.Bus.Script
import MotionBridge.Router

namespace MotionBridge

/-! ### Exchanges -/

/-- One attempt of an exchange, with the calls that it made. -/
structure Cycle where
  attempt : Attempt
  calls : List LineCall

namespace Master

variable {σ : Type} [Lines σ]

/-- The cycles of an exchange of at most so many attempts: attempts until one
is accepted, each with what it added to the record. -/
def cycles (frame : Bytes) : Nat → Master (Recorded σ) → List Cycle
  | 0, _ => []
  | n + 1, w =>
    let (a, w') := w.attempt frame
    ⟨a, w'.lines.trace.drop w.lines.trace.length⟩ ::
      match a with
      | .accepted _ => []
      | _ => cycles frame n w'

omit [Lines σ] in
/-- What was added to the record is what was called. -/
theorem Made.drop_trace {w w' : Master (Recorded σ)} {calls : List LineCall}
    (h : Made w calls w') : w'.lines.trace.drop w.lines.trace.length = calls := by
  rw [h.trace, List.drop_left]

/-- **An exchange makes the calls of its cycles**, one after the other, and
does the same unwatched. -/
theorem tryUpTo_calls (frame : Bytes) (n : Nat) :
    ∀ {w w' : Master (Recorded σ)} {attempts : List Attempt},
      tryUpTo frame n w = (attempts, w') →
      tryUpTo frame n w.bare = (attempts, w'.bare) ∧
        attempts = (w.cycles frame n).map Cycle.attempt ∧
        Made w ((w.cycles frame n).flatMap Cycle.calls) w' ∧
        ∀ c ∈ w.cycles frame n, AttemptCalls w.config frame c.calls c.attempt := by
  induction n with
  | zero =>
    intro w w' attempts h
    cases h
    exact ⟨rfl, rfl, (Made.refl w).enter .idle, nofun⟩
  | succ n ih =>
    intro w w' attempts h
    rcases hattempt : w.attempt frame with ⟨a, w₁⟩
    obtain ⟨hbare, calls, hmade, hcalls⟩ := attempt_calls hattempt
    -- the calls of the first cycle are what it added to the record
    have hdrop := hmade.drop_trace
    rcases hrest : tryUpTo frame n w₁ with ⟨later, w₂⟩
    obtain ⟨hrestBare, hlater, hlaterMade, hlaterCalls⟩ := ih hrest
    rw [hmade.config] at hlaterCalls
    cases a with
    | accepted reply =>
      simp only [tryUpTo, cycles, hattempt, hbare, hdrop] at h ⊢
      cases h
      refine ⟨rfl, rfl, ?_, ?_⟩
      · simpa using hmade
      · simpa using hcalls
    | sendFailed e | receiveFailed e | invalid reply e =>
      -- a failed attempt is followed by the rest of the exchange
      simp only [tryUpTo, cycles, hattempt, hbare, hdrop, hrest, hrestBare] at h ⊢
      cases h
      refine ⟨rfl, ?_, ?_, ?_⟩
      · rw [List.map_cons, ← hlater]
      · rw [List.flatMap_cons]
        exact hmade.trans hlaterMade
      · intro c hc
        cases hc with
        | head => exact hcalls
        | tail _ hc => exact hlaterCalls c hc

/-- How a run of attempts ends: with the first reply that is accepted, or with
all of them failed. -/
theorem tryUpTo_cases (frame : Bytes) (n : Nat) :
    ∀ {m m' : Master σ} {attempts : List Attempt}, tryUpTo frame n m = (attempts, m') →
      (∃ earlier reply, attempts = earlier ++ [.accepted reply] ∧ attempts.length ≤ n ∧
        (∀ a ∈ earlier, a.reply? = none) ∧
        ∃ last : Master σ, last.attempt frame = (.accepted reply, m')) ∨
      (attempts.length = n ∧ (∀ a ∈ attempts, a.reply? = none) ∧ m'.state = .idle) := by
  induction n with
  | zero =>
    intro m m' attempts h
    cases h
    exact Or.inr ⟨rfl, nofun, rfl⟩
  | succ n ih =>
    intro m m' attempts h
    rcases hattempt : m.attempt frame with ⟨a, m₁⟩
    rcases hrest : tryUpTo frame n m₁ with ⟨later, m₂⟩
    cases a with
    | accepted reply =>
      simp only [tryUpTo, hattempt] at h
      cases h
      exact Or.inl ⟨[], reply, rfl, Nat.succ_le_succ (Nat.zero_le n), nofun, m, hattempt⟩
    | sendFailed e | receiveFailed e | invalid reply e =>
      simp only [tryUpTo, hattempt, hrest] at h
      cases h
      obtain ⟨earlier, reply, rfl, hlen, hfailed, hlast⟩ | ⟨rfl, hfailed, hstate⟩ := ih hrest
      · refine Or.inl ⟨_ :: earlier, reply, rfl, Nat.succ_le_succ hlen, ?_, hlast⟩
        intro a ha
        cases ha with
        | head => rfl
        | tail _ ha => exact hfailed a ha
      · refine Or.inr ⟨rfl, ?_, hstate⟩
        intro a ha
        cases ha with
        | head => rfl
        | tail _ ha => exact hfailed a ha

end Master

namespace Exchange

/-- An exchange that ends with an accepted reply brings that reply. -/
theorem reply_of_accepted {x : Exchange} {earlier : List Attempt} {bytes : Bytes}
    (h : x.attempts = earlier ++ [.accepted bytes]) : x.reply = bytes := by
  rw [reply, h, List.getLast?_append]
  rfl

end Exchange

/-! ### The data of a cycle -/

open LineCall (written sampled written? sampled?)

section Data

variable {patience : Nat} {config : BusConfig} {calls : List LineCall}

/-- While bytes are clocked out nothing is sampled, and no more than those
bytes is written. -/
theorem SendBytesCalls.data {bytes : Bytes} {result : Except BusError Unit}
    (h : SendBytesCalls patience bytes calls result) :
    sampled calls = [] ∧ written calls <+: bytes ∧ (result = .ok () → written calls = bytes) := by
  induction h with
  | done => exact ⟨rfl, List.prefix_rfl, fun _ => rfl⟩
  | notTaken hack =>
    simp [hack.silent, written?, sampled?]
  | notReleased hack hrelease =>
    simp [hack.silent, hrelease.silent, written?, sampled?]
  | next hack hrelease _ ih =>
    obtain ⟨hsampled, hwritten, hall⟩ := ih
    refine ⟨?_, ?_, ?_⟩
    · simp [hack.silent, hrelease.silent, hsampled, sampled?]
    · simpa [hack.silent, hrelease.silent, written?] using hwritten
    · intro hok
      simp [hack.silent, hrelease.silent, hall hok, written?]

/-- A send samples nothing, and writes no more than its frame. -/
theorem SendCalls.data {frame : Bytes} {result : Except BusError Unit}
    (h : SendCalls patience frame calls result) :
    sampled calls = [] ∧ written calls <+: frame ∧ (result = .ok () → written calls = frame) := by
  cases h with
  | notReady => simp [written?, sampled?]
  | failed hbytes =>
    obtain ⟨hsampled, hwritten, -⟩ := hbytes.data
    simp [hsampled, hwritten, written?, sampled?]
  | sent hbytes =>
    obtain ⟨hsampled, -, hall⟩ := hbytes.data
    simp [hsampled, hall, written?, sampled?]

/-- While bytes are clocked in nothing is written; a reply is all that was
sampled, fits, and ends with its only end mark. -/
theorem ReceiveBytesCalls.data {room : Nat} {result : Except BusError Bytes}
    (h : ReceiveBytesCalls patience room calls result) :
    written calls = [] ∧ ∀ reply, result = .ok reply →
      sampled calls = reply ∧ reply.length ≤ room ∧ Terminated reply := by
  induction h with
  | overflow => exact ⟨rfl, nofun⟩
  | notReleased hrelease => simp [hrelease.silent, written?]
  | last hrelease =>
    refine ⟨by simp [hrelease.silent, written?], ?_⟩
    intro reply hreply
    cases hreply
    exact ⟨by simp [hrelease.silent, sampled?], Nat.succ_le_succ (Nat.zero_le _), terminated_etx⟩
  | notOffered _ hrelease hoffer => simp [hrelease.silent, hoffer.silent, written?]
  | @next room byte release offer later result hne hrelease hoffer _ ih =>
    obtain ⟨hwritten, hreply⟩ := ih
    refine ⟨by simp [hrelease.silent, hoffer.silent, hwritten, written?], ?_⟩
    intro reply hresult
    cases result with
    | error e => cases hresult
    | ok rest =>
      cases hresult
      obtain ⟨hsampled, hlen, hterminated⟩ := hreply rest rfl
      refine ⟨?_, Nat.succ_le_succ hlen, hterminated.cons hne⟩
      simp [hrelease.silent, hoffer.silent, hsampled, sampled?]

/-- A receive writes nothing, and a reply is all that it sampled. -/
theorem ReceiveCalls.data {result : Except BusError Bytes} (h : ReceiveCalls config calls result) :
    written calls = [] ∧ ∀ reply, result = .ok reply →
      sampled calls = reply ∧ reply.length ≤ config.maxReply ∧ Terminated reply := by
  cases h with
  | noReply hstart => simp [hstart.silent, written?]
  | failed hstart hbytes =>
    simp [hstart.silent, hbytes.data.1, written?]
  | received hstart hbytes =>
    obtain ⟨hwritten, hreply⟩ := hbytes.data
    refine ⟨by simp [hstart.silent, hwritten, written?], ?_⟩
    intro reply hresult
    obtain ⟨hsampled, hrest⟩ := hreply reply hresult
    exact ⟨by simp [hstart.silent, hsampled, sampled?], hrest⟩

end Data

namespace Cycle

/-- A cycle fails when the send fails, the receive fails, or the reply that
was sampled is not a frame. -/
def Failed (c : Cycle) : Prop :=
  match c.attempt with
  | .sendFailed _ => True
  | .receiveFailed _ => True
  | .invalid reply e => sampled c.calls = reply ∧ validate reply = .error e
  | .accepted _ => False

/-- A cycle succeeds with a reply that it sampled whole, that fits, that ends
with its only end mark and that is read as a frame. -/
structure Accepted (config : BusConfig) (c : Cycle) (reply : Bytes) : Prop where
  attempt : c.attempt = .accepted reply
  sampled : sampled c.calls = reply
  fits : reply.length ≤ config.maxReply
  terminated : Terminated reply
  valid : ∃ f, validate reply = .ok f ∧ f.stop = reply.length

variable {config : BusConfig} {frame : Bytes} {c : Cycle}

/-- A cycle writes a prefix of the frame, and samples only behind the whole
of it. -/
theorem data (h : AttemptCalls config frame c.calls c.attempt) :
    written c.calls <+: frame ∧ (sampled c.calls ≠ [] → written c.calls = frame) := by
  rcases c with ⟨a, calls⟩
  cases h with
  | sendFailed hsend =>
    obtain ⟨hsampled, hwritten, -⟩ := hsend.data
    exact ⟨hwritten, fun hne => absurd hsampled hne⟩
  | receiveFailed hsend hreceive | invalid hsend hreceive _ | accepted hsend hreceive _ =>
    -- nothing is received unless the send went through
    have hframe := hsend.data.2.2 rfl
    simp [hframe, hreceive.data.1]

/-- A cycle without a reply failed. -/
theorem failed_of_reply? (h : AttemptCalls config frame c.calls c.attempt)
    (hnone : c.attempt.reply? = none) : c.Failed := by
  rcases c with ⟨a, calls⟩
  cases h with
  | sendFailed _ | receiveFailed _ _ => trivial
  | invalid hsend hreceive hvalid =>
    refine ⟨?_, hvalid⟩
    simp [hsend.data.1, (hreceive.data.2 _ rfl).1]
  | accepted _ _ _ => cases hnone

/-- A failed cycle has no reply. -/
theorem Failed.reply? (h : c.Failed) : c.attempt.reply? = none := by
  rcases c with ⟨a, calls⟩
  cases a with
  | accepted reply => cases h
  | sendFailed e | receiveFailed e | invalid reply e => rfl

/-- A cycle with a reply was accepted. -/
theorem accepted_of_reply {reply : Bytes} (h : AttemptCalls config frame c.calls c.attempt)
    (hreply : c.attempt = .accepted reply) : c.Accepted config reply := by
  rcases c with ⟨a, calls⟩
  cases hreply
  cases h with
  | accepted hsend hreceive hvalid =>
    obtain ⟨hsampled, hfits, hterminated⟩ := hreceive.data.2 _ rfl
    -- no end mark but the last one can end the frame
    obtain ⟨-, -, -, -, -, hstop⟩ := hterminated.validate hvalid
    exact ⟨rfl, by simp [hsend.data.1, hsampled], hfits, hterminated, _, hvalid, hstop⟩

end Cycle

/-! ### The outcome of an exchange -/

/-- How the outcome of an exchange follows from the cycles run for it. -/
structure Exchange.Follows (x : Exchange) (config : BusConfig) (frame : Bytes)
    (cycles : List Cycle) : Prop where
  attempts : x.attempts = cycles.map Cycle.attempt
  bounded : cycles.length ≤ config.attempts
  /-- The bytes that a cycle writes are a prefix of the frame. -/
  writes : ∀ c ∈ cycles, written c.calls <+: frame
  /-- Reply bytes are sampled only in a cycle that wrote the whole frame. -/
  samples : ∀ c ∈ cycles, sampled c.calls ≠ [] → written c.calls = frame
  /-- A reply is that of the last cycle, and all before it failed. -/
  accepted : x.reply ≠ [] → ∃ earlier last, cycles = earlier ++ [last] ∧
    last.Accepted config x.reply ∧ ∀ c ∈ earlier, c.Failed
  /-- There is no reply exactly if every cycle allowed was run and failed. -/
  empty_iff : x.reply = [] ↔ cycles.length = config.attempts ∧ ∀ c ∈ cycles, c.Failed

/-- Terminated bytes are at least their end mark. -/
theorem Terminated.ne_nil {bytes : Bytes} (h : Terminated bytes) : bytes ≠ [] := by
  obtain ⟨front, -, rfl⟩ := h
  exact List.append_ne_nil_of_right_ne_nil _ (List.cons_ne_nil _ _)

/-- An accepted cycle at the end makes the reply of its exchange. -/
theorem Cycle.Accepted.reply_eq {config : BusConfig} {x : Exchange} {earlier : List Cycle}
    {last : Cycle} {reply : Bytes} (h : last.Accepted config reply)
    (hx : x.attempts = (earlier ++ [last]).map Cycle.attempt) : x.reply = reply := by
  refine @Exchange.reply_of_accepted x (earlier.map Cycle.attempt) reply ?_
  rw [hx, List.map_append, List.map_singleton, h.attempt]

namespace Master

variable {σ : Type} [Lines σ]

/-- How the cycles of a run of attempts end: with one that is accepted behind
failed ones, or with all of them failed. -/
theorem cycles_cases {frame : Bytes} {n : Nat} {w w' : Master (Recorded σ)}
    {attempts : List Attempt} (h : tryUpTo frame n w = (attempts, w')) :
    (∃ earlier last reply, w.cycles frame n = earlier ++ [last] ∧
      (w.cycles frame n).length ≤ n ∧ last.Accepted w.config reply ∧ ∀ c ∈ earlier, c.Failed) ∨
    ((w.cycles frame n).length = n ∧ ∀ c ∈ w.cycles frame n, c.Failed) := by
  obtain ⟨-, hattempts, -, hcalls⟩ := tryUpTo_calls frame n h
  have hfailed : ∀ c ∈ w.cycles frame n, c.attempt.reply? = none → c.Failed := fun c hc =>
    Cycle.failed_of_reply? (hcalls c hc)
  obtain ⟨earlier, reply, heq, hlen, hnone, -⟩ | ⟨hlen, hnone, -⟩ := tryUpTo_cases frame n h
  · rw [hattempts, List.length_map] at hlen
    rw [hattempts, List.map_eq_append_iff] at heq
    obtain ⟨front, back, hsplit, rfl, hback⟩ := heq
    obtain ⟨last, rfl, hlast⟩ := List.map_eq_singleton_iff.mp hback
    refine Or.inl ⟨front, last, reply, hsplit, hlen, ?_, ?_⟩
    · exact Cycle.accepted_of_reply (hcalls last (by simp [hsplit])) hlast
    · intro c hc
      exact hfailed c (by simp [hsplit, hc]) (hnone _ (List.mem_map_of_mem hc))
  · rw [hattempts, List.length_map] at hlen
    refine Or.inr ⟨hlen, ?_⟩
    intro c hc
    refine hfailed c hc (hnone _ ?_)
    rw [hattempts]
    exact List.mem_map_of_mem hc

/-- The outcome of an exchange follows from its cycles. -/
theorem follows_cycles {frame : Bytes} {w w' : Master (Recorded σ)} {attempts : List Attempt}
    (h : tryUpTo frame w.config.attempts w = (attempts, w')) :
    Exchange.Follows ⟨frame, attempts⟩ w.config frame (w.cycles frame w.config.attempts) := by
  obtain ⟨-, hattempts, -, hcalls⟩ := tryUpTo_calls frame _ h
  have hwritten : ∀ c ∈ w.cycles frame w.config.attempts, written c.calls <+: frame :=
    fun c hc => (Cycle.data (hcalls c hc)).1
  have hsampled : ∀ c ∈ w.cycles frame w.config.attempts,
      sampled c.calls ≠ [] → written c.calls = frame :=
    fun c hc => (Cycle.data (hcalls c hc)).2
  obtain ⟨earlier, last, reply, hsplit, hlen, haccepted, hfailed⟩ | ⟨hlen, hfailed⟩ :=
    cycles_cases h
  · have hreply : Exchange.reply ⟨frame, attempts⟩ = reply :=
      haccepted.reply_eq (hsplit ▸ hattempts)
    refine ⟨hattempts, hlen, hwritten, hsampled, ?_, ?_⟩
    · intro _
      exact ⟨earlier, last, hsplit, hreply.symm ▸ haccepted, hfailed⟩
    · -- neither side holds: the last cycle brought a reply
      refine iff_of_false ?_ ?_
      · rw [hreply]
        exact haccepted.terminated.ne_nil
      · intro hall
        have hnone := (hall.2 last (by simp [hsplit])).reply?
        rw [haccepted.attempt] at hnone
        cases hnone
  · have hreply : Exchange.reply ⟨frame, attempts⟩ = [] := by
      refine Exchange.reply_of_failed ?_
      intro a ha
      rw [show Exchange.attempts ⟨frame, attempts⟩ = _ from hattempts] at ha
      obtain ⟨c, hc, rfl⟩ := List.mem_map.mp ha
      exact (hfailed c hc).reply?
    refine ⟨hattempts, Nat.le_of_eq hlen, hwritten, hsampled, fun hne => absurd hreply hne, ?_⟩
    exact iff_of_true hreply ⟨hlen, hfailed⟩

/-- **An exchange makes the calls of its cycles**, and does the same
unwatched; its outcome follows from them. -/
theorem transceive_calls {frame : Bytes} {w w' : Master (Recorded σ)} {x : Exchange}
    (h : w.transceive frame = (x, w')) :
    w.bare.transceive frame = (x, w'.bare) ∧
      Made w ((w.cycles frame w.config.attempts).flatMap Cycle.calls) w' ∧
      (∀ c ∈ w.cycles frame w.config.attempts, AttemptCalls w.config frame c.calls c.attempt) ∧
      x.Follows w.config frame (w.cycles frame w.config.attempts) := by
  rcases hrun : tryUpTo frame w.config.attempts w with ⟨attempts, w₁⟩
  obtain ⟨hbare, -, hmade, hcalls⟩ := tryUpTo_calls frame w.config.attempts hrun
  rw [transceive, hrun] at h
  cases h
  refine ⟨?_, hmade, hcalls, follows_cycles hrun⟩
  rw [transceive, show tryUpTo frame w.bare.config.attempts w.bare = _ from hbare]

/-- **An exchange is its cycles, and what it brings is passed on uncut.**
Whatever the peer does: the outcome follows from the cycles of the exchange,
the calls on the lines are those of the cycles one after the other, and a
frame for the controller is answered by the router with the reply as it came,
or is told to be out of reach when there is none. -/
theorem transceive_cycles (m : Master σ) (frame : Bytes) :
    (m.transceive frame).1.Follows m.config frame
        (m.watched.cycles frame m.config.attempts) ∧
      ((m.watched.transceive frame).2.bare = (m.transceive frame).2 ∧
        (m.watched.transceive frame).2.lines.trace
          = (m.watched.cycles frame m.config.attempts).flatMap Cycle.calls) ∧
      ∀ {ξ : Type} [Expander ξ] (board : Board ξ) (now : Time) (f : Frame),
        f.node = controllerNode → f.bytes = frame →
        (Router.handle now f ⟨m, board⟩).dispatch
          = if (m.transceive frame).1.reply = [] then .unreachable
            else .reply (m.transceive frame).1.reply := by
  rcases hrun : m.watched.transceive frame with ⟨x, w'⟩
  obtain ⟨hbare, hmade, -, hfollows⟩ := transceive_calls hrun
  rw [bare_watched] at hbare
  rw [hbare]
  refine ⟨hfollows, ⟨rfl, hmade.trace⟩, ?_⟩
  intro ξ _ board now f hnode hbytes
  subst hbytes
  rw [Router.handle, if_pos hnode, Router.forward, hbare]
  show (if x.reply.isEmpty then Dispatch.unreachable else _) = _
  by_cases hempty : x.reply = []
  · rw [if_pos hempty, hempty]
    rfl
  · -- the reply is within the limit to which the router cuts it
    obtain ⟨-, last, -, haccepted, -⟩ := hfollows.accepted hempty
    have huncut := List.take_of_length_le haccepted.fits
    rw [if_neg hempty, if_neg (by simpa using hempty), dataReply]
    exact congrArg Dispatch.reply huncut

/-- A peer that is not ready at first, and then replies with a byte of noise
ahead of its frame: the router passes all of it on. -/
theorem transceive_cycles_of_retry :
    (Router.handle 0 (frameAt 0 (enclose [0x0B, 0xD8]))
        ⟨start ({ levels := [false, true, false, true, false, true, false, true, false, true,
              false, true, false, true, false, true, false, true, false, true, false, true]
                  samples := [0x41, 0x02, 0x31, 0xB1, 0x03] } : Script)
            { attempts := 2, maxReply := 5 },
          Board.start ({} : Pins) {} 0⟩).dispatch
      = .reply [0x41, 0x02, 0x31, 0xB1, 0x03] := by
  rw [(transceive_cycles _ (enclose [0x0B, 0xD8])).2.2 _ _ _ (by decide) rfl]
  decide

end Master

end MotionBridge
