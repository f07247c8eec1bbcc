/-
MotionBridge/Proofs/Channel/Interleaving.lean

The parties of a TCP channel, side by side.

A send, an acceptance and a step of the writer touch several things that the
others touch too: the flag, the newest connection, the two queues.  Here each
party does one of these at a time, and any other may come in between
(`Parties.step`).  The writer, too, may find that a connection change has come
in since it last looked, or that the flag has changed before it stores its own
value in it.

Phases that follow each other without a break are a whole send, and a whole
step of the writer (`send_unbroken`, `work_unbroken`), so every run of whole
acts is also a run of phases (`exists_phases`).
-/
import MotionBridge.Channel.Tcp

namespace MotionBridge

/-! ### The writer -/

/-- Whether the writer sets the flag when it takes note of a change. -/
def Control.stores (target : Option Nat) : Control → Bool
  | .attach _ => true
  | .detach id => decide (target = some id)

/-- The connection that the writer holds behind a change. -/
def Control.turns (target : Option Nat) : Control → Option Nat
  | .attach id => some id
  | .detach id => if target = some id then none else target

/-- Whether a write fails. -/
def WriteResult.fails : WriteResult → Bool
  | .wrote count => count == 0
  | .failed _ => true

namespace WriterChannel

/-- The writer turns to a connection or to none, and gives up a pending chunk
that is not bound to it. -/
def retarget (c : WriterChannel) (target : Option Nat) : WriterChannel :=
  { c with
    target
    pending := c.pending.filter fun x => decide (target = some x.1.connection) }

/-- The channel when a piece of the pending chunk has gone out to the connection
that is held. -/
def wrote (c : WriterChannel) (held : Nat) (chunk : Chunk) (out : Nat) (piece : Bytes) :
    WriterChannel :=
  { c with
    pending :=
      if out + piece.length < chunk.bytes.length then some (chunk, out + piece.length) else none
    written := c.written ++ [(held, piece)] }

theorem abandonStale_eq (c : WriterChannel) : c.abandonStale.1 = c.retarget c.target := by
  rcases c with ⟨link, target, pending, accepting, accepted, written⟩
  rcases pending with - | ⟨chunk, out⟩
  · rfl
  · by_cases hbound : target = some chunk.connection
    · simp [abandonStale, retarget, hbound, Option.filter_some]
    · simp [abandonStale, retarget, hbound, Option.filter_some]

section Work

variable {c : WriterChannel} (result : WriteResult)

/-- A step of the writer that takes note of a change. -/
theorem work_of_change {event : Control} {rest : List Control}
    (hcontrol : c.link.control = event :: rest) :
    (c.work result).1 = { c.retarget (event.turns c.target) with
      link.control := rest
      link.connected :=
        if event.stores c.target then (event.turns c.target).isSome else c.link.connected } := by
  have hwork : (c.work result).1
      = (applyControl { c with link.control := rest } event).1.abandonStale.1 := by
    rw [work, hcontrol]
  rw [hwork, abandonStale_eq]
  cases event with
  | attach id => rfl
  | detach id =>
    by_cases hown : c.target = some id
    · simp [applyControl, Control.turns, Control.stores, retarget, hown]
    · simp [applyControl, Control.turns, Control.stores, retarget, hown]

/-- A step of the writer on a pending chunk. -/
theorem work_of_pending {chunk : Chunk} {out : Nat} (hcontrol : c.link.control = [])
    (hpending : c.pending = some (chunk, out)) :
    c.work result = c.writePending chunk out result := by
  rw [work, hcontrol, hpending]

/-- A step of the writer with nothing pending. -/
theorem work_of_quiet (hcontrol : c.link.control = []) (hpending : c.pending = none) :
    c.work result = c.takeUp := by
  rw [work, hcontrol, hpending]

/-- With no connection held there is no write. -/
theorem writePending_of_none (htarget : c.target = none) (chunk : Chunk) (out : Nat) :
    (c.writePending chunk out result).1 = { c with pending := none } := by
  rw [writePending, htarget]

variable {result} {held : Nat}

/-- A failed write ends the connection for the writer. -/
theorem writePending_of_fails (htarget : c.target = some held) (hfails : result.fails = true)
    (chunk : Chunk) (out : Nat) :
    (c.writePending chunk out result).1 = { c.retarget none with link.connected := false } := by
  have hpending : c.pending.filter (fun x => decide (none = some x.1.connection)) = none := by
    rcases c.pending with - | x <;> rfl
  have hdrop : (c.writePending chunk out result).1
      = { c with pending := none, target := none, link.connected := false } := by
    rw [writePending, htarget]
    cases result with
    | wrote count =>
      simp only [if_pos (beq_iff_eq.mp hfails)]
      rfl
    | failed reason => rfl
  rw [hdrop, retarget, hpending]

/-- A write that does not fail takes a piece off the chunk, and it goes to the
connection that is held. -/
theorem writePending_of_not_fails (htarget : c.target = some held) (hfails : result.fails = false)
    (chunk : Chunk) (out : Nat) :
    ∃ piece, piece <+: chunk.bytes.drop out ∧
      (c.writePending chunk out result).1 = c.wrote held chunk out piece := by
  cases result with
  | wrote count =>
    refine ⟨(chunk.bytes.drop out).take count, List.take_prefix .., ?_⟩
    rw [writePending, wrote, htarget]
    simp only [if_neg (beq_eq_false_iff_ne.mp hfails)]
  | failed reason => cases hfails

/-- Unless a write to a connection fails, the flag is left as it is. -/
theorem writePending_connected (hkeeps : (result.fails && c.target.isSome) = false)
    (chunk : Chunk) (out : Nat) :
    (c.writePending chunk out result).1.link.connected = c.link.connected := by
  rcases htarget : c.target with - | held
  · rw [writePending_of_none result htarget]
  · rw [htarget, Option.isSome_some, Bool.and_true] at hkeeps
    obtain ⟨piece, -, hwrite⟩ := writePending_of_not_fails htarget hkeeps chunk out
    rw [hwrite, wrote]

end Work

/-- An act of one party, from end to end; an acceptance has three. -/
inductive Act
  | accept
  | close (id : Nat)
  | send (data : Bytes)
  | work (result : WriteResult)
deriving Repr, DecidableEq

/-- The channel behind an act. -/
def act (c : WriterChannel) : Act → WriterChannel
  | .accept => c.accept
  | .close id => c.close id
  | .send data => { c with link := (c.link.send data).link }
  | .work result => (c.work result).1

end WriterChannel

/-! ### The parties -/

/-- How far a send has come. -/
inductive Sending
  | idle
  /-- The flag was up. -/
  | admitted (data : Bytes)
  /-- The data is bound to a connection. -/
  | bound (chunk : Chunk)
deriving Repr, DecidableEq

/-- How far a step of the writer has come. -/
inductive Writing
  | idle
  /-- No connection change was waiting. -/
  | free
  /-- The flag is about to be set. -/
  | storing (connected : Bool)
deriving Repr, DecidableEq

/-- A channel, and what its parties are in the middle of. -/
structure Parties where
  channel : WriterChannel
  sending : Sending := .idle
  writing : Writing := .idle
  /-- Every chunk that was queued, oldest first. -/
  sent : List Chunk := []
deriving Repr, DecidableEq

namespace Parties

/-- The parties of a channel that has just been opened. -/
def start (name : String) : Parties :=
  { channel := { link := { name } } }

/-! ### The phases -/

/-- The next phase of a send: the flag, the newest connection, the queue.  A
send that begins is one of `data`. -/
def send (p : Parties) (data : Bytes) : Parties :=
  match p.sending with
  | .idle =>
    if data.isEmpty || !p.channel.link.connected then p
    else { p with sending := .admitted data }
  | .admitted data => { p with sending := .bound ⟨p.channel.link.newest, data⟩ }
  | .bound chunk =>
    if p.channel.link.hasReceiver && decide (p.channel.link.queue.length < Link.depth) then
      { p with
        sending := .idle
        sent := p.sent ++ [chunk]
        channel.link.queue := p.channel.link.queue ++ [chunk] }
    else { p with sending := .idle }

/-- What the writer leaves, but for the flag: that it has still to set, if at
all. -/
def hold (p : Parties) (c : WriterChannel) (stores : Bool) : Parties :=
  { p with
    channel := { c with link := { c.link with connected := p.channel.link.connected } }
    writing := if stores then .storing c.link.connected else .idle }

/-- The next phase of the writer's step: it takes note of a connection change,
or finds that there is none and goes on to the data; then it sets the flag. -/
def work (p : Parties) (result : WriteResult) : Parties :=
  match p.writing with
  | .idle =>
    match p.channel.link.control with
    | event :: _ => p.hold (p.channel.work result).1 (event.stores p.channel.target)
    | [] => { p with writing := .free }
  | .free =>
    match p.channel.pending with
    | some (chunk, out) =>
      p.hold (p.channel.writePending chunk out result).1
        (result.fails && p.channel.target.isSome)
    | none => { p with channel := p.channel.takeUp.1, writing := .idle }
  | .storing connected =>
    { p with writing := .idle, channel.link.connected := connected }

/-- The writer finds that it can neither write nor take a chunk up, and looks at
the connection changes again. -/
def wait (p : Parties) : Parties :=
  match p.writing with
  | .free => { p with writing := .idle }
  | _ => p

/-- What happens on a channel. -/
inductive Step
  /-- An acceptance goes on. -/
  | accept
  /-- The peer of a connection closes. -/
  | close (id : Nat)
  /-- A send goes on, or begins. -/
  | send (data : Bytes)
  /-- The writer goes on; a write would come to `result`. -/
  | work (result : WriteResult)
  /-- The writer waits. -/
  | wait
deriving Repr, DecidableEq

/-- One phase of one party. -/
def step (p : Parties) : Step → Parties
  | .accept => { p with channel := p.channel.accept }
  | .close id => { p with channel := p.channel.close id }
  | .send data => p.send data
  | .work result => p.work result
  | .wait => p.wait

/-- The parties behind some phases, in any order. -/
def after (p : Parties) (steps : List Step) : Parties :=
  steps.foldl step p

/-! ### Without a break -/

/-- **Unbroken phases are one send.** -/
theorem send_unbroken {p : Parties} (h : p.sending = .idle) (data : Bytes) :
    ∃ n, p.after (List.replicate (n + 1) (.send data))
      = { p with
          channel.link := (p.channel.link.send data).link
          sent := p.sent ++
            if (p.channel.link.send data).accepted then [⟨p.channel.link.newest, data⟩]
            else [] } := by
  rcases p with ⟨⟨⟨name, connected, newest, control, queue, hasReceiver⟩, target, pending,
    accepting, accepted, written⟩, sending, writing, sent⟩
  obtain rfl : sending = .idle := h
  by_cases hshut : (data.isEmpty || !connected) = true
  · refine ⟨0, ?_⟩
    simp [after, step, send, Link.send, hshut]
  · have hopen : (data.isEmpty || !connected) = false := Bool.eq_false_iff.mpr hshut
    -- the flag is up, so the send goes through all its phases
    refine ⟨2, ?_⟩
    cases hasReceiver with
    | false => simp [after, step, send, Link.send, List.replicate, hopen]
    | true =>
      by_cases hroom : queue.length < Link.depth
      · simp [after, step, send, Link.send, List.replicate, hopen, hroom]
      · simp [after, step, send, Link.send, List.replicate, hopen, hroom]

/-- What is held back is in the flag a phase later, if at all. -/
theorem hold_unbroken {p : Parties} {c : WriterChannel} {stores : Bool}
    (hkeeps : stores = false → c.link.connected = p.channel.link.connected) (result : WriteResult) :
    ∃ n, (p.hold c stores).after (List.replicate n (.work result))
      = { p with channel := c, writing := .idle } := by
  cases stores with
  | false =>
    refine ⟨0, ?_⟩
    show Parties.hold p c false = _
    rw [hold, ← hkeeps rfl]
    rfl
  | true => exact ⟨1, rfl⟩

section Work

variable {p : Parties} (result : WriteResult)

/-- The writer looks at the connection changes first. -/
theorem work_of_change {event : Control} {rest : List Control} (hwriting : p.writing = .idle)
    (hcontrol : p.channel.link.control = event :: rest) :
    p.work result = p.hold (p.channel.work result).1 (event.stores p.channel.target) := by
  rw [work, hwriting, hcontrol]

theorem work_of_no_change (hwriting : p.writing = .idle) (hcontrol : p.channel.link.control = []) :
    p.work result = { p with writing := .free } := by
  rw [work, hwriting, hcontrol]

/-- With none waiting, it goes on with the data. -/
theorem work_of_pending {chunk : Chunk} {out : Nat} (hwriting : p.writing = .free)
    (hpending : p.channel.pending = some (chunk, out)) :
    p.work result = p.hold (p.channel.writePending chunk out result).1
      (result.fails && p.channel.target.isSome) := by
  rw [work, hwriting, hpending]

theorem work_of_quiet (hwriting : p.writing = .free) (hpending : p.channel.pending = none) :
    p.work result = { p with channel := p.channel.takeUp.1, writing := .idle } := by
  rw [work, hwriting, hpending]

/-- What a connection change comes to. -/
theorem work_change {event : Control} {rest : List Control} (hwriting : p.writing = .idle)
    (hcontrol : p.channel.link.control = event :: rest) :
    p.work result = { p with
      channel := { p.channel.retarget (event.turns p.channel.target) with link.control := rest }
      writing := if event.stores p.channel.target then
          .storing (event.turns p.channel.target).isSome
        else .idle } := by
  rw [work_of_change result hwriting hcontrol, hold, WriterChannel.work_of_change result hcontrol]
  cases event.stores p.channel.target <;> rfl

/-- What a failed write comes to. -/
theorem work_failure {chunk : Chunk} {out held : Nat} {result : WriteResult}
    (hwriting : p.writing = .free) (hpending : p.channel.pending = some (chunk, out))
    (htarget : p.channel.target = some held) (hfails : result.fails = true) :
    p.work result = { p with channel := p.channel.retarget none, writing := .storing false } := by
  rw [work_of_pending result hwriting hpending, hfails, htarget, hold,
    WriterChannel.writePending_of_fails htarget hfails]
  rfl

/-- What a write comes to that does not fail. -/
theorem work_piece {chunk : Chunk} {out held : Nat} {result : WriteResult}
    (hwriting : p.writing = .free) (hpending : p.channel.pending = some (chunk, out))
    (htarget : p.channel.target = some held) (hfails : result.fails = false) :
    ∃ piece, piece <+: chunk.bytes.drop out ∧
      p.work result
        = { p with channel := p.channel.wrote held chunk out piece, writing := .idle } := by
  obtain ⟨piece, hpiece, hwrite⟩ :=
    WriterChannel.writePending_of_not_fails htarget hfails chunk out
  refine ⟨piece, hpiece, ?_⟩
  rw [work_of_pending result hwriting hpending, hfails, hold, hwrite]
  rfl

/-- **Unbroken phases are one step of the writer.** -/
theorem work_unbroken (hwriting : p.writing = .idle) :
    ∃ n, p.after (List.replicate (n + 1) (.work result))
      = { p with channel := (p.channel.work result).1, writing := .idle } := by
  rcases hcontrol : p.channel.link.control with - | ⟨event, rest⟩
  · have hlook := work_of_no_change result hwriting hcontrol
    rcases hpending : p.channel.pending with - | ⟨chunk, out⟩
    · refine ⟨1, ?_⟩
      show (p.work result).work result = _
      rw [hlook, @work_of_quiet { p with writing := .free } result rfl hpending,
        WriterChannel.work_of_quiet result hcontrol hpending]
    · rw [WriterChannel.work_of_pending result hcontrol hpending]
      obtain ⟨n, hn⟩ := @hold_unbroken { p with writing := .free } _ _
        (fun hkeeps => WriterChannel.writePending_connected hkeeps chunk out) result
      refine ⟨n + 1, ?_⟩
      show ((p.work result).work result).after (List.replicate n (.work result)) = _
      rw [hlook, @work_of_pending { p with writing := .free } result _ _ rfl hpending, hn]
  · have hkeeps : event.stores p.channel.target = false →
        (p.channel.work result).1.link.connected = p.channel.link.connected := by
      intro hstores
      rw [WriterChannel.work_of_change result hcontrol, hstores]
      rfl
    obtain ⟨n, hn⟩ := @hold_unbroken p _ _ hkeeps result
    refine ⟨n, ?_⟩
    show (p.work result).after (List.replicate n (.work result)) = _
    rw [work_of_change result hwriting hcontrol, hn]

end Work

/-- **Every run of whole acts is a run of phases.** -/
theorem exists_phases (acts : List WriterChannel.Act) :
    ∀ {p : Parties}, p.sending = .idle → p.writing = .idle →
      ∃ steps, (p.after steps).channel = acts.foldl WriterChannel.act p.channel ∧
        (p.after steps).sending = .idle ∧ (p.after steps).writing = .idle := by
  induction acts with
  | nil => exact fun hsending hwriting => ⟨[], rfl, hsending, hwriting⟩
  | cons act acts ih =>
    intro p hsending hwriting
    -- the phases of the first act leave both parties idle
    have hfirst : ∃ first, (p.after first).channel = p.channel.act act ∧
        (p.after first).sending = .idle ∧ (p.after first).writing = .idle := by
      cases act with
      | accept => exact ⟨[.accept], rfl, hsending, hwriting⟩
      | close id => exact ⟨[.close id], rfl, hsending, hwriting⟩
      | send data =>
        obtain ⟨n, hn⟩ := send_unbroken hsending data
        exact ⟨_, congrArg channel hn, (congrArg sending hn).trans hsending,
          (congrArg writing hn).trans hwriting⟩
      | work result =>
        obtain ⟨n, hn⟩ := work_unbroken result hwriting
        exact ⟨_, congrArg channel hn, (congrArg sending hn).trans hsending, congrArg writing hn⟩
    obtain ⟨first, hchannel, hsendingNext, hwritingNext⟩ := hfirst
    obtain ⟨later, hlater, hend⟩ := ih hsendingNext hwritingNext
    refine ⟨first ++ later, ?_⟩
    have hsplit : p.after (first ++ later) = (p.after first).after later := List.foldl_append
    rw [hsplit, hlater, hchannel]
    exact ⟨rfl, hend⟩

end Parties

end MotionBridge
