/-
MotionBridge/Proofs/Bridge/Transparency.lean

The serial channels lose, repeat and mix up nothing.

A channel is *watched* in a run by keeping account of what its rings accept:
since the last pass, and pass by pass (`Watched`).  The account agrees with what
waits in the rings and with what was written to the port after every event
(`Lane.Moves.waiting`, `Accounts.happen`), hence after every run.  So the port
gets what the rings for it accepted, pass by pass and ring by ring; the client
is sent what the port's ring accepted since the pass before in one chunk, or
loses it as a whole; no other channel, and nothing else in the bridge, has a
part in it; and bytes for a port without a channel leave no trace
(`channels_transparent`).
-/
import MotionBridge.Controller.Simulated
import MotionBridge.Proofs.Bridge.Lanes
import MotionBridge.Proofs.Channel.Replies

namespace MotionBridge

/-! ### The account of a channel -/

/-- The bytes that a ring accepts of those offered. -/
def Ring.accepted (r : Ring) (bytes : Bytes) : Bytes :=
  bytes.take (r.pushAll bytes).1

/-- An accepted byte waits behind the others. -/
theorem Ring.toList_pushAll (r : Ring) (bytes : Bytes) :
    (r.pushAll bytes).2.toList = r.toList ++ r.accepted bytes :=
  (r.pushAll_eq bytes).2.1

/-- What the rings of a channel accepted. -/
structure Intake where
  /-- From the port. -/
  port : Bytes
  /-- From the TCP clients, ring by ring. -/
  clients : List Bytes

namespace Intake

/-- Nothing accepted yet. -/
def cleared (w : Intake) : Intake where
  port := []
  clients := w.clients.map fun _ => []

/-- Adds what the rings of lane `n` accept of an event, and begins anew with
each pass. -/
def note {σ : Type} (w : Intake) (n : UInt8) (l : Lane) : Bridge.Event σ → Intake
  | .serial number 0 bytes =>
    if number = n then { w with port := w.port ++ l.tunnel.ring.accepted bytes } else w
  | .client port k bytes =>
    if port = n then
      let taken := (l.inbound[k]?.map fun i => i.ring.accepted bytes).getD []
      { w with clients := w.clients.modify k (· ++ taken) }
    else w
  | .pass _ => w.cleared
  | _ => w

end Intake

namespace Lane

variable {σ : Type}

/-- What waits in the rings of a lane. -/
def waiting (l : Lane) : Intake where
  port := l.tunnel.ring.toList
  clients := l.inbound.map fun i => i.ring.toList

/-- A pass leaves nothing waiting. -/
theorem waiting_passed (l : Lane) : l.passed.waiting = l.waiting.cleared := by
  simp [waiting, passed, Intake.cleared, Tunnel.forwarded, Tunnel.wrote]

/-- What a pass queues for the client. -/
theorem link_passed {l : Lane} (hwriter : l.tunnel.link.hasReceiver = true) :
    l.passed.tunnel.link = { l.tunnel.link with
      queue := l.tunnel.link.queue ++
        if l.waiting.port ≠ [] ∧ l.tunnel.link.connected = true ∧
            l.tunnel.link.queue.length < 32 then
          [⟨l.tunnel.link.newest, l.waiting.port⟩]
        else [] } := by
  show (l.tunnel.link.send l.tunnel.ring.toList).link = _
  rw [Link.send_eq]
  simp only [Link.IsOpen, hwriter, and_true]
  rfl

/-- What one of the rings for a port accepts waits behind the rest. -/
theorem map_modify_push (inbound : List Inbound) (k : Nat) (bytes : Bytes) :
    ((inbound.modify k (·.push bytes)).map fun i => i.ring.toList)
      = (inbound.map fun i => i.ring.toList).modify k
          (· ++ (inbound[k]?.map fun i => i.ring.accepted bytes).getD []) := by
  refine List.ext_getElem? fun j => ?_
  rw [List.getElem?_map, List.getElem?_modify, List.getElem?_modify, List.getElem?_map]
  rcases hj : inbound[j]? with - | i
  · rfl
  · by_cases hk : k = j
    · subst hk
      rw [hj]
      simp [Inbound.push, Ring.toList_pushAll]
    · simp [hk]

/-- What an event can do to lane `n`. -/
inductive Moves (n : UInt8) (l : Lane) : Bridge.Event σ → Lane → Prop
  /-- The port receives bytes. -/
  | receives (bytes : Bytes) :
      Moves n l (.serial n 0 bytes) { l with tunnel := l.tunnel.push bytes }
  /-- The other side of the link does something. -/
  | updates (u : Link.Update) :
      Moves n l (.serialLink n 0 u) { l with tunnel := l.tunnel.update u }
  /-- Bytes arrive for the port. -/
  | arrives (k : Nat) (bytes : Bytes) :
      Moves n l (.client n k bytes) { l with inbound := l.inbound.modify k (·.push bytes) }
  | passes (now : Time) : Moves n l (.pass now) l.passed
  /-- Everything else leaves the lane and its account alone. -/
  | stays {event : Bridge.Event σ} (hpass : event.isPass = false)
      (hnote : ∀ w : Intake, w.note n l event = w) : Moves n l event l

/-- **No event does anything else.** -/
theorem moves_meet (l : Lane) (n : UInt8) (event : Bridge.Event σ) :
    Moves n l event (l.meet n event) := by
  by_cases h : event.concerns n = true
  · rw [meet, if_pos h]
    cases event with
    | serial number k bytes =>
      obtain rfl : number = n := beq_iff_eq.mp h
      cases k with
      | zero => exact .receives bytes
      | succ k => exact .stays rfl fun _ => rfl
    | serialLink number k u =>
      obtain rfl : number = n := beq_iff_eq.mp h
      cases k with
      | zero => exact .updates u
      | succ k => exact .stays rfl fun _ => rfl
    | client port k bytes =>
      obtain rfl : port = n := beq_iff_eq.mp h
      exact .arrives k bytes
    | pass now => exact .passes now
    | _ => exact absurd h Bool.false_ne_true
  · -- the event is about another channel, or about none
    rw [meet, if_neg h]
    cases event with
    | serial number k bytes =>
      have hn : ¬ number = n := fun hn => h (beq_iff_eq.mpr hn)
      cases k with
      | zero => exact .stays rfl fun _ => if_neg hn
      | succ k => exact .stays rfl fun _ => rfl
    | client port k bytes =>
      have hn : ¬ port = n := fun hn => h (beq_iff_eq.mpr hn)
      exact .stays rfl fun _ => if_neg hn
    | pass now => exact absurd rfl h
    | _ => exact .stays rfl fun _ => rfl

namespace Moves

variable {n : UInt8} {l l' : Lane} {event : Bridge.Event σ}

/-- **What waits is what was accepted.** -/
theorem waiting (h : Moves n l event l') : l'.waiting = l.waiting.note n l event := by
  cases h with
  | receives bytes =>
    rw [Intake.note, if_pos rfl, Lane.waiting, Lane.waiting, ← Ring.toList_pushAll]
    rfl
  | updates u => rfl
  | arrives k bytes =>
    rw [Intake.note, if_pos rfl]
    exact congrArg (Intake.mk l.tunnel.ring.toList) (map_modify_push l.inbound k bytes)
  | passes now => exact l.waiting_passed
  | stays hpass hnote => exact (hnote _).symm

/-- Only a pass writes to the port: what waits in the rings for it. -/
theorem sink (h : Moves n l event l') :
    l'.tunnel.sink
      = if event.isPass then l.tunnel.sink.wrote l.waiting.clients.flatten
        else l.tunnel.sink := by
  cases h with
  | stays hpass hnote => rw [hpass]; rfl
  | _ => rfl

/-- A link keeps its writer. -/
theorem hasReceiver (h : Moves n l event l') :
    l'.tunnel.link.hasReceiver = l.tunnel.link.hasReceiver := by
  cases h with
  | passes now =>
    show (l.tunnel.link.send l.tunnel.ring.toList).link.hasReceiver = _
    rw [Link.send_eq]
  | _ => rfl

end Moves

end Lane

namespace Bridge

variable {σ : Type} [Lines σ]

/-! ### A channel watched in a run -/

/-- A bridge, with an account of what the rings of one of its channels
accept. -/
structure Watched (σ : Type) where
  bridge : Bridge σ Pins
  /-- What they accepted since the last pass. -/
  since : Intake
  /-- What they had accepted before each pass, since the pass before it. -/
  passes : List Intake := []

/-- An event, and what the account makes of it. -/
def Watched.happen (n : UInt8) (w : Watched σ) (event : Event σ) : Watched σ where
  bridge := w.bridge.happen event
  since := match w.bridge.lane? n with
    | some l => w.since.note n l event
    | none => w.since
  passes := if event.isPass then w.passes ++ [w.since] else w.passes

/-- A run under watch.  What waits in the rings at its beginning counts as
accepted. -/
def watch (b : Bridge σ Pins) (n : UInt8) (start : Lane) (events : List (Event σ)) : Watched σ :=
  events.foldl (Watched.happen n) { bridge := b, since := start.waiting }

/-- The account agrees with the lane: with what waits in its rings, and with
what was written to its port. -/
structure Accounts (n : UInt8) (start : Lane) (w : Watched σ) (l : Lane) : Prop where
  distinct : w.bridge.Distinct
  lane : w.bridge.lane? n = some l
  since : w.since = l.waiting
  sink : l.tunnel.sink = start.tunnel.sink.wrote (w.passes.flatMap fun i => i.clients.flatten)
  writer : l.tunnel.link.hasReceiver = start.tunnel.link.hasReceiver

namespace Accounts

variable {n : UInt8} {start l : Lane} {w : Watched σ}

/-- **Every event keeps the account.** -/
theorem happen (h : Accounts n start w l) (event : Event σ) :
    Accounts n start (w.happen n event) (l.meet n event) := by
  have hmoves := l.moves_meet n event
  refine ⟨h.distinct.happen event, ?_, ?_, ?_, ?_⟩
  · show (w.bridge.happen event).lane? n = _
    rw [lane?_happen h.distinct, h.lane]
    rfl
  · rw [Watched.happen, h.lane, hmoves.waiting, h.since]
  · rw [hmoves.sink, Watched.happen]
    split
    · -- the pass writes what the account says
      rw [List.flatMap_append, List.flatMap_singleton, ← Sink.wrote_wrote, ← h.sink, h.since]
    · exact h.sink
  · exact hmoves.hasReceiver.trans h.writer

/-- A run keeps the account. -/
theorem after (h : Accounts n start w l) (events : List (Event σ)) :
    ∃ l', Accounts n start (events.foldl (Watched.happen n) w) l' ∧
      (events.foldl (Watched.happen n) w).bridge = w.bridge.after events := by
  induction events generalizing w l with
  | nil => exact ⟨l, h, rfl⟩
  | cons event rest ih => exact ih (h.happen event)

end Accounts

/-- What a channel carries in a run that began with one lane and ended with
another. -/
structure Transparent (b : Bridge σ Pins) (n : UInt8) (events : List (Event σ))
    (start l : Lane) : Prop where
  lane : (b.after events).lane? n = some l
  /-- The port gets what the rings for it accepted, pass by pass and ring by
  ring. -/
  toPort : ∀ written, start.tunnel.sink = .working written →
    l.tunnel.sink = .working
      (written ++ (b.watch n start events).passes.flatMap fun i => i.clients.flatten)
  /-- A pass queues what the port's ring accepted since the pass before, in one
  chunk, if there is anything, for a connected client, and if the queue has
  room.  Whether it does or not, the rings are empty behind it. -/
  toClient : ∀ now, ∃ next, ((b.after events).pass now).bridge.lane? n = some next ∧
    next.tunnel.link = { l.tunnel.link with
      queue := l.tunnel.link.queue ++
        if (b.watch n start events).since.port ≠ [] ∧ l.tunnel.link.connected = true ∧
            l.tunnel.link.queue.length < 32 then
          [⟨l.tunnel.link.newest, (b.watch n start events).since.port⟩]
        else [] } ∧
    next.waiting = (b.watch n start events).since.cleared
  /-- Any other bridge takes the same channel to the same place by the same
  events that concern it. -/
  isolated : ∀ (c : Bridge σ Pins) (others : List (Event σ)), c.Distinct →
    c.lane? n = some start →
    others.filter (·.concerns n) = events.filter (·.concerns n) →
    (c.after others).lane? n = some l

/-- **The serial channels are transparent.**  With distinct numbers every run
carries every channel as it should, as long as something works off the link's
queue.  Bytes for a port without a channel leave no trace, and the next pass
takes them out of their ring. -/
theorem channels_transparent {b : Bridge σ Pins} (hdistinct : b.Distinct)
    (events : List (Event σ)) :
    (∀ n start, b.lane? n = some start → start.tunnel.link.hasReceiver = true →
      ∃ l, Transparent b n events start l) ∧
    ∀ port, port ∉ b.tunnels.map Tunnel.number →
      AgreeBut port (b.after events) (b.after (events.filter fun e => !e.sendsTo port)) ∧
      ∀ now, ∀ i ∈ ((b.after events).pass now).bridge.inbound, i.ring.toList = [] := by
  refine ⟨fun n start hstart hwriter => ?_, fun port hport => ⟨?_, fun now i hi => ?_⟩⟩
  · obtain ⟨l, haccount, hbridge⟩ := Accounts.after
      (w := { bridge := b, since := start.waiting })
      ⟨hdistinct, hstart, rfl, (Sink.wrote_nil _).symm, rfl⟩ events
    have hlane : (b.after events).lane? n = some l := hbridge ▸ haccount.lane
    refine ⟨l, hlane, fun written hworking => ?_, fun now => ⟨l.passed, ?_, ?_, ?_⟩,
      fun c others hc hcstart hsame => ?_⟩
    · rw [haccount.sink, hworking]
      rfl
    · rw [lane?_pass (hdistinct.after events), hlane]
      rfl
    · rw [Lane.link_passed (haccount.writer.trans hwriter), ← haccount.since]
      rfl
    · rw [Lane.waiting_passed, ← haccount.since]
      rfl
    · rw [lane?_after hc, hcstart, hsame, ← hlane, lane?_after hdistinct, hstart]
  · exact after_dropped hdistinct hport events
  · rw [pass_inbound] at hi
    obtain ⟨j, -, rfl⟩ := List.mem_map.mp hi
    exact j.ring.toList_drain

/-- Two channels, one of them with a broken port, and rings for one port more:
the first channel's port gets all that its two rings accepted, the next pass
queues one chunk for its client, and what came for port nine is nowhere. -/
theorem channels_transparent_of_two :
    let first : Tunnel :=
      { number := 1, ring := .ofCapacity 4, sink := .working []
        link := { name := "serial1", connected := true, newest := 6 } }
    let second : Tunnel :=
      { number := 2, ring := .ofCapacity 4, sink := .broken fun _ => ⟨.write, "serial2", "refused"⟩
        link := { name := "serial2" } }
    let ring : Ring := .ofCapacity 4
    let b : Bridge Controller Pins :=
      { command := .start ring { name := "command" } 16 true
        router := { bus := .start {} {}, board := .start {} {} 0 }
        inbound := [⟨1, ring⟩, ⟨2, ring⟩, ⟨9, ring⟩, ⟨1, ring⟩]
        tunnels := [second, first] }
    let events : List (Event Controller) :=
      [.client 1 1 [30], .client 2 0 [20], .client 1 0 [10, 11], .client 9 0 [90], .pass 0,
        .serial 2 0 [2], .client 1 0 [12], .pass 1, .serial 1 0 [41, 42, 43, 44, 45]]
    (∃ l next, (b.after events).lane? 1 = some l ∧
        l.tunnel.sink = .working [10, 11, 30, 12] ∧
        ((b.after events).pass 2).bridge.lane? 1 = some next ∧
        next.tunnel.link.queue = [⟨6, [41, 42, 43, 44]⟩]) ∧
      (b.after events).tunnels = (b.after (events.filter fun e => !e.sendsTo 9)).tunnels := by
  intro first second ring b events
  have hdistinct : b.Distinct := by decide
  obtain ⟨hchannels, hdropped⟩ := channels_transparent hdistinct events
  obtain ⟨l, hl⟩ := hchannels 1 ⟨first, [⟨1, ring⟩, ⟨1, ring⟩]⟩ rfl rfl
  obtain ⟨next, hnext, hlink, -⟩ := hl.toClient 2
  have hbefore : l.tunnel.link = first.link := by
    have hmap := congrArg (Option.map fun l => l.tunnel.link) hl.lane
    have hrun : ((b.after events).lane? 1).map (fun l => l.tunnel.link) = some first.link := by
      decide +kernel
    exact Option.some.inj (hmap.symm.trans hrun)
  refine ⟨⟨l, next, hl.lane, ?_, hnext, ?_⟩, (hdropped 9 (by decide)).1.tunnels⟩
  · rw [hl.toPort [] rfl]
    exact congrArg Sink.working (by decide +kernel)
  · rw [hlink, hbefore]
    decide +kernel

end Bridge

end MotionBridge
