/-
MotionBridge/Proofs/Bridge/Run.lean

What happens to a running bridge, one event after the other.

Between the passes of the poll loop bytes arrive in the rings, the writers of
the links work, inputs change and the motor controller changes its ways; each
of these is an *event*, and a run is a list of events in any order
(`Bridge.after`).  A serial port is named as the `k`-th with its number, and so
is the ring of a TCP client, so that an event can meet every port and every
ring whether the numbers are distinct or not (`exists_modifyAmong`).

The other side of a link appears as an update: it sets what is known of the
connections and takes the oldest chunks out.  Every step of a writer is one
(`WriterChannel.work_link`).
-/
import MotionBridge.Bridge
import MotionBridge.Channel.Writer

namespace MotionBridge

/-! ### The other side of a link -/

/-- What the other side of a link leaves behind. -/
structure Link.Update where
  connected : Bool
  newest : Nat
  control : List Control
  /-- How many of the oldest chunks were taken out. -/
  taken : Nat

/-- The link behind an update.  No update queues anything. -/
def Link.update (l : Link) (u : Link.Update) : Link :=
  { l with
    connected := u.connected
    newest := u.newest
    control := u.control
    queue := l.queue.drop u.taken }

namespace WriterChannel

/-- Each step of accepting a connection updates the link. -/
theorem accept_link (c : WriterChannel) : ∃ u, c.accept.link = c.link.update u := by
  rcases c with ⟨⟨name, connected, newest, control, queue, hasReceiver⟩, target, pending,
    accepting, accepted, written⟩
  rcases accepting with - | id | id
  · exact ⟨⟨connected, accepted + 1, control, 0⟩, rfl⟩
  · exact ⟨⟨true, newest, control, 0⟩, rfl⟩
  · exact ⟨⟨connected, newest, control ++ [.attach id], 0⟩, rfl⟩

/-- The end of a connection updates the link. -/
theorem close_link (c : WriterChannel) (id : Nat) : ∃ u, (c.close id).link = c.link.update u :=
  ⟨⟨c.link.connected, c.link.newest, c.link.control ++ [.detach id], 0⟩, rfl⟩

/-- A connection change is noted in the link by its mark alone. -/
theorem applyControl_link (c : WriterChannel) (event : Control) :
    ∃ connected, (c.applyControl event).1.link = { c.link with connected } := by
  cases event with
  | attach id => exact ⟨true, rfl⟩
  | detach id =>
    rw [applyControl]
    split
    · exact ⟨false, rfl⟩
    · exact ⟨c.link.connected, rfl⟩

theorem abandonStale_link (c : WriterChannel) : c.abandonStale.1.link = c.link := by
  rw [abandonStale]
  split
  · split <;> rfl
  · rfl

/-- A write changes at most the mark of the connection. -/
theorem writePending_link (c : WriterChannel) (chunk : Chunk) (out : Nat) (result : WriteResult) :
    ∃ connected, (c.writePending chunk out result).1.link = { c.link with connected } := by
  rw [writePending]
  split
  · -- no connection is held
    exact ⟨c.link.connected, rfl⟩
  · cases result with
    | wrote count =>
      dsimp only
      split
      · exact ⟨false, rfl⟩
      · exact ⟨c.link.connected, rfl⟩
    | failed reason => exact ⟨false, rfl⟩

/-- A chunk is taken up from the front of the queue. -/
theorem takeUp_link (c : WriterChannel) :
    c.takeUp.1.link = { c.link with queue := c.link.queue.drop 1 } := by
  rw [takeUp, Link.takeChunk]
  rcases hqueue : c.link.queue with - | ⟨chunk, rest⟩
  · show c.link = { c.link with queue := [] }
    rw [← hqueue]
  · show (if c.target = some chunk.connection then _ else _ : WriterChannel × Log).1.link = _
    split <;> rfl

/-- **Each step of the writer updates the link.** -/
theorem work_link (c : WriterChannel) (result : WriteResult) :
    ∃ u, (c.work result).1.link = c.link.update u := by
  rcases hcontrol : c.link.control with - | ⟨event, rest⟩
  · rcases hpending : c.pending with - | ⟨chunk, out⟩
    · have hwork : c.work result = c.takeUp := by rw [work, hcontrol, hpending]
      refine ⟨⟨c.link.connected, c.link.newest, c.link.control, 1⟩, ?_⟩
      rw [hwork]
      exact c.takeUp_link
    · have hwork : c.work result = c.writePending chunk out result := by
        rw [work, hcontrol, hpending]
      obtain ⟨connected, hlink⟩ := c.writePending_link chunk out result
      refine ⟨⟨connected, c.link.newest, c.link.control, 0⟩, ?_⟩
      rw [hwork]
      exact hlink
  · obtain ⟨connected, hlink⟩ :=
      WriterChannel.applyControl_link { c with link := { c.link with control := rest } } event
    refine ⟨⟨connected, c.link.newest, rest, 0⟩, ?_⟩
    rw [work, hcontrol]
    exact (abandonStale_link _).trans hlink

end WriterChannel

/-! ### Events -/

/-- Bytes arrive from a client, as far as the ring takes them. -/
def Inbound.push (i : Inbound) (bytes : Bytes) : Inbound :=
  { i with ring := (i.ring.pushAll bytes).2 }

@[simp] theorem Inbound.port_push (i : Inbound) (bytes : Bytes) : (i.push bytes).port = i.port :=
  rfl

/-- A port receives bytes, as far as its ring takes them. -/
def Tunnel.push (t : Tunnel) (bytes : Bytes) : Tunnel :=
  { t with ring := (t.ring.pushAll bytes).2 }

@[simp] theorem Tunnel.number_push (t : Tunnel) (bytes : Bytes) :
    (t.push bytes).number = t.number :=
  rfl

/-- The other side of a tunnel's link does something. -/
def Tunnel.update (t : Tunnel) (u : Link.Update) : Tunnel :=
  { t with link := t.link.update u }

@[simp] theorem Tunnel.number_update (t : Tunnel) (u : Link.Update) :
    (t.update u).number = t.number :=
  rfl

/-- Changes the `k`-th of the elements that a test picks. -/
def modifyAmong {α : Type} (p : α → Bool) (f : α → α) : Nat → List α → List α
  | _, [] => []
  | 0, x :: rest => if p x then f x :: rest else x :: modifyAmong p f 0 rest
  | k + 1, x :: rest => x :: modifyAmong p f (if p x then k else k + 1) rest

section modifyAmong

variable {α β : Type} {p : α → Bool} {f : α → α}

/-- **Every element that is picked can be met**: a change at its place is the
change of the `k`-th for some `k`. -/
theorem exists_modifyAmong {l : List α} {i : Nat} (h : i < l.length) (hp : p l[i] = true) :
    ∃ k, modifyAmong p f k l = l.modify i f := by
  induction l generalizing i with
  | nil => exact absurd h (Nat.not_lt_zero i)
  | cons x rest ih =>
    cases i with
    | zero =>
      refine ⟨0, ?_⟩
      rw [modifyAmong, if_pos (show p x = true from hp), List.modify_zero_cons]
    | succ i =>
      obtain ⟨k, hk⟩ := ih (Nat.lt_of_succ_lt_succ h) hp
      by_cases hx : p x = true
      · refine ⟨k + 1, ?_⟩
        rw [modifyAmong, if_pos hx, hk, List.modify_succ_cons]
      · refine ⟨k, ?_⟩
        cases k with
        | zero => rw [modifyAmong, if_neg hx, hk, List.modify_succ_cons]
        | succ k => rw [modifyAmong, if_neg hx, hk, List.modify_succ_cons]

/-- What the change keeps of every element, it keeps of the list. -/
theorem map_modifyAmong {g : α → β} (hg : ∀ x, g (f x) = g x) (k : Nat) (l : List α) :
    (modifyAmong p f k l).map g = l.map g := by
  induction l generalizing k with
  | nil => cases k <;> rfl
  | cons x rest ih =>
    cases k with
    | zero =>
      rw [modifyAmong]
      split
      · rw [List.map_cons, List.map_cons, hg]
      · rw [List.map_cons, List.map_cons, ih]
    | succ k => rw [modifyAmong, List.map_cons, List.map_cons, ih]

/-- Among the elements that are picked, the change is one at a place. -/
theorem filter_modifyAmong (hp : ∀ x, p (f x) = p x) (k : Nat) (l : List α) :
    (modifyAmong p f k l).filter p = (l.filter p).modify k f := by
  induction l generalizing k with
  | nil => cases k <;> rfl
  | cons x rest ih =>
    by_cases hx : p x = true
    · rw [List.filter_cons_of_pos hx]
      cases k with
      | zero =>
        rw [modifyAmong, if_pos hx, List.filter_cons_of_pos (by rw [hp, hx]), List.modify_zero_cons]
      | succ k =>
        rw [modifyAmong, if_pos hx, List.filter_cons_of_pos hx, ih, List.modify_succ_cons]
    · rw [List.filter_cons_of_neg hx]
      cases k with
      | zero => rw [modifyAmong, if_neg hx, List.filter_cons_of_neg hx, ih]
      | succ k => rw [modifyAmong, if_neg hx, List.filter_cons_of_neg hx, ih]

/-- A choice that none of the picked elements belongs to stays as it is. -/
theorem filter_modifyAmong_of_other {q : α → Bool} (hq : ∀ x, q (f x) = q x)
    (hother : ∀ x, p x = true → ¬ q x = true) (k : Nat) (l : List α) :
    (modifyAmong p f k l).filter q = l.filter q := by
  induction l generalizing k with
  | nil => cases k <;> rfl
  | cons x rest ih =>
    cases k with
    | zero =>
      rw [modifyAmong]
      split
      · have hx : ¬ q x = true := hother x ‹_›
        rw [List.filter_cons_of_neg hx, List.filter_cons_of_neg (by rwa [hq])]
      · rw [List.filter_cons, List.filter_cons, ih]
    | succ k => rw [modifyAmong, List.filter_cons, List.filter_cons, ih]

/-- The first of the elements that are picked is the one at place zero. -/
theorem find?_modifyAmong (hp : ∀ x, p (f x) = p x) (k : Nat) (l : List α) :
    (modifyAmong p f k l).find? p = if k = 0 then (l.find? p).map f else l.find? p := by
  rw [← List.head?_filter, ← List.head?_filter, filter_modifyAmong hp]
  cases k <;> cases l.filter p <;> rfl

theorem find?_modifyAmong_of_other {q : α → Bool} (hq : ∀ x, q (f x) = q x)
    (hother : ∀ x, p x = true → ¬ q x = true) (k : Nat) (l : List α) :
    (modifyAmong p f k l).find? q = l.find? q := by
  rw [← List.head?_filter, ← List.head?_filter, filter_modifyAmong_of_other hq hother]

end modifyAmong

namespace Bridge

/-- What happens to a bridge. -/
inductive Event (σ : Type)
  /-- Bytes arrive on the command channel. -/
  | command (bytes : Bytes)
  /-- The other side of the command channel's link does something. -/
  | commandLink (update : Link.Update)
  /-- The `k`-th port of a number receives bytes. -/
  | serial (number : UInt8) (k : Nat) (bytes : Bytes)
  /-- The other side of that port's link does something. -/
  | serialLink (number : UInt8) (k : Nat) (update : Link.Update)
  /-- Bytes for a port arrive in the `k`-th of the rings for it. -/
  | client (port : UInt8) (k : Nat) (bytes : Bytes)
  /-- The levels of an input bank change. -/
  | inputs (bank : Bank) (value : UInt8)
  /-- Something changes in the motor controller. -/
  | peer (change : σ → σ)
  /-- One pass of the poll loop. -/
  | pass (now : Time)

/-- Whether an event is a pass. -/
def Event.isPass {σ : Type} : Event σ → Bool
  | .pass _ => true
  | _ => false

variable {σ : Type} [Lines σ]

/-- The bridge behind an event. -/
def happen (b : Bridge σ Pins) : Event σ → Bridge σ Pins
  | .command bytes =>
    { b with command := { b.command with ring := (b.command.ring.pushAll bytes).2 } }
  | .commandLink update =>
    { b with command := { b.command with link := b.command.link.update update } }
  | .serial number k bytes =>
    { b with tunnels := modifyAmong (·.number == number) (·.push bytes) k b.tunnels }
  | .serialLink number k update =>
    { b with tunnels := modifyAmong (·.number == number) (·.update update) k b.tunnels }
  | .client port k bytes =>
    { b with inbound := modifyAmong (·.port == port) (·.push bytes) k b.inbound }
  | .inputs bank value =>
    { b with router := { b.router with board := { b.router.board with
        expander := b.router.board.expander.setInputs bank value } } }
  | .peer change =>
    { b with router := { b.router with bus := { b.router.bus with
        lines := change b.router.bus.lines } } }
  | .pass now => (b.pass now).bridge

/-- The bridge behind events. -/
def after (b : Bridge σ Pins) (events : List (Event σ)) : Bridge σ Pins :=
  events.foldl happen b

end Bridge

end MotionBridge
