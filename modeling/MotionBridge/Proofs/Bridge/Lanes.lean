/-
MotionBridge/Proofs/Bridge/Lanes.lean

A bridge with distinct channel numbers is one lane for each channel.

A *lane* is a tunnel together with the rings of the TCP clients that send for
its port.  A pass treats each lane by itself: what waits in the rings goes to
the lane's port, ring by ring, and what waits in the port's ring goes to the
lane's client (`pass_tunnels`).  Each other event meets one lane or none.  So a
lane makes its way through a run by its own events (`lane?_after`), whatever
happens to the other lanes, on the command channel, on the board and on the
bus, and bytes for a port that has no lane leave no trace (`after_dropped`).
-/
import MotionBridge.Proofs.Bridge.Run
import MotionBridge.Proofs.RingQueue

namespace MotionBridge

/-! ### One pass over the tunnels -/

namespace Sink

/-- The output after a write, whether the write was taken or refused. -/
def wrote : Sink → Bytes → Sink
  | .working written, data => .working (written ++ data)
  | .broken error, _ => .broken error

@[simp] theorem wrote_nil (s : Sink) : s.wrote [] = s := by
  cases s with
  | working written => rw [wrote, List.append_nil]
  | broken error => rfl

@[simp] theorem wrote_wrote (s : Sink) (first later : Bytes) :
    (s.wrote first).wrote later = s.wrote (first ++ later) := by
  cases s with
  | working written => rw [wrote, wrote, wrote, List.append_assoc]
  | broken error => rfl

end Sink

namespace Tunnel

/-- The tunnel after a write to its port. -/
def wrote (t : Tunnel) (data : Bytes) : Tunnel :=
  { t with sink := t.sink.wrote data }

@[simp] theorem wrote_nil (t : Tunnel) : t.wrote [] = t := by
  rw [wrote, Sink.wrote_nil]

@[simp] theorem wrote_wrote (t : Tunnel) (first later : Bytes) :
    (t.wrote first).wrote later = t.wrote (first ++ later) := by
  rw [wrote, wrote, wrote, Sink.wrote_wrote]

/-- The tunnel after what its port received went to its client. -/
def forwarded (t : Tunnel) : Tunnel :=
  { t with ring := t.ring.drain.2, link := (t.link.send t.ring.toList).link }

end Tunnel

namespace Tunnels

/-- With distinct numbers, bytes for a port reach the tunnel of that number. -/
theorem deliver_of_nodup (port : UInt8) (data : Bytes) {ts : Tunnels}
    (h : (ts.map Tunnel.number).Nodup) :
    (deliver port data ts).1
      = ts.map fun t => t.wrote (if t.number = port then data else []) := by
  induction ts with
  | nil => rfl
  | cons t rest ih =>
    obtain ⟨hfirst, hrest⟩ := List.nodup_cons.mp h
    rw [deliver, List.map_cons]
    by_cases hnumber : t.number = port
    · -- the tunnels behind this one have other numbers
      have hothers : (rest.map fun u => u.wrote (if u.number = port then data else [])) = rest := by
        refine (List.map_congr_left fun u hu => ?_).trans (List.map_id rest)
        have hother : ¬ u.number = port := fun hsame => hfirst <| by
          rw [hnumber, ← hsame]
          exact List.mem_map_of_mem hu
        rw [if_neg hother, Tunnel.wrote_nil]
        rfl
      rw [if_pos hnumber, if_pos hnumber, hothers]
      rcases t with ⟨number, ring, written | error, link⟩ <;> rfl
    · rw [if_neg hnumber, if_neg hnumber, Tunnel.wrote_nil]
      exact congrArg (t :: ·) (ih hrest)

/-- A write keeps the numbers. -/
theorem map_number_of_wrote (ts : Tunnels) (data : Tunnel → Bytes) :
    (ts.map fun t => t.wrote (data t)).map Tunnel.number = ts.map Tunnel.number := by
  rw [List.map_map]
  rfl

/-- Every tunnel is forwarded by itself. -/
theorem forward_eq (ts : Tunnels) : (forward ts).2.1 = ts.map Tunnel.forwarded := by
  induction ts with
  | nil => rfl
  | cons t rest ih =>
    have hone : (forwardOne t).2.1 = t.forwarded := by
      show (if t.ring.toList.isEmpty then _ else _ : Nat × Tunnel × Log).2.1 = _
      split
      · -- nothing came, and sending nothing changes nothing
        rename_i hempty
        rw [Tunnel.forwarded, List.isEmpty_iff.mp hempty]
        rfl
      · rfl
    rw [List.map_cons, ← hone, ← ih]
    rfl

end Tunnels

/-! ### Lanes -/

/-- A tunnel, with the rings of the TCP clients that send for its port. -/
structure Lane where
  tunnel : Tunnel
  inbound : List Inbound

/-- Whether an event can meet a lane: each pass does, and what happens to the
lane's own rings and its own link. -/
def Bridge.Event.concerns {σ : Type} (n : UInt8) : Bridge.Event σ → Bool
  | .serial number _ _ => number == n
  | .serialLink number _ _ => number == n
  | .client port _ _ => port == n
  | .pass _ => true
  | _ => false

namespace Lane

variable {σ : Type}

/-- The lane after a pass. -/
def passed (l : Lane) : Lane where
  tunnel := (l.tunnel.wrote (l.inbound.flatMap fun i => i.ring.toList)).forwarded
  inbound := l.inbound.map fun i => { i with ring := i.ring.drain.2 }

/-- The lane after an event that concerns it. -/
def happen (l : Lane) : Bridge.Event σ → Lane
  | .serial _ 0 bytes => { l with tunnel := l.tunnel.push bytes }
  | .serialLink _ 0 update => { l with tunnel := l.tunnel.update update }
  | .client _ k bytes => { l with inbound := l.inbound.modify k (·.push bytes) }
  | .pass _ => l.passed
  | _ => l

/-- The lane of a number after an event, whether the event concerns it or
not. -/
def meet (l : Lane) (n : UInt8) (event : Bridge.Event σ) : Lane :=
  if event.concerns n then l.happen event else l

end Lane

namespace Bridge

variable {σ : Type}

/-- The lane of a number. -/
def lane? (b : Bridge σ Pins) (n : UInt8) : Option Lane :=
  (b.tunnels.find? (·.number == n)).map fun tunnel =>
    { tunnel, inbound := b.inbound.filter (·.port == n) }

/-- A key that is one value is no other. -/
theorem not_beq_of_beq {key v w : UInt8} (h : v ≠ w) (hkey : (key == v) = true) :
    ¬ (key == w) = true :=
  fun hother => h ((beq_iff_eq.mp hkey).symm.trans (beq_iff_eq.mp hother))

/-- What happens to a port meets the lane of its number, if the port is the
first of that number. -/
theorem lane?_modify_tunnels {f : Tunnel → Tunnel} (hf : ∀ t, (f t).number = t.number)
    (b : Bridge σ Pins) (number n : UInt8) (k : Nat) :
    Bridge.lane? { b with tunnels := modifyAmong (·.number == number) f k b.tunnels } n
      = (b.lane? n).map fun l =>
          if number == n then if k = 0 then { l with tunnel := f l.tunnel } else l else l := by
  rw [lane?, lane?, Option.map_map]
  by_cases hn : number = n
  · subst hn
    rw [find?_modifyAmong (fun t => by rw [hf])]
    cases k with
    | zero =>
      rw [if_pos rfl, Option.map_map]
      refine Option.map_congr fun t _ => ?_
      simp
    | succ k =>
      rw [if_neg k.succ_ne_zero]
      refine Option.map_congr fun t _ => ?_
      simp
  · rw [find?_modifyAmong_of_other (fun t => by rw [hf]) (fun t => not_beq_of_beq hn)]
    refine Option.map_congr fun t _ => ?_
    simp [hn]

/-- Bytes for one port do not meet the rings for another. -/
theorem filter_port_push {q p : UInt8} (h : q ≠ p) (k : Nat) (bytes : Bytes)
    (inbound : List Inbound) :
    (modifyAmong (·.port == q) (·.push bytes) k inbound).filter (·.port == p)
      = inbound.filter (·.port == p) :=
  filter_modifyAmong_of_other (fun i => by rw [i.port_push]) (fun i => not_beq_of_beq h) k inbound

/-- Bytes for a port meet one of the rings for it. -/
theorem filter_port_push_self (port : UInt8) (k : Nat) (bytes : Bytes) (inbound : List Inbound) :
    (modifyAmong (·.port == port) (·.push bytes) k inbound).filter (·.port == port)
      = (inbound.filter (·.port == port)).modify k (·.push bytes) :=
  filter_modifyAmong (fun i => by rw [i.port_push]) k inbound

/-- Bytes for a port meet the lane of its number. -/
theorem lane?_push (b : Bridge σ Pins) (port n : UInt8) (k : Nat) (bytes : Bytes) :
    Bridge.lane? { b with inbound := modifyAmong (·.port == port) (·.push bytes) k b.inbound } n
      = (b.lane? n).map fun l =>
          if port == n then { l with inbound := l.inbound.modify k (·.push bytes) } else l := by
  rw [lane?, lane?, Option.map_map]
  refine Option.map_congr fun t _ => ?_
  by_cases hn : port = n
  · subst hn
    rw [filter_port_push_self]
    simp
  · rw [filter_port_push hn]
    simp [hn]

/-! ### One pass of the bridge -/

/-- The bytes that wait for a port, ring by ring. -/
def waitingFor (inbound : List Inbound) (port : UInt8) : Bytes :=
  (inbound.filter (·.port == port)).flatMap fun i => i.ring.toList

theorem waitingFor_cons (i : Inbound) (rest : List Inbound) (port : UInt8) :
    waitingFor (i :: rest) port
      = (if port = i.port then i.ring.toList else []) ++ waitingFor rest port := by
  rw [waitingFor, List.filter_cons]
  by_cases h : i.port = port
  · rw [if_pos (beq_iff_eq.mpr h), if_pos h.symm, List.flatMap_cons]
    rfl
  · rw [if_neg (by rwa [beq_iff_eq]), if_neg (Ne.symm h)]
    rfl

/-- What the clients sent leaves the rings. -/
theorem deliverInbound_inbound (inbound : List Inbound) (ts : Tunnels) :
    (deliverInbound inbound ts).2.1 = inbound.map fun i => { i with ring := i.ring.drain.2 } := by
  induction inbound generalizing ts with
  | nil => rfl
  | cons i rest ih =>
    rw [List.map_cons, ← ih]
    rfl

/-- **With distinct numbers, each tunnel gets what waits for its port.** -/
theorem deliverInbound_tunnels (inbound : List Inbound) {ts : Tunnels}
    (h : (ts.map Tunnel.number).Nodup) :
    (deliverInbound inbound ts).2.2.1 = ts.map fun t => t.wrote (waitingFor inbound t.number) := by
  induction inbound generalizing ts with
  | nil => simp [deliverInbound, waitingFor]
  | cons i rest ih =>
    -- the first ring is worked off before the others
    have hfirst : (if i.ring.toList.isEmpty then (ts, [])
          else Tunnels.deliver i.port i.ring.toList ts).1
        = ts.map fun t => t.wrote (if t.number = i.port then i.ring.toList else []) := by
      split
      · rename_i hempty
        simp [List.isEmpty_iff.mp hempty]
      · exact Tunnels.deliver_of_nodup i.port i.ring.toList h
    have hnumbers := Tunnels.map_number_of_wrote ts fun t =>
      if t.number = i.port then i.ring.toList else []
    show (deliverInbound rest (if i.ring.toList.isEmpty then (ts, [])
      else Tunnels.deliver i.port i.ring.toList ts).1).2.2.1 = _
    rw [hfirst, ih (hnumbers ▸ h), List.map_map]
    refine List.map_congr_left fun t _ => ?_
    show (t.wrote _).wrote (waitingFor rest t.number) = _
    rw [Tunnel.wrote_wrote, waitingFor_cons]

variable [Lines σ]

/-- No two tunnels have the same number. -/
def Distinct (b : Bridge σ Pins) : Prop :=
  (b.tunnels.map Tunnel.number).Nodup

instance (b : Bridge σ Pins) : Decidable b.Distinct := by
  unfold Distinct
  infer_instance

/-- The rings after a pass are empty. -/
theorem pass_inbound (b : Bridge σ Pins) (now : Time) :
    (b.pass now).bridge.inbound = b.inbound.map fun i => { i with ring := i.ring.drain.2 } :=
  deliverInbound_inbound b.inbound b.tunnels

/-- **A pass treats each tunnel by itself.** -/
theorem pass_tunnels {b : Bridge σ Pins} (h : b.Distinct) (now : Time) :
    (b.pass now).bridge.tunnels
      = b.tunnels.map fun t => (t.wrote (waitingFor b.inbound t.number)).forwarded := by
  show (Tunnels.forward (deliverInbound b.inbound b.tunnels).2.2.1).2.1 = _
  rw [Tunnels.forward_eq, deliverInbound_tunnels b.inbound h, List.map_map]
  rfl

/-- No event changes a number. -/
theorem map_number_happen {b : Bridge σ Pins} (h : b.Distinct) (event : Event σ) :
    (b.happen event).tunnels.map Tunnel.number = b.tunnels.map Tunnel.number := by
  cases event with
  | serial number k bytes => exact map_modifyAmong (fun t => t.number_push bytes) k b.tunnels
  | serialLink number k update =>
    exact map_modifyAmong (fun t => t.number_update update) k b.tunnels
  | pass now =>
    rw [happen, pass_tunnels h, List.map_map]
    rfl
  | _ => rfl

theorem Distinct.happen {b : Bridge σ Pins} (h : b.Distinct) (event : Event σ) :
    (b.happen event).Distinct := by
  rw [Distinct, map_number_happen h]
  exact h

/-! ### Lanes in a run -/

/-- A pass moves every lane. -/
theorem lane?_pass {b : Bridge σ Pins} (h : b.Distinct) (now : Time) (n : UInt8) :
    (b.pass now).bridge.lane? n = (b.lane? n).map Lane.passed := by
  rw [lane?, lane?, pass_tunnels h, pass_inbound, List.find?_map, List.filter_map, Option.map_map,
    Option.map_map]
  refine Option.map_congr fun t ht => ?_
  have hpick := List.find?_some ht
  obtain rfl : t.number = n := beq_iff_eq.mp hpick
  rfl

/-- **An event moves the lanes that it concerns**, each by itself. -/
theorem lane?_happen {b : Bridge σ Pins} (h : b.Distinct) (event : Event σ) (n : UInt8) :
    (b.happen event).lane? n = (b.lane? n).map fun l => l.meet n event := by
  cases event with
  | pass now => exact lane?_pass h now n
  | serial number k bytes =>
    refine (lane?_modify_tunnels (fun t => t.number_push bytes) b number n k).trans ?_
    cases k <;> rfl
  | serialLink number k update =>
    refine (lane?_modify_tunnels (fun t => t.number_update update) b number n k).trans ?_
    cases k <;> rfl
  | client port k bytes => exact lane?_push b port n k bytes
  | _ => exact Option.map_id'.symm

theorem Distinct.after {b : Bridge σ Pins} (h : b.Distinct) (events : List (Event σ)) :
    (b.after events).Distinct := by
  induction events generalizing b with
  | nil => exact h
  | cons event rest ih => exact ih (h.happen event)

/-- **A lane makes its way through a run by the events that concern it.** -/
theorem lane?_after {b : Bridge σ Pins} (h : b.Distinct) (events : List (Event σ)) (n : UInt8) :
    (b.after events).lane? n
      = (b.lane? n).map fun l => (events.filter (·.concerns n)).foldl Lane.happen l := by
  induction events generalizing b with
  | nil => exact Option.map_id'.symm
  | cons event rest ih =>
    show ((b.happen event).after rest).lane? n = _
    rw [ih (h.happen event), lane?_happen h, Option.map_map]
    refine Option.map_congr fun l _ => ?_
    by_cases hconcerns : event.concerns n = true
    · rw [List.filter_cons_of_pos hconcerns, List.foldl_cons, Function.comp_apply, Lane.meet,
        if_pos hconcerns]
    · rw [List.filter_cons_of_neg hconcerns, Function.comp_apply, Lane.meet, if_neg hconcerns]

/-! ### Ports without a lane -/

/-- Whether an event brings bytes for a port. -/
def Event.sendsTo (port : UInt8) : Event σ → Bool
  | .client p _ _ => p == port
  | _ => false

/-- Two bridges differ at most in what waits for a port. -/
structure AgreeBut (port : UInt8) (b c : Bridge σ Pins) : Prop where
  command : b.command = c.command
  router : b.router = c.router
  tunnels : b.tunnels = c.tunnels
  inbound : ∀ p, p ≠ port → b.inbound.filter (·.port == p) = c.inbound.filter (·.port == p)

namespace AgreeBut

variable {port : UInt8} {b c : Bridge σ Pins}

/-- Bytes for the port keep the agreement. -/
theorem sends (h : AgreeBut port b c) {event : Event σ} (hsends : event.sendsTo port = true) :
    AgreeBut port (b.happen event) c := by
  cases event with
  | client q k bytes =>
    obtain rfl : q = port := beq_iff_eq.mp hsends
    refine ⟨h.command, h.router, h.tunnels, fun p hp => ?_⟩
    rw [← h.inbound p hp]
    exact filter_port_push (Ne.symm hp) k bytes b.inbound
  | _ => exact absurd hsends Bool.false_ne_true

/-- Every event keeps the agreement about a port that has no tunnel. -/
theorem happen (h : AgreeBut port b c) (hdistinct : b.Distinct)
    (hport : port ∉ b.tunnels.map Tunnel.number) (event : Event σ) :
    AgreeBut port (b.happen event) (c.happen event) := by
  rcases b with ⟨command, router, inbound, tunnels⟩
  rcases c with ⟨command', router', inbound', tunnels'⟩
  obtain ⟨hcommand, hrouter, htunnels, hinbound⟩ := h
  obtain rfl : command = command' := hcommand
  obtain rfl : router = router' := hrouter
  obtain rfl : tunnels = tunnels' := htunnels
  cases event with
  | pass now =>
    refine ⟨rfl, rfl, ?_, fun p hp => ?_⟩
    · -- no tunnel looks at what waits for the port
      have hdistinct' : Bridge.Distinct ⟨command, router, inbound', tunnels⟩ := hdistinct
      rw [Bridge.happen, Bridge.happen, pass_tunnels hdistinct, pass_tunnels hdistinct']
      refine List.map_congr_left fun t ht => ?_
      have hne : t.number ≠ port := fun hsame => hport (hsame ▸ List.mem_map_of_mem ht)
      rw [waitingFor, waitingFor, hinbound t.number hne]
    · rw [Bridge.happen, Bridge.happen, pass_inbound, pass_inbound, List.filter_map,
        List.filter_map]
      exact congrArg _ (hinbound p hp)
  | client q k bytes =>
    refine ⟨rfl, rfl, rfl, fun p hp => ?_⟩
    by_cases hq : q = p
    · subst hq
      exact (filter_port_push_self q k bytes inbound).trans
        ((congrArg _ (hinbound q hp)).trans (filter_port_push_self q k bytes inbound').symm)
    · exact (filter_port_push hq k bytes inbound).trans
        ((hinbound p hp).trans (filter_port_push hq k bytes inbound').symm)
  | _ => exact ⟨rfl, rfl, rfl, hinbound⟩

/-- A run keeps the agreement, whether bytes come for the port or not. -/
theorem after (h : AgreeBut port b c) (hdistinct : b.Distinct)
    (hport : port ∉ b.tunnels.map Tunnel.number) (events : List (Event σ)) :
    AgreeBut port (b.after events) (c.after (events.filter fun e => !e.sendsTo port)) := by
  induction events generalizing b c with
  | nil => exact h
  | cons event rest ih =>
    have hlater : port ∉ (b.happen event).tunnels.map Tunnel.number := by
      rwa [map_number_happen hdistinct]
    by_cases hsends : event.sendsTo port = true
    · rw [List.filter_cons_of_neg (by rw [hsends]; decide)]
      exact ih (h.sends hsends) (hdistinct.happen event) hlater
    · rw [List.filter_cons_of_pos (by rw [Bool.not_eq_true] at hsends; rw [hsends]; rfl)]
      exact ih (h.happen hdistinct hport event) (hdistinct.happen event) hlater

end AgreeBut

/-- **Bytes for a port without a tunnel leave no trace.** -/
theorem after_dropped {b : Bridge σ Pins} (hdistinct : b.Distinct) {port : UInt8}
    (hport : port ∉ b.tunnels.map Tunnel.number) (events : List (Event σ)) :
    AgreeBut port (b.after events) (b.after (events.filter fun e => !e.sendsTo port)) :=
  AgreeBut.after ⟨rfl, rfl, rfl, fun _ _ => rfl⟩ hdistinct hport events

end Bridge

end MotionBridge
