/-
MotionBridge/Board/Vibrate.lean

Back-and-forth motion of an axis: whenever the axis is at rest it moves by a
fixed distance, each time the other way.
-/
import MotionBridge.Bus.Master

namespace MotionBridge

/-- The vibration of one axis. -/
structure Vibrate where
  enabled : Bool := false
  distance : Int32 := 0
  /-- The next move goes backwards. -/
  reverse : Bool := false
deriving Repr, DecidableEq

namespace Vibrate

/-- Begins a vibration, forwards first. -/
def start (distance : Int32) : Vibrate :=
  { enabled := true, distance }

def stop (v : Vibrate) : Vibrate :=
  { v with enabled := false }

/-- The next move. -/
def nextMove (v : Vibrate) : Int32 :=
  if v.reverse then -v.distance else v.distance

/-- What one poll did. -/
structure Polled (σ : Type) where
  /-- The move that was issued. -/
  moved : Option Int32 := none
  vibrate : Vibrate
  bus : Master σ
  log : Log := []

/-- One poll: asks whether the axis is at rest, and if it says so, moves.
The direction flips whether or not the move reaches the controller. -/
def poll {σ : Type} [Lines σ] (v : Vibrate) (axis : UInt8) (bus : Master σ) : Polled σ :=
  if v.enabled then
    let (asked, bus) := bus.command .isAxisBusy axis none
    if asked.value = some 0 then
      let move := v.nextMove
      let (sent, bus) := bus.command .moveInc axis (some move)
      { moved := some move
        vibrate := { v with reverse := !v.reverse }
        bus
        log := asked.log ++
          .trace s!"[board] vibrate axis {axis.toNat} move {move.toInt}" :: sent.log }
    else
      { vibrate := v, bus, log := asked.log }
  else
    { vibrate := v, bus }

end Vibrate

end MotionBridge
