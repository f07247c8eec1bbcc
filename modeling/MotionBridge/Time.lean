/-
MotionBridge/Time.lean

Times, as the clock gives them: to the nanosecond.  The settings give theirs in
whole milliseconds, and ages are told in whole milliseconds too; only there is
anything rounded.
-/

namespace MotionBridge

/-- A point in time, as the time since a common origin, or the time between two
points. -/
structure Time where
  nanos : Nat
deriving Repr, DecidableEq

namespace Time

/-- Nanoseconds to a millisecond. -/
def nanosPerMilli : Nat := 1000000

/-- So many milliseconds. -/
def ofMillis (count : Nat) : Time :=
  ⟨count * nanosPerMilli⟩

/-- A bare number, as the settings have it, counts milliseconds. -/
instance : Coe Nat Time :=
  ⟨ofMillis⟩

instance (count : Nat) : OfNat Time count :=
  ⟨ofMillis count⟩

instance : LE Time :=
  ⟨fun a b => a.nanos ≤ b.nanos⟩

instance (a b : Time) : Decidable (a ≤ b) :=
  inferInstanceAs (Decidable (a.nanos ≤ b.nanos))

/-- The time since an earlier point; none, if that point lies ahead. -/
def since (now earlier : Time) : Time :=
  ⟨now.nanos - earlier.nanos⟩

theorem nanos_since (now earlier : Time) :
    ((now.since earlier).nanos : Int) = max ((now.nanos : Int) - earlier.nanos) 0 := by
  show ((now.nanos - earlier.nanos : Nat) : Int) = _
  omega

/-- The whole milliseconds of a time. -/
def millis (t : Time) : Nat :=
  t.nanos / nanosPerMilli

end Time

end MotionBridge
