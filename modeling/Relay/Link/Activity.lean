import Relay.Registry

/-!
# `Relay.Link.Activity`: when a connection was last active

Whatever is read from a connection and whatever is written to it counts as activity. Both halves
of a connection note it down independently, so the record keeps the latest time that either noted,
in whole milliseconds since the session began. The idle deadline follows it.
-/

set_option autoImplicit false

namespace Relay

/-- The last activity on a connection. -/
structure Activity where
  /-- When the session began. -/
  origin : Nat
  /-- The time from then to the last activity, in whole milliseconds. -/
  elapsed : Nat := 0
deriving DecidableEq

namespace Activity

/-- Notes activity down. A time before the one that is noted already changes nothing. -/
def touch (a : Activity) (now : Nat) : Activity :=
  { a with elapsed := max a.elapsed ((now - a.origin) / millis 1) }

/-- When the connection has been silent for the given number of milliseconds. -/
def idleDeadline (a : Activity) (idle : Nat) : Nat := a.origin + millis a.elapsed + millis idle

/-- Activity never moves the deadline backwards. -/
theorem idleDeadline_le_touch (a : Activity) (now : Nat) (idle : Nat) :
    a.idleDeadline idle ≤ (a.touch now).idleDeadline idle := by
  simp only [idleDeadline, touch, millis]
  omega

end Activity

end Relay
