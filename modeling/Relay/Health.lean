/-!
# `Relay.Health`: whether the relay takes connections

A relay starts, takes connections, and then drains those that it has. Only in between is it ready.
-/

set_option autoImplicit false

namespace Relay

/-- The phase of a relay's life. -/
inductive Health where
  /-- It takes no connections yet. -/
  | starting
  /-- It takes connections. -/
  | ready
  /-- It takes no connections any more. -/
  | draining
deriving DecidableEq

namespace Health

/-- Whether connections are taken. -/
def isReady (h : Health) : Bool := h = .ready

/-- The name of a phase. -/
def label : Health → String
  | starting => "starting"
  | ready => "ready"
  | draining => "draining"

end Health

end Relay
