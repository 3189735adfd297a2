import Relay.Message.Flag

/-!
# `Relay.Metrics.Basic`: what the relay counts

A `Series` is one thing that is counted, with its label if its metric has one. `Metrics` holds the
value of every series that was ever touched; the others read as zero.
-/

set_option autoImplicit false

namespace Relay

/-- What became of a connection attempt. -/
inductive Admission where
  /-- A session was established. -/
  | admitted
  /-- The handshake failed. -/
  | handshakeFailed
  /-- There was no connection id left. -/
  | rejectedFull
deriving DecidableEq

/-- Why a message was not put into a queue. -/
inductive DropReason where
  /-- Its recipient is no user. -/
  | unknownRecipient
  /-- The recipient's queue was full. -/
  | queueFull
  /-- The recipient was on no connection. -/
  | offline
deriving DecidableEq

/-- One thing that is counted. -/
inductive Series where
  /-- Connection attempts by their outcome. -/
  | admissions (outcome : Admission)
  /-- Messages put into the queue of another connection. -/
  | relayed
  /-- Messages that were not, by the reason. -/
  | dropped (reason : DropReason)
  /-- Messages routed, by operation. -/
  | dispatched (operation : Operation)
  /-- Sessions that are established at the moment. -/
  | connectionsActive
  /-- Frames handled. -/
  | frameLatency
deriving DecidableEq

/-- The name of an outcome. -/
def Admission.label : Admission → String
  | admitted => "admitted"
  | handshakeFailed => "handshake_failed"
  | rejectedFull => "rejected_full"

/-- The name of a reason. -/
def DropReason.label : DropReason → String
  | unknownRecipient => "unknown_recipient"
  | queueFull => "queue_full"
  | offline => "offline"

namespace Series

/-- The name of the metric that a series belongs to. -/
def name : Series → String
  | admissions _ => "mrp_admissions_total"
  | relayed => "mrp_messages_relayed_total"
  | dropped _ => "mrp_messages_dropped_total"
  | dispatched _ => "mrp_dispatch_total"
  | connectionsActive => "mrp_connections_active"
  | frameLatency => "mrp_frame_latency_seconds"

/-- The name and the value of the label that tells a series from the others of its metric. -/
def label? : Series → Option (String × String)
  | admissions outcome => some ("outcome", outcome.label)
  | dropped reason => some ("reason", reason.label)
  | dispatched operation => some ("operation", operation.label)
  | relayed | connectionsActive | frameLatency => none

end Series

/-- The values of all series that were touched, in the order of their first touch. -/
structure Metrics where
  /-- Series with their values. -/
  values : List (Series × Int) := []
  /-- How long all frames took together, in nanoseconds. -/
  latency : Nat := 0
deriving DecidableEq

namespace Metrics

/-- The value of a series. -/
def get (m : Metrics) (s : Series) : Int := ((m.values.find? fun e => e.1 = s).map Prod.snd).getD 0

/-- Adds to the value of a series in a list. -/
def addTo (s : Series) (d : Int) : List (Series × Int) → List (Series × Int)
  | [] => [(s, d)]
  | e :: rest => if e.1 = s then (s, e.2 + d) :: rest else e :: addTo s d rest

/-- Adds to the value of a series. -/
def add (m : Metrics) (s : Series) (d : Int) : Metrics := { m with values := addTo s d m.values }

/-- Counts once. -/
def count (m : Metrics) (s : Series) : Metrics := m.add s 1

/-- Counts a frame that took the given number of nanoseconds. -/
def observe (m : Metrics) (nanoseconds : Nat) : Metrics :=
  { m.count .frameLatency with latency := m.latency + nanoseconds }

theorem get_add (m : Metrics) (s other : Series) (d : Int) :
    (m.add s d).get other = m.get other + if other = s then d else 0 := by
  obtain ⟨values, latency⟩ := m
  simp only [get, add]
  induction values with
  | nil => by_cases h : s = other <;> simp [addTo, h, eq_comm]
  | cons e rest ih =>
    by_cases he : e.1 = s
    · by_cases ho : other = s
      · simp [addTo, he, ho]
      · have hs : ¬ s = other := fun h => ho h.symm
        simp [addTo, he, ho, hs]
    · by_cases ho : e.1 = other
      · have hs : ¬ other = s := fun h => he (ho.trans h)
        simp [addTo, ho, hs]
      · simpa [addTo, he, ho] using ih

end Metrics

end Relay
