import Relay.Health
import Relay.Link.Step

/-!
# `Relay.Server.Basic`: a relay that takes connections

A `Server` is a running relay as a value: what its connections share, the ids for further
connections, the loop that takes connections, and the workers that serve them. Nothing happens by
itself: what may happen next are the events of `Relay.Server.Step`.

The loop always holds the id for the next connection before it takes one, so that a relay that is
full still answers. A worker holds the id of its connection until it ends.
-/

set_option autoImplicit false

namespace Relay

/-- What stays the same while a relay runs and is not needed for routing. -/
structure Host where
  /-- The cryptography. -/
  suite : Suite
  /-- The seed that the relay signs with. -/
  seed : Key
  /-- The key pair that sessions are agreed with. -/
  pair : KeyPair
  /-- What routing works with. -/
  service : Service

/-- The worker that serves one connection. -/
inductive Worker where
  /-- A client without an id is turned away. -/
  | refusing
  /-- The handshake is under way. -/
  | greeting (id : ConnId)
  /-- The connection is registered and the reader runs. -/
  | serving (link : Link)
  /-- The reader has ended and the connection is no longer registered. The writer has until the
  deadline to write what waits. -/
  | flushing (link : Link) (result : Except WireError Outcome) (deadline : Nat)
  /-- It was dropped while it served. The connection is no longer registered. -/
  | unwinding (id : ConnId)
  /-- It has ended, on its own account or because it was dropped. -/
  | ended (dropped : Bool)

namespace Worker

/-- The connection id that a worker holds. -/
def lease? : Worker → Option ConnId
  | greeting id => some id
  | serving link => some link.id
  | flushing link _ _ => some link.id
  | unwinding id => some id
  | refusing | ended _ => none

/-- The connection that a worker has in the registry. -/
def registered? : Worker → Option ConnId
  | serving link => some link.id
  | refusing | greeting _ | flushing _ _ _ | unwinding _ | ended _ => none

/-- Whether a worker has ended. -/
def hasEnded : Worker → Bool
  | ended _ => true
  | refusing | greeting _ | serving _ | flushing _ _ _ | unwinding _ => false

/-- What routing came to on the connection of a worker, once that is known. -/
def outcome? : Worker → Option Outcome
  | serving link => link.outcome?
  | flushing link _ _ => link.outcome?
  | refusing | greeting _ | unwinding _ | ended _ => none

end Worker

/-- What the loop that takes connections does. -/
inductive LoopStage where
  /-- It has not begun. -/
  | starting
  /-- It is about to see whether it should go on. -/
  | checking
  /-- It waits for something to happen, with the id for the next connection if there is one. -/
  | waiting (lease : Option ConnId)
  /-- It takes no more connections. The workers have until the deadline to end. -/
  | draining (deadline : Nat)
  /-- The workers that have not ended are dropped. -/
  | aborting
  /-- It has ended. -/
  | stopped
deriving DecidableEq

/-- A running relay. -/
structure Server where
  /-- What stays the same. -/
  host : Host
  /-- What connections share. -/
  shared : State
  /-- The ids of connections. -/
  ids : IdPool
  /-- Whether connections are taken. -/
  health : Health := .starting
  /-- What the loop does. -/
  loop : LoopStage := .starting
  /-- Whether shutdown was requested since the loop last looked. -/
  wake : Bool := false
  /-- The workers that were not collected yet, oldest first. -/
  workers : List Worker := []
  /-- The time. -/
  now : Nat := 0
  /-- The rule that was broken, if one was. Nothing happens after that. -/
  halted : Option Violation := none

namespace Server

/-- A relay that is about to start, with the given settings, signing seed and store. -/
def start (suite : Suite) (passwords : PasswordScheme) (config : Config) (seed : Key)
    (store : Store) (e : Entropy) : Server :=
  let (pair, e) := suite.generateKeyPair e
  let (service, shared) := Service.start suite passwords config seed store e
  { host := { suite, seed, pair, service }, shared, ids := IdPool.empty config.maxConns }

/-- The settings. -/
def config (s : Server) : Config := s.host.service.config

/-- Counts once. -/
def count (s : Server) (series : Series) : Server := { s with shared := s.shared.count series }

/-- Gives the id of a connection back. -/
def giveBack (s : Server) (id : ConnId) : Server :=
  match s.ids.giveBack id with
  | .error v => { s with halted := some v }
  | .ok ids => { s with ids }

/-- Refuses every further request and wakes the loop. -/
def requestShutdown (s : Server) : Server :=
  { s with shared := s.shared.markShuttingDown, wake := true }

end Server

end Relay
