import Relay.Server.Step

/-!
# `Relay.Server.Drive`: a relay that goes on by itself

A relay that runs takes every step that needs nobody else as soon as it can. `Server.drive` takes
such steps until none is left: what remains is to wait for a client, the clock or a signal.
-/

set_option autoImplicit false

namespace Relay

/-- What may happen to a worker without anybody else. -/
def WorkerEvent.inner (t : Moment) : List WorkerEvent :=
  [.link .notice, .link (.read t), .link .giveUp, .link .ring, .link (.resume t), .link .reply,
   .link .conclude, .link .lapse, .link .collect, .link .finish, .leave, .depart]

/-- The bytes that a worker waits for its client to take. -/
def Worker.outgoing? : Worker → Option Bytes
  | .serving link | .flushing link _ _ =>
    match link.writer with
    | .length frame _ => some (word32 (UInt32.ofNat frame.length))
    | .body frame _ => some frame
    | _ => none
  | _ => none

namespace Server

/-- What may happen to a relay without anybody else. -/
def inner (s : Server) (t : Moment) : List Event :=
  (List.range s.workers.length).flatMap fun index =>
    (WorkerEvent.inner t).map (Event.worker index) ++ [.collect index]

/-- Takes at most so many steps that need nobody else, the first that can be taken each time. -/
def drive (t : Moment) : Nat → Server → Server
  | 0, s => s
  | steps + 1, s =>
    match (s.inner t).findSome? s.step? with
    | none => s
    | some next => drive t steps next

end Server

end Relay
