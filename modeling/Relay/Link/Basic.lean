import Relay.Handshake
import Relay.Link.Activity
import Relay.Routing.Step
import Relay.Wire.Exchange

/-!
# `Relay.Link.Basic`: a session under way

A `Link` is an established session. It has two halves that work independently. The reader takes in
one frame at a time, routes its message and hands the replies over to the queue of the connection,
one after the other; only then does it look at the next frame. The writer takes messages out of that
queue, those of the reader and those that other connections put there, and writes them.

The halves share the record of activity, and a permit to close: whoever wants the session to end
leaves the permit, and the reader finds it when it next waits for a frame.
-/

set_option autoImplicit false

namespace Relay

/-- The most messages that wait to be written to a connection. -/
def outboundCapacity : Nat := 64

/-- The part of a frame that is waited for. -/
inductive FramePart where
  /-- The length. -/
  | length
  /-- So many bytes, which have to be there in time. -/
  | body (size : Nat) (deadline : Nat)
deriving DecidableEq

/-- What the reader of a session does. -/
inductive ReaderStage where
  /-- It waits for a frame. The timer is set to when it next looks whether the connection has been
  silent for too long. -/
  | awaiting (part : FramePart) (timer : Nat)
  /-- It waits for the store, with the replies so far. The frame was there at the given time. -/
  | routing (pending : Pending) (replies : List Message) (since : Nat)
  /-- It hands replies over, and then does as the outcome says. -/
  | replying (replies : List Message) (outcome : Outcome) (since : Nat)
  /-- It has ended. -/
  | ended (result : Except WireError Outcome)

/-- What the writer of a session does. -/
inductive WriterStage where
  /-- It waits for a message. -/
  | idle
  /-- It writes the length of a frame, which has to be taken in time. -/
  | length (frame : Bytes) (deadline : Nat)
  /-- It writes the rest of a frame, which has to be taken in time. -/
  | body (frame : Bytes) (deadline : Nat)
  /-- It has ended, and nothing more is written. -/
  | ended
deriving DecidableEq

/-- An established session. -/
structure Link where
  /-- The connection that it is on. -/
  id : ConnId
  /-- Opens what the client sends. -/
  decoder : StreamDecoder
  /-- Seals what the relay sends. -/
  encoder : StreamEncoder
  /-- When something was last read or written. -/
  activity : Activity
  /-- What has arrived and was not read yet. -/
  incoming : Bytes := []
  /-- Why nothing more will arrive, once that is so. -/
  inputEnd : Option WireError := none
  /-- What the reader does. -/
  reader : ReaderStage
  /-- What the writer does. -/
  writer : WriterStage := .idle
  /-- Whether the permit to close is there. -/
  closing : Bool := false
  /-- Whether nobody can put messages into the queue any more. -/
  released : Bool := false
  /-- What the client was sent since the session began. -/
  sent : Bytes := []

namespace Link

/-- A session that begins now, between a handshake and the first frame. The peer is as the
handshake left it; the connection may be silent for the given number of milliseconds. -/
def start (id : ConnId) (session : Session) (peer : Peer) (now : Nat) (idle : Nat) : Link where
  id
  decoder := session.decoder
  encoder := session.encoder
  activity := { origin := now }
  incoming := peer.pending
  reader := .awaiting .length (now + millis idle)

/-- Notes activity down. -/
def touch (l : Link) (now : Nat) : Link := { l with activity := l.activity.touch now }

/-- What routing came to on this session, once the reader knows. -/
def outcome? (l : Link) : Option Outcome :=
  match l.reader with
  | .replying _ outcome _ => some outcome
  | .ended (.ok outcome) => some outcome
  | _ => none

/-- The next time at which something is due whether or not the client does anything. -/
def due? (l : Link) : Option Nat :=
  let reader := match l.reader with
    | .awaiting .length timer => some timer
    | .awaiting (.body _ deadline) timer => some (min deadline timer)
    | _ => none
  let writer := match l.writer with
    | .length _ deadline | .body _ deadline => some deadline
    | _ => none
  match reader, writer with
  | some a, some b => some (min a b)
  | some a, none => some a
  | none, b => b

end Link

end Relay
