import Relay.Wire.Frame

/-!
# `Relay.Wire.Exchange`: messages on a session

A message is packed, sealed as the next text of its stream and written as one frame; on the way
back a frame is opened and unpacked. A message that cannot be packed leaves the stream as it was
and puts nothing on the wire. A message that was sealed has taken its place in the stream, whether
its frame gets through or not; a frame that was opened has taken its place, whether it holds a
message or not.
-/

set_option autoImplicit false

namespace Relay

/-- The frame that carries a message next, and the stream after it. -/
def StreamEncoder.sealMessage (s : StreamEncoder) (m : Message) :
    Except WireError (Bytes × StreamEncoder) :=
  match m.pack with
  | .error e => .error (.frame e)
  | .ok text =>
    match s.encrypt text with
    | .error e => .error (.crypto e)
    | .ok (frame, s) => .ok (frame, s)

namespace Peer

/-- Sends a message as the next one of a stream. The limits are in milliseconds. -/
def send (p : Peer) (s : StreamEncoder) (m : Message) (idle part : Nat) :
    Except WireError Unit × StreamEncoder × Peer :=
  match s.sealMessage m with
  | .error e => (.error e, s, p)
  | .ok (frame, s) =>
    let (result, p) := p.writeFrame frame idle part
    (result, s, p)

/-- Receives the next message of a stream. The limits are in milliseconds. -/
def receive (p : Peer) (s : StreamDecoder) (idle part : Nat) :
    Except WireError Message × StreamDecoder × Peer :=
  match p.readFrame idle part with
  | (.error e, p) => (.error e, s, p)
  | (.ok frame, p) =>
    match s.decrypt frame with
    | .error e => (.error (.crypto e), s, p)
    | .ok (text, s) =>
      match Message.unpack text with
      | .error e => (.error (.frame e), s, p)
      | .ok m => (.ok m, s, p)

end Peer

end Relay
