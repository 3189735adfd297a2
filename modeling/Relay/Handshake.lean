import Relay.Identity
import Relay.Session.Stream
import Relay.Wire.Peer

/-!
# `Relay.Handshake`: how a session begins

The relay speaks first:

    relay  → client   signature 64 | relay's key 32
    client → relay    client's key 32
    relay  → client   signature 64 | header of the relay's stream 24
    client → relay    header of the client's stream 24

The client checks both signatures; the relay learns nothing about who the client is. A handshake
that fails is given up without another word. A client for which there is no room is sent a signed
key of zeros instead, with which no session can be had.
-/

set_option autoImplicit false

namespace Relay

/-- Both directions of an established session. -/
structure Session where
  /-- What the relay sends. -/
  encoder : StreamEncoder
  /-- What the client sends. -/
  decoder : StreamDecoder

namespace Suite

variable (suite : Suite)

/-- The relay's side of a handshake, under the signing seed and the key pair of the relay. Each
step has the same limit in milliseconds. -/
def shakeHands (seed : Key) (own : KeyPair) (limit : Nat) (e : Entropy) (p : Peer) :
    Except WireError Session × Entropy × Peer :=
  match p.write (suite.signatures.signed seed own.publicKey.bytes) limit .relayKeyWrite with
  | (.error failure, p) => (.error failure, e, p)
  | (.ok _, p) =>
    match p.read keySize limit .clientKeyRead with
    | (.error failure, p) => (.error failure, e, p)
    | (.ok clientPublic, p) =>
      match suite.sessionKeys .relay own (Octets.padded keySize clientPublic) with
      | .error cause => (.error (.crypto cause), e, p)
      | .ok keys =>
        -- The header is drawn only now, so a handshake that fails before costs no random bytes.
        let (encoder, header, e) := suite.startStream keys.tx e
        match p.write (suite.signatures.signed seed header.bytes) limit .relayHeaderWrite with
        | (.error failure, p) => (.error failure, e, p)
        | (.ok _, p) =>
          match p.read headerSize limit .clientHeaderRead with
          | (.error failure, p) => (.error failure, e, p)
          | (.ok clientHeader, p) =>
            match suite.attachStream keys.rx clientHeader with
            | .error cause => (.error (.crypto cause), e, p)
            | .ok decoder => (.ok ⟨encoder, decoder⟩, e, p)

/-- Turns a client away, under a limit in milliseconds. -/
def turnAway (seed : Key) (limit : Nat) (p : Peer) : Except WireError Unit × Peer :=
  p.write (suite.signatures.signed seed (Octets.zero keySize).bytes) limit .rejectionWrite

end Suite

end Relay
