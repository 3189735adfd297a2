import Relay.Suite
import Relay.Message.Basic

/-!
# `Relay.Identity`: what the relay signs

The relay is known by its verifying key. It signs what it sends during the handshake, each time as
the signature followed by the payload, and it signs a constant once: that signature is the token
under which all its messages go out.
-/

set_option autoImplicit false

namespace Relay

/-- The constant whose signature is the relay's own token. -/
def relayTokenSeed : Bytes := List.replicate 8 0xff

namespace SignatureScheme

variable (scheme : SignatureScheme)

/-- A payload behind its signature. -/
def signed (seed : Key) (payload : Bytes) : Bytes := (scheme.sign seed payload).bytes ++ payload

/-- The payload behind its signature, if the signature holds. -/
def openSigned? (key : Key) (text : Bytes) : Option Bytes :=
  match Octets.ofBytes? signatureSize (text.take signatureSize) with
  | none => none
  | some signature =>
    let payload := text.drop signatureSize
    if scheme.verify key payload signature then some payload else none

/-- The token of the relay that holds the seed. -/
def relayToken (seed : Key) : Token := scheme.sign seed relayTokenSeed

/-- Whether a token is the relay's own. -/
def isRelayToken (key : Key) (token : Token) : Bool := scheme.verify key relayTokenSeed token

end SignatureScheme

end Relay
