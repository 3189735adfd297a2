import Relay.Suite
import Relay.Entropy

/-!
# `Relay.Session.Keys`: the keys of a session

Both sides of a session derive the same two keys from the agreed secret and both public keys: one
for what the client sends, one for what the relay sends. `SessionKeys` names them from the side
that holds them, so the two sides hold mirrored values.
-/

set_option autoImplicit false

namespace Relay

/-- Why a key agreement or a stream operation fails. -/
inductive CryptoError where
  /-- The peer's public key forces the shared secret. -/
  | keyExchange
  /-- An input of a fixed size has another size. -/
  | invalidLength (expected actual : Nat)
  /-- The sealed text is not the next one of the stream. -/
  | decrypt
  /-- The stream has no nonce left. -/
  | encrypt
deriving DecidableEq

/-- The wording of a cryptographic error. -/
def CryptoError.message : CryptoError → String
  | keyExchange => "key exchange failed"
  | invalidLength expected actual => s!"invalid length: expected {expected}, got {actual}"
  | decrypt => "decryption failed"
  | encrypt => "encryption failed"

/-- The keys of a session, as one side holds them. -/
structure SessionKeys where
  /-- Opens what the peer sends. -/
  rx : Key
  /-- Seals what this side sends. -/
  tx : Key
deriving DecidableEq

/-- A secret with its public key. -/
structure KeyPair where
  /-- The secret. -/
  secret : Key
  /-- The public key. -/
  publicKey : Key
deriving DecidableEq

/-- The side of a session that a party is on. -/
inductive Role where
  /-- The party that connected. -/
  | client
  /-- The relay. -/
  | relay
deriving DecidableEq

/-- The purpose for which session keys are derived. -/
def sessionPurpose : Bytes := "mrp session keys v1".toUTF8.toList

namespace Suite

variable (suite : Suite)

/-- The key pair of a secret. -/
def keyPair (secret : Key) : KeyPair := ⟨secret, suite.agreement.publicKey secret⟩

/-- A fresh key pair. -/
def generateKeyPair (e : Entropy) : KeyPair × Entropy :=
  let (secret, e) := e.draw keySize
  (suite.keyPair secret, e)

/-- The keys that an agreed secret gives: first that of what the client sends, then that of what
the relay sends. -/
def directionKeys (shared clientPublic relayPublic : Key) : Key × Key :=
  let material := suite.derive (clientPublic.bytes ++ relayPublic.bytes) shared.bytes
    sessionPurpose (2 * keySize)
  (Octets.padded keySize material.bytes, Octets.padded keySize (material.bytes.drop keySize))

/-- The session keys of a party on the given side, from its key pair and its peer's public key. -/
def sessionKeys (role : Role) (own : KeyPair) (peer : Key) : Except CryptoError SessionKeys :=
  match suite.agreement.agree? own.secret peer with
  | none => .error .keyExchange
  | some shared =>
    match role with
    | .relay =>
      let (fromClient, fromRelay) := suite.directionKeys shared peer own.publicKey
      .ok ⟨fromClient, fromRelay⟩
    | .client =>
      let (fromClient, fromRelay) := suite.directionKeys shared own.publicKey peer
      .ok ⟨fromRelay, fromClient⟩

end Suite

end Relay
