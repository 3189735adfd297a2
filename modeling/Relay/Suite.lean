import Relay.Crypto.Gcm
import Relay.Crypto.Hkdf
import Relay.Crypto.X25519
import Relay.Crypto.Ed25519

/-!
# `Relay.Suite`: the cryptography that the relay is built on

The relay uses four primitives: authenticated encryption, key agreement, signatures and key
derivation. A `Suite` holds them as functions, and everything above is defined for any suite, so
that a law of the relay can name exactly the laws of the primitives that it needs.
`Suite.standard` is the suite that runs: AES-256-GCM, X25519, Ed25519 and HKDF-SHA256.
-/

set_option autoImplicit false

namespace Relay

/-- The number of bytes of a key: of a cipher, of a key agreement, of a signer. -/
def keySize : Nat := 32

/-- The number of bytes of a signature. -/
def signatureSize : Nat := 64

/-- The number of bytes of a nonce. -/
def nonceSize : Nat := 12

/-- The number of bytes by which a sealed text is longer than the text. -/
def sealOverhead : Nat := 16

/-- A key of any kind. -/
abbrev Key := Octets keySize

/-- A number that is used once under a key. -/
abbrev Nonce := Octets nonceSize

/-- A signature. -/
abbrev Signature := Octets signatureSize

/-- Authenticated encryption. -/
structure Aead where
  /-- Seals a text under a key and a nonce. -/
  encrypt : Key → Nonce → Bytes → Bytes
  /-- The text that was sealed, if the sealed text is authentic. -/
  decrypt? : Key → Nonce → Bytes → Option Bytes
  /-- A sealed text is longer than the text by a constant. -/
  length_encrypt : ∀ key nonce text, (encrypt key nonce text).length = text.length + sealOverhead

/-- What was sealed is opened again. -/
def Aead.Inverts (aead : Aead) : Prop :=
  ∀ (key : Key) (nonce : Nonce) (text : Bytes),
    aead.decrypt? key nonce (aead.encrypt key nonce text) = some text

/-- Key agreement between two parties. -/
structure KeyAgreement where
  /-- The public key of a secret. -/
  publicKey : Key → Key
  /-- What a secret and the peer's public key agree on, unless the public key forces it. -/
  agree? : Key → Key → Option Key

/-- Signatures. -/
structure SignatureScheme where
  /-- The verifying key of a seed. -/
  verifyingKey : Key → Key
  /-- Whether bytes may serve as a verifying key. -/
  isKey : Key → Bool
  /-- Signs a message under the key of a seed. -/
  sign : Key → Bytes → Signature
  /-- Whether a signature of a message holds under a verifying key. -/
  verify : Key → Bytes → Signature → Bool

/-- The primitives that the relay uses. -/
structure Suite where
  /-- Seals frames and tokens. -/
  aead : Aead
  /-- Agrees on the secret of a session. -/
  agreement : KeyAgreement
  /-- Signs the handshake. -/
  signatures : SignatureScheme
  /-- Key bytes of any number from a salt, a secret and a purpose. -/
  derive : Bytes → Bytes → Bytes → (size : Nat) → Octets size
  /-- Whether sealing the ids of a token fails under a key and a nonce. AES-GCM fails on texts that
  are far longer only, and the relay has an answer all the same. -/
  refuses : Key → Nonce → Bytes → Bool := fun _ _ _ => false

namespace Suite

/-- AES-256-GCM. -/
def aes256Gcm : Aead where
  encrypt key nonce text := Crypto.Gcm.encrypt key.bytes nonce.bytes text
  decrypt? key nonce sealed := Crypto.Gcm.decrypt? key.bytes nonce.bytes sealed
  length_encrypt key nonce text := Crypto.Gcm.length_encrypt key.bytes nonce.bytes text

/-- X25519. -/
def x25519 : KeyAgreement where
  publicKey secret := Octets.padded keySize (Crypto.X25519.publicKey secret.bytes)
  agree? secret peer := (Crypto.X25519.agree? secret.bytes peer.bytes).map (Octets.padded keySize)

/-- Ed25519. -/
def ed25519 : SignatureScheme where
  verifyingKey seed := Octets.padded keySize (Crypto.Ed25519.verifyingKey seed.bytes)
  isKey key := Crypto.Ed25519.isKey key.bytes
  sign seed message := Octets.padded signatureSize (Crypto.Ed25519.sign seed.bytes message)
  verify key message signature := Crypto.Ed25519.verify key.bytes message signature.bytes

/-- The suite that the relay runs with. -/
def standard : Suite where
  aead := aes256Gcm
  agreement := x25519
  signatures := ed25519
  derive salt secret info size := Octets.padded size (Crypto.Hkdf.derive salt secret info size)

end Suite

end Relay
