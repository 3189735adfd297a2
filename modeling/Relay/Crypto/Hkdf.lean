import Relay.Crypto.Sha2

/-!
# `Relay.Crypto.Hkdf`: keyed digests and key derivation

HMAC-SHA256 keys the digest, and HKDF-SHA256 turns a secret and a salt into as many key bytes as
are asked for, one digest per 32 bytes.
-/

set_option autoImplicit false

namespace Relay.Crypto

/-- HMAC-SHA256 of a message under a key of any length. -/
def hmac (key message : Bytes) : Bytes :=
  let short := if key.length > sha256.blockSize then sha256.hash key else key
  let whole := short ++ List.replicate (sha256.blockSize - short.length) 0
  sha256.hash (whole.map (· ^^^ 0x5c) ++ sha256.hash (whole.map (· ^^^ 0x36) ++ message))

namespace Hkdf

/-- The bytes that `count` digests yield after the one numbered `index` whose value is
`previous`. -/
def expandFrom (key info : Bytes) : Nat → Nat → Bytes → Bytes
  | 0, _, _ => []
  | count + 1, index, previous =>
    let next := hmac key (previous ++ info ++ [UInt8.ofNat (index + 1)])
    next ++ expandFrom key info count (index + 1) next

/-- `size` bytes derived from a secret under a salt, for the purpose that `info` names. -/
def derive (salt secret info : Bytes) (size : Nat) : Bytes :=
  (expandFrom (hmac salt secret) info ((size + 31) / 32) 0 []).take size

end Hkdf

end Relay.Crypto
