import Relay.Crypto.Curve25519

/-!
# `Relay.Crypto.X25519`: key agreement

A secret of 32 bytes and the peer's public key give a shared secret of 32 bytes; the public key of
a secret is what the secret and the base point give. A public key of low order makes the shared
secret zero whatever the own secret is, and `agree?` refuses it.
-/

set_option autoImplicit false

namespace Relay.Crypto.X25519

open Curve25519

/-- The number of bytes of a secret and of a public key. -/
def keySize : Nat := 32

/-- The scalar of a secret: a multiple of eight between `2 ^ 254` and `2 ^ 255`. -/
def scalar (secret : Bytes) : Nat :=
  -- The three lowest bits and the topmost one are cleared, and the one below it is set.
  let value := ofLittleEndian secret
  (1 <<< 254) + 8 * (value / 8 % (1 <<< 251))

/-- Two points of the ladder in projective coordinates, the first and the second. -/
structure Ladder where
  /-- Numerator and denominator of both points. -/
  (x2 z2 x3 z3 : Nat)

/-- Exchanges the two points if asked to. -/
def Ladder.swapIf (swap : Bool) (s : Ladder) : Ladder :=
  if swap then ⟨s.x3, s.z3, s.x2, s.z2⟩ else s

/-- Doubles the first point and adds both, for a base point with coordinate `u`. -/
def Ladder.step (u : Nat) (s : Ladder) : Ladder :=
  let a := add s.x2 s.z2
  let aa := mul a a
  let b := sub s.x2 s.z2
  let bb := mul b b
  let e := sub aa bb
  let da := mul (sub s.x3 s.z3) a
  let cb := mul (add s.x3 s.z3) b
  let sum := add da cb
  let difference := sub da cb
  ⟨mul aa bb, mul e (add aa (mul 121665 e)), mul sum sum, mul u (mul difference difference)⟩

/-- The coordinate of the multiple of a point by a scalar below `2 ^ 255`. -/
def multiple (k u : Nat) : Nat :=
  let s := (bitsOf 255 k).foldl
    (fun s bit => ((s.swapIf bit).step u).swapIf bit) (Ladder.mk 1 0 u 1)
  mul s.x2 (inverse s.z2)

/-- The shared secret of a secret and a public key, zero for a public key of low order. -/
def shared (secret peer : Bytes) : Bytes :=
  littleEndian keySize (multiple (scalar secret) (ofLittleEndian peer % (1 <<< 255) % prime))

/-- The public key of a secret. -/
def publicKey (secret : Bytes) : Bytes := shared secret (littleEndian keySize 9)

/-- The shared secret, unless the public key is of low order. -/
def agree? (secret peer : Bytes) : Option Bytes :=
  let value := shared secret peer
  if value.all (· == 0) then none else some value

end Relay.Crypto.X25519
