import Relay.Crypto.Curve25519
import Relay.Crypto.Sha2

/-!
# `Relay.Crypto.Ed25519`: signatures

Signing is deterministic. Verification recomputes the first half of the signature from the second
half, the key and the message and compares the bytes; it asks that the second half be a number
below the group order, and nothing of the key but that it decode to a point of the curve. A key
may therefore be of low order or be written with a coordinate above the prime.
-/

set_option autoImplicit false

namespace Relay.Crypto.Ed25519

open Curve25519

/-- The number of bytes of a seed and of a verifying key. -/
def keySize : Nat := 32

/-- The number of bytes of a signature. -/
def signatureSize : Nat := 64

/-! ### Points -/

/-- A point of the curve `y² - x² = 1 + d x² y²` in extended coordinates: `x = X / Z`,
`y = Y / Z` and `x y = T / Z`. -/
structure Point where
  /-- The four coordinates. -/
  (X Y Z T : Nat)

/-- The constant of the curve. -/
def d : Nat := mul (sub 0 121665) (inverse 121666)

namespace Point

/-- The neutral point. -/
def zero : Point := ⟨0, 1, 1, 0⟩

/-- The sum of two points, which may be equal. -/
def sum (p q : Point) : Point :=
  let a := mul (sub p.Y p.X) (sub q.Y q.X)
  let b := mul (add p.Y p.X) (add q.Y q.X)
  let c := mul (mul (mul 2 p.T) d) q.T
  let e := mul (mul 2 p.Z) q.Z
  let h := sub b a
  let f := sub e c
  let g := add e c
  let i := add b a
  ⟨mul h f, mul g i, mul f g, mul h i⟩

/-- The point on the other side of the axis. -/
def neg (p : Point) : Point := ⟨sub 0 p.X, p.Y, p.Z, sub 0 p.T⟩

/-- The multiple of a point by a number below `2 ^ 256`. -/
def multiple (k : Nat) (p : Point) : Point :=
  (bitsOf 256 k).foldl (fun acc bit => if bit then (acc.sum acc).sum p else acc.sum acc) zero

/-- The 32 bytes of a point: the coordinate `y`, with the parity of `x` in the topmost bit. -/
def encode (p : Point) : Bytes :=
  let z := inverse p.Z
  littleEndian keySize (mul p.Y z + (mul p.X z % 2) <<< 255)

/-- The point that 32 bytes stand for. The coordinate `y` is taken modulo the prime, and the
topmost bit chooses between the even `x` and its negative, which is zero where `x` is. -/
def decode? (bytes : Bytes) : Option Point :=
  let value := ofLittleEndian bytes
  let y := value % (1 <<< 255) % prime
  let yy := mul y y
  (rootOfRatio? (sub yy 1) (add (mul d yy) 1)).map fun even =>
    let x := if value.testBit 255 then sub 0 even else even
    ⟨x, y, 1, mul x y⟩

end Point

/-- The base point: `y` is four fifths and `x` is even. -/
def base : Point :=
  (Point.decode? (littleEndian keySize (mul 4 (inverse 5)))).getD Point.zero

/-! ### Signatures -/

/-- The number that the bytes stand for, reduced to a scalar. -/
def reduce (bytes : Bytes) : Nat := ofLittleEndian bytes % groupOrder

/-- The secret scalar of a seed: a multiple of eight between `2 ^ 254` and `2 ^ 255`. -/
def secretScalar (seed : Bytes) : Nat :=
  (1 <<< 254) + 8 * (ofLittleEndian ((sha512.hash seed).take 32) / 8 % (1 <<< 251))

/-- The verifying key of a seed. -/
def verifyingKey (seed : Bytes) : Bytes := (Point.multiple (secretScalar seed) base).encode

/-- The signature of a message under the key of a seed. -/
def sign (seed message : Bytes) : Bytes :=
  let r := reduce (sha512.hash ((sha512.hash seed).drop 32 ++ message))
  let commitment := (Point.multiple r base).encode
  let challenge := reduce (sha512.hash (commitment ++ verifyingKey seed ++ message))
  commitment ++ littleEndian 32 ((r + challenge * secretScalar seed) % groupOrder)

/-- Whether bytes decode to a point and so may serve as a verifying key. -/
def isKey (key : Bytes) : Bool := (Point.decode? key).isSome

/-- Whether 64 bytes are a signature of the message under the key. -/
def verify (key message signature : Bytes) : Bool :=
  match Point.decode? key with
  | none => false
  | some point =>
    -- Instead of decoding the commitment the check encodes the point that it should be.
    let commitment := signature.take 32
    let response := ofLittleEndian (signature.drop 32)
    let challenge := reduce (sha512.hash (commitment ++ key ++ message))
    response < groupOrder &&
      ((Point.multiple response base).sum (Point.multiple challenge point.neg)).encode == commitment

end Relay.Crypto.Ed25519
