import Relay.Bytes

/-!
# `Relay.Crypto.Aes`: the block cipher AES-256

Encryption of one 16-byte block under a 32-byte key, in fourteen rounds. The counter mode that the
relay uses never decrypts a block, so only this direction is defined. The substitution table is
computed from its rule: the inverse in the field of 256 elements, then an affine map.
-/

set_option autoImplicit false

namespace Relay.Crypto.Aes

/-! ### Bytes as elements of the field of 256 elements -/

/-- Multiplication by the generator `x`. -/
def double (b : UInt8) : UInt8 := (b <<< 1) ^^^ (if b < 0x80 then 0 else 0x1b)

/-- The product of two bytes, by the lowest `steps` bits of the second. -/
def multiplySteps : Nat → UInt8 → UInt8 → UInt8
  | 0, _, _ => 0
  | steps + 1, a, b =>
    (if b &&& 1 = 1 then a else 0) ^^^ multiplySteps steps (double a) (b >>> 1)

/-- The product of two bytes. -/
def multiply (a b : UInt8) : UInt8 := multiplySteps 8 a b

/-- The inverse of a byte, and zero for zero: its 254th power. -/
def inverse (a : UInt8) : UInt8 := (List.replicate 254 a).foldl multiply 1

/-- Rotation to the left. -/
def rotateLeft (b : UInt8) (n : UInt8) : UInt8 := (b <<< n) ||| (b >>> (8 - n))

/-- The substitution of a byte, from its rule. -/
def substitution (a : UInt8) : UInt8 :=
  let b := inverse a
  b ^^^ rotateLeft b 1 ^^^ rotateLeft b 2 ^^^ rotateLeft b 3 ^^^ rotateLeft b 4 ^^^ 0x63

/-- The substitutions of all bytes. -/
def substitutions : Vector UInt8 256 := Vector.ofFn fun i => substitution (UInt8.ofNat i)

/-- The substitution of a byte, from the table. -/
def substitute (a : UInt8) : UInt8 := substitutions.get ⟨a.toNat, a.toNat_lt⟩

/-! ### The key schedule -/

/-- The eight words after the given eight; each word is four bytes. -/
def nextWords (constant : UInt8) : List Bytes → List Bytes
  | [w0, w1, w2, w3, w4, w5, w6, w7] =>
    let rotated := (w7.drop 1 ++ w7.take 1).map substitute
    let v0 := xorBytes (xorBytes w0 rotated) [constant, 0, 0, 0]
    let v1 := xorBytes w1 v0
    let v2 := xorBytes w2 v1
    let v3 := xorBytes w3 v2
    let v4 := xorBytes w4 (v3.map substitute)
    let v5 := xorBytes w5 v4
    let v6 := xorBytes w6 v5
    let v7 := xorBytes w7 v6
    [v0, v1, v2, v3, v4, v5, v6, v7]
  | _ => []

/-- All words from the given eight on, `count` times eight of them. -/
def expandWords : Nat → UInt8 → List Bytes → List Bytes
  | 0, _, _ => []
  | count + 1, constant, words =>
    words ++ expandWords count (double constant) (nextWords constant words)

/-- The fifteen round keys of a 32-byte key, of sixteen bytes each. -/
def roundKeys (key : Bytes) : List Bytes :=
  (blocks 16 (expandWords 8 1 (blocks 4 key)).flatten).take 15

/-! ### Encryption of a block -/

/-- Moves row `r` of the block, which stands column by column, by `r` places. -/
def shiftRows : Bytes → Bytes
  | [a0, a1, a2, a3, b0, b1, b2, b3, c0, c1, c2, c3, d0, d1, d2, d3] =>
    [a0, b1, c2, d3, b0, c1, d2, a3, c0, d1, a2, b3, d0, a1, b2, c3]
  | other => other

/-- Multiplies each column of the block by the fixed matrix. -/
def mixColumns : Bytes → Bytes
  | a :: b :: c :: d :: rest =>
    let all := a ^^^ b ^^^ c ^^^ d
    (a ^^^ all ^^^ double (a ^^^ b)) :: (b ^^^ all ^^^ double (b ^^^ c)) ::
      (c ^^^ all ^^^ double (c ^^^ d)) :: (d ^^^ all ^^^ double (d ^^^ a)) :: mixColumns rest
  | _ => []

/-- The rounds after the first key was added. The last round does not mix columns. -/
def rounds : List Bytes → Bytes → Bytes
  | [], state => state
  | [last], state => xorBytes (shiftRows (state.map substitute)) last
  | key :: rest, state => rounds rest (xorBytes (mixColumns (shiftRows (state.map substitute))) key)

/-- Encrypts one block under expanded round keys. -/
def encrypt (keys : List Bytes) (block : Bytes) : Octets 16 :=
  Octets.padded 16 (rounds keys.tail (xorBytes block (keys.headD [])))

end Relay.Crypto.Aes
