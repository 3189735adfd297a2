import Relay.Bytes

/-!
# `Relay.Crypto.Sha2`: the digests SHA-256 and SHA-512

Both digests are one construction over words of `w` bits: the message is padded to whole blocks of
sixteen words, each block is expanded into a schedule, and one round per schedule word stirs eight
working words. `Sha2 w` holds what differs between the two.

The round constants are the fractional parts of the cube roots of the first primes and the initial
words those of the square roots, cut to `w` bits. They are computed here from that rule
(`rootFraction`) instead of being listed.
-/

set_option autoImplicit false

namespace Relay.Crypto

/-! ### Constants from the roots of primes -/

/-- The product of so many equal factors. -/
def power (base : Nat) : Nat → Nat
  | 0 => 1
  | degree + 1 => base * power base degree

/-- The greatest number below `low + 2 ^ bits` whose `degree`-th power is at most `value`, where
`low` is known to be small enough. -/
def rootAbove (degree value : Nat) : Nat → Nat → Nat
  | 0, low => low
  | bits + 1, low =>
    let middle := low + 1 <<< bits
    if power middle degree ≤ value then rootAbove degree value bits middle
    else rootAbove degree value bits low

/-- The first `bits` binary places after the point of the `degree`-th root of a small number. -/
def rootFraction (degree bits number : Nat) : Nat :=
  -- The whole part of the root takes at most five more bits, which are dropped.
  rootAbove degree (number <<< (degree * bits)) (bits + 5) 0 % (1 <<< bits)

/-- The primes below the bound, in order. -/
def primesBelow (bound : Nat) : List Nat :=
  (List.range bound).filter fun n => 2 ≤ n && (List.range n).all fun d => d < 2 || n % d != 0

/-! ### The construction -/

/-- What tells one digest of the family from another. -/
structure Sha2 (w : Nat) where
  /-- The words that hashing starts from. -/
  initial : List (BitVec w)
  /-- One constant per round. -/
  constants : List (BitVec w)
  /-- Stirs the first working word. -/
  bigSigma0 : BitVec w → BitVec w
  /-- Stirs the fifth working word. -/
  bigSigma1 : BitVec w → BitVec w
  /-- Stirs the schedule word fifteen places back. -/
  smallSigma0 : BitVec w → BitVec w
  /-- Stirs the schedule word two places back. -/
  smallSigma1 : BitVec w → BitVec w

namespace Sha2

variable {w : Nat}

/-- The exclusive or of three rotations to the right. -/
def rotations (i j k : Nat) (x : BitVec w) : BitVec w :=
  x.rotateRight i ^^^ x.rotateRight j ^^^ x.rotateRight k

/-- The exclusive or of two rotations and a shift to the right. -/
def rotationsShift (i j k : Nat) (x : BitVec w) : BitVec w :=
  x.rotateRight i ^^^ x.rotateRight j ^^^ (x >>> k)

/-- Bit by bit the second word where the first is set, else the third. -/
def choose (x y z : BitVec w) : BitVec w := (x &&& y) ^^^ (~~~x &&& z)

/-- Bit by bit the value that at least two of the three words have. -/
def majority (x y z : BitVec w) : BitVec w := (x &&& y) ^^^ (x &&& z) ^^^ (y &&& z)

/-- The number of bytes of a word. -/
def wordSize (_ : Sha2 w) : Nat := w / 8

/-- The number of bytes of a block. -/
def blockSize (digest : Sha2 w) : Nat := 16 * digest.wordSize

/-- The message, a one bit, zeros and the message's length in bits: a whole number of blocks. -/
def pad (digest : Sha2 w) (message : Bytes) : Bytes :=
  let size := digest.blockSize
  let used := (message.length + 1 + 2 * digest.wordSize) % size
  message ++ 0x80 :: List.replicate ((size - used) % size) 0 ++
    bigEndian (2 * digest.wordSize) (8 * message.length)

/-- The next `count` words of the schedule, from the sixteen that precede its seventeenth. -/
def schedule (digest : Sha2 w) : Nat → List (BitVec w) → List (BitVec w)
  | 0, _ => []
  | count + 1, window =>
    let next := digest.smallSigma1 (window.getD 14 0) + window.getD 9 0 +
      digest.smallSigma0 (window.getD 1 0) + window.getD 0 0
    window.headD 0 :: schedule digest count (window.tail ++ [next])

/-- The eight working words. -/
structure Working (w : Nat) where
  /-- The words in order. -/
  (a b c d e f g h : BitVec w)

/-- The working words of a list of eight. -/
def Working.ofList (l : List (BitVec w)) : Working w :=
  ⟨l.getD 0 0, l.getD 1 0, l.getD 2 0, l.getD 3 0, l.getD 4 0, l.getD 5 0, l.getD 6 0, l.getD 7 0⟩

/-- The working words in order. -/
def Working.toList (v : Working w) : List (BitVec w) := [v.a, v.b, v.c, v.d, v.e, v.f, v.g, v.h]

/-- One round, with the sum of its constant and its schedule word. -/
def round (digest : Sha2 w) (v : Working w) (input : BitVec w) : Working w :=
  let first := v.h + digest.bigSigma1 v.e + choose v.e v.f v.g + input
  let second := digest.bigSigma0 v.a + majority v.a v.b v.c
  ⟨first + second, v.a, v.b, v.c, v.d + first, v.e, v.f, v.g⟩

/-- The chaining words after one more block. -/
def compress (digest : Sha2 w) (chain : List (BitVec w)) (block : Bytes) : List (BitVec w) :=
  let words := (blocks digest.wordSize block).map fun b => BitVec.ofNat w (ofBigEndian b)
  let inputs := List.zipWith (· + ·) digest.constants
    (digest.schedule digest.constants.length words)
  List.zipWith (· + ·) chain (inputs.foldl digest.round (Working.ofList chain)).toList

/-- The digest of a message. -/
def hash (digest : Sha2 w) (message : Bytes) : Bytes :=
  ((blocks digest.blockSize (digest.pad message)).foldl digest.compress digest.initial).flatMap
    fun word => bigEndian digest.wordSize word.toNat

end Sha2

/-! ### The two digests -/

/-- SHA-512: words of 64 bits and 80 rounds. -/
def sha512 : Sha2 64 where
  initial := (primesBelow 20).map fun p => BitVec.ofNat 64 (rootFraction 2 64 p)
  constants := (primesBelow 410).map fun p => BitVec.ofNat 64 (rootFraction 3 64 p)
  bigSigma0 := Sha2.rotations 28 34 39
  bigSigma1 := Sha2.rotations 14 18 41
  smallSigma0 := Sha2.rotationsShift 1 8 7
  smallSigma1 := Sha2.rotationsShift 19 61 6

/-- SHA-256: words of 32 bits and 64 rounds. -/
def sha256 : Sha2 32 where
  initial := (primesBelow 20).map fun p => BitVec.ofNat 32 (rootFraction 2 32 p)
  constants := (primesBelow 312).map fun p => BitVec.ofNat 32 (rootFraction 3 32 p)
  bigSigma0 := Sha2.rotations 2 13 22
  bigSigma1 := Sha2.rotations 6 11 25
  smallSigma0 := Sha2.rotationsShift 7 18 3
  smallSigma1 := Sha2.rotationsShift 17 19 10

end Relay.Crypto
