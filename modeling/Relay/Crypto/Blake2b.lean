import Relay.Crypto.Sha2

/-!
# `Relay.Crypto.Blake2b`: the digest BLAKE2b

A digest of one to 64 bytes, as asked for, without a key. Sixteen working words stand in a square
of four columns; each round mixes the columns and then the diagonals. `Lane` is one column, and
`Square.diagonal` turns the square so that its diagonals become columns. Argon2 stirs its memory
with the same square and another mixing step.
-/

set_option autoImplicit false

namespace Relay.Crypto

/-- Rotation of a 64-bit word to the right, by one to 63 places. -/
def rotateRight64 (x n : UInt64) : UInt64 := (x >>> n) ||| (x <<< (64 - n))

/-- One column of the square, top to bottom. -/
structure Lane where
  /-- The four words. -/
  (a b c d : UInt64)

/-- Four columns of working words. -/
structure Square where
  /-- The columns, left to right. -/
  (l0 l1 l2 l3 : Lane)

namespace Square

/-- Turns row `r` by `r` places to the left, so that the diagonals become columns. -/
def diagonal (s : Square) : Square :=
  ⟨⟨s.l0.a, s.l1.b, s.l2.c, s.l3.d⟩, ⟨s.l1.a, s.l2.b, s.l3.c, s.l0.d⟩,
   ⟨s.l2.a, s.l3.b, s.l0.c, s.l1.d⟩, ⟨s.l3.a, s.l0.b, s.l1.c, s.l2.d⟩⟩

/-- Turns row `r` by `r` places to the right. -/
def undiagonal (s : Square) : Square :=
  ⟨⟨s.l0.a, s.l3.b, s.l2.c, s.l1.d⟩, ⟨s.l1.a, s.l0.b, s.l3.c, s.l2.d⟩,
   ⟨s.l2.a, s.l1.b, s.l0.c, s.l3.d⟩, ⟨s.l3.a, s.l2.b, s.l1.c, s.l0.d⟩⟩

/-- The words row by row, appended to an array. -/
def push (s : Square) (out : Array UInt64) : Array UInt64 :=
  ((((((((((((((((out.push s.l0.a).push s.l1.a).push s.l2.a).push s.l3.a).push s.l0.b).push
    s.l1.b).push s.l2.b).push s.l3.b).push s.l0.c).push s.l1.c).push s.l2.c).push s.l3.c).push
    s.l0.d).push s.l1.d).push s.l2.d).push s.l3.d)

/-- The sixteen words of an array from the given place on, row by row. -/
def read (words : Array UInt64) (start : Nat) : Square :=
  let word (i : Nat) : UInt64 := words.getD (start + i) 0
  ⟨⟨word 0, word 4, word 8, word 12⟩, ⟨word 1, word 5, word 9, word 13⟩,
   ⟨word 2, word 6, word 10, word 14⟩, ⟨word 3, word 7, word 11, word 15⟩⟩

end Square

namespace Blake2b

/-- Mixes a column with two words of the message. -/
def mix (x y : UInt64) (l : Lane) : Lane :=
  let a := l.a + l.b + x
  let d := rotateRight64 (l.d ^^^ a) 32
  let c := l.c + d
  let b := rotateRight64 (l.b ^^^ c) 24
  let a := a + b + y
  let d := rotateRight64 (d ^^^ a) 16
  let c := c + d
  let b := rotateRight64 (b ^^^ c) 63
  ⟨a, b, c, d⟩

/-- The order in which the words of a block enter each of the ten rounds. -/
def orders : List (List Nat) :=
  [[0, 1, 2, 3, 4, 5, 6, 7, 8, 9, 10, 11, 12, 13, 14, 15],
   [14, 10, 4, 8, 9, 15, 13, 6, 1, 12, 0, 2, 11, 7, 5, 3],
   [11, 8, 12, 0, 5, 2, 15, 13, 10, 14, 3, 6, 7, 1, 9, 4],
   [7, 9, 3, 1, 13, 12, 11, 14, 2, 6, 5, 10, 4, 0, 15, 8],
   [9, 0, 5, 7, 2, 4, 10, 15, 14, 1, 11, 12, 6, 8, 3, 13],
   [2, 12, 6, 10, 0, 11, 8, 3, 4, 13, 7, 5, 15, 14, 1, 9],
   [12, 5, 1, 15, 14, 13, 4, 10, 0, 7, 6, 3, 9, 2, 8, 11],
   [13, 11, 7, 14, 12, 1, 3, 9, 5, 0, 15, 4, 8, 6, 2, 10],
   [6, 15, 14, 9, 11, 3, 0, 8, 12, 2, 13, 7, 1, 4, 10, 5],
   [10, 2, 8, 4, 7, 6, 1, 5, 15, 11, 9, 14, 3, 12, 13, 0]]

/-- The orders of all twelve rounds: after the tenth they start again. -/
def rounds : List (List Nat) := orders ++ orders.take 2

/-- One round: the columns with the first half of the words, the diagonals with the second. -/
def round (block : Array UInt64) (s : Square) (order : List Nat) : Square :=
  let m (i : Nat) : UInt64 := block.getD (order.getD i 0) 0
  let s := Square.diagonal
    ⟨mix (m 0) (m 1) s.l0, mix (m 2) (m 3) s.l1, mix (m 4) (m 5) s.l2, mix (m 6) (m 7) s.l3⟩
  Square.undiagonal
    ⟨mix (m 8) (m 9) s.l0, mix (m 10) (m 11) s.l1, mix (m 12) (m 13) s.l2, mix (m 14) (m 15) s.l3⟩

/-- The words that hashing starts from: those of SHA-512. -/
def initial : Array UInt64 := (sha512.initial.map fun x => UInt64.ofNat x.toNat).toArray

/-- The chaining words after one more block, with the number of bytes hashed so far and whether
the block is the last. -/
def compress (chain : Array UInt64) (block : Bytes) (count : Nat) (last : Bool) : Array UInt64 :=
  let words := ((blocks 8 (Octets.padded 128 block).bytes).map ofWord64).toArray
  let low := UInt64.ofNat count
  let high := UInt64.ofNat (count >>> 64)
  let fixed := (((initial.modify 4 (· ^^^ low)).modify 5 (· ^^^ high)).modify 6
    fun x => if last then ~~~x else x)
  let result := (rounds.foldl (round words) (Square.read (chain ++ fixed) 0)).push #[]
  (Array.range 8).map fun i => chain.getD i 0 ^^^ result.getD i 0 ^^^ result.getD (i + 8) 0

/-- The chaining words after the remaining blocks, of which the last is marked as such. -/
def compressAll (chain : Array UInt64) (count : Nat) : List Bytes → Array UInt64
  | [] => compress chain [] count true
  | [last] => compress chain last (count + last.length) true
  | block :: rest =>
    compressAll (compress chain block (count + block.length) false) (count + block.length) rest

/-- The digest of `size` bytes of a message. -/
def hash (size : Nat) (message : Bytes) : Bytes :=
  let start := initial.modify 0 (· ^^^ UInt64.ofNat (0x01010000 + size))
  ((compressAll start 0 (blocks 128 message)).toList.flatMap word64).take size

end Blake2b

end Relay.Crypto
