import Relay.Crypto.Blake2b

/-!
# `Relay.Crypto.Argon2`: the memory-hard password digest

Argon2 fills a memory of blocks of 1 KiB, each from the block before it and from one elsewhere, and
digests the last column. The memory stands in `lanes` rows, each cut into four slices; a block may
refer to another lane only where that lane has finished the slice. The three variants differ in how
the other block is chosen: by the content of the block before (`dependent`), by a counter
(`independent`), or by a counter in the first half of the first pass and by content afterwards
(`hybrid`).
-/

set_option autoImplicit false

namespace Relay.Crypto.Argon2

/-- How the second source of a block is chosen. -/
inductive Variant where
  /-- By the content of the block before. -/
  | dependent
  /-- By a counter. -/
  | independent
  /-- By a counter in the first half of the first pass, then by content. -/
  | hybrid
deriving DecidableEq

/-- The number that stands for a variant in the digest's input. -/
def Variant.code : Variant → Nat
  | dependent => 0
  | independent => 1
  | hybrid => 2

/-- The revision of the algorithm. -/
inductive Version where
  /-- Later passes replace blocks. -/
  | replacing
  /-- Later passes mix new blocks into the old ones. -/
  | mixing
deriving DecidableEq

/-- The number that stands for a version. -/
def Version.code : Version → Nat
  | replacing => 0x10
  | mixing => 0x13

/-- How much work a digest is. -/
structure Cost where
  /-- The memory in KiB. -/
  memory : Nat
  /-- The number of passes over the memory. -/
  passes : Nat
  /-- The number of rows of the memory. -/
  lanes : Nat
deriving DecidableEq

/-- Why a cost is refused. -/
inductive CostError where
  /-- Less than eight blocks of memory per lane. -/
  | memoryTooLittle
  /-- No pass at all. -/
  | timeTooSmall
  /-- No lane at all. -/
  | threadsTooFew
  /-- More lanes than can be told apart. -/
  | threadsTooMany
deriving DecidableEq

/-- The wording of a refused cost. -/
def CostError.message : CostError → String
  | memoryTooLittle => "memory cost is too small"
  | timeTooSmall => "time cost is too small"
  | threadsTooFew => "not enough threads"
  | threadsTooMany => "too many threads"

/-- The cost of given amounts, if they are within the limits of the algorithm. -/
def Cost.of? (memory passes lanes : Nat) : Except CostError Cost :=
  if memory < 8 ∨ memory < 8 * lanes then .error .memoryTooLittle
  else if passes < 1 then .error .timeTooSmall
  else if lanes < 1 then .error .threadsTooFew
  else if lanes > 0xffffff then .error .threadsTooMany
  else .ok ⟨memory, passes, lanes⟩

/-! ### Blocks -/

/-- A block of 1 KiB, as 128 words. -/
abbrev Block := Array UInt64

/-- The sum of two words and twice the product of their lower halves. -/
def addProduct (x y : UInt64) : UInt64 :=
  x + y + 2 * (x &&& 0xffffffff) * (y &&& 0xffffffff)

/-- Mixes a column. -/
def mix (l : Lane) : Lane :=
  let a := addProduct l.a l.b
  let d := rotateRight64 (l.d ^^^ a) 32
  let c := addProduct l.c d
  let b := rotateRight64 (l.b ^^^ c) 24
  let a := addProduct a b
  let d := rotateRight64 (d ^^^ a) 16
  let c := addProduct c d
  let b := rotateRight64 (b ^^^ c) 63
  ⟨a, b, c, d⟩

/-- Mixes the columns and then the diagonals of a square. -/
def stir (s : Square) : Square :=
  let s := Square.diagonal ⟨mix s.l0, mix s.l1, mix s.l2, mix s.l3⟩
  Square.undiagonal ⟨mix s.l0, mix s.l1, mix s.l2, mix s.l3⟩

namespace Block

/-- A block of zeros. -/
def zero : Block := Array.replicate 128 0

/-- The wordwise exclusive or of two blocks. -/
def xor (a b : Block) : Block := Array.zipWith (· ^^^ ·) a b

/-- Stirs each of the eight rows of sixteen words. -/
def stirRows (b : Block) : Block :=
  (List.range 8).foldl (fun out row => (stir (Square.read b (16 * row))).push out)
    (Array.mkEmpty 128)

/-- The block with rows and columns exchanged, where a row holds eight pairs of words. -/
def transpose (b : Block) : Block :=
  (Array.range 128).map fun i => b.getD (16 * (i % 16 / 2) + 2 * (i / 16) + i % 2) 0

/-- The block that two blocks make: their exclusive or, with its rows and columns stirred, added
to itself. -/
def compress (a b : Block) : Block :=
  let sum := a.xor b
  sum.xor (transpose (stirRows (transpose (stirRows sum))))

/-- The block of 1024 bytes. -/
def ofBytes (bytes : Bytes) : Block := ((blocks 8 bytes).map ofWord64).toArray

/-- The 1024 bytes of a block. -/
def toBytes (b : Block) : Bytes := b.toList.flatMap word64

end Block

/-! ### Digests of any length -/

/-- The first halves of a chain of digests, `count` of them, and then the rest of `size` bytes. -/
def chain : Nat → Nat → Bytes → Bytes
  | 0, size, previous => Blake2b.hash size previous
  | count + 1, size, previous =>
    let next := Blake2b.hash 64 previous
    next.take 32 ++ chain count (size - 32) next

/-- A digest of any number of bytes. -/
def longHash (size : Nat) (message : Bytes) : Bytes :=
  chain ((size + 31) / 32 - 2) size (littleEndian 4 size ++ message)

/-! ### Filling the memory -/

/-- The shape of the memory and what the digest depends on besides the first blocks. -/
structure Layout where
  /-- How references are chosen. -/
  variant : Variant
  /-- Whether later passes replace or mix. -/
  version : Version
  /-- The work to do. -/
  cost : Cost

namespace Layout

/-- The number of blocks of a slice of a lane. -/
def segment (l : Layout) : Nat := l.cost.memory / (4 * l.cost.lanes)

/-- The number of blocks of a lane. -/
def laneLength (l : Layout) : Nat := 4 * l.segment

/-- The number of blocks. -/
def size (l : Layout) : Nat := l.cost.lanes * l.laneLength

end Layout

/-- A stretch of the memory that is filled in one go. -/
structure Segment where
  /-- The pass over the memory. -/
  pass : Nat
  /-- The slice, from zero to three. -/
  slice : Nat
  /-- The lane. -/
  lane : Nat

namespace Segment

/-- Whether references in the segment are chosen by a counter. -/
def isIndependent (l : Layout) (s : Segment) : Bool :=
  match l.variant with
  | .dependent => false
  | .independent => true
  | .hybrid => s.pass = 0 && s.slice < 2

/-- The words that choose the references of a segment: as many blocks of them as are needed. -/
def addresses (l : Layout) (s : Segment) : Array Block :=
  (Array.range ((l.segment + 127) / 128)).map fun k =>
    -- The counter starts at one in every segment.
    let input := [s.pass, s.lane, s.slice, l.size, l.cost.passes, l.variant.code, k + 1].map
      UInt64.ofNat
    Block.zero.compress (Block.zero.compress (input ++ List.replicate 121 0).toArray)

/-- The place of the block that a word refers to, for the block at `index` of the segment. -/
def reference (l : Layout) (s : Segment) (index : Nat) (word : UInt64) : Nat :=
  let low := (word &&& 0xffffffff).toNat
  let high := (word >>> 32).toNat
  -- In the very first slice no other lane has anything to refer to.
  let lane := if s.pass = 0 && s.slice = 0 then s.lane else high % l.cost.lanes
  let finished := if s.pass = 0 then s.slice * l.segment else l.laneLength - l.segment
  -- The block before is not referred to: it goes into the new block anyway.
  let area := if lane = s.lane then finished + index - 1
    else finished - (if index = 0 then 1 else 0)
  -- The square of a random fraction favours the blocks that were filled last.
  let offset := area - 1 - (area * ((low * low) >>> 32)) >>> 32
  let start := if s.pass = 0 || s.slice = 3 then 0 else (s.slice + 1) * l.segment
  lane * l.laneLength + (start + offset) % l.laneLength

/-- Fills the block at `index` of the segment. -/
def fillBlock (l : Layout) (s : Segment) (chosen : Array Block) (memory : Array Block)
    (index : Nat) : Array Block :=
  let column := s.slice * l.segment + index
  let place := s.lane * l.laneLength + column
  let before := memory.getD
    (s.lane * l.laneLength + (column + l.laneLength - 1) % l.laneLength) Block.zero
  let word := if s.isIndependent l then (chosen.getD (index / 128) #[]).getD (index % 128) 0
    else before.getD 0 0
  let next := before.compress (memory.getD (s.reference l index word) Block.zero)
  if s.pass = 0 || l.version = .replacing then memory.setIfInBounds place next
  else memory.modify place next.xor

/-- Fills the segment. The first two blocks of a lane are there from the start. -/
def fill (l : Layout) (memory : Array Block) (s : Segment) : Array Block :=
  let chosen := if s.isIndependent l then s.addresses l else #[]
  let skipped := if s.pass = 0 && s.slice = 0 then 2 else 0
  (List.range' skipped (l.segment - skipped)).foldl (s.fillBlock l chosen) memory

end Segment

/-- All segments in the order of filling. -/
def Layout.segments (l : Layout) : List Segment :=
  (List.range l.cost.passes).flatMap fun pass =>
    (List.range 4).flatMap fun slice =>
      (List.range l.cost.lanes).map fun lane => ⟨pass, slice, lane⟩

/-- A byte string preceded by its length. -/
def counted (bytes : Bytes) : Bytes := littleEndian 4 bytes.length ++ bytes

/-- The digest of `size` bytes of a password under a salt; `data` is hashed along with them. -/
def hash (l : Layout) (password salt data : Bytes) (size : Nat) : Bytes :=
  let numbers := [l.cost.lanes, size, l.cost.memory, l.cost.passes, l.version.code, l.variant.code]
  -- The empty string in the middle is the secret, which is not used here.
  let start := Blake2b.hash 64 (numbers.flatMap (littleEndian 4) ++ counted password ++
    counted salt ++ counted [] ++ counted data)
  let first (lane column : Nat) : Block :=
    Block.ofBytes (longHash 1024 (start ++ littleEndian 4 column ++ littleEndian 4 lane))
  let memory := (List.range l.cost.lanes).foldl
    (fun m lane => (m.setIfInBounds (lane * l.laneLength) (first lane 0)).setIfInBounds
      (lane * l.laneLength + 1) (first lane 1))
    (Array.replicate l.size Block.zero)
  let filled := l.segments.foldl (Segment.fill l) memory
  let last := (List.range l.cost.lanes).foldl
    (fun acc lane => acc.xor (filled.getD (lane * l.laneLength + l.laneLength - 1) Block.zero))
    Block.zero
  longHash size last.toBytes

end Relay.Crypto.Argon2
