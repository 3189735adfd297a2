import Relay.Violation

/-!
# `Relay.IdPool`: a pool of ids

A pool hands out the ids below its capacity, always the least free one. Which ids are taken is kept
in a bitset: bit `i` of word `w` stands for the id `64 * w + i`.
-/

set_option autoImplicit false

namespace Relay

namespace Word

/-- Whether a bit of a word is set. -/
def hasBit (word : UInt64) (i : Nat) : Bool := word.toBitVec.getLsbD i

/-- The word with one bit set, for `i` below 64. -/
def bit (i : Nat) : UInt64 := 1 <<< UInt64.ofNat i

/-- The number of set bits below the least clear one, 64 if all are set. -/
def trailingOnes (word : UInt64) : Nat :=
  ((List.range 64).find? fun i => !hasBit word i).getD 64

/-- The number of set bits. -/
def countOnes (word : UInt64) : Nat := (List.range 64).countP (hasBit word)

/-- The word whose bits are all set. -/
def full : UInt64 := 0xffffffffffffffff

end Word

/-- A pool of the ids below a capacity. -/
structure IdPool where
  /-- The number of ids. -/
  capacity : UInt32
  /-- Which ids are taken. -/
  words : Array UInt64
deriving DecidableEq

namespace IdPool

/-- A pool all of whose ids are free. -/
def empty (capacity : UInt32) : IdPool :=
  ⟨capacity, Array.replicate ((capacity.toNat + 63) / 64) 0⟩

/-- The word that holds the bit of an id. -/
def wordOf (id : UInt32) : Nat := id.toNat / 64

/-- The bit of an id in its word. -/
def maskOf (id : UInt32) : UInt64 := Word.bit (id.toNat % 64)

/-- The least free id and the pool without it, if an id is free. -/
def take? (pool : IdPool) : Option (UInt32 × IdPool) :=
  match pool.words.findIdx? (· != Word.full) with
  | none => none
  | some w =>
    let bit := Word.trailingOnes (pool.words.getD w 0)
    let id := UInt32.ofNat w * 64 + UInt32.ofNat bit
    if id ≥ pool.capacity then none
    else some (id, { pool with words := pool.words.modify w (· ||| Word.bit bit) })

/-- Whether an id is taken; an id that is not of the pool is not. -/
def isTaken (pool : IdPool) (id : UInt32) : Bool :=
  if id ≥ pool.capacity then false
  else pool.words.getD (wordOf id) 0 &&& maskOf id != 0

/-- The pool with an id marked as taken or as free, whatever it was. -/
def mark (pool : IdPool) (id : UInt32) (taken : Bool) : Except Violation IdPool :=
  if id ≥ pool.capacity then .error (.idOutOfRange id)
  else
    .ok { pool with words := pool.words.modify (wordOf id) fun word =>
      if taken then word ||| maskOf id else word &&& ~~~maskOf id }

/-- The pool with a taken id given back. -/
def giveBack (pool : IdPool) (id : UInt32) : Except Violation IdPool :=
  if id ≥ pool.capacity then .error (.idOutOfRange id)
  else if !pool.isTaken id then .error (.idReturnedFree id)
  else pool.mark id false

/-- The number of ids that are taken. -/
def takenCount (pool : IdPool) : UInt32 :=
  pool.words.foldl (fun count word => count + UInt32.ofNat (Word.countOnes word)) 0

/-! ### Which ids a pool gives out -/

theorem capacity_mark {pool marked : IdPool} {id : UInt32} {taken : Bool}
    (h : pool.mark id taken = .ok marked) : marked.capacity = pool.capacity := by
  unfold mark at h
  split at h
  · cases h
  · cases h
    rfl

/-- An id that a pool gives out lies below its capacity, and the capacity stays. -/
theorem take?_eq_some {pool rest : IdPool} {id : UInt32} (h : pool.take? = some (id, rest)) :
    id < pool.capacity ∧ rest.capacity = pool.capacity := by
  unfold take? at h
  split at h
  · cases h
  · dsimp only at h
    split at h
    · cases h
    · rename_i hlt
      cases h
      exact ⟨UInt32.not_le.1 hlt, rfl⟩

end IdPool

end Relay
