import Mathlib.Algebra.BigOperators.Group.List.Basic
import Mathlib.Data.Finset.Max
import Relay.Proofs.IdPool

/-!
# `Relay.Proofs.IdPool.Reference`: a pool is a finite set of ids

`IdSet` is what a pool stands for: a capacity, and the set of the ids below it that are taken. It
takes the same requests as a pool and answers them from the set, without words and bits.
`IdPool.toSet` reads the bits of a pool as such a set. One request to the pool is one request to
that set (`WellFormed.agrees`), and so is a sequence of them (`WellFormed.agrees_all`); the main
statement, `answers_as_set`, starts from a pool all of whose ids are free.

Ids and counts are numbers of any size in an answer. The pool computes them in 32 bits, so an
overflow would show as an answer that differs from that of the set. A request that breaks a rule is
refused with that rule and changes nothing, and the requests after it are answered as well.
-/

set_option autoImplicit false

namespace Relay

/-- The answers to one request after the other, and what is left after the last one. -/
def serveAll {σ ρ α : Type} (respond : σ → ρ → σ × α) (s : σ) : List ρ → σ × List α
  | [] => (s, [])
  | request :: requests =>
    let (next, answer) := respond s request
    let (last, answers) := serveAll respond next requests
    (last, answer :: answers)

namespace IdPool

/-- What a pool can be asked. -/
inductive Request where
  /-- To give out an id. -/
  | take
  /-- To take an id back. -/
  | giveBack (id : UInt32)
  /-- To mark an id as taken or as free. -/
  | mark (id : UInt32) (taken : Bool)
  /-- Whether an id is taken. -/
  | isTaken (id : UInt32)
  /-- How many ids are taken. -/
  | takenCount
deriving DecidableEq

/-- What a request is answered. -/
inductive Answer where
  /-- The id that is given out, if one is. -/
  | given (id : Option Nat)
  /-- It is done. -/
  | done
  /-- Whether the id is taken. -/
  | told (taken : Bool)
  /-- The number of ids that are taken. -/
  | counted (count : Nat)
  /-- A rule would be broken. -/
  | refused (violation : Violation)
deriving DecidableEq

/-- The pool after a change, which is done. A change that breaks a rule is refused, and the pool is
then as it was. -/
def settle (pool : IdPool) : Except Violation IdPool → IdPool × Answer
  | .ok changed => (changed, .done)
  | .error violation => (pool, .refused violation)

/-- The pool after a request, and the answer. -/
def respond (pool : IdPool) : Request → IdPool × Answer
  | .take =>
    match pool.take? with
    | none => (pool, .given none)
    | some (id, rest) => (rest, .given (some id.toNat))
  | .giveBack id => pool.settle (pool.giveBack id)
  | .mark id taken => pool.settle (pool.mark id taken)
  | .isTaken id => (pool, .told (pool.isTaken id))
  | .takenCount => (pool, .counted pool.takenCount.toNat)

end IdPool

/-! ### The set -/

/-- A set of ids below a capacity: those that are taken. -/
structure IdSet where
  /-- The number of ids. -/
  capacity : Nat
  /-- The ids that are taken. -/
  taken : Finset Nat
deriving DecidableEq

namespace IdSet

open IdPool (Request Answer)

/-- The ids that are left. -/
def free (s : IdSet) : Finset Nat := Finset.range s.capacity \ s.taken

/-- The set after a request, and the answer. -/
def respond (s : IdSet) : Request → IdSet × Answer
  | .take =>
    if h : s.free.Nonempty then
      ({ s with taken := insert (s.free.min' h) s.taken }, .given (some (s.free.min' h)))
    else (s, .given none)
  | .giveBack id =>
    if s.capacity ≤ id.toNat then (s, .refused (.idOutOfRange id))
    else if id.toNat ∉ s.taken then (s, .refused (.idReturnedFree id))
    else ({ s with taken := s.taken.erase id.toNat }, .done)
  | .mark id taken =>
    if s.capacity ≤ id.toNat then (s, .refused (.idOutOfRange id))
    else ({ s with
      taken := if taken then insert id.toNat s.taken else s.taken.erase id.toNat }, .done)
  | .isTaken id => (s, .told (decide (id.toNat ∈ s.taken)))
  | .takenCount => (s, .counted s.taken.card)

variable {s : IdSet}

theorem mem_free {n : Nat} : n ∈ s.free ↔ n < s.capacity ∧ n ∉ s.taken := by
  rw [free, Finset.mem_sdiff, Finset.mem_range]

theorem respond_take_of_least {n : Nat} (hlt : n < s.capacity) (hfree : n ∉ s.taken)
    (hbelow : ∀ m < n, m ∈ s.taken) :
    s.respond .take = ({ s with taken := insert n s.taken }, .given (some n)) := by
  have hmem : n ∈ s.free := mem_free.2 ⟨hlt, hfree⟩
  have hsome : s.free.Nonempty := ⟨n, hmem⟩
  have hleast : s.free.min' hsome = n := by
    refine (Finset.min'_eq_iff _ hsome n).2 ⟨hmem, fun m hm => Nat.le_of_not_lt fun hless => ?_⟩
    exact (mem_free.1 hm).2 (hbelow m hless)
  rw [respond, dif_pos hsome, hleast]

theorem respond_take_of_full (hfull : ∀ n < s.capacity, n ∈ s.taken) :
    s.respond .take = (s, .given none) := by
  rw [respond, dif_neg]
  rintro ⟨n, hn⟩
  obtain ⟨hlt, hfree⟩ := mem_free.1 hn
  exact hfree (hfull n hlt)

theorem capacity_respond (s : IdSet) (request : Request) :
    (s.respond request).1.capacity = s.capacity := by
  cases request with
  | take => rw [respond]; split <;> rfl
  | giveBack id =>
    rw [respond]
    split
    · rfl
    · split <;> rfl
  | mark id taken => rw [respond]; split <;> rfl
  | isTaken id => rfl
  | takenCount => rfl

theorem capacity_serveAll (s : IdSet) (requests : List Request) :
    (serveAll respond s requests).1.capacity = s.capacity := by
  induction requests generalizing s with
  | nil => rfl
  | cons request requests ih => exact (ih _).trans (s.capacity_respond request)

/-- If the ids below the `k`-th are taken and `j` are left, these are given out in ascending order,
and then none. -/
theorem serveAll_take (k j : Nat) :
    (serveAll respond ⟨k + j, Finset.range k⟩ (List.replicate (j + 1) .take)).2 =
      (List.range' k j).map (fun id => .given (some id)) ++ [.given none] := by
  induction j generalizing k with
  | zero =>
    have hfull : (⟨k + 0, Finset.range k⟩ : IdSet).respond .take =
        (⟨k, Finset.range k⟩, .given none) :=
      respond_take_of_full fun n hn => Finset.mem_range.2 hn
    simp only [List.replicate_succ, serveAll, hfull]
    rfl
  | succ j ih =>
    have hnext : (⟨k + (j + 1), Finset.range k⟩ : IdSet).respond .take =
        (⟨k + 1 + j, Finset.range (k + 1)⟩, .given (some k)) := by
      rw [respond_take_of_least (n := k) (by simp) (by simp) fun m hm => Finset.mem_range.2 hm,
        Finset.range_add_one, Nat.add_right_comm, Nat.add_assoc]
    rw [List.replicate_succ, serveAll]
    simp only [hnext, ih, List.range'_succ, List.map_cons, List.cons_append]

end IdSet

/-! ### What a pool stands for -/

namespace IdPool

variable {pool rest : IdPool} {id : UInt32}

/-- The set that a pool stands for. -/
def toSet (pool : IdPool) : IdSet := ⟨pool.capacity.toNat, pool.members⟩

theorem toSet_empty (capacity : UInt32) : (empty capacity).toSet = ⟨capacity.toNat, ∅⟩ := by
  rw [toSet, members_empty]
  rfl

theorem WellFormed.toSet_of_mark (hpool : pool.WellFormed) {taken : Bool}
    (h : pool.mark id taken = .ok rest) :
    rest.toSet = { pool.toSet with
      taken := if taken then insert id.toNat pool.toSet.taken
        else pool.toSet.taken.erase id.toNat } := by
  rw [toSet, capacity_mark h, hpool.members_of_mark h]
  rfl

/-- A pool answers a request as its set does, and the two still agree afterwards. -/
def Agrees (pool : IdPool) (request : Request) : Prop :=
  ∃ (next : IdPool) (answer : Answer),
    pool.respond request = (next, answer) ∧
      pool.toSet.respond request = (next.toSet, answer) ∧ next.WellFormed

theorem WellFormed.agrees_take (hpool : pool.WellFormed) : pool.Agrees .take := by
  cases htake : pool.take? with
  | none =>
    refine ⟨pool, .given none, by simp only [respond, htake], ?_, hpool⟩
    apply IdSet.respond_take_of_full
    intro n hn
    -- An id that is not in the set would be free, and then the pool would give one out.
    by_contra hfree
    obtain ⟨id, hid, rfl⟩ := exists_id hn
    have hfree : pool.isTaken id = false :=
      Bool.eq_false_iff.2 fun htaken => hfree ((hpool.isTaken_iff_mem id).1 htaken)
    obtain ⟨least, rest, hgiven⟩ := hpool.exists_take? hid hfree
    rw [htake] at hgiven
    cases hgiven
  | some given =>
    obtain ⟨id, rest⟩ := given
    obtain ⟨hmark, hfree, hbelow⟩ := hpool.of_take? htake
    refine ⟨rest, .given (some id.toNat), by simp only [respond, htake], ?_,
      (hpool.of_mark hmark).1⟩
    rw [hpool.toSet_of_mark hmark, if_pos rfl]
    apply IdSet.respond_take_of_least
    case hlt => exact UInt32.lt_iff_toNat_lt.1 (take?_eq_some htake).1
    case hfree =>
      intro hmem
      rw [(hpool.isTaken_iff_mem id).2 hmem] at hfree
      cases hfree
    case hbelow =>
      intro m hm
      obtain ⟨other, hother, rfl⟩ := exists_id hm
      exact (hpool.isTaken_iff_mem other).1 (hbelow other hother)

theorem WellFormed.agrees_mark (hpool : pool.WellFormed) (id : UInt32) (taken : Bool) :
    pool.Agrees (.mark id taken) := by
  by_cases hid : id ≥ pool.capacity
  · refine ⟨pool, .refused (.idOutOfRange id), ?_, ?_, hpool⟩
    · rw [respond, mark, if_pos hid, settle]
    · exact if_pos (UInt32.le_iff_toNat_le.1 hid)
  · obtain ⟨rest, hmark⟩ : ∃ rest, pool.mark id taken = .ok rest := ⟨_, if_neg hid⟩
    refine ⟨rest, .done, ?_, ?_, (hpool.of_mark hmark).1⟩
    · rw [respond, hmark, settle]
    · rw [hpool.toSet_of_mark hmark]
      exact if_neg fun hle => hid (UInt32.le_iff_toNat_le.2 hle)

theorem WellFormed.agrees_giveBack (hpool : pool.WellFormed) (id : UInt32) :
    pool.Agrees (.giveBack id) := by
  by_cases hid : id ≥ pool.capacity
  · refine ⟨pool, .refused (.idOutOfRange id), ?_, ?_, hpool⟩
    · rw [respond, giveBack, if_pos hid, settle]
    · exact if_pos (UInt32.le_iff_toNat_le.1 hid)
  have hinside : ¬ pool.toSet.capacity ≤ id.toNat :=
    fun hle => hid (UInt32.le_iff_toNat_le.2 hle)
  have htaken := hpool.isTaken_iff_mem id
  by_cases hmem : id.toNat ∈ pool.toSet.taken
  · obtain ⟨rest, hgive, hmark⟩ := exists_giveBack (htaken.2 hmem)
    refine ⟨rest, .done, ?_, ?_, (hpool.of_mark hmark).1⟩
    · rw [respond, hgive, settle]
    · rw [IdSet.respond, if_neg hinside, if_neg (not_not.2 hmem), hpool.toSet_of_mark hmark]
      rfl
  · refine ⟨pool, .refused (.idReturnedFree id), ?_, ?_, hpool⟩
    · have hfree : pool.isTaken id = false := Bool.eq_false_iff.2 fun h => hmem (htaken.1 h)
      rw [respond, giveBack, if_neg hid, hfree, Bool.not_false, if_pos rfl, settle]
    · rw [IdSet.respond, if_neg hinside, if_pos hmem]

/-- One request to a pool is one request to the set that it stands for. -/
theorem WellFormed.agrees (hpool : pool.WellFormed) (request : Request) :
    pool.Agrees request := by
  cases request with
  | take => exact hpool.agrees_take
  | giveBack id => exact hpool.agrees_giveBack id
  | mark id taken => exact hpool.agrees_mark id taken
  | isTaken id =>
    have hsame : pool.isTaken id = decide (id.toNat ∈ pool.toSet.taken) :=
      Bool.eq_iff_iff.2 (by rw [decide_eq_true_iff]; exact hpool.isTaken_iff_mem id)
    exact ⟨pool, .told (pool.isTaken id), rfl, by rw [hsame]; rfl, hpool⟩
  | takenCount =>
    refine ⟨pool, .counted pool.takenCount.toNat, rfl, ?_, hpool⟩
    rw [hpool.toNat_takenCount]
    rfl

/-- A sequence of requests to a pool is the same sequence of requests to the set. -/
theorem WellFormed.agrees_all (hpool : pool.WellFormed) (requests : List Request) :
    ∃ (last : IdPool) (answers : List Answer),
      serveAll respond pool requests = (last, answers) ∧
        serveAll IdSet.respond pool.toSet requests = (last.toSet, answers) ∧
        last.WellFormed := by
  -- Each request leads to a pool that is well formed again, on which the next one can be taken up.
  induction requests generalizing pool with
  | nil => exact ⟨pool, [], rfl, rfl, hpool⟩
  | cons request requests ih =>
    obtain ⟨next, answer, hrespond, hset, hnext⟩ := hpool.agrees request
    obtain ⟨last, answers, hrest, hsets, hlast⟩ := ih hnext
    refine ⟨last, answer :: answers, ?_, ?_, hlast⟩
    · rw [serveAll, hrespond]
      simp only [hrest]
    · rw [serveAll, hset]
      simp only [hsets]

/-! ### Main statement -/

/-- The bits of a pool are the ids of a set below its capacity, and the numbers that are computed
from them are numbers of 32 bits. -/
structure Holds (pool : IdPool) (s : IdSet) : Prop where
  capacity : pool.capacity.toNat = s.capacity
  below : ∀ n ∈ s.taken, n < s.capacity
  /-- There are as many words as the capacity needs. -/
  size : pool.words.size = (s.capacity + 63) / 64
  bits : ∀ w i : Nat, i < 64 →
    (Word.hasBit (pool.words.getD w 0) i ↔ 64 * w + i ∈ s.taken)
  /-- No bit at or above the capacity is set. -/
  clear : ∀ w i : Nat, i < 64 → s.capacity ≤ 64 * w + i →
    Word.hasBit (pool.words.getD w 0) i = false
  /-- The id of the least clear bit of a word does not overflow, whether or not it lies below the
  capacity. -/
  idFits : ∀ (w : Nat) (hw : w < pool.words.size), pool.words[w] ≠ Word.full →
    w * 64 + Word.trailingOnes pool.words[w] < UInt32.size
  /-- The count does not overflow at any word. -/
  countFits : ∀ k : Nat, ((pool.words.toList.take k).map Word.countOnes).sum < UInt32.size

theorem WellFormed.holds (hpool : pool.WellFormed) : pool.Holds pool.toSet where
  capacity := rfl
  below _ := hpool.lt_of_mem
  size := hpool.size
  bits _ _ := hasBit_iff_mem
  clear w i hi hbeyond := by
    rw [Bool.eq_false_iff]
    intro hset
    exact Nat.not_lt.2 hbeyond (hpool.clear w i hi hset)
  idFits w hw hnotFull := by
    rw [Nat.mul_comm]
    exact hpool.place_lt hw (Word.trailingOnes_spec hnotFull).1
  countFits k := by
    have hall := hpool.card_members_lt
    have hsplit := List.sum_take_add_sum_drop (pool.words.toList.map Word.countOnes) k
    rw [sum_countOnes] at hsplit
    rw [List.map_take]
    omega

/-- A pool is a finite set of ids, for every capacity of 32 bits and every sequence of requests: the
answers are those of the set, a broken rule among them, and the bits are those of its members. A
pool that is empty, at first or again, gives out each id below its capacity once, in ascending
order, and then none. -/
theorem answers_as_set (capacity : UInt32) (requests : List Request) :
    ∃ (pool : IdPool) (s : IdSet) (answers : List Answer),
      serveAll respond (empty capacity) requests = (pool, answers) ∧
        serveAll IdSet.respond ⟨capacity.toNat, ∅⟩ requests = (s, answers) ∧
        pool.Holds s ∧
        (s.taken = ∅ →
          (serveAll respond pool (List.replicate (capacity.toNat + 1) .take)).2 =
            (List.range capacity.toNat).map (fun id => .given (some id)) ++ [.given none]) := by
  obtain ⟨pool, answers, hserve, hset, hpool⟩ :=
    (wellFormed_empty capacity).agrees_all requests
  rw [toSet_empty] at hset
  refine ⟨pool, pool.toSet, answers, hserve, hset, hpool.holds, fun hnone => ?_⟩
  obtain ⟨last, given, htakes, hgiven, -⟩ :=
    hpool.agrees_all (List.replicate (capacity.toNat + 1) .take)
  have hcapacity := IdSet.capacity_serveAll ⟨capacity.toNat, ∅⟩ requests
  rw [hset] at hcapacity
  have hempty : pool.toSet = ⟨0 + capacity.toNat, Finset.range 0⟩ := by
    rw [Nat.zero_add, Finset.range_zero, ← hnone]
    exact congrArg (IdSet.mk · _) hcapacity
  rw [hempty] at hgiven
  rw [htakes, List.range_eq_range', ← IdSet.serveAll_take, hgiven]

/-- All that a pool can be asked: ids are given out and given back, one of them in the second word,
one is given back while it is free, and one is beyond the capacity. In the end all are free. -/
def sampleRequests : List Request :=
  [.take, .mark 64 true, .take, .giveBack 0, .giveBack 0, .giveBack 65, .isTaken 64, .isTaken 65,
    .takenCount, .take, .mark 65 true, .mark 64 false, .giveBack 1, .giveBack 0]

/-- A pool of 65 ids needs a second word for the last of them. -/
theorem answers_as_set_two_words :
    ∃ (pool : IdPool) (s : IdSet),
      serveAll respond (empty 65) sampleRequests =
        (pool, [.given (some 0), .done, .given (some 1), .done, .refused (.idReturnedFree 0),
          .refused (.idOutOfRange 65), .told true, .told false, .counted 2, .given (some 0),
          .refused (.idOutOfRange 65), .done, .done, .done]) ∧
      pool.Holds s ∧ s.taken = ∅ ∧
      (serveAll respond pool (List.replicate 66 .take)).2 =
        (List.range 65).map (fun id => .given (some id)) ++ [.given none] := by
  obtain ⟨pool, s, answers, hserve, hset, hholds, htakes⟩ := answers_as_set 65 sampleRequests
  have hanswers : answers = (serveAll respond (empty 65) sampleRequests).2 := by rw [hserve]
  have hnone : (serveAll IdSet.respond ⟨(65 : UInt32).toNat, ∅⟩ sampleRequests).1.taken = ∅ := by
    decide +kernel
  rw [hset] at hnone
  refine ⟨pool, s, ?_, hholds, hnone, htakes hnone⟩
  rw [hserve, hanswers]
  exact congrArg (Prod.mk pool) (by decide +kernel)

end IdPool

end Relay
