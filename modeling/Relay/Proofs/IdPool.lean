import Mathlib.Algebra.Ring.Nat
import Mathlib.Data.Finset.Card
import Relay.IdPool

/-!
# `Relay.Proofs.IdPool`: which ids a pool holds as taken

A pool is a bitset, and it is used as a set of ids. `IdPool.isTaken` is the view on that set: what
`take?`, `mark` and `giveBack` do is said by one lemma each about every id.

The bits of a word are told apart by `Word.hasBit`, which turns each operation on words into one on
truth values. A pool that is well formed has as many words as its capacity needs, and no bit beyond
the capacity is set. That is why the id of the least clear bit fits into 32 bits, and why the set
bits, of which `IdPool.members` is the set, are no more than the capacity and can be counted in 32
bits (`toNat_takenCount`).
-/

set_option autoImplicit false

namespace Relay

/-! ### The bits of a word -/

namespace Word

@[simp] theorem hasBit_zero (i : Nat) : hasBit 0 i = false := by
  simp [hasBit]

@[simp] theorem hasBit_or (a b : UInt64) (i : Nat) :
    hasBit (a ||| b) i = (hasBit a i || hasBit b i) := by
  simp [hasBit]

@[simp] theorem hasBit_and (a b : UInt64) (i : Nat) :
    hasBit (a &&& b) i = (hasBit a i && hasBit b i) := by
  simp [hasBit]

theorem hasBit_not (a : UInt64) {i : Nat} (hi : i < 64) : hasBit (~~~a) i = !hasBit a i := by
  simp [hasBit, hi]

theorem hasBit_bit {i : Nat} (hi : i < 64) (j : Nat) :
    hasBit (bit i) j = decide (j = i) := by
  simp only [hasBit, bit, UInt64.toBitVec_shiftLeft, BitVec.shiftLeft_eq']
  have hshift : ((UInt64.ofNat i).toBitVec % 64).toNat = i := by
    rw [BitVec.toNat_umod, UInt64.toBitVec_ofNat', BitVec.toNat_ofNat]
    show i % 2 ^ 64 % 64 = i
    omega
  rw [hshift, BitVec.getLsbD_shiftLeft]
  have hone : (1 : UInt64).toBitVec.getLsbD (j - i) = decide (j - i = 0) := by simp
  rw [hone, Bool.eq_iff_iff]
  simp only [Bool.and_eq_true, Bool.not_eq_true', decide_eq_true_eq, decide_eq_false_iff_not]
  omega

/-- A word is determined by its bits. -/
theorem eq_of_hasBit {a b : UInt64} (h : ∀ i < 64, hasBit a i = hasBit b i) : a = b := by
  apply UInt64.toBitVec_inj.1
  apply BitVec.eq_of_getLsbD_eq
  exact h

theorem and_bit_ne_zero (word : UInt64) {i : Nat} (hi : i < 64) :
    (word &&& bit i != 0) = hasBit word i := by
  have hset : hasBit (word &&& bit i) i = hasBit word i := by
    rw [hasBit_and, hasBit_bit hi i, decide_eq_true rfl, Bool.and_true]
  cases hword : hasBit word i with
  | true =>
    rw [bne_iff_ne]
    intro hzero
    rw [hzero, hasBit_zero, hword] at hset
    cases hset
  | false =>
    have hzero : word &&& bit i = 0 := by
      apply eq_of_hasBit
      intro j hj
      rw [hasBit_and, hasBit_bit hi j, hasBit_zero]
      by_cases hji : j = i
      · rw [hji, hword, Bool.false_and]
      · rw [decide_eq_false hji, Bool.and_false]
    rw [hzero, bne_self_eq_false]

theorem hasBit_full : ∀ i < 64, hasBit full i := by decide

/-- The least clear bit of a word, if there is one. -/
theorem trailingOnes_spec {word : UInt64} (h : word ≠ full) :
    trailingOnes word < 64 ∧ hasBit word (trailingOnes word) = false ∧
      ∀ i < trailingOnes word, hasBit word i := by
  unfold trailingOnes
  cases hfind : (List.range 64).find? fun i => !hasBit word i with
  | none =>
    refine absurd (eq_of_hasBit fun i hi => ?_) h
    have hset := List.find?_eq_none.1 hfind i (List.mem_range.2 hi)
    rw [hasBit_full i hi]
    simpa using hset
  | some i =>
    obtain ⟨hclear, hmem, hbelow⟩ := List.find?_range_eq_some.1 hfind
    refine ⟨List.mem_range.1 hmem, by simpa using hclear, fun j hj => ?_⟩
    simpa using hbelow j hj

end Word

namespace IdPool

/-! ### Pools that are well formed -/

/-- A pool has as many words as its capacity needs, and no bit beyond the capacity is set. -/
structure WellFormed (pool : IdPool) : Prop where
  size : pool.words.size = (pool.capacity.toNat + 63) / 64
  clear : ∀ w i : Nat, i < 64 → Word.hasBit (pool.words.getD w 0) i →
    64 * w + i < pool.capacity.toNat

variable {pool rest : IdPool} {id other : UInt32}

theorem getD_modify (words : Array UInt64) (f : UInt64 → UInt64) {w : Nat} (hw : w < words.size)
    (v : Nat) :
    (words.modify w f).getD v 0 = if v = w then f (words.getD w 0) else words.getD v 0 := by
  simp only [Array.getD_eq_getD_getElem?, Array.getElem?_modify]
  by_cases hv : w = v
  · rw [if_pos hv, if_pos hv.symm, ← hv, Array.getElem?_eq_getElem hw]
    rfl
  · rw [if_neg hv, if_neg (Ne.symm hv)]

theorem WellFormed.wordOf_lt (hpool : pool.WellFormed) (hid : id < pool.capacity) :
    wordOf id < pool.words.size := by
  have hid : id.toNat < pool.capacity.toNat := UInt32.lt_iff_toNat_lt.1 hid
  rw [hpool.size, wordOf]
  omega

/-- Whether an id is taken is a matter of its bit alone. -/
theorem WellFormed.isTaken_eq (hpool : pool.WellFormed) (id : UInt32) :
    pool.isTaken id = Word.hasBit (pool.words.getD (wordOf id) 0) (id.toNat % 64) := by
  have hbit : id.toNat % 64 < 64 := Nat.mod_lt _ (by decide)
  unfold isTaken maskOf
  rw [Word.and_bit_ne_zero _ hbit]
  split
  · rename_i hbeyond
    cases hset : Word.hasBit (pool.words.getD (wordOf id) 0) (id.toNat % 64) with
    | false => rfl
    | true =>
      have hlt := hpool.clear (wordOf id) (id.toNat % 64) hbit hset
      have hge : pool.capacity.toNat ≤ id.toNat := UInt32.le_iff_toNat_le.1 hbeyond
      rw [wordOf] at hlt
      omega
  · rfl

theorem lt_of_isTaken (h : pool.isTaken id) : id < pool.capacity := by
  unfold isTaken at h
  split at h
  · cases h
  · rename_i hlt
    exact UInt32.not_le.1 hlt

/-! ### At first -/

theorem getD_empty (capacity : UInt32) (w : Nat) : (empty capacity).words.getD w 0 = 0 := by
  simp only [empty, Array.getD_eq_getD_getElem?, Array.getElem?_replicate]
  split <;> rfl

theorem wellFormed_empty (capacity : UInt32) : (empty capacity).WellFormed where
  size := Array.size_replicate
  clear w i _ h := by
    rw [getD_empty, Word.hasBit_zero] at h
    cases h

/-- No id of a fresh pool is taken. -/
theorem isTaken_empty (capacity id : UInt32) : (empty capacity).isTaken id = false := by
  rw [(wellFormed_empty capacity).isTaken_eq, getD_empty, Word.hasBit_zero]

/-! ### Marking, taking and giving back -/

theorem lt_of_mark {taken : Bool} (h : pool.mark id taken = .ok rest) : id < pool.capacity := by
  unfold mark at h
  split at h
  · cases h
  · rename_i hid
    exact UInt32.not_le.1 hid

/-- Marking an id gives one bit the value that is asked for, and leaves all others as they were. -/
theorem WellFormed.hasBit_of_mark (hpool : pool.WellFormed) {taken : Bool}
    (h : pool.mark id taken = .ok rest) :
    rest.words.size = pool.words.size ∧ ∀ w i : Nat, i < 64 →
      Word.hasBit (rest.words.getD w 0) i =
        if w = wordOf id ∧ i = id.toNat % 64 then taken
        else Word.hasBit (pool.words.getD w 0) i := by
  have hbit : id.toNat % 64 < 64 := Nat.mod_lt _ (by decide)
  have hword := hpool.wordOf_lt (lt_of_mark h)
  unfold mark at h
  split at h
  · cases h
  · obtain rfl := Except.ok.inj h
    refine ⟨Array.size_modify .., fun w i hi => ?_⟩
    rw [getD_modify _ _ hword]
    by_cases hw : w = wordOf id
    · by_cases hthis : i = id.toNat % 64
      · cases taken <;> simp [hw, hthis, maskOf, Word.hasBit_not, Word.hasBit_bit hbit, hbit]
      · cases taken <;> simp [hw, hthis, maskOf, Word.hasBit_not, Word.hasBit_bit hbit, hi]
    · simp [hw]

/-- Marking an id says of this id what is asked for, and of every other what was said before. -/
theorem WellFormed.of_mark (hpool : pool.WellFormed) {taken : Bool}
    (h : pool.mark id taken = .ok rest) :
    rest.WellFormed ∧
      ∀ other, rest.isTaken other = if other = id then taken else pool.isTaken other := by
  obtain ⟨hsize, hset⟩ := hpool.hasBit_of_mark h
  have hcapacity := capacity_mark h
  have hrest : rest.WellFormed := by
    constructor
    · rw [hsize, hcapacity, hpool.size]
    · intro w i hi hbit
      rw [hset w i hi] at hbit
      rw [hcapacity]
      split at hbit
      · rename_i hthis
        have hlt : id.toNat < pool.capacity.toNat := UInt32.lt_iff_toNat_lt.1 (lt_of_mark h)
        rw [hthis.1, hthis.2, wordOf]
        omega
      · exact hpool.clear w i hi hbit
  refine ⟨hrest, fun other => ?_⟩
  rw [hrest.isTaken_eq, hpool.isTaken_eq other, hset _ _ (Nat.mod_lt _ (by decide))]
  have hsame : (wordOf other = wordOf id ∧ other.toNat % 64 = id.toNat % 64) ↔ other = id := by
    rw [← UInt32.toNat_inj, wordOf, wordOf]
    omega
  simp only [hsame]

/-- There are at most `2 ^ 26` words, so the place of each of their bits is a number of 32 bits. -/
theorem WellFormed.place_lt (hpool : pool.WellFormed) {w i : Nat} (hw : w < pool.words.size)
    (hi : i < 64) : 64 * w + i < UInt32.size := by
  have hcapacity := pool.capacity.toNat_lt
  have hsize := hpool.size
  simp only [UInt32.size]
  omega

/-- Where the first word is that is not full, its least clear bit is that of the least free id. It is
a number of 32 bits even if it lies beyond the capacity. -/
theorem WellFormed.least_free (hpool : pool.WellFormed) {w : Nat}
    (hfind : pool.words.findIdx? (· != Word.full) = some w) :
    let id := UInt32.ofNat w * 64 + UInt32.ofNat (Word.trailingOnes (pool.words.getD w 0))
    wordOf id = w ∧ id.toNat % 64 = Word.trailingOnes (pool.words.getD w 0) ∧
      pool.isTaken id = false ∧ ∀ other < id, pool.isTaken other := by
  obtain ⟨hw, hnotFull, hfull⟩ := Array.findIdx?_eq_some_iff_getElem.1 hfind
  have hword : pool.words.getD w 0 = pool.words[w] := (Array.getElem_eq_getD 0).symm
  have hnotFull : pool.words.getD w 0 ≠ Word.full := by
    rw [hword]
    simpa using hnotFull
  obtain ⟨hlt, hclear, hbelow⟩ := Word.trailingOnes_spec hnotFull
  generalize hbit : Word.trailingOnes (pool.words.getD w 0) = bit at hlt hclear hbelow
  intro id
  have hid : id.toNat = 64 * w + bit := by
    have hfits := hpool.place_lt hw hlt
    simp only [id, UInt32.toNat_add, UInt32.toNat_mul, UInt32.toNat_ofNat', UInt32.reduceToNat,
      UInt32.size] at hfits ⊢
    omega
  have hwordOf : wordOf id = w := by
    rw [wordOf, hid]
    omega
  have hmod : id.toNat % 64 = bit := by
    rw [hid]
    omega
  refine ⟨hwordOf, hmod, ?_, fun other hother => ?_⟩
  · rw [hpool.isTaken_eq, hwordOf, hmod, hclear]
  · have hother : other.toNat < 64 * w + bit := hid ▸ UInt32.lt_iff_toNat_lt.1 hother
    rw [hpool.isTaken_eq]
    by_cases hsame : wordOf other = w
    · rw [hsame]
      rw [wordOf] at hsame
      exact hbelow _ (by omega)
    · -- In the words before that one every bit is set.
      have hv : wordOf other < w := by
        rw [wordOf] at hsame ⊢
        omega
      have hall := hfull (wordOf other) hv
      have hget : pool.words.getD (wordOf other) 0 = Word.full := by
        simp only [Array.getD_eq_getD_getElem?,
          Array.getElem?_eq_getElem (Nat.lt_trans hv hw), Option.getD_some]
        simpa using hall
      rw [hget]
      exact Word.hasBit_full _ (Nat.mod_lt _ (by decide))

/-- An id that a pool gives out was free, every id below it was taken, and the rest of the pool is
the pool with the id marked as taken. -/
theorem WellFormed.of_take? (hpool : pool.WellFormed) (h : pool.take? = some (id, rest)) :
    pool.mark id true = .ok rest ∧ pool.isTaken id = false ∧ ∀ other < id, pool.isTaken other := by
  unfold take? at h
  split at h
  · cases h
  · rename_i w hfind
    obtain ⟨hwordOf, hmod, hfree, hbelow⟩ := hpool.least_free hfind
    dsimp only at h
    split at h
    · cases h
    · rename_i hinside
      obtain ⟨rfl, rfl⟩ := Prod.mk.inj (Option.some.inj h)
      refine ⟨?_, hfree, hbelow⟩
      simp only [mark, maskOf, if_neg hinside, hwordOf, hmod, if_true]

/-- As long as an id is free, a pool gives one out. -/
theorem WellFormed.exists_take? (hpool : pool.WellFormed) (hid : id < pool.capacity)
    (hfree : pool.isTaken id = false) : ∃ least rest, pool.take? = some (least, rest) := by
  unfold take?
  cases hfind : pool.words.findIdx? (· != Word.full) with
  | none =>
    -- All words are full, that of the id among them.
    have hw := hpool.wordOf_lt hid
    have hall : pool.words[wordOf id] = Word.full := by
      simpa using Array.findIdx?_eq_none_iff.1 hfind _ (Array.getElem_mem hw)
    have hget : pool.words.getD (wordOf id) 0 = Word.full := by
      rw [Array.getD_eq_getD_getElem?, Array.getElem?_eq_getElem hw, Option.getD_some, hall]
    rw [hpool.isTaken_eq, hget, Word.hasBit_full _ (Nat.mod_lt _ (by decide))] at hfree
    cases hfree
  | some w =>
    obtain ⟨-, -, -, hbelow⟩ := hpool.least_free hfind
    dsimp only at hbelow ⊢
    split
    · rename_i hbeyond
      -- The least free id would lie beyond one that is free.
      rw [hbelow id (UInt32.lt_of_lt_of_le hid hbeyond)] at hfree
      cases hfree
    · exact ⟨_, _, rfl⟩

/-- An id that is taken can be given back. -/
theorem exists_giveBack (htaken : pool.isTaken id) :
    ∃ rest, pool.giveBack id = .ok rest ∧ pool.mark id false = .ok rest := by
  have hid : ¬ id ≥ pool.capacity := UInt32.not_le.2 (lt_of_isTaken htaken)
  refine ⟨_, ?_, by rw [mark, if_neg hid]⟩
  rw [giveBack, if_neg hid, htaken, if_neg (by decide), mark, if_neg hid]

/-! ### The set of the taken ids -/

/-- Every number below that of an id is that of an id. -/
theorem exists_id {n : Nat} (hn : n < id.toNat) : ∃ below < id, below.toNat = n := by
  have hsize : (UInt32.ofNat n).toNat = n :=
    UInt32.toNat_ofNat_of_lt' (Nat.lt_trans hn id.toNat_lt)
  exact ⟨.ofNat n, UInt32.lt_iff_toNat_lt.2 (hsize.symm ▸ hn), hsize⟩

/-- The ids whose bits are set, as numbers. -/
def members (pool : IdPool) : Finset Nat :=
  (Finset.range (64 * pool.words.size)).filter fun n =>
    Word.hasBit (pool.words.getD (n / 64) 0) (n % 64)

theorem mem_members {n : Nat} :
    n ∈ pool.members ↔ Word.hasBit (pool.words.getD (n / 64) 0) (n % 64) := by
  rw [members, Finset.mem_filter, Finset.mem_range, and_iff_right_iff_imp]
  intro hset
  by_contra hout
  have hsize : pool.words.size ≤ n / 64 := by omega
  rw [Array.getD_eq_getD_getElem?, Array.getElem?_eq_none hsize, Option.getD_none,
    Word.hasBit_zero] at hset
  cases hset

theorem hasBit_iff_mem {w i : Nat} (hi : i < 64) :
    Word.hasBit (pool.words.getD w 0) i ↔ 64 * w + i ∈ pool.members := by
  rw [mem_members, show (64 * w + i) / 64 = w by omega, show (64 * w + i) % 64 = i by omega]

theorem members_empty (capacity : UInt32) : (empty capacity).members = ∅ := by
  apply Finset.eq_empty_of_forall_notMem
  intro n hn
  rw [mem_members, getD_empty, Word.hasBit_zero] at hn
  cases hn

theorem WellFormed.isTaken_iff_mem (hpool : pool.WellFormed) (id : UInt32) :
    pool.isTaken id ↔ id.toNat ∈ pool.members := by
  rw [hpool.isTaken_eq, mem_members, wordOf]

theorem WellFormed.lt_of_mem (hpool : pool.WellFormed) {n : Nat} (hn : n ∈ pool.members) :
    n < pool.capacity.toNat := by
  have hlt := hpool.clear (n / 64) (n % 64) (Nat.mod_lt _ (by decide)) (mem_members.1 hn)
  omega

/-- Marking an id puts it into the set or takes it out. -/
theorem WellFormed.members_of_mark (hpool : pool.WellFormed) {taken : Bool}
    (h : pool.mark id taken = .ok rest) :
    rest.members =
      if taken then insert id.toNat pool.members else pool.members.erase id.toNat := by
  obtain ⟨-, hset⟩ := hpool.hasBit_of_mark h
  ext n
  have hsame : n / 64 = wordOf id ∧ n % 64 = id.toNat % 64 ↔ n = id.toNat := by
    rw [wordOf]
    omega
  rw [mem_members, hset _ _ (Nat.mod_lt _ (by decide)), if_congr hsame rfl rfl]
  cases taken <;> by_cases hn : n = id.toNat <;> simp [hn, mem_members]

/-! ### Counting -/

/-- The set bits of the first words are those of the ids that belong to these words. -/
theorem sum_countOnes_take {k : Nat} (hk : k ≤ pool.words.size) :
    ((pool.words.toList.take k).map Word.countOnes).sum =
      (List.range (64 * k)).countP fun n =>
        Word.hasBit (pool.words.getD (n / 64) 0) (n % 64) := by
  induction k with
  | zero => rfl
  | succ k ih =>
    have hword : k < pool.words.toList.length := hk
    have hget : pool.words.getD k 0 = pool.words.toList[k] := (Array.getElem_eq_getD 0).symm
    rw [← List.take_concat_get' _ _ hword, List.map_append, List.sum_append, ih (by omega),
      Nat.mul_succ, List.range_add, List.countP_append, List.countP_map, List.map_singleton,
      List.sum_singleton, Word.countOnes]
    congr 1
    apply List.countP_congr
    intro i hi
    have hi := List.mem_range.1 hi
    rw [Function.comp_apply, show (64 * k + i) / 64 = k by omega,
      show (64 * k + i) % 64 = i by omega, hget]

theorem sum_countOnes (pool : IdPool) :
    (pool.words.toList.map Word.countOnes).sum = pool.members.card := by
  have hall := sum_countOnes_take (Nat.le_refl pool.words.size)
  rw [List.take_of_length_le (Nat.le_of_eq Array.length_toList)] at hall
  rw [hall, members, Finset.card_def, Finset.filter_val, ← Multiset.countP_eq_card_filter,
    Finset.range_val, Multiset.range, Multiset.coe_countP]
  simp only [Bool.decide_eq_true]

/-- No more ids are taken than there are. -/
theorem WellFormed.card_members_le (hpool : pool.WellFormed) :
    pool.members.card ≤ pool.capacity.toNat := by
  rw [← Finset.card_range pool.capacity.toNat]
  exact Finset.card_le_card fun n hn => Finset.mem_range.2 (hpool.lt_of_mem hn)

theorem WellFormed.card_members_lt (hpool : pool.WellFormed) :
    pool.members.card < UInt32.size :=
  Nat.lt_of_le_of_lt hpool.card_members_le pool.capacity.toNat_lt

/-- As long as the sum is a number of 32 bits, so is every sum on the way. -/
theorem toNat_foldl_countOnes (words : List UInt64) (start : UInt32)
    (h : start.toNat + (words.map Word.countOnes).sum < UInt32.size) :
    (words.foldl (fun count word => count + UInt32.ofNat (Word.countOnes word)) start).toNat =
      start.toNat + (words.map Word.countOnes).sum := by
  induction words generalizing start with
  | nil => rfl
  | cons word words ih =>
    rw [List.map_cons, List.sum_cons] at h ⊢
    have hnext : (start + UInt32.ofNat (Word.countOnes word)).toNat =
        start.toNat + Word.countOnes word := by
      rw [UInt32.toNat_add, UInt32.toNat_ofNat']
      simp only [UInt32.size] at h
      omega
    rw [List.foldl_cons, ih _ (by omega), hnext, Nat.add_assoc]

/-- The count of a pool is the number of ids that are taken. -/
theorem WellFormed.toNat_takenCount (hpool : pool.WellFormed) :
    pool.takenCount.toNat = pool.members.card := by
  have hfits := hpool.card_members_lt
  rw [← sum_countOnes] at hfits ⊢
  have hfold := toNat_foldl_countOnes pool.words.toList 0
  rw [UInt32.toNat_zero, Nat.zero_add] at hfold
  rw [takenCount, ← Array.foldl_toList, hfold hfits]

/-- A pool of which no id is taken counts none. -/
theorem WellFormed.takenCount_eq_zero (hpool : pool.WellFormed)
    (hfree : ∀ id, pool.isTaken id = false) : pool.takenCount = 0 := by
  have hnone : pool.members = ∅ := by
    apply Finset.eq_empty_of_forall_notMem
    intro n hn
    obtain ⟨id, -, rfl⟩ := exists_id (hpool.lt_of_mem hn)
    rw [← hpool.isTaken_iff_mem, hfree] at hn
    cases hn
  rw [← UInt32.toNat_inj, hpool.toNat_takenCount, hnone, Finset.card_empty, UInt32.toNat_zero]

end IdPool

end Relay
