import Relay.Bytes

/-!
# `Relay.Table`: finite maps from 32-bit ids

Connections, sessions and queues are found by id. A `Table` holds one entry per id, in the order in
which the ids came in; that no id stands twice is part of the type. Its view is `get?`: every
operation has one lemma that says what it does to every look-up.
-/

set_option autoImplicit false

namespace Relay

/-- A finite map from ids. -/
structure Table (α : Type) where
  /-- The entries, oldest first. -/
  entries : List (UInt32 × α)
  /-- No id stands twice. -/
  keys_nodup : (entries.map Prod.fst).Nodup
deriving DecidableEq

namespace Table

variable {α β : Type}

/-- The table without entries. -/
def empty : Table α := ⟨[], List.nodup_nil⟩

/-- The value of an id. -/
def get? (t : Table α) (id : UInt32) : Option α :=
  (t.entries.find? fun e => e.1 == id).map Prod.snd

/-- Whether an id has a value. -/
def contains (t : Table α) (id : UInt32) : Bool := (t.get? id).isSome

/-- The ids, oldest first. -/
def keys (t : Table α) : List UInt32 := t.entries.map Prod.fst

/-- The number of entries. -/
def size (t : Table α) : Nat := t.entries.length

/-- The table without an id. -/
def erase (t : Table α) (id : UInt32) : Table α :=
  ⟨t.entries.filter fun e => e.1 != id,
    t.keys_nodup.sublist (List.filter_sublist.map Prod.fst)⟩

/-- The table with a new value for an id, in the last place. -/
def insert (t : Table α) (id : UInt32) (value : α) : Table α :=
  ⟨(t.erase id).entries ++ [(id, value)], by
    have hid : id ∉ (t.erase id).entries.map Prod.fst := by
      simp [erase]
    rw [List.map_append, List.nodup_append]
    refine ⟨(t.erase id).keys_nodup, by simp, ?_⟩
    intro a ha b hb
    obtain rfl : b = id := by simpa using hb
    exact fun h => hid (h ▸ ha)⟩

/-- The table with the value of an id changed in its place, if it has one. -/
def modify (t : Table α) (id : UInt32) (f : α → α) : Table α :=
  ⟨t.entries.map fun e => if e.1 == id then (e.1, f e.2) else e, by
    have h : (t.entries.map fun e => if e.1 == id then (e.1, f e.2) else e).map Prod.fst =
        t.entries.map Prod.fst := by
      rw [List.map_map]
      apply List.map_congr_left
      intro e _
      simp only [Function.comp_apply]
      split <;> rfl
    rw [h]
    exact t.keys_nodup⟩

/-! ### What the operations do to a look-up -/

@[simp] theorem get?_empty (id : UInt32) : (empty : Table α).get? id = none := rfl

theorem get?_erase (t : Table α) (id other : UInt32) :
    (t.erase id).get? other = if other = id then none else t.get? other := by
  obtain ⟨entries, hn⟩ := t
  simp only [get?, erase]
  clear hn
  induction entries with
  | nil => simp
  | cons e rest ih =>
    by_cases he : e.1 = id
    · by_cases ho : other = id
      · simp [ho]
      · have hne : ¬ id = other := fun h => ho h.symm
        simpa [he, ho, hne] using ih
    · by_cases ho : e.1 = other
      · have hoi : ¬ other = id := fun h => he (ho.trans h)
        simp [ho, hoi]
      · simpa [he, ho] using ih

theorem get?_insert (t : Table α) (id other : UInt32) (value : α) :
    (t.insert id value).get? other = if other = id then some value else t.get? other := by
  have happ : (t.insert id value).get? other =
      ((t.erase id).get? other).or (if id = other then some value else none) := by
    simp only [get?, insert, List.find?_append]
    cases List.find? (fun e => e.1 == other) (t.erase id).entries with
    | some e => simp
    | none => by_cases h : id = other <;> simp [h]
  rw [happ, get?_erase]
  by_cases h : other = id
  · simp [h]
  · have h' : ¬ id = other := fun e => h e.symm
    simp [h, h']

theorem get?_modify (t : Table α) (id other : UInt32) (f : α → α) :
    (t.modify id f).get? other = if other = id then (t.get? id).map f else t.get? other := by
  obtain ⟨entries, hn⟩ := t
  simp only [get?, modify]
  clear hn
  induction entries with
  | nil => simp
  | cons e rest ih =>
    by_cases he : e.1 = id
    · by_cases ho : other = id
      · simp [he, ho]
      · have hne : ¬ id = other := fun h => ho h.symm
        simpa [List.find?_cons, he, ho, hne] using ih
    · by_cases ho : e.1 = other
      · have hoi : ¬ other = id := fun h => he (ho.trans h)
        simp [ho, hoi]
      · simpa [List.find?_cons, he, ho] using ih

/-- What an id was changed to does not matter once it is taken out. -/
theorem erase_modify (t : Table α) (id : UInt32) (f : α → α) :
    (t.modify id f).erase id = t.erase id := by
  obtain ⟨entries, hn⟩ := t
  simp only [erase, modify, Table.mk.injEq]
  clear hn
  induction entries with
  | nil => rfl
  | cons e rest ih =>
    by_cases he : e.1 = id
    · simpa [he] using ih
    · simpa [he] using ih

/-- An id that has no value need not be taken out. -/
theorem erase_of_not_contains {t : Table α} {id : UInt32} (h : t.contains id = false) :
    t.erase id = t := by
  obtain ⟨entries, hn⟩ := t
  simp only [contains, get?, Option.isSome_map, List.find?_isSome, Bool.eq_false_iff, Ne, not_exists,
    not_and] at h
  simp only [erase, mk.injEq]
  rw [List.filter_eq_self]
  intro e he
  simpa using h e he

/-- What an id was given does not matter once it is taken out. -/
theorem erase_insert (t : Table α) (id : UInt32) (value : α) :
    (t.insert id value).erase id = t.erase id := by
  simp [insert, erase, List.filter_append, List.filter_filter]

/-- The entries are what the look-ups find. -/
theorem mem_entries_iff (t : Table α) (id : UInt32) (value : α) :
    (id, value) ∈ t.entries ↔ t.get? id = some value := by
  obtain ⟨entries, hn⟩ := t
  simp only [get?]
  induction entries with
  | nil => simp
  | cons e rest ih =>
    rw [List.map_cons, List.nodup_cons] at hn
    by_cases he : e.1 = id
    · have hrest : (id, value) ∉ rest := fun h => hn.1 (he ▸ List.mem_map_of_mem h)
      have heq : (id, value) = e ↔ e.2 = value := by
        rw [Prod.ext_iff, he]
        exact ⟨fun h => h.2.symm, fun h => ⟨rfl, h.symm⟩⟩
      simp [he, hrest, heq]
    · have hne : ¬ (id, value) = e := fun h => he (h ▸ rfl)
      simpa [List.find?_cons, he, hne] using ih hn.2

theorem contains_iff (t : Table α) (id : UInt32) :
    t.contains id ↔ ∃ value, t.get? id = some value := Option.isSome_iff_exists

/-- The keys are the ids that have a value. -/
theorem mem_keys_iff (t : Table α) (id : UInt32) : id ∈ t.keys ↔ t.contains id := by
  rw [contains_iff, keys, List.mem_map]
  constructor
  · rintro ⟨⟨key, value⟩, hentry, rfl⟩
    exact ⟨value, (t.mem_entries_iff key value).1 hentry⟩
  · rintro ⟨value, hget⟩
    exact ⟨(id, value), (t.mem_entries_iff id value).2 hget, rfl⟩

end Table

end Relay
