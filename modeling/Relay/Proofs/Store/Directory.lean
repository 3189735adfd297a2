import Mathlib.Data.List.Nodup
import Relay.Proofs.IdPool
import Relay.Store.Basic

/-!
# `Relay.Proofs.Store.Directory`: users are numbered in the order in which they come

The directory holds its users twice: as accounts, and as the ids that are taken in its pool.
`Directory.InOrder` says that the two agree. The least free id is then the number of users, so a new
account comes last (`InOrder.of_enrol`), and the only reasons to refuse one are a name that somebody
has and a pool that is used up (`InOrder.exists_enrol_iff`).
-/

set_option autoImplicit false

namespace Relay

namespace Directory

variable {d e : Directory} {name : Username} {record : String} {user : User}

/-- The users are numbered from zero, their ids are those that are taken, no two have the same name,
and the first is the administrator. -/
structure InOrder (d : Directory) : Prop where
  pool : d.ids.WellFormed
  numbered : d.users.map (fun u => u.id.toNat) = List.range d.users.length
  taken : ∀ id : UserId, d.ids.isTaken id ↔ id.toNat < d.users.length
  names : (d.users.map User.name).Nodup
  admin : d.users.head? = some ⟨UserId.admin, adminName⟩

namespace InOrder

theorem toNat_lt (hd : d.InOrder) (hmem : user ∈ d.users) : user.id.toNat < d.users.length := by
  have hnumber : user.id.toNat ∈ d.users.map fun u => u.id.toNat := List.mem_map_of_mem hmem
  rw [hd.numbered] at hnumber
  exact List.mem_range.1 hnumber

/-- There are no more users than ids. -/
theorem length_le (hd : d.InOrder) : d.users.length ≤ d.ids.capacity.toNat := by
  apply Nat.le_of_not_lt
  intro hmore
  have htaken : d.ids.isTaken d.ids.capacity := (hd.taken _).2 hmore
  exact absurd (IdPool.lt_of_isTaken htaken) (UInt32.lt_irrefl _)

theorem length_lt_size (hd : d.InOrder) : d.users.length < UInt32.size :=
  Nat.lt_of_le_of_lt hd.length_le d.ids.capacity.toNat_lt

theorem toNat_ofNat (hd : d.InOrder) :
    (UInt32.ofNat d.users.length).toNat = d.users.length :=
  UInt32.toNat_ofNat_of_lt' hd.length_lt_size

theorem toNat_size (hd : d.InOrder) : d.size.toNat = d.users.length := by
  have hsame : d.users.length = d.accounts.length := List.length_map _
  rw [← hd.toNat_ofNat, hsame, size]

/-- Exactly the ids of the users are taken. -/
theorem isTaken_iff (hd : d.InOrder) (id : UserId) :
    d.ids.isTaken id ↔ ∃ user ∈ d.users, user.id = id := by
  rw [hd.taken]
  constructor
  · intro hlt
    have hnumber : id.toNat ∈ d.users.map fun u => u.id.toNat := by
      rw [hd.numbered]
      exact List.mem_range.2 hlt
    obtain ⟨user, hmem, hid⟩ := List.mem_map.1 hnumber
    exact ⟨user, hmem, UInt32.toNat_inj.1 hid⟩
  · rintro ⟨user, hmem, rfl⟩
    exact hd.toNat_lt hmem

/-- An account is known by the id of its user. -/
theorem eq_of_id (hd : d.InOrder) {a b : Account} (ha : a ∈ d.accounts) (hb : b ∈ d.accounts)
    (hid : a.user.id = b.user.id) : a = b := by
  have hnodup : (d.accounts.map fun c => c.user.id.toNat).Nodup := by
    have hnumbered := hd.numbered
    rw [users, List.map_map] at hnumbered
    exact hnumbered ▸ List.nodup_range
  exact List.inj_on_of_nodup_map hnodup ha hb (congrArg UInt32.toNat hid)

/-- The users stand by ascending id, so no two of them have the same. -/
theorem pairwise_id_lt (hd : d.InOrder) : (d.users.map User.id).Pairwise (· < ·) := by
  have hnumbers : (d.users.map fun u => u.id.toNat).Pairwise (· < ·) := by
    rw [hd.numbered]
    exact List.pairwise_lt_range
  rw [List.pairwise_map] at hnumbers ⊢
  exact hnumbers.imp UInt32.lt_iff_toNat_lt.2

/-- An id is free as long as there are fewer users than ids. -/
theorem exists_free_iff (hd : d.InOrder) :
    (∃ id < d.ids.capacity, d.ids.isTaken id = false) ↔
      d.users.length < d.ids.capacity.toNat := by
  constructor
  · rintro ⟨id, hlt, hfree⟩
    have hlt : id.toNat < d.ids.capacity.toNat := UInt32.lt_iff_toNat_lt.1 hlt
    have hnot : ¬ id.toNat < d.users.length := by
      rw [← hd.taken, hfree]
      decide
    omega
  · intro hlt
    refine ⟨UInt32.ofNat d.users.length, ?_, ?_⟩
    · rw [UInt32.lt_iff_toNat_lt, hd.toNat_ofNat]
      exact hlt
    · rw [← Bool.not_eq_true, hd.taken, hd.toNat_ofNat]
      exact Nat.lt_irrefl _

end InOrder

/-- At first the administrator is there alone. -/
theorem inOrder_initial {capacity : UInt32} (h : initial capacity record = .ok d) : d.InOrder := by
  have husers : d.users = [⟨UserId.admin, adminName⟩] :=
    congrArg (List.map Account.user) (initial_eq_ok h).2
  unfold initial at h
  split at h
  · cases h
  · rename_i ids hmark
    cases h
    obtain ⟨hpool, htaken⟩ := (IdPool.wellFormed_empty capacity).of_mark hmark
    refine ⟨hpool, rfl, fun id => ?_, ?_, congrArg List.head? husers⟩
    · rw [htaken, IdPool.isTaken_empty, husers]
      simp only [List.length_singleton, Nat.lt_one_iff]
      split
      · rename_i hadmin
        rw [hadmin]
        decide
      · rename_i hadmin
        constructor
        · intro h
          cases h
        · intro hzero
          exact absurd (UInt32.toNat_inj.1 hzero) hadmin
    · rw [husers]
      exact List.pairwise_singleton _ _

/-- An account whose id is the largest comes last. -/
theorem insertAccount_eq_append {a : Account} {l : List Account}
    (h : ∀ b ∈ l, b.user.id < a.user.id) : insertAccount a l = l ++ [a] := by
  induction l with
  | nil => rfl
  | cons b rest ih =>
    have hfirst : ¬ a.user.id < b.user.id := UInt32.lt_asymm (h b List.mem_cons_self)
    rw [insertAccount, if_neg hfirst, ih fun c hc => h c (List.mem_cons_of_mem _ hc)]
    rfl

/-- An account that is put in its place is found if none was found before. -/
theorem find?_insertAccount_self {a : Account} {p : Account → Bool} (ha : p a) {l : List Account}
    (hl : ∀ b ∈ l, p b = false) : (insertAccount a l).find? p = some a := by
  induction l with
  | nil => rw [insertAccount, List.find?_cons_of_pos ha]
  | cons b rest ih =>
    unfold insertAccount
    split
    · rw [List.find?_cons_of_pos ha]
    · rw [List.find?_cons_of_neg (by rw [hl b List.mem_cons_self]; exact Bool.false_ne_true)]
      exact ih fun c hc => hl c (List.mem_cons_of_mem _ hc)

/-- A user who is entered had no account, and nobody else's account changes. -/
theorem findName?_of_enrol (h : d.enrol name record = .ok (user, e)) :
    d.findName? name = none ∧ ∀ other,
      e.findName? other = if other = name then some ⟨user, record⟩ else d.findName? other := by
  unfold enrol at h
  split at h
  · cases h
  · rename_i hfree
    rw [Bool.not_eq_true, Option.isSome_eq_false_iff, Option.isNone_iff_eq_none] at hfree
    split at h
    · cases h
    · cases h
      refine ⟨hfree, fun other => ?_⟩
      split
      · rename_i hsame
        subst hsame
        apply find?_insertAccount_self (by simp)
        intro b hb
        simpa using List.find?_eq_none.1 hfree b hb
      · rename_i hother
        exact find?_insertAccount (by simpa using Ne.symm hother) _

/-- Whoever gives the right credentials has an account of that name, and the password fits its
record. -/
theorem exists_account_of_findUser? {scheme : PasswordScheme} {password : Password}
    (h : d.findUser? scheme name password = some user) :
    ∃ account ∈ d.accounts, account.user = user ∧ user.name = name ∧
      scheme.verify password.bytes account.record := by
  unfold findUser? at h
  split at h
  · cases h
  · rename_i account hfound
    split at h
    · rename_i hverify
      cases h
      have hname := List.find?_some hfound
      exact ⟨account, List.mem_of_find?_eq_some hfound, rfl, of_decide_eq_true hname, hverify⟩
    · cases h

theorem findName?_isSome_iff (d : Directory) (name : Username) :
    (d.findName? name).isSome ↔ name ∈ d.users.map User.name := by
  rw [findName?, List.find?_isSome]
  simp only [decide_eq_true_eq, users, List.map_map, List.mem_map, Function.comp_apply]

/-- A new user has a name that nobody had, gets the next number and comes last. -/
theorem InOrder.enrol_eq (hd : d.InOrder) (h : d.enrol name record = .ok (user, e)) :
    name ∉ d.users.map User.name ∧ d.users.length < d.ids.capacity.toNat ∧
      user = ⟨UInt32.ofNat d.users.length, name⟩ ∧
      e.accounts = d.accounts ++ [⟨user, record⟩] ∧
      d.ids.mark user.id true = .ok e.ids := by
  unfold enrol at h
  split at h
  · cases h
  · rename_i hname
    rw [findName?_isSome_iff] at hname
    split at h
    · cases h
    · rename_i id ids htake
      cases h
      obtain ⟨hmark, hfree, hbelow⟩ := hd.pool.of_take? htake
      -- The id is free and all below it are taken, so it is the number of the users.
      have hnot : ¬ id.toNat < d.users.length := by
        rw [← hd.taken, hfree]
        decide
      have hnext : id.toNat = d.users.length := by
        refine Nat.le_antisymm (Nat.le_of_not_lt fun hmore => ?_) (Nat.le_of_not_lt hnot)
        have hless : UInt32.ofNat d.users.length < id := by
          rw [UInt32.lt_iff_toNat_lt, hd.toNat_ofNat]
          exact hmore
        have hlast := (hd.taken _).1 (hbelow _ hless)
        rw [hd.toNat_ofNat] at hlast
        exact Nat.lt_irrefl _ hlast
      have hid : id = UInt32.ofNat d.users.length := by
        rw [← UInt32.toNat_inj, hd.toNat_ofNat, hnext]
      refine ⟨hname, ?_, ?_, ?_, hmark⟩
      · exact hd.exists_free_iff.1 ⟨id, IdPool.lt_of_mark hmark, hfree⟩
      · rw [hid]
      · apply insertAccount_eq_append
        intro b hb
        rw [UInt32.lt_iff_toNat_lt]
        dsimp only
        rw [hnext]
        exact hd.toNat_lt (List.mem_map_of_mem hb)

theorem InOrder.users_of_enrol (hd : d.InOrder) (h : d.enrol name record = .ok (user, e)) :
    e.users = d.users ++ [user] := by
  obtain ⟨-, -, -, haccounts, -⟩ := hd.enrol_eq h
  rw [users, haccounts, List.map_append, users]
  rfl

/-- The directory stays in order. -/
theorem InOrder.of_enrol (hd : d.InOrder) (h : d.enrol name record = .ok (user, e)) :
    e.InOrder := by
  obtain ⟨hname, -, huser, -, hmark⟩ := hd.enrol_eq h
  have husers := hd.users_of_enrol h
  have hid : user.id.toNat = d.users.length := by rw [huser, hd.toNat_ofNat]
  obtain ⟨hpool, htaken⟩ := hd.pool.of_mark hmark
  refine ⟨hpool, ?_, fun id => ?_, ?_, ?_⟩
  · rw [husers, List.map_append, hd.numbered, List.length_append, List.length_singleton,
      List.range_succ, List.map_singleton, hid]
  · rw [htaken, husers, List.length_append, List.length_singleton]
    split
    · rename_i hnew
      rw [hnew, hid]
      simp
    · rename_i hold
      have hne : id.toNat ≠ d.users.length := by
        rw [← hid]
        exact fun hsame => hold (UInt32.toNat_inj.1 hsame)
      rw [hd.taken]
      omega
  · rw [husers, List.map_append, List.nodup_append]
    refine ⟨hd.names, List.pairwise_singleton _ _, fun other hother last hlast hsame => ?_⟩
    rw [List.map_singleton, List.mem_singleton] at hlast
    rw [hsame, hlast, huser] at hother
    exact hname hother
  · rw [husers, List.head?_append, hd.admin]
    rfl

/-- Whoever has a name of their own is enrolled as long as an id is free, and nobody else is. -/
theorem InOrder.exists_enrol_iff (hd : d.InOrder) (name : Username) (record : String) :
    (∃ user e, d.enrol name record = .ok (user, e)) ↔
      name ∉ d.users.map User.name ∧ d.users.length < d.ids.capacity.toNat := by
  constructor
  · rintro ⟨user, e, h⟩
    obtain ⟨hname, hroom, -⟩ := hd.enrol_eq h
    exact ⟨hname, hroom⟩
  · rintro ⟨hname, hroom⟩
    obtain ⟨id, hlt, hfree⟩ := hd.exists_free_iff.2 hroom
    obtain ⟨least, ids, htake⟩ := hd.pool.exists_take? hlt hfree
    rw [enrol, if_neg (mt (d.findName?_isSome_iff name).1 hname), htake]
    exact ⟨_, _, rfl⟩

end Directory

/-- A store that has just been filled is in order. -/
theorem Store.inOrder_initial {scheme : PasswordScheme} {maxUsers : UInt32} {adminPassword : Bytes}
    {e e' : Entropy} {store : Store}
    (h : Store.initial scheme maxUsers adminPassword e = .ok (store, e')) :
    store.directory.InOrder := by
  obtain ⟨-, -, _, -, hdirectory⟩ := Store.initial_eq_ok h
  exact Directory.inOrder_initial hdirectory

end Relay
