import Relay.IdPool
import Relay.Password.Scheme

/-!
# `Relay.Store.Directory`: who is registered

The directory holds the accounts: an id, a name and the record of the password. It starts with the
administrator's account alone. Ids come from a pool whose capacity is the most users that may be
registered; an account is never removed, so ids are never given back. The accounts stand in
ascending order of their ids, and each new one is put in its place.
-/

set_option autoImplicit false

namespace Relay

/-- A registered user. -/
@[ext] structure User where
  /-- The user's id. -/
  id : UserId
  /-- The user's name. -/
  name : Username
deriving DecidableEq

/-- A user with the record of its password. -/
structure Account where
  /-- The user. -/
  user : User
  /-- The record that passwords are checked against. -/
  record : String
deriving DecidableEq

/-- Why the store refuses. -/
inductive StoreError where
  /-- Every user id is taken. -/
  | directoryFull
  /-- Another user has the name. -/
  | nameTaken
  /-- The password could not be hashed. -/
  | hash (reason : String)
deriving DecidableEq

/-- The wording of a refusal. -/
def StoreError.message : StoreError → String
  | directoryFull => "user directory is full"
  | nameTaken => "username already taken"
  | hash reason => s!"password hashing failed: {reason}"

/-- The accounts, by ascending id, and the pool that their ids come from. -/
structure Directory where
  /-- The accounts. -/
  accounts : List Account
  /-- The ids. -/
  ids : IdPool
deriving DecidableEq

namespace Directory

/-- The name of the administrator. -/
def adminName : Username := Octets.padded nameSize "admin".toUTF8.toList

/-- Puts an account in its place by id. -/
def insertAccount (a : Account) : List Account → List Account
  | [] => [a]
  | b :: rest => if a.user.id < b.user.id then a :: b :: rest else b :: insertAccount a rest

/-- The directory that holds the administrator's account alone. -/
def initial (capacity : UInt32) (adminRecord : String) : Except StoreError Directory :=
  match (IdPool.empty capacity).mark UserId.admin true with
  | .error _ => .error .directoryFull
  | .ok ids => .ok ⟨[⟨⟨UserId.admin, adminName⟩, adminRecord⟩], ids⟩

/-- The account of a name. -/
def findName? (d : Directory) (name : Username) : Option Account :=
  d.accounts.find? fun a => a.user.name = name

/-- The user whose name and password are both right. -/
def findUser? (scheme : PasswordScheme) (d : Directory) (name : Username) (password : Password) :
    Option User :=
  match d.findName? name with
  | none => none
  | some account =>
    if scheme.verify password.bytes account.record then some account.user else none

/-- The directory with one more account, under the least free id. -/
def enrol (d : Directory) (name : Username) (record : String) :
    Except StoreError (User × Directory) :=
  -- A taken name is reported even when the directory is full.
  if (d.findName? name).isSome then .error .nameTaken
  else
    match d.ids.take? with
    | none => .error .directoryFull
    | some (id, ids) =>
      let user : User := ⟨id, name⟩
      .ok (user, ⟨insertAccount ⟨user, record⟩ d.accounts, ids⟩)

/-- The users by ascending id. -/
def users (d : Directory) : List User := d.accounts.map Account.user

/-- The number of users. -/
def size (d : Directory) : UInt32 := UInt32.ofNat d.accounts.length

/-- Whether an id is that of a user. -/
def contains (d : Directory) (id : UserId) : Bool := d.accounts.any fun a => a.user.id = id

/-! ### What the accounts are after an insertion -/

@[simp] theorem mem_insertAccount (a b : Account) (l : List Account) :
    a ∈ insertAccount b l ↔ a = b ∨ a ∈ l := by
  induction l with
  | nil => simp [insertAccount]
  | cons c rest ih =>
    unfold insertAccount
    split
    · simp
    · simp only [List.mem_cons, ih]
      grind

/-- Whom an account is not about finds the same as before it was put in its place. -/
theorem find?_insertAccount {a : Account} {p : Account → Bool} (ha : p a = false)
    (l : List Account) : (insertAccount a l).find? p = l.find? p := by
  induction l with
  | nil => simp [insertAccount, ha]
  | cons b rest ih =>
    unfold insertAccount
    split
    · simp [ha]
    · simp only [List.find?_cons, ih]

/-! ### Who is registered -/

/-- At first the administrator is registered, and nobody else. -/
theorem initial_eq_ok {capacity : UInt32} {record : String} {d : Directory}
    (h : initial capacity record = .ok d) :
    d.ids.capacity = capacity ∧ d.accounts = [⟨⟨UserId.admin, adminName⟩, record⟩] := by
  unfold initial at h
  split at h
  · cases h
  · rename_i ids hmark
    cases h
    exact ⟨(IdPool.capacity_mark hmark).trans rfl, rfl⟩

theorem contains_iff (d : Directory) (id : UserId) :
    d.contains id ↔ ∃ user ∈ d.users, user.id = id := by
  simp only [contains, users, List.any_eq_true, decide_eq_true_eq, List.mem_map]
  constructor
  · rintro ⟨account, hmem, hid⟩
    exact ⟨_, ⟨account, hmem, rfl⟩, hid⟩
  · rintro ⟨user, ⟨account, hmem, rfl⟩, hid⟩
    exact ⟨account, hmem, hid⟩

/-- Whoever gives the right credentials is registered. -/
theorem mem_users_of_findUser? {scheme : PasswordScheme} {d : Directory} {name : Username}
    {password : Password} {user : User} (h : d.findUser? scheme name password = some user) :
    user ∈ d.users := by
  unfold findUser? at h
  split at h
  · cases h
  · rename_i account hfound
    split at h
    · cases h
      exact List.mem_map_of_mem (List.mem_of_find?_eq_some hfound)
    · cases h

/-- An enrolment takes an id of the pool, and adds one user under it. -/
theorem enrol_eq_ok {d e : Directory} {name : Username} {record : String} {user : User}
    (h : d.enrol name record = .ok (user, e)) :
    d.ids.take? = some (user.id, e.ids) ∧
      ∀ other, other ∈ e.users ↔ other = user ∨ other ∈ d.users := by
  unfold enrol at h
  split at h
  · cases h
  · split at h
    · cases h
    · rename_i id ids htake
      cases h
      refine ⟨htake, fun other => ?_⟩
      simp only [users, List.mem_map, mem_insertAccount]
      constructor
      · rintro ⟨account, rfl | hmem, rfl⟩
        · exact .inl rfl
        · exact .inr ⟨account, hmem, rfl⟩
      · rintro (rfl | ⟨account, hmem, rfl⟩)
        · exact ⟨_, .inl rfl, rfl⟩
        · exact ⟨account, .inr hmem, rfl⟩

/-- Credentials that were right stay right when somebody else is enrolled. -/
theorem findUser?_of_enrol {d e : Directory} {name other : Username} {record : String}
    {user who : User} {scheme : PasswordScheme} {password : Password}
    (h : d.enrol other record = .ok (who, e))
    (hfind : d.findUser? scheme name password = some user) :
    e.findUser? scheme name password = some user := by
  unfold enrol at h
  split at h
  · cases h
  · rename_i hfree
    split at h
    · cases h
    · cases h
      -- Whoever has the right credentials has a name already, so it is not the new one.
      have hother : other ≠ name := by
        rintro rfl
        rw [Bool.not_eq_true, Option.isSome_eq_false_iff, Option.isNone_iff_eq_none] at hfree
        simp [findUser?, hfree] at hfind
      unfold findUser? findName? at hfind ⊢
      rw [find?_insertAccount (by simpa using hother)]
      exact hfind

/-- Credentials that were right stay right however the directory grows. -/
theorem findUser?_of_grown {d e : Directory} {name : Username} {user : User}
    {scheme : PasswordScheme} {password : Password}
    (h : e = d ∨ ∃ (other : Username) (record : String) (who : User),
      d.enrol other record = .ok (who, e))
    (hfind : d.findUser? scheme name password = some user) :
    e.findUser? scheme name password = some user := by
  rcases h with rfl | ⟨_, _, _, henrol⟩
  · exact hfind
  · exact findUser?_of_enrol henrol hfind

end Directory

end Relay
