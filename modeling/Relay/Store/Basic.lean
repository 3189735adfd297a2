import Relay.Entropy
import Relay.Store.Directory
import Relay.Store.Mailbox

/-!
# `Relay.Store.Basic`: all that is kept

The store is the user directory together with the mailbox. It changes only through the operations
named by `StoreOp`. Each of them can be out of order for a while (`Outage`): it then fails and
leaves the store as it was.
-/

set_option autoImplicit false

namespace Relay

/-- Users and waiting messages. -/
structure Store where
  /-- Who is registered. -/
  directory : Directory
  /-- What waits to be fetched. -/
  mailbox : Mailbox
deriving DecidableEq

/-- What is asked of the store. -/
inductive StoreOp where
  /-- Check credentials. -/
  | findUser
  /-- Register a user. -/
  | addUser
  /-- List the users. -/
  | users
  /-- Count the users. -/
  | usersCount
  /-- Look an id up. -/
  | userExists
  /-- Tell whether a user is the administrator. -/
  | isAdmin
  /-- Keep a message. -/
  | addMessage
  /-- List messages. -/
  | messages
  /-- Remove messages. -/
  | deleteMessages
  /-- Remove all messages. -/
  | deleteAllMessages
deriving DecidableEq

/-- The name of an operation. -/
def StoreOp.label : StoreOp → String
  | findUser => "find_user"
  | addUser => "add_user"
  | users => "users"
  | usersCount => "users_count"
  | userExists => "user_exists"
  | isAdmin => "is_admin"
  | addMessage => "add_message"
  | messages => "messages"
  | deleteMessages => "delete_messages"
  | deleteAllMessages => "delete_all_messages"

/-- Which operations fail at the moment, and how. -/
abbrev Outage := StoreOp → Option StoreError

/-- All operations work. -/
def Outage.none : Outage := fun _ => Option.none

/-- The answer of an operation, unless it is out of order. -/
def Outage.attempt {α : Type} (outage : Outage) (op : StoreOp) (answer : Except StoreError α) :
    Except StoreError α :=
  match outage op with
  | some e => .error e
  | Option.none => answer

/-- An operation that answers is not out of order. -/
theorem Outage.attempt_ok_eq_ok {α : Type} {outage : Outage} {op : StoreOp} {a b : α}
    (h : outage.attempt op (.ok a) = .ok b) : outage op = Option.none ∧ a = b := by
  unfold Outage.attempt at h
  split at h
  · cases h
  · rename_i hop
    cases h
    exact ⟨hop, rfl⟩

namespace Store

/-- The record of a password under a fresh salt. -/
def hashPassword (scheme : PasswordScheme) (password : Password) (e : Entropy) :
    Except StoreError String × Entropy :=
  let (salt, e) := e.draw saltSize
  (match scheme.hash salt password.bytes with
    | .ok record => .ok record
    | .error reason => .error (.hash reason), e)

/-- A store with the administrator's account and no messages. The password is cut or padded to the
size of a password field. -/
def initial (scheme : PasswordScheme) (maxUsers : UInt32) (adminPassword : Bytes) (e : Entropy) :
    Except StoreError (Store × Entropy) :=
  if maxUsers = 0 then .error .directoryFull
  else
    match hashPassword scheme (Octets.padded passwordSize adminPassword) e with
    | (.error error, _) => .error error
    | (.ok record, e) =>
      match Directory.initial maxUsers record with
      | .error error => .error error
      | .ok directory => .ok (⟨directory, {}⟩, e)

/-- A store that has been filled has the administrator's account, with a record of the password, and
no messages. -/
theorem initial_eq_ok {scheme : PasswordScheme} {maxUsers : UInt32} {adminPassword : Bytes}
    {e e' : Entropy} {store : Store}
    (h : initial scheme maxUsers adminPassword e = .ok (store, e')) :
    maxUsers ≠ 0 ∧ store.mailbox = {} ∧ ∃ record,
      scheme.hash (e.draw saltSize).1 (Octets.padded passwordSize adminPassword).bytes =
          .ok record ∧
        Directory.initial maxUsers record = .ok store.directory := by
  unfold initial hashPassword at h
  split at h
  · cases h
  · rename_i hpositive
    cases hhash : scheme.hash (e.draw saltSize).1 (Octets.padded passwordSize adminPassword).bytes with
    | error reason =>
      simp only [hhash] at h
      cases h
    | ok record =>
      simp only [hhash] at h
      split at h
      · cases h
      · rename_i hdirectory
        cases h
        exact ⟨hpositive, rfl, record, rfl, hdirectory⟩

/-- Registers a user: hashes the password under a fresh salt and enrols the name. -/
def addUser (scheme : PasswordScheme) (s : Store) (name : Username) (password : Password)
    (e : Entropy) : Except StoreError (User × Store) × Entropy :=
  match hashPassword scheme password e with
  | (.error error, e) => (.error error, e)
  | (.ok record, e) =>
    match s.directory.enrol name record with
    | .error error => (.error error, e)
    | .ok (user, directory) => (.ok (user, { s with directory }), e)

end Store

end Relay
