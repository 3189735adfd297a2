import Relay.Password.Record

/-!
# `Relay.Password.Scheme`: hashing and checking passwords

A `PasswordScheme` turns a password and a salt into a record and checks a password against a
record. `PasswordScheme.argon2id` writes records of a fixed cost but reads the cost, the variant
and the length of the digest from the record, so records keep working when the cost changes.
-/

set_option autoImplicit false

namespace Relay

/-- The number of bytes of a salt. -/
def saltSize : Nat := 16

/-- What makes a password record unguessable. -/
abbrev Salt := Octets saltSize

/-- Hashes passwords and checks them against their records. -/
structure PasswordScheme where
  /-- The record of a password under a salt, or why there is none. -/
  hash : Salt → Bytes → Except String String
  /-- Whether a password is the one that a record was made of. -/
  verify : Bytes → String → Bool

namespace Password

open Crypto (Argon2.Cost Argon2.Variant Argon2.Version Argon2.Layout)

/-- The number of bytes of the digests that the relay writes. -/
def digestSize : Nat := 32

/-- The record of a digest. -/
def recordText (cost : Argon2.Cost) (salt digest : Bytes) : String :=
  let memory := cost.memory
  let passes := cost.passes
  let lanes := cost.lanes
  let saltText := Base64.encode salt
  let digestText := Base64.encode digest
  s!"$argon2id$v=19$m={memory},t={passes},p={lanes}${saltText}${digestText}"

/-- The record of a password under a salt, at a cost. -/
def hash (cost : Argon2.Cost) (salt password : Bytes) : String :=
  recordText cost salt (Crypto.Argon2.hash ⟨.hybrid, .mixing, cost⟩ password salt [] digestSize)

/-- The variant of a name. -/
def variant? : String → Option Argon2.Variant
  | "argon2d" => some .dependent
  | "argon2i" => some .independent
  | "argon2id" => some .hybrid
  | _ => none

/-- The version of a number; without a number it is the newest. -/
def version? : Option Nat → Option Argon2.Version
  | none => some .mixing
  | some 0x10 => some .replacing
  | some 0x13 => some .mixing
  | _ => none

/-- The amounts that parameters name, before they are checked. -/
structure Amounts where
  /-- The memory in KiB. -/
  memory : Nat := 19456
  /-- The number of passes. -/
  passes : Nat := 2
  /-- The number of lanes. -/
  lanes : Nat := 1
  /-- What is hashed along with the password. -/
  data : Bytes := []

/-- The amounts after one more parameter; a later one of the same name wins. -/
def Amounts.set? (a : Amounts) : String × String → Option Amounts
  | ("m", value) => (Record.number? value).map fun n => { a with memory := n }
  | ("t", value) => (Record.number? value).map fun n => { a with passes := n }
  | ("p", value) => (Record.number? value).map fun n => { a with lanes := n }
  | ("keyid", value) =>
    (Base64.decode? value).bind fun b => if b.length ≤ 8 then some a else none
  | ("data", value) =>
    (Base64.decode? value).bind fun b => if b.length ≤ 32 then some { a with data := b } else none
  | _ => none

/-- Whether a password is the one that a record was made of. -/
def verify (password : Bytes) (text : String) : Bool :=
  let checked : Option Bool := do
    let record ← Record.parse? text
    let salt ← record.salt
    let digest ← record.digest
    let amounts ← record.parameters.foldlM Amounts.set? {}
    let cost ← (Argon2.Cost.of? amounts.memory amounts.passes amounts.lanes).toOption
    let variant ← variant? record.algorithm
    let version ← version? record.version
    let saltBytes ← Base64.decode? salt
    if saltBytes.length < 8 then none
    else some (Crypto.Argon2.hash ⟨variant, version, cost⟩ password saltBytes amounts.data
      digest.length == digest)
  checked.getD false

end Password

/-- Argon2id at a cost. -/
def PasswordScheme.argon2id (cost : Crypto.Argon2.Cost) : PasswordScheme where
  hash salt password := .ok (Password.hash cost salt.bytes password)
  verify := Password.verify

end Relay
