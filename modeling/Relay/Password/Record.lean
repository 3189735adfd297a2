import Relay.Crypto.Argon2
import Relay.Text.Base64
import Relay.Text.Decimal

/-!
# `Relay.Password.Record`: the text of a hashed password

A hashed password is kept as one line of text that holds all that is needed to check a password
against it:

    $argon2id$v=19$m=19456,t=2,p=1$c2FsdHNhbHRzYWx0$aGFzaGhhc2hoYXNo

Fields are separated by `$`: the algorithm, then optionally the version, parameters, the salt and
the digest. `Record.parse?` reads that form for any algorithm and any parameters; whether they mean
something is for `Relay.Password.Scheme` to say.
-/

set_option autoImplicit false

namespace Relay.Password

/-- A hashed password, as its text says. -/
structure Record where
  /-- The name of the algorithm. -/
  algorithm : String
  /-- The version of the algorithm. -/
  version : Option Nat
  /-- Names and values of the parameters, in order. -/
  parameters : List (String × String)
  /-- The salt, as text. -/
  salt : Option String
  /-- The digest. -/
  digest : Option Bytes

namespace Record

/-! ### The parts of a record -/

/-- Whether a text is the name of an algorithm or a parameter: one to 32 lower-case letters,
digits and hyphens. -/
def isName (text : String) : Bool :=
  1 ≤ text.length && text.length ≤ 32 &&
    text.toList.all fun c => ('a' ≤ c && c ≤ 'z') || ('0' ≤ c && c ≤ '9') || c = '-'

/-- Whether a text may stand as a value: at most 64 letters, digits and the marks `/`, `+`, `.`
and `-`. -/
def isValue (text : String) : Bool :=
  text.length ≤ 64 && text.toList.all fun c =>
    ('a' ≤ c && c ≤ 'z') || ('A' ≤ c && c ≤ 'Z') || ('0' ≤ c && c ≤ '9') ||
      c = '/' || c = '+' || c = '.' || c = '-'

/-- The number that a value stands for: 32 bits, in digits, without leading zeros. -/
def number? (text : String) : Option Nat :=
  let leadingZero := text.toList.head? = some '0' && text.length > 1
  if isValue text && !leadingZero then (Decimal.digits? text.toList).filter (· < 1 <<< 32)
  else none

/-- One parameter, a name and a value joined by `=`. -/
def parameter? (text : String) : Option (String × String) :=
  match text.splitOn "=" with
  | [name, value] => if isName name && isValue value then some (name, value) else none
  | _ => none

/-- The parameters of a field, separated by commas, of at most 127 bytes in all. -/
def parameters? (field : String) : Option (List (String × String)) :=
  if field.utf8ByteSize > 127 then none else (field.splitOn ",").mapM parameter?

/-- The salt of a field: a value of 4 to 64 characters. -/
def salt? (field : String) : Option String :=
  if 4 ≤ field.length && isValue field then some field else none

/-- The digest of a field: 10 to 64 bytes. -/
def digest? (field : String) : Option Bytes :=
  match Base64.decode? field with
  | none => none
  | some bytes => if 10 ≤ bytes.length && bytes.length ≤ 64 then some bytes else none

/-! ### Reading -/

/-- The version, if the first field gives one, and the fields after it. -/
def version? : List String → Option (Option Nat × List String)
  | [] => some (none, [])
  | field :: rest =>
    if field.startsWith "v=" && !field.contains ',' then
      (number? (String.ofList (field.toList.drop 2))).map fun v => (some v, rest)
    else some (none, field :: rest)

/-- The record that a text stands for. -/
def parse? (text : String) : Option Record :=
  match text.splitOn "$" with
  | "" :: algorithm :: fields =>
    if !isName algorithm then none
    else do
      let (version, fields) ← version? fields
      let (parameters, fields) ← match fields with
        | field :: rest =>
          -- Only parameters have an equals sign, so their field may be left out.
          if field.contains '=' then (parameters? field).map fun p => (p, rest)
          else some ([], fields)
        | [] => some ([], [])
      match fields with
      | [] => some ⟨algorithm, version, parameters, none, none⟩
      | [salt] => return ⟨algorithm, version, parameters, some (← salt? salt), none⟩
      | [salt, digest] =>
        return ⟨algorithm, version, parameters, some (← salt? salt), some (← digest? digest)⟩
      | _ => none
  | _ => none

end Record

end Relay.Password
