import Relay.Text.Hexadecimal

/-!
# `Relay.Config.Address`: socket addresses as text

An address is four decimal numbers and a port, `127.0.0.1:8080`, or eight hexadecimal groups in
brackets and a port, `[fe80::1%3]:8080`, where one run of zero groups may be left out, the last two
groups may be written as four decimal numbers, and a scope may follow. Reading is lenient where
writing is canonical: the longest run of at least two zero groups is left out, the leftmost of
equally long ones, and an address that stands for a version 4 address shows it.
-/

set_option autoImplicit false

namespace Relay

/-- The address of a socket. -/
inductive Address where
  /-- Version 4: four bytes and a port. -/
  | v4 (bytes : List Nat) (port : Nat)
  /-- Version 6: eight groups, a scope and a port. -/
  | v6 (groups : List Nat) (scope : Nat) (port : Nat)
deriving DecidableEq

namespace Address

/-! ### Reading -/

/-- The number of a digit, in bases up to sixteen. -/
def digit? (base : Nat) (c : Char) : Option Nat := (Hexadecimal.digit? c).filter (· < base)

/-- The digits at the start of a text, and what follows them. -/
def digits (base : Nat) : List Char → List Nat × List Char
  | [] => ([], [])
  | c :: rest =>
    match digit? base c with
    | none => ([], c :: rest)
    | some d => let (ds, rest) := digits base rest; (d :: ds, rest)

/-- A number below a bound at the start of a text, and what follows it. Some numbers have a
greatest count of digits, and some no leading zero. -/
def number? (base bound : Nat) (maxDigits : Option Nat) (leadingZero : Bool) (text : List Char) :
    Option (Nat × List Char) :=
  let (ds, rest) := digits base text
  let value := ds.foldl (fun n d => base * n + d) 0
  if ds.isEmpty || value ≥ bound || maxDigits.any (ds.length > ·) ||
      (!leadingZero && ds.length > 1 && ds.head? = some 0) then none
  else some (value, rest)

/-- What follows a character that a text must start with. -/
def mark? (c : Char) : List Char → Option (List Char)
  | [] => none
  | d :: rest => if c = d then some rest else none

/-- Four decimal numbers joined by points. -/
def v4Bytes? (text : List Char) : Option (List Nat × List Char) := do
  let one := number? 10 256 (some 3) false
  let (a, text) ← one text
  let (b, text) ← mark? '.' text >>= one
  let (c, text) ← mark? '.' text >>= one
  let (d, text) ← mark? '.' text >>= one
  return ([a, b, c, d], text)

/-- The colon before every group but the first. -/
def separator? (isFirst : Bool) (text : List Char) : Option (List Char) :=
  if isFirst then some text else mark? ':' text

/-- Up to `limit` hexadecimal groups joined by colons, the last two of which may be written as four
decimal numbers; whether they are; and what follows. -/
def groups : Nat → Bool → List Char → List Nat × Bool × List Char
  | 0, _, text => ([], false, text)
  | limit + 1, isFirst, text =>
    match separator? isFirst text with
    | none => ([], false, text)
    | some start =>
      -- Four decimal numbers take the room of two groups.
      match (if limit > 0 then v4Bytes? start else none) with
      | some ([a, b, c, d], rest) => ([256 * a + b, 256 * c + d], true, rest)
      | _ =>
        match number? 16 65536 (some 4) true start with
        | none => ([], false, text)
        | some (group, rest) =>
          let (more, embedded, rest) := groups limit false rest
          (group :: more, embedded, rest)

/-- Eight groups, of which a run of zeros may be left out. -/
def v6Groups? (text : List Char) : Option (List Nat × List Char) :=
  match groups 8 true text with
  | (head, embedded, rest) =>
    if head.length = 8 then some (head, rest)
    else if embedded then none
    else do
      let rest ← mark? ':' rest >>= mark? ':'
      -- What is left out is at least one group.
      let (tail, _, rest) := groups (7 - head.length) true rest
      return (head ++ List.replicate (8 - head.length - tail.length) 0 ++ tail, rest)

/-- A scope, zero if there is none. -/
def scope (text : List Char) : Nat × List Char :=
  ((mark? '%' text).bind (number? 10 (1 <<< 32) none true)).getD (0, text)

/-- A colon and a port at the end of a text. -/
def port? (text : List Char) : Option Nat :=
  match mark? ':' text >>= number? 10 65536 none true with
  | some (port, []) => some port
  | _ => none

/-- The address that a text stands for. -/
def parse? (text : String) : Option Address :=
  let chars := text.toList
  let version4 : Option Address := do
    let (bytes, rest) ← v4Bytes? chars
    return .v4 bytes (← port? rest)
  let version6 : Option Address := do
    let (groups, rest) ← mark? '[' chars >>= v6Groups?
    let (scope, rest) := scope rest
    let rest ← mark? ']' rest
    return .v6 groups scope (← port? rest)
  version4.or version6

/-! ### Writing -/

/-- Four decimal numbers joined by points. -/
def v4Text (bytes : List Nat) : String := ".".intercalate (bytes.map toString)

/-- A group in lower-case hexadecimal digits. -/
def groupText (group : Nat) : String := String.ofList (Nat.toDigits 16 group)

/-- Groups joined by colons. -/
def groupsText (groups : List Nat) : String := ":".intercalate (groups.map groupText)

/-- The number of zero groups at the start. -/
def zerosAt (groups : List Nat) : Nat := (groups.takeWhile (· == 0)).length

/-- Start and length of the longest run of zero groups, the leftmost of equally long ones. -/
def longestRun (groups : List Nat) : Nat × Nat :=
  (List.range groups.length).foldl
    (fun best start =>
      let size := zerosAt (groups.drop start)
      if size > best.2 then (start, size) else best)
    (0, 0)

/-- Eight groups in their canonical form. -/
def v6Text (groups : List Nat) : String :=
  match groups with
  | [0, 0, 0, 0, 0, 0xffff, high, low] =>
    "::ffff:" ++ v4Text [high / 256, high % 256, low / 256, low % 256]
  | _ =>
    let (start, size) := longestRun groups
    if size > 1 then groupsText (groups.take start) ++ "::" ++ groupsText (groups.drop (start + size))
    else groupsText groups

/-- The text of an address. -/
def toText : Address → String
  | v4 bytes port => v4Text bytes ++ ":" ++ toString port
  | v6 groups scope port =>
    "[" ++ v6Text groups ++ (if scope = 0 then "" else "%" ++ toString scope) ++ "]:" ++
      toString port

end Address

end Relay
