/-!
# `Relay.Text.Decimal`: numbers in decimal digits

Two kinds of text stand for numbers. A count is written in digits, any number of zeros first, and a
plus sign may precede it (`unsigned?`). A number that need not be whole may also have a point, an
exponent and no digits on one side of the point; here only the form of it matters (`isReal`).
-/

set_option autoImplicit false

namespace Relay.Decimal

/-- The number of a text of decimal digits. -/
def digits? (text : List Char) : Option Nat :=
  if text.isEmpty || !text.all Char.isDigit then none
  else some (text.foldl (fun n c => 10 * n + (c.toNat - '0'.toNat)) 0)

/-- The number of a text of decimal digits that a plus sign may precede. -/
def unsigned? : List Char → Option Nat
  | '+' :: text => digits? text
  | text => digits? text

/-- Whether a text is an exponent: a letter, a sign if need be, and digits. -/
def isExponent : List Char → Bool
  | [] => false
  | e :: rest =>
    let digits := match rest with
      | '+' :: digits | '-' :: digits => digits
      | digits => digits
    e.toLower = 'e' && (digits? digits).isSome

/-- Whether a text without a sign is a number that need not be whole, or the name of one that is not
finite. -/
def isReal (text : List Char) : Bool :=
  let whole := text.takeWhile Char.isDigit
  let (fraction, rest) := match text.drop whole.length with
    | '.' :: rest => (rest.takeWhile Char.isDigit, rest.dropWhile Char.isDigit)
    | rest => ([], rest)
  ["inf", "infinity", "nan"].contains (String.ofList (text.map Char.toLower)) ||
    !(whole ++ fraction).isEmpty && (rest.isEmpty || isExponent rest)

end Relay.Decimal
