/-!
# `Relay.Text.Hexadecimal`: hexadecimal digits

A digit is one of `0` to `9`, `a` to `f` and `A` to `F`.
-/

set_option autoImplicit false

namespace Relay.Hexadecimal

/-- The value of a digit. -/
def digit? (c : Char) : Option Nat :=
  if '0' ≤ c && c ≤ '9' then some (c.toNat - '0'.toNat)
  else if 'a' ≤ c && c ≤ 'f' then some (c.toNat - 'a'.toNat + 10)
  else if 'A' ≤ c && c ≤ 'F' then some (c.toNat - 'A'.toNat + 10)
  else none

end Relay.Hexadecimal
