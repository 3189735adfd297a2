import Relay.Bytes

/-!
# `Relay.Crypto.Curve25519`: arithmetic modulo `2 ^ 255 - 19`

Elements of the field are natural numbers below the prime. Scalars are read bit by bit from the
most significant bit down (`bitsOf`).
-/

set_option autoImplicit false

namespace Relay.Crypto.Curve25519

/-- The number of elements of the field. -/
def prime : Nat := (1 <<< 255) - 19

/-- The number of points in the subgroup that the base point generates. -/
def groupOrder : Nat := (1 <<< 252) + 27742317777372353535851937790883648493

/-- The sum of two elements. -/
def add (a b : Nat) : Nat := (a + b) % prime

/-- The difference of two elements. -/
def sub (a b : Nat) : Nat := (a + (prime - b % prime)) % prime

/-- The product of two elements. -/
def mul (a b : Nat) : Nat := a * b % prime

/-- The power of an element, by squaring. -/
def pow (a e : Nat) : Nat :=
  if e = 0 then 1
  else
    let half := pow (mul a a) (e / 2)
    if e % 2 = 1 then mul a half else half
termination_by e

/-- The inverse of an element, and zero for zero. -/
def inverse (a : Nat) : Nat := pow a (prime - 2)

/-- A square root of minus one. -/
def rootOfMinusOne : Nat := pow 2 ((prime - 1) / 4)

/-- The even one of the two square roots of `u / v`, if there is one; `v` is not zero. -/
def rootOfRatio? (u v : Nat) : Option Nat :=
  -- With `p` for the prime, `u v³ (u v⁷) ^ ((p - 5) / 8)` is a root up to a root of minus one.
  let v3 := mul (mul v v) v
  let candidate := mul (mul u v3) (pow (mul u (mul v3 (mul v3 v))) ((prime - 5) / 8))
  let even (x : Nat) : Nat := if x % 2 = 1 then sub 0 x else x
  let square := mul v (mul candidate candidate)
  if square = u then some (even candidate)
  else if square = sub 0 u then some (even (mul candidate rootOfMinusOne))
  else none

/-- The lowest `count` bits of a number, most significant first. -/
def bitsOf (count value : Nat) : List Bool :=
  (List.range count).reverse.map value.testBit

end Relay.Crypto.Curve25519
