import Relay.Bytes

/-!
# `Relay.Text.Base64`: bytes as text

Three bytes make four characters of the standard alphabet. The text of a public key is filled up
with `=` to a multiple of four characters (`encodePadded`); salts and digests of password records
are not (`encode`). Reading accepts exactly what `encode` writes, so every byte string has one
text.
-/

set_option autoImplicit false

namespace Relay.Base64

/-- The 64 digits in order. -/
def alphabet : List Char :=
  "ABCDEFGHIJKLMNOPQRSTUVWXYZabcdefghijklmnopqrstuvwxyz0123456789+/".toList

/-- The digit of a number, taken modulo 64. -/
def digit (n : Nat) : Char := alphabet.getD (n % 64) 'A'

/-- The number of a digit. -/
def value? (c : Char) : Option Nat := alphabet.findIdx? (· == c)

/-- The characters of a byte string. -/
def encodeChars : Bytes → List Char
  | a :: b :: c :: rest =>
    digit (a.toNat / 4) :: digit (a.toNat * 16 + b.toNat / 16) ::
      digit (b.toNat * 4 + c.toNat / 64) :: digit c.toNat :: encodeChars rest
  | [a, b] => [digit (a.toNat / 4), digit (a.toNat * 16 + b.toNat / 16), digit (b.toNat * 4)]
  | [a] => [digit (a.toNat / 4), digit (a.toNat * 16)]
  | [] => []

/-- The text of a byte string. -/
def encode (bytes : Bytes) : String := String.ofList (encodeChars bytes)

/-- The text of a byte string, filled up to a multiple of four characters. -/
def encodePadded (bytes : Bytes) : String :=
  let chars := encodeChars bytes
  String.ofList (chars ++ List.replicate ((4 - chars.length % 4) % 4) '=')

/-- The bytes that a list of digits stands for; bits that do not fill a byte are left out. -/
def decodeValues : List Nat → Bytes
  | a :: b :: c :: d :: rest =>
    UInt8.ofNat (a * 4 + b / 16) :: UInt8.ofNat (b * 16 + c / 4) :: UInt8.ofNat (c * 64 + d) ::
      decodeValues rest
  | [a, b, c] => [UInt8.ofNat (a * 4 + b / 16), UInt8.ofNat (b * 16 + c / 4)]
  | [a, b] => [UInt8.ofNat (a * 4 + b / 16)]
  | _ => []

/-- The byte string that a text is written for. -/
def decode? (text : String) : Option Bytes :=
  match text.toList.mapM value? with
  | none => none
  | some values =>
    let bytes := decodeValues values
    if encode bytes = text then some bytes else none

end Relay.Base64
