import Relay.Crypto.Aes

/-!
# `Relay.Crypto.Gcm`: authenticated encryption with AES-256-GCM

The plaintext is masked with encrypted counter blocks, and a tag of 16 bytes, a polynomial hash of
the ciphertext under a masked key, follows it. Opening recomputes the tag from the ciphertext and
gives the plaintext only if the tags agree. Nothing is authenticated besides the ciphertext.
-/

set_option autoImplicit false

namespace Relay.Crypto.Gcm

/-- The number of bytes of a nonce. -/
def nonceSize : Nat := 12

/-- The number of bytes by which a ciphertext is longer than its plaintext. -/
def tagSize : Nat := 16

/-! ### The polynomial hash -/

/-- The product of two elements of the field of `2 ^ 128` elements, whose bits count from the most
significant one down: the sum of `a`, divided by `x` again and again, over the lowest `bits` bits
of `b` that are set, most significant first. -/
def multiplySteps (b : Nat) : Nat → Nat → Nat → Nat
  | 0, _, sum => sum
  | bits + 1, a, sum =>
    multiplySteps b bits ((a >>> 1) ^^^ (if a % 2 = 1 then 0xe1 <<< 120 else 0))
      (if b.testBit bits then sum ^^^ a else sum)

/-- The product of two elements of the field. -/
def multiply (a b : Nat) : Nat := multiplySteps b 128 a 0

/-- The hash of whole and partial blocks, the latter filled up with zeros. -/
def polynomial (key : Nat) (input : List Bytes) : Nat :=
  input.foldl (fun sum block => multiply (sum ^^^ ofBigEndian (Octets.padded 16 block).bytes) key) 0

/-! ### Masking -/

/-- The encrypted counter blocks from the given counter on, as many as blocks are needed. -/
def keystream (keys : List Bytes) (nonce : Bytes) (counter : Nat) : Nat → Bytes
  | 0 => []
  | count + 1 =>
    (Aes.encrypt keys (nonce ++ bigEndian 4 counter)).bytes ++ keystream keys nonce (counter + 1) count

/-- Masks or unmasks a text. -/
def mask (keys : List Bytes) (nonce text : Bytes) : Bytes :=
  -- Counter value one masks the tag.
  xorBytes text (keystream keys nonce 2 ((text.length + 15) / 16))

/-- The tag of a ciphertext. -/
def tag (keys : List Bytes) (nonce ciphertext : Bytes) : Bytes :=
  let key := ofBigEndian (Aes.encrypt keys (List.replicate 16 0)).bytes
  let lengths := bigEndian 8 0 ++ bigEndian 8 (8 * ciphertext.length)
  xorBytes (bigEndian 16 (polynomial key (blocks 16 ciphertext ++ [lengths])))
    (Aes.encrypt keys (nonce ++ bigEndian 4 1)).bytes

theorem length_keystream (keys : List Bytes) (nonce : Bytes) (counter count : Nat) :
    (keystream keys nonce counter count).length = 16 * count := by
  induction count generalizing counter with
  | zero => rfl
  | succ count ih =>
    simp only [keystream, List.length_append, Octets.length_eq, ih]
    omega

@[simp] theorem length_mask (keys : List Bytes) (nonce text : Bytes) :
    (mask keys nonce text).length = text.length := by
  simp only [mask, xorBytes, List.length_zipWith, length_keystream]
  omega

@[simp] theorem length_tag (keys : List Bytes) (nonce ciphertext : Bytes) :
    (tag keys nonce ciphertext).length = tagSize := by
  simp [tag, xorBytes, Octets.length_eq, bigEndian, tagSize]

/-! ### Sealing and opening -/

/-- The ciphertext of a plaintext, followed by its tag. -/
def encrypt (key nonce plaintext : Bytes) : Bytes :=
  let keys := Aes.roundKeys key
  let ciphertext := mask keys nonce plaintext
  ciphertext ++ tag keys nonce ciphertext

/-- The plaintext of a ciphertext followed by its tag, if the tag is right. -/
def decrypt? (key nonce sealed : Bytes) : Option Bytes :=
  let keys := Aes.roundKeys key
  let ciphertext := sealed.take (sealed.length - tagSize)
  if sealed.length < tagSize then none
  else if sealed.drop (sealed.length - tagSize) = tag keys nonce ciphertext then
    some (mask keys nonce ciphertext)
  else none

@[simp] theorem length_encrypt (key nonce plaintext : Bytes) :
    (encrypt key nonce plaintext).length = plaintext.length + tagSize := by
  simp [encrypt]

end Relay.Crypto.Gcm
