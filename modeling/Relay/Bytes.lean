/-!
# `Relay.Bytes`: byte strings, fixed-size fields and numbers in bytes

A frame, a key, a name and a token are all strings of bytes. `Bytes` is a string of any length;
`Octets n` is one of exactly `n` bytes, so a field of the wrong size cannot be built.

Numbers stand on the wire with their least significant byte first (`littleEndian`), and in a few
cryptographic formats with the most significant byte first (`bigEndian`). Both are defined on
natural numbers for any width; reading back gives the number modulo the
capacity of the field (`ofLittleEndian_littleEndian`), and writing what was read gives the bytes
again (`littleEndian_ofLittleEndian`).

`blocks` cuts a list into pieces of one size, as digests, ciphers and directory pages need it.
-/

set_option autoImplicit false

namespace Relay

/-- A string of bytes of any length. -/
abbrev Bytes := List UInt8

/-! ### Numbers as bytes -/

/-- The lowest `width` bytes of a number, least significant first. -/
def littleEndian : Nat → Nat → Bytes
  | 0, _ => []
  | width + 1, value => UInt8.ofNat value :: littleEndian width (value / 256)

/-- The number that the bytes stand for, least significant first. -/
def ofLittleEndian : Bytes → Nat
  | [] => 0
  | b :: rest => b.toNat + 256 * ofLittleEndian rest

/-- The lowest `width` bytes of a number, most significant first. -/
def bigEndian (width value : Nat) : Bytes := (littleEndian width value).reverse

/-- The number that the bytes stand for, most significant first. -/
def ofBigEndian (bytes : Bytes) : Nat := ofLittleEndian bytes.reverse

/-- A 32-bit word as four bytes, least significant first. -/
def word32 (value : UInt32) : Bytes := littleEndian 4 value.toNat

/-- A 64-bit word as eight bytes, least significant first. -/
def word64 (value : UInt64) : Bytes := littleEndian 8 value.toNat

/-- The 32-bit word that up to four bytes stand for. -/
def ofWord32 (bytes : Bytes) : UInt32 := UInt32.ofNat (ofLittleEndian bytes)

/-- The 64-bit word that up to eight bytes stand for. -/
def ofWord64 (bytes : Bytes) : UInt64 := UInt64.ofNat (ofLittleEndian bytes)

/-- How many numbers a field of so many bytes can hold. -/
def capacity : Nat → Nat
  | 0 => 1
  | width + 1 => 256 * capacity width

@[simp] theorem length_littleEndian (width value : Nat) :
    (littleEndian width value).length = width := by
  induction width generalizing value with
  | zero => rfl
  | succ width ih => simp [littleEndian, ih]

@[simp] theorem length_word32 (value : UInt32) : (word32 value).length = 4 := by
  simp [word32]

@[simp] theorem length_word64 (value : UInt64) : (word64 value).length = 8 := by
  simp [word64]

theorem ofLittleEndian_lt (bytes : Bytes) : ofLittleEndian bytes < capacity bytes.length := by
  induction bytes with
  | nil => simp [ofLittleEndian, capacity]
  | cons b rest ih =>
    have hb : b.toNat < 256 := b.toNat_lt
    simp only [ofLittleEndian, List.length_cons, capacity]
    omega

/-- Reading back what was written gives the number modulo the capacity of the field. -/
theorem ofLittleEndian_littleEndian (width value : Nat) :
    ofLittleEndian (littleEndian width value) = value % capacity width := by
  induction width generalizing value with
  | zero => simp [littleEndian, ofLittleEndian, capacity, Nat.mod_one]
  | succ width ih =>
    have hb : (UInt8.ofNat value).toNat = value % 256 := by simp
    rw [littleEndian, ofLittleEndian, ih, hb, capacity, Nat.mod_mul]

/-- Writing what was read gives the same bytes. -/
theorem littleEndian_ofLittleEndian (bytes : Bytes) :
    littleEndian bytes.length (ofLittleEndian bytes) = bytes := by
  induction bytes with
  | nil => rfl
  | cons b rest ih =>
    have hb : b.toNat < 256 := b.toNat_lt
    have hlow : UInt8.ofNat (b.toNat + 256 * ofLittleEndian rest) = b := by
      apply UInt8.toNat_inj.1
      simp only [UInt8.toNat_ofNat', Nat.reducePow]
      omega
    have hhigh : (b.toNat + 256 * ofLittleEndian rest) / 256 = ofLittleEndian rest := by omega
    simp only [List.length_cons, ofLittleEndian, littleEndian, hlow, hhigh, ih]

theorem ofWord32_word32 (value : UInt32) : ofWord32 (word32 value) = value := by
  have h : value.toNat % capacity 4 = value.toNat := Nat.mod_eq_of_lt value.toNat_lt
  rw [ofWord32, word32, ofLittleEndian_littleEndian, h, UInt32.ofNat_toNat]

theorem ofWord64_word64 (value : UInt64) : ofWord64 (word64 value) = value := by
  have h : value.toNat % capacity 8 = value.toNat := Nat.mod_eq_of_lt value.toNat_lt
  rw [ofWord64, word64, ofLittleEndian_littleEndian, h, UInt64.ofNat_toNat]

theorem word32_ofWord32 {bytes : Bytes} (h : bytes.length = 4) :
    word32 (ofWord32 bytes) = bytes := by
  have hlt : ofLittleEndian bytes < UInt32.size := by
    have hcapacity := ofLittleEndian_lt bytes
    rwa [h] at hcapacity
  rw [word32, ofWord32, UInt32.toNat_ofNat_of_lt' hlt, ← h, littleEndian_ofLittleEndian]

theorem word64_ofWord64 {bytes : Bytes} (h : bytes.length = 8) :
    word64 (ofWord64 bytes) = bytes := by
  have hlt : ofLittleEndian bytes < UInt64.size := by
    have hcapacity := ofLittleEndian_lt bytes
    rwa [h] at hcapacity
  rw [word64, ofWord64, UInt64.toNat_ofNat_of_lt' hlt, ← h, littleEndian_ofLittleEndian]

/-! ### Bytewise operations -/

/-- Bytewise exclusive or, as long as the shorter operand. -/
def xorBytes (left right : Bytes) : Bytes := List.zipWith (· ^^^ ·) left right

/-! ### Cutting into blocks -/

/-- Cuts a list into consecutive blocks of the given size, the last of which may be shorter.
Blocks of size zero cut nothing off, so there are none. -/
def blocks {α : Type} (size : Nat) (items : List α) : List (List α) :=
  if items = [] ∨ size = 0 then []
  else items.take size :: blocks size (items.drop size)
termination_by items.length
decreasing_by
  rename_i h
  have : items.length ≠ 0 := fun e => h (.inl (List.eq_nil_of_length_eq_zero e))
  simp only [List.length_drop]
  omega

/-! ### Fields of a fixed size -/

/-- A string of exactly `n` bytes. -/
@[ext] structure Octets (n : Nat) where
  /-- The bytes, first to last. -/
  bytes : Bytes
  length_eq : bytes.length = n
deriving DecidableEq

namespace Octets

variable {n : Nat}

/-- The bytes as a field of size `n`, if there are exactly `n`. -/
def ofBytes? (n : Nat) (bytes : Bytes) : Option (Octets n) :=
  if h : bytes.length = n then some ⟨bytes, h⟩ else none

/-- A field of zeros. -/
def zero (n : Nat) : Octets n := ⟨List.replicate n 0, List.length_replicate⟩

/-- The first `n` bytes, with zeros in place of missing ones. -/
def padded (n : Nat) (bytes : Bytes) : Octets n :=
  ⟨bytes.take n ++ List.replicate (n - bytes.length) 0, by
    simp only [List.length_append, List.length_take, List.length_replicate]; omega⟩

/-- The lowest `n` bytes of a number, least significant first. -/
def ofNat (n : Nat) (value : Nat) : Octets n := ⟨littleEndian n value, length_littleEndian n value⟩

/-- The number that the bytes stand for, least significant first. -/
def toNat (field : Octets n) : Nat := ofLittleEndian field.bytes

theorem ofBytes?_bytes (field : Octets n) : ofBytes? n field.bytes = some field := by
  simp [ofBytes?, field.length_eq]

theorem padded_bytes (field : Octets n) : padded n field.bytes = field := by
  obtain ⟨bytes, rfl⟩ := field
  simp [padded]

/-- What follows a whole field does not matter. -/
theorem padded_append (field : Octets n) (rest : Bytes) :
    padded n (field.bytes ++ rest) = field := by
  obtain ⟨bytes, rfl⟩ := field
  simp [padded]

end Octets

end Relay
