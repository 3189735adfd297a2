import Relay.Message.Basic

/-!
# `Relay.Message.Codec`: the packed form of a message

A packed message is a head of 96 bytes followed by the body:

    flag 4 | timestamp 8 | size 4 | index 4 | count 4 | sender 4 | recipient 4 | token 64 | body

All numbers stand least significant byte first. The size is the length of the body and is not a
field of `Message`. `Message.pack` refuses a body above 160 bytes; `Message.unpack` accepts exactly
the packed forms and tells the three ways apart in which bytes fail to be one.
-/

set_option autoImplicit false

namespace Relay

/-- Why a message cannot be packed, or bytes are no packed message. -/
inductive CodecError where
  /-- The bytes end inside the head. -/
  | tooShort (expected actual : Nat)
  /-- The body is longer than a message may carry. -/
  | bodyTooLarge (max actual : Nat)
  /-- The head declares another body size than the bytes that follow it. -/
  | sizeMismatch (declared actual : Nat)
deriving DecidableEq

/-- The wording of a codec error. -/
def CodecError.message : CodecError → String
  | tooShort _ _ => "message too short"
  | bodyTooLarge max actual => s!"body too large: max {max}, got {actual}"
  | sizeMismatch declared actual =>
    s!"size mismatch: header declares {declared}, found {actual}"

namespace Message

/-- The most bytes that a packed message has. -/
def maxSize : Nat := 256

/-- The number of bytes before the body. -/
def headSize : Nat := 4 * 6 + 8 + tokenSize

/-- The most bytes that a body has. -/
def maxBodySize : Nat := maxSize - headSize

/-- The head of the packed form: all that stands before the body. -/
def head (m : Message) : Bytes :=
  m.flag.bytes ++ word64 m.timestamp ++ littleEndian 4 m.body.length ++ word32 m.index ++
    word32 m.count ++ word32 m.sender ++ word32 m.recipient ++ m.token.bytes

/-- The packed form of a message, unless its body is too large. -/
def pack (m : Message) : Except CodecError Bytes :=
  if m.body.length > maxBodySize then .error (.bodyTooLarge maxBodySize m.body.length)
  else .ok (m.head ++ m.body)

/-- The `size` bytes of a packed message that start at position `start`. -/
def slice (data : Bytes) (start size : Nat) : Bytes := (data.drop start).take size

/-- The body size that the head of a packed message declares. -/
def declaredSize (data : Bytes) : Nat := ofLittleEndian (slice data 12 4)

/-- The message whose packed form the bytes are. -/
def unpack (data : Bytes) : Except CodecError Message :=
  if short : data.length < headSize then .error (.tooShort headSize data.length)
  else if declaredSize data > maxBodySize then
    .error (.bodyTooLarge maxBodySize (declaredSize data))
  else if declaredSize data ≠ data.length - headSize then
    .error (.sizeMismatch (declaredSize data) (data.length - headSize))
  else
    .ok {
      flag := ⟨ofWord32 (slice data 0 4)⟩
      timestamp := ofWord64 (slice data 4 8)
      index := ofWord32 (slice data 16 4)
      count := ofWord32 (slice data 20 4)
      sender := ofWord32 (slice data 24 4)
      recipient := ofWord32 (slice data 28 4)
      token := ⟨slice data 32 tokenSize, by
        simp only [headSize, tokenSize] at short ⊢
        simp only [slice, List.length_take, List.length_drop]
        omega⟩
      body := data.drop headSize
    }

end Message

end Relay
