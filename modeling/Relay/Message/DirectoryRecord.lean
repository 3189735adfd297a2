import Relay.Message.Codec

/-!
# `Relay.Message.DirectoryRecord`: users as listed in a directory page

A listing of the directory is sent as records of 21 bytes, seven to a message: the user's id, a
byte that says whether the user is connected, and the name.
-/

set_option autoImplicit false

namespace Relay

/-- One user in a listing of the directory. -/
@[ext] structure DirectoryRecord where
  /-- The user's id. -/
  id : UserId
  /-- Whether the user has an authenticated connection. -/
  connected : Bool
  /-- The user's name. -/
  name : Username
deriving DecidableEq

namespace DirectoryRecord

/-- The number of bytes of a record. -/
def size : Nat := 4 + 1 + nameSize

/-- The number of records that one body holds. -/
def perMessage : Nat := Message.maxBodySize / size

/-- The packed form of a record. -/
def pack (r : DirectoryRecord) : Bytes :=
  word32 r.id ++ [if r.connected then 1 else 0] ++ r.name.bytes

/-- The record at the start of the bytes; what follows its 21 bytes is left aside, and every
byte but zero in the fifth place means that the user is connected. -/
def unpack (data : Bytes) : Except CodecError DirectoryRecord :=
  if short : data.length < size then .error (.tooShort size data.length)
  else
    .ok {
      id := ofWord32 (Message.slice data 0 4)
      connected := Message.slice data 4 1 != [0]
      name := ⟨Message.slice data 5 nameSize, by
        simp only [size, nameSize] at short ⊢
        simp only [Message.slice, List.length_take, List.length_drop]
        omega⟩
    }

end DirectoryRecord

end Relay
