import Relay.Message.Flag

/-!
# `Relay.Message.Basic`: messages and the parties they name

A `Message` is what clients and the relay say to each other. It names a sender and a recipient by
32-bit ids. Ids of users lie below `UserId.limit`; four larger ones are reserved for parties that
are not users: a client that has not logged in and the relay itself, each as sender and as
recipient.
-/

set_option autoImplicit false

namespace Relay

/-- The id of a user, or one of the reserved ids of a party that is no user. -/
abbrev UserId := UInt32

/-- The id of a connection. -/
abbrev ConnId := UInt32

namespace UserId

/-- The administrator's account, which exists from the start. -/
def admin : UserId := 0

/-- Every directory holds at most this many users, so all their ids lie below it. -/
def limit : UInt32 := 16384

/-- Recipient of replies to a client that is not known yet. -/
def toAnonymous : UserId := 0x7fffffff

/-- Recipient of requests to the relay itself. -/
def toRelay : UserId := 0x7ffffffe

/-- Sender of requests made before logging in. -/
def fromAnonymous : UserId := 0xffffffff

/-- Sender of every message that the relay itself writes. -/
def fromRelay : UserId := 0x7fffffff

end UserId

/-- The number of bytes of a token. -/
def tokenSize : Nat := 64

/-- The authenticator that every message carries. -/
abbrev Token := Octets tokenSize

/-- The token of a client that has not logged in: all zeros. -/
def Token.empty : Token := Octets.zero tokenSize

/-- The number of bytes of a name in credentials and in directory records. -/
def nameSize : Nat := 16

/-- The number of bytes of a password in credentials. -/
def passwordSize : Nat := 16

/-- A name as it stands in a message, padded with zeros. -/
abbrev Username := Octets nameSize

/-- A password as it stands in a message, padded with zeros. -/
abbrev Password := Octets passwordSize

/-- A name or a password carries at least this many bytes that are neither zero nor a space. -/
def minCredentialSize : Nat := 4

/-- The number of bytes of a field that are neither zero nor a space. -/
def nonBlank (field : Bytes) : Nat := field.countP fun b => b != 0 && b != 0x20

/-- A message between a client and the relay, or between two clients. -/
@[ext] structure Message where
  /-- What the message asks for or answers. -/
  flag : Flag
  /-- Milliseconds since the start of 1970, as its author says. -/
  timestamp : UInt64
  /-- The position of the message in a reply of several messages. -/
  index : UInt32 := 0
  /-- The number of messages in the reply. -/
  count : UInt32 := 1
  /-- The author. -/
  sender : UserId
  /-- The addressee. -/
  recipient : UserId
  /-- What authenticates the message. -/
  token : Token
  /-- What the message says. -/
  body : Bytes := []
deriving DecidableEq

end Relay
