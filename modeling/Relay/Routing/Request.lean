import Relay.Store.Mailbox

/-!
# `Relay.Routing.Request`: what requests carry in their bodies

A log-in and a registration carry a name and a password of sixteen bytes each. A request for
messages carries a mode, a watermark of eight bytes and, in mode one, the author that is asked for:

    0 | after 8                 messages for the requester
    1 | after 8 | author 4      messages of an author

What follows is ignored.
-/

set_option autoImplicit false

namespace Relay

/-- The name and the password at the start of a body. -/
def credentials? (body : Bytes) : Option (Username × Password) :=
  match Octets.ofBytes? nameSize (body.take nameSize),
      Octets.ofBytes? passwordSize ((body.drop nameSize).take passwordSize) with
  | some name, some password => some (name, password)
  | _, _ => none

/-- A body of a name and a password carries the two. -/
theorem credentials?_append (name : Username) (password : Password) :
    credentials? (name.bytes ++ password.bytes) = some (name, password) := by
  have hname : (name.bytes ++ password.bytes).take nameSize = name.bytes :=
    List.take_left' name.length_eq
  have hpassword : (name.bytes ++ password.bytes).drop nameSize = password.bytes :=
    List.drop_left' name.length_eq
  have htake : password.bytes.take passwordSize = password.bytes :=
    List.take_of_length_le (Nat.le_of_eq password.length_eq)
  simp only [credentials?, hname, hpassword, htake, Octets.ofBytes?_bytes]

/-- A request for messages. -/
structure FetchRequest where
  /-- Whether messages for the requester are wanted, or those of an author. -/
  mode : UInt8
  /-- Only messages later than this are wanted. -/
  after : UInt64
  /-- The requester, or the author. -/
  target : UserId
deriving DecidableEq

namespace FetchRequest

/-- Mode of a request for messages that are addressed to the requester. -/
def toMe : UInt8 := 0

/-- Mode of a request for messages of an author. -/
def fromUser : UInt8 := 1

/-- The request that a body of the given requester makes. -/
def parse? (requester : UserId) : Bytes → Option FetchRequest
  | [] => none
  | mode :: rest =>
    if mode = toMe then
      if rest.length < 8 then none else some ⟨mode, ofWord64 (rest.take 8), requester⟩
    else if mode = fromUser then
      if rest.length < 12 then none
      else some ⟨mode, ofWord64 (rest.take 8), ofWord32 ((rest.drop 8).take 4)⟩
    else none

/-- Every request is of one of the two modes. -/
theorem mode_of_parse? {requester : UserId} {body : Bytes} {r : FetchRequest}
    (h : parse? requester body = some r) : r.mode = toMe ∨ r.mode = fromUser := by
  unfold parse? at h
  split at h
  · cases h
  · split at h
    · rename_i hmode
      split at h
      · cases h
      · cases h
        exact .inl hmode
    · split at h
      · rename_i hmode
        split at h
        · cases h
        · cases h
          exact .inr hmode
      · cases h

/-- What the request selects for its requester. -/
def query (r : FetchRequest) (requester : UserId) : MailboxQuery :=
  if r.mode = toMe then .addressedTo requester r.after
  else .authoredBy r.target requester r.after

/-- The body that answers a request for which nothing is selected. -/
def marker (r : FetchRequest) : Bytes := r.mode :: word64 r.after ++ word32 r.target

end FetchRequest

end Relay
