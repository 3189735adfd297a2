import Relay.Message.Basic

/-!
# `Relay.Violation`: broken internal rules

Ids of connections and users come from pools, and queues have room for at least one message. A
caller that registers a connection id twice, gives back an id that it does not hold, asks for a
queue of a size that cannot be, or cuts a text within a character, breaks a rule on which the relay
relies; the relay then stops instead of going on with a damaged state.
-/

set_option autoImplicit false

namespace Relay

/-- A broken internal rule. -/
inductive Violation where
  /-- An id is not one of its pool. -/
  | idOutOfRange (id : UInt32)
  /-- An id is given back that nobody holds. -/
  | idReturnedFree (id : UInt32)
  /-- A connection id is registered while it is registered. -/
  | registeredTwice (id : ConnId)
  /-- A queue has no room for a message. -/
  | queueWithoutRoom
  /-- A queue has room for more messages than can be counted. -/
  | queueTooLarge (limit : Nat)
  /-- A text is cut within a character. -/
  | splitCharacter
deriving DecidableEq

/-- The wording of a broken rule. -/
def Violation.message : Violation → String
  | idOutOfRange id => s!"id {id} out of range"
  | idReturnedFree id => s!"id {id} returned while free"
  | registeredTwice id => s!"connection {id} registered twice"
  | queueWithoutRoom => "mpsc bounded channel requires buffer > 0"
  | queueTooLarge limit => s!"a semaphore may not have more than MAX_PERMITS permits ({limit})"
  | splitCharacter => "byte index is not a char boundary"

/-- The exit code of a process that stops for a broken rule. -/
def Violation.exitCode : Nat := 101

end Relay
