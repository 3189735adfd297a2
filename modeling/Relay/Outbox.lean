import Relay.Message.Basic
import Relay.Violation

/-!
# `Relay.Outbox`: what waits to be written to a connection

Every connection has a queue of messages that its writer sends one after the other. The queue is
bounded: a message for a full queue is refused, and so is one for a queue whose writer is gone. Its
view is the list of waiting messages, and every operation has one lemma that says what it does to
it; what is put in never makes a queue longer than it may be (`length_waiting_push_le`).
-/

set_option autoImplicit false

namespace Relay

/-- The queue of messages for a connection. -/
structure Outbox where
  /-- The most messages that wait at a time. -/
  capacity : Nat
  /-- The waiting messages, the next to be sent first. -/
  waiting : List Message := []
  /-- Whether somebody still takes messages out. -/
  isOpen : Bool := true
deriving DecidableEq

/-- What becomes of a message that is put into a queue. -/
inductive Delivery where
  /-- It waits in the queue. -/
  | queued
  /-- The queue is full. -/
  | full
  /-- Nobody takes messages out any more. -/
  | closed
deriving DecidableEq

namespace Outbox

/-- The most messages that a queue may have room for. -/
def capacityLimit : Nat := 2305843009213693951

/-- An empty queue with room for so many messages: for one at least, and for no more than the limit.
-/
def ofCapacity? (capacity : Nat) : Except Violation Outbox :=
  if capacity = 0 then .error .queueWithoutRoom
  else if capacity > capacityLimit then .error (.queueTooLarge capacityLimit)
  else .ok { capacity }

/-- What putting a message in would come to. -/
def delivery (box : Outbox) : Delivery :=
  if !box.isOpen then .closed
  else if box.waiting.length ≥ box.capacity then .full
  else .queued

/-- The queue with a message put in last, unless it is refused. -/
def push (box : Outbox) (m : Message) : Outbox :=
  if box.delivery = .queued then { box with waiting := box.waiting ++ [m] } else box

/-- The message that is next to be sent. -/
def next? (box : Outbox) : Option Message := box.waiting.head?

/-- The queue with the next message taken out. -/
def dropNext (box : Outbox) : Outbox := { box with waiting := box.waiting.tail }

/-- The queue with all messages taken out. -/
def drain (box : Outbox) : Outbox := { box with waiting := [] }

/-- The queue after its writer has gone: what waited is lost. -/
def close (box : Outbox) : Outbox := { box with waiting := [], isOpen := false }

/-- A queue can be made just when it has room for a message and for no more than the limit. -/
theorem ofCapacity?_eq_ok_iff {capacity : Nat} {box : Outbox} :
    ofCapacity? capacity = .ok box ↔
      0 < capacity ∧ capacity ≤ capacityLimit ∧ box = { capacity } := by
  unfold ofCapacity?
  constructor
  · intro h
    split at h
    · cases h
    · split at h
      · cases h
      · cases h
        exact ⟨by omega, by omega, rfl⟩
  · rintro ⟨hpos, hle, rfl⟩
    rw [if_neg (by omega), if_neg (by omega)]

/-! ### What the operations do to the waiting messages -/

@[simp] theorem waiting_push (box : Outbox) (m : Message) :
    (box.push m).waiting =
      if box.delivery = .queued then box.waiting ++ [m] else box.waiting := by
  unfold push
  split <;> rfl

@[simp] theorem capacity_push (box : Outbox) (m : Message) :
    (box.push m).capacity = box.capacity := by
  unfold push
  split <;> rfl

/-- A queue never holds more than its capacity. -/
theorem length_waiting_push_le (box : Outbox) (m : Message)
    (h : box.waiting.length ≤ box.capacity) :
    (box.push m).waiting.length ≤ (box.push m).capacity := by
  rw [waiting_push, capacity_push]
  split
  · rename_i hq
    unfold delivery at hq
    split at hq
    · cases hq
    · split at hq
      · cases hq
      · simp only [List.length_append, List.length_singleton]
        omega
  · exact h

@[simp] theorem waiting_dropNext (box : Outbox) : box.dropNext.waiting = box.waiting.tail := rfl

@[simp] theorem waiting_drain (box : Outbox) : box.drain.waiting = [] := rfl

@[simp] theorem waiting_close (box : Outbox) : box.close.waiting = [] := rfl

end Outbox

end Relay
