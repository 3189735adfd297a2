import Relay.Message.Basic

/-!
# `Relay.Store.Mailbox`: messages that wait to be fetched

A relayed message is kept until its recipient fetches it. Messages are numbered in the order of
their arrival. A `MailboxQuery` selects messages by addressee or by author, those later than a
watermark only; what it selects is listed by timestamp, and messages of one timestamp in the order
of their arrival.

The view of a mailbox is the list of its messages: `mem_select` says which of them a query gives and
`pairwise_select` in which order.
-/

set_option autoImplicit false

namespace Relay

/-- A message that waits to be fetched. -/
@[ext] structure StoredMessage where
  /-- Its number. -/
  id : UInt64
  /-- The timestamp that its author gave it. -/
  timestamp : UInt64
  /-- Its author. -/
  author : UserId
  /-- Its addressee. -/
  recipient : UserId
  /-- What it says. -/
  body : Bytes
deriving DecidableEq

/-- Which messages are wanted. -/
inductive MailboxQuery where
  /-- Those for a user that are later than a watermark. -/
  | addressedTo (user : UserId) (after : UInt64)
  /-- Those of an author that the viewer wrote or received and that are later than a watermark. -/
  | authoredBy (author viewer : UserId) (after : UInt64)
deriving DecidableEq

/-- Whether a message is wanted. -/
def MailboxQuery.selects : MailboxQuery → StoredMessage → Bool
  | addressedTo user after, m => m.recipient = user && m.timestamp > after
  | authoredBy author viewer after, m =>
    m.author = author && (m.recipient = viewer || author = viewer) && m.timestamp > after

/-- The waiting messages, in the order of their arrival. -/
structure Mailbox where
  /-- The messages. -/
  messages : List StoredMessage := []
  /-- The number of the next message. -/
  nextId : UInt64 := 0
deriving DecidableEq

namespace Mailbox

/-- The number that the next message gets, and the mailbox with it. -/
def add (b : Mailbox) (timestamp : UInt64) (author recipient : UserId) (body : Bytes) :
    UInt64 × Mailbox :=
  (b.nextId, ⟨b.messages ++ [⟨b.nextId, timestamp, author, recipient, body⟩], b.nextId + 1⟩)

/-- The wanted messages, the earliest first. -/
def select (b : Mailbox) (query : MailboxQuery) : List StoredMessage :=
  (b.messages.filter query.selects).mergeSort fun m n => m.timestamp ≤ n.timestamp

/-- The mailbox without the messages of the given numbers. -/
def delete (b : Mailbox) (ids : List UInt64) : Mailbox :=
  { b with messages := b.messages.filter fun m => !ids.contains m.id }

/-- The mailbox without any message. Numbers go on from where they were. -/
def clear (b : Mailbox) : Mailbox := { b with messages := [] }

/-! ### What the operations do to the messages -/

@[simp] theorem messages_add (b : Mailbox) (timestamp : UInt64) (author recipient : UserId)
    (body : Bytes) :
    (b.add timestamp author recipient body).2.messages =
      b.messages ++ [⟨b.nextId, timestamp, author, recipient, body⟩] := rfl

@[simp] theorem mem_select (b : Mailbox) (query : MailboxQuery) (m : StoredMessage) :
    m ∈ b.select query ↔ m ∈ b.messages ∧ query.selects m := by
  simp [select]

/-! Timestamps are an order to sort by. -/

theorem timestamp_le_trans (x y z : StoredMessage) (hxy : decide (x.timestamp ≤ y.timestamp) = true)
    (hyz : decide (y.timestamp ≤ z.timestamp) = true) :
    decide (x.timestamp ≤ z.timestamp) = true :=
  decide_eq_true (UInt64.le_trans (of_decide_eq_true hxy) (of_decide_eq_true hyz))

theorem timestamp_le_total (x y : StoredMessage) :
    (decide (x.timestamp ≤ y.timestamp) || decide (y.timestamp ≤ x.timestamp)) = true := by
  rw [Bool.or_eq_true, decide_eq_true_eq, decide_eq_true_eq]
  exact UInt64.le_total x.timestamp y.timestamp

/-- What is selected is listed by timestamp. -/
theorem pairwise_select (b : Mailbox) (query : MailboxQuery) :
    (b.select query).Pairwise fun m n => m.timestamp ≤ n.timestamp := by
  have h : (b.select query).Pairwise fun m n => decide (m.timestamp ≤ n.timestamp) = true :=
    List.pairwise_mergeSort timestamp_le_trans timestamp_le_total _
  exact h.imp of_decide_eq_true

/-- A selection of messages that are different has each once. -/
theorem nodup_select {b : Mailbox} (h : b.messages.Nodup) (query : MailboxQuery) :
    (b.select query).Nodup :=
  (List.mergeSort_perm _ _).nodup_iff.2 (h.filter _)

@[simp] theorem mem_messages_delete (b : Mailbox) (ids : List UInt64) (m : StoredMessage) :
    m ∈ (b.delete ids).messages ↔ m ∈ b.messages ∧ m.id ∉ ids := by
  simp [delete]

@[simp] theorem messages_clear (b : Mailbox) : b.clear.messages = [] := rfl

@[simp] theorem nextId_add (b : Mailbox) (timestamp : UInt64) (author recipient : UserId)
    (body : Bytes) : (b.add timestamp author recipient body).2.nextId = b.nextId + 1 := rfl

@[simp] theorem nextId_delete (b : Mailbox) (ids : List UInt64) :
    (b.delete ids).nextId = b.nextId := rfl

@[simp] theorem nextId_clear (b : Mailbox) : b.clear.nextId = b.nextId := rfl

end Mailbox

end Relay
