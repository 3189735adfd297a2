import Relay.Proofs.Store.Mailbox

/-!
# `Relay.Proofs.Store.History`: what is in a mailbox after all that was done to it

A mailbox holds what was added and not removed since, in the order in which it was added
(`Mailbox.messages_after`). `MailboxOp.surviving` says so of the history alone: it numbers the
messages in turn and looks ahead for what removes them.

A selection is listed by timestamp. `Mailbox.byTimestamp_select` says of it all there is to say: it
has the messages that are wanted, each as often as it is there, and messages of one timestamp stay
in the order in which they were added.
-/

set_option autoImplicit false

namespace Relay

/-- What is done to a mailbox. -/
inductive MailboxOp where
  /-- A message is added. -/
  | add (timestamp : UInt64) (author recipient : UserId) (body : Bytes)
  /-- The messages of some numbers are removed. -/
  | delete (ids : List UInt64)
  /-- All messages are removed. -/
  | clear

namespace Mailbox

/-- Does one thing to a mailbox. -/
def apply (b : Mailbox) : MailboxOp → Mailbox
  | .add timestamp author recipient body => (b.add timestamp author recipient body).2
  | .delete ids => b.delete ids
  | .clear => b.clear

/-- The mailbox after all that was done to it. -/
def after (ops : List MailboxOp) : Mailbox := ops.foldl apply {}

end Mailbox

namespace MailboxOp

/-- Whether a message of the given number is removed. -/
def removes (id : UInt64) : MailboxOp → Bool
  | add .. => false
  | delete ids => ids.contains id
  | clear => true

/-- The messages that are added, numbered in turn, without those that are removed later. -/
def surviving : UInt64 → List MailboxOp → List StoredMessage
  | _, [] => []
  | next, add timestamp author recipient body :: rest =>
    if rest.any (removes next) then surviving (next + 1) rest
    else ⟨next, timestamp, author, recipient, body⟩ :: surviving (next + 1) rest
  | next, delete _ :: rest => surviving next rest
  | next, clear :: rest => surviving next rest

/-- How many messages are added. -/
def additions : List MailboxOp → Nat
  | [] => 0
  | add .. :: rest => additions rest + 1
  | delete _ :: rest => additions rest
  | clear :: rest => additions rest

end MailboxOp

namespace Mailbox

variable {b : Mailbox} {n : Nat}

/-! ### Histories -/

/-- What is there is what was there and is not removed, and after it what is added. -/
theorem messages_foldl_apply (b : Mailbox) (ops : List MailboxOp) :
    (ops.foldl apply b).messages =
      (b.messages.filter fun x => !ops.any (MailboxOp.removes x.id)) ++
        MailboxOp.surviving b.nextId ops := by
  induction ops generalizing b with
  | nil => simp [MailboxOp.surviving]
  | cons op rest ih =>
    rw [List.foldl_cons, ih]
    cases op with
    | add timestamp author recipient body =>
      -- The new message comes last of those that are there, so its place is between the two.
      have hnew : (b.apply (.add timestamp author recipient body)).messages =
          b.messages ++ [⟨b.nextId, timestamp, author, recipient, body⟩] := rfl
      have hnext : (b.apply (.add timestamp author recipient body)).nextId = b.nextId + 1 := rfl
      rw [hnew, hnext, List.filter_append, List.append_assoc]
      congr 1
      simp only [MailboxOp.surviving, List.filter_singleton]
      cases rest.any (MailboxOp.removes b.nextId) <;> rfl
    | delete ids =>
      have hnext : (b.apply (.delete ids)).nextId = b.nextId := rfl
      have hkept : (b.apply (.delete ids)).messages =
          b.messages.filter fun x => !ids.contains x.id := rfl
      rw [hnext, hkept, List.filter_filter]
      congr 1
      apply List.filter_congr
      intro x _
      rw [List.any_cons, Bool.not_or]
      exact Bool.and_comm _ _
    | clear =>
      have hnone : (b.messages.filter fun x => !(MailboxOp.clear :: rest).any
          (MailboxOp.removes x.id)) = [] := List.filter_eq_nil_iff.2 fun x _ => by
        simp [MailboxOp.removes]
      rw [hnone]
      rfl

/-- A mailbox holds what was added and not removed since, in the order in which it was added. -/
theorem messages_after (ops : List MailboxOp) :
    (after ops).messages = MailboxOp.surviving 0 ops := messages_foldl_apply {} ops

/-- A history goes on. -/
theorem after_concat (ops : List MailboxOp) (op : MailboxOp) :
    after (ops ++ [op]) = (after ops).apply op := List.foldl_append

/-- As long as no more messages are added than there are numbers, no number is used twice. -/
theorem hasRoom_foldl_apply {ops : List MailboxOp}
    (h : b.HasRoom (MailboxOp.additions ops + n)) : (ops.foldl apply b).HasRoom n := by
  induction ops generalizing b with
  | nil => exact h.mono (Nat.le_add_left _ _)
  | cons op rest ih =>
    rw [List.foldl_cons]
    apply ih
    cases op with
    | add timestamp author recipient body =>
      rw [MailboxOp.additions, Nat.add_right_comm] at h
      exact h.add timestamp author recipient body
    | delete ids => exact h.of_sublist List.filter_sublist rfl
    | clear => exact h.of_sublist (List.nil_sublist _) rfl

theorem hasRoom_after {ops : List MailboxOp} (h : MailboxOp.additions ops ≤ UInt64.size) :
    (after ops).HasRoom 0 :=
  hasRoom_foldl_apply ⟨h, .nil, List.forall_mem_nil _⟩

/-! ### The order of a selection -/

/-- A list has the messages of another in the order of their timestamps, and messages of one
timestamp in the order in which they are there. -/
structure ByTimestamp (found stored : List StoredMessage) : Prop where
  /-- Each is there as often as in the other. -/
  perm : found.Perm stored
  ordered : found.Pairwise fun x y => x.timestamp ≤ y.timestamp
  stable : ∀ timestamp : UInt64, found.filter (fun x => x.timestamp = timestamp) =
    stored.filter fun x => x.timestamp = timestamp

/-- What is selected is listed by timestamp, and for equal timestamps as it was added. -/
theorem byTimestamp_select (b : Mailbox) (query : MailboxQuery) :
    ByTimestamp (b.select query) (b.messages.filter query.selects) where
  perm := List.mergeSort_perm _ _
  ordered := b.pairwise_select query
  stable timestamp := by
    -- The messages of one timestamp are in order already, so sorting leaves them as they are.
    let wanted := b.messages.filter query.selects
    let same := wanted.filter fun x => x.timestamp = timestamp
    have hsame : ∀ x ∈ same, x.timestamp = timestamp := fun x hx =>
      of_decide_eq_true (List.mem_filter.1 hx).2
    have hordered : same.Pairwise fun x y => decide (x.timestamp ≤ y.timestamp) = true := by
      refine List.pairwise_iff_forall_sublist.2 fun {x y} hsub => ?_
      rw [hsame x (hsub.subset (by simp)), hsame y (hsub.subset (by simp))]
      exact decide_eq_true (UInt64.le_refl timestamp)
    have hkept : same.Sublist (b.select query) :=
      List.sublist_mergeSort timestamp_le_trans timestamp_le_total hordered List.filter_sublist
    have hself : same.filter (fun x => x.timestamp = timestamp) = same :=
      List.filter_eq_self.2 fun x hx => decide_eq_true (hsame x hx)
    have hsub := hkept.filter fun x => decide (x.timestamp = timestamp)
    rw [hself] at hsub
    -- There are no others of this timestamp.
    have hperm : (b.select query).Perm wanted := List.mergeSort_perm _ _
    exact (hsub.eq_of_length (hperm.filter _).length_eq.symm).symm

end Mailbox

end Relay
