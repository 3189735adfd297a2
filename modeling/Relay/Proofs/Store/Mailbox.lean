import Mathlib.Data.List.Nodup
import Relay.Routing.Request
import Relay.Store.Mailbox

/-!
# `Relay.Proofs.Store.Mailbox`: what a user may see of the mailbox

A user may see the messages that the user wrote or is to receive, in the order of their arrival, but
not their numbers: `Mailbox.viewOf`. Each operation does to the view what it does to the mailbox,
and needs to know nothing else. A query of the user selects from the view (`map_select`), and what
is removed after that is removed from the view (`viewOf_delete`), as long as no number is used
twice. `Mailbox.HasRoom` says so, together with the numbers that are still to be given.
-/

set_option autoImplicit false

namespace Relay

namespace StoredMessage

/-- Whether a user wrote a message or is to receive it. -/
def concerns (user : UserId) (m : StoredMessage) : Bool := m.author = user || m.recipient = user

/-- A message without its number. -/
def unnumbered (m : StoredMessage) : StoredMessage := { m with id := 0 }

@[simp] theorem timestamp_unnumbered (m : StoredMessage) :
    m.unnumbered.timestamp = m.timestamp := rfl
@[simp] theorem author_unnumbered (m : StoredMessage) : m.unnumbered.author = m.author := rfl
@[simp] theorem recipient_unnumbered (m : StoredMessage) :
    m.unnumbered.recipient = m.recipient := rfl
@[simp] theorem body_unnumbered (m : StoredMessage) : m.unnumbered.body = m.body := rfl

end StoredMessage

@[simp] theorem MailboxQuery.selects_unnumbered (query : MailboxQuery) (m : StoredMessage) :
    query.selects m.unnumbered = query.selects m := by
  cases query <;> rfl

/-- A request selects only what concerns its requester. -/
theorem FetchRequest.concerns_of_selects {request : FetchRequest} {user : UserId}
    {m : StoredMessage} (h : (request.query user).selects m) : m.concerns user := by
  unfold query at h
  split at h
  · simp only [MailboxQuery.selects, Bool.and_eq_true, decide_eq_true_eq] at h
    simp [StoredMessage.concerns, h.1]
  · simp only [MailboxQuery.selects, Bool.and_eq_true, Bool.or_eq_true, decide_eq_true_eq] at h
    obtain ⟨⟨hauthor, hrecipient | hself⟩, -⟩ := h
    · simp [StoredMessage.concerns, hrecipient]
    · simp [StoredMessage.concerns, hauthor, hself]

namespace Mailbox

variable {b : Mailbox} {n : Nat} {user : UserId} {query : MailboxQuery}

/-! ### Numbers -/

/-- No number is used twice, and that many numbers can still be given without using one twice. -/
structure HasRoom (b : Mailbox) (n : Nat) : Prop where
  few : n ≤ UInt64.size
  distinct : b.messages.Pairwise fun x y => x.id ≠ y.id
  fresh : ∀ x ∈ b.messages, ∀ k < n, x.id ≠ b.nextId + UInt64.ofNat k

theorem HasRoom.mono {k : Nat} (h : b.HasRoom n) (hle : k ≤ n) : b.HasRoom k where
  few := Nat.le_trans hle h.few
  distinct := h.distinct
  fresh := fun x hx i hi => h.fresh x hx i (Nat.lt_of_lt_of_le hi hle)

/-- Taking messages out leaves the numbers as they are. -/
theorem HasRoom.of_sublist {b' : Mailbox} (h : b.HasRoom n)
    (hsub : b'.messages.Sublist b.messages) (hnext : b'.nextId = b.nextId) : b'.HasRoom n where
  few := h.few
  distinct := h.distinct.sublist hsub
  fresh := fun x hx => hnext ▸ h.fresh x (hsub.subset hx)

/-- A message that is added takes one number. -/
theorem HasRoom.add (h : b.HasRoom (n + 1)) (timestamp : UInt64) (author recipient : UserId)
    (body : Bytes) : (b.add timestamp author recipient body).2.HasRoom n := by
  -- The numbers after the next one were among the numbers before.
  have hshift (k : Nat) : b.nextId + 1 + UInt64.ofNat k = b.nextId + UInt64.ofNat (k + 1) := by
    rw [UInt64.add_assoc, UInt64.ofNat_add, UInt64.add_comm 1]
    rfl
  constructor
  · exact Nat.le_of_succ_le h.few
  · rw [messages_add, List.pairwise_append]
    refine ⟨h.distinct, List.pairwise_singleton _ _, ?_⟩
    intro x hx y hy
    rw [List.mem_singleton.1 hy]
    simpa using h.fresh x hx 0 (Nat.succ_pos n)
  · intro x hx k hk
    rw [nextId_add, hshift]
    rw [messages_add, List.mem_append, List.mem_singleton] at hx
    rcases hx with hold | rfl
    · exact h.fresh x hold (k + 1) (Nat.succ_lt_succ hk)
    · intro hsame
      have hzero : UInt64.ofNat (k + 1) = 0 := UInt64.left_eq_add.1 hsame
      have hlt : k + 1 < UInt64.size := Nat.lt_of_lt_of_le (Nat.succ_lt_succ hk) h.few
      have hnumber := congrArg UInt64.toNat hzero
      rw [UInt64.toNat_ofNat_of_lt' hlt] at hnumber
      exact absurd hnumber (Nat.succ_ne_zero k)

/-- When what was selected is removed, exactly that is removed. -/
theorem messages_delete_select (h : b.HasRoom n) (query : MailboxQuery)
    (p : StoredMessage → Bool) :
    (b.delete (((b.select query).filter p).map StoredMessage.id)).messages =
      b.messages.filter fun m => !(query.selects m && p m) := by
  apply List.filter_congr
  intro m hm
  congr 1
  rw [Bool.eq_iff_iff]
  simp only [List.contains_iff_mem, List.mem_map, List.mem_filter, mem_select, Bool.and_eq_true]
  constructor
  · rintro ⟨x, ⟨⟨hx, hselects⟩, hp⟩, hid⟩
    have hnodup : (b.messages.map StoredMessage.id).Nodup := List.pairwise_map.2 h.distinct
    obtain rfl := List.inj_on_of_nodup_map hnodup hx hm hid
    exact ⟨hselects, hp⟩
  · rintro ⟨hselects, hp⟩
    exact ⟨m, ⟨⟨hm, hselects⟩, hp⟩, rfl⟩

/-! ### What a user may see -/

/-- What a user may see of a mailbox: the messages that the user wrote or is to receive, in the
order of their arrival and without their numbers. -/
def viewOf (user : UserId) (b : Mailbox) : List StoredMessage :=
  (b.messages.filter (StoredMessage.concerns user)).map StoredMessage.unnumbered

/-- A message that is added is seen by those whom it concerns. -/
theorem viewOf_add (b : Mailbox) (user : UserId) (timestamp : UInt64) (author recipient : UserId)
    (body : Bytes) :
    (b.add timestamp author recipient body).2.viewOf user =
      b.viewOf user ++
        [⟨0, timestamp, author, recipient, body⟩].filter (StoredMessage.concerns user) := by
  simp only [viewOf, messages_add, List.filter_append, List.map_append]
  congr 1
  show _ = List.filter _
    ([⟨b.nextId, timestamp, author, recipient, body⟩].map StoredMessage.unnumbered)
  rw [List.filter_map]
  rfl

/-- What a user selects is selected from what the user sees. -/
theorem map_select (b : Mailbox) (hquery : ∀ m, query.selects m → m.concerns user) :
    (b.select query).map StoredMessage.unnumbered =
      ((b.viewOf user).filter query.selects).mergeSort fun m n => m.timestamp ≤ n.timestamp := by
  have hfilter : (b.viewOf user).filter query.selects =
      (b.messages.filter query.selects).map StoredMessage.unnumbered := by
    rw [viewOf, List.filter_map, List.filter_filter]
    congr 1
    apply List.filter_congr
    intro m _
    simp only [Function.comp_apply, MailboxQuery.selects_unnumbered]
    cases hselects : query.selects m with
    | false => rfl
    | true => simp [hquery m hselects]
  rw [hfilter, select]
  exact List.map_mergeSort fun _ _ _ _ => rfl

/-- When what was selected is removed, it is removed from what the user sees. -/
theorem viewOf_delete (h : b.HasRoom n) (user : UserId) (query : MailboxQuery)
    (p : StoredMessage → Bool) (hp : ∀ m, p m.unnumbered = p m) :
    (b.delete (((b.select query).filter p).map StoredMessage.id)).viewOf user =
      (b.viewOf user).filter fun m => !(query.selects m && p m) := by
  rw [viewOf, messages_delete_select h, viewOf, List.filter_map, List.filter_filter,
    List.filter_filter]
  congr 1
  apply List.filter_congr
  intro m _
  simp only [Function.comp_apply, MailboxQuery.selects_unnumbered, hp]
  exact Bool.and_comm _ _

end Mailbox

end Relay
