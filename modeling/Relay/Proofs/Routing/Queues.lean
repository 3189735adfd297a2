import Relay.Proofs.Routing.Effect

/-!
# `Relay.Proofs.Routing.Queues`: what routing does to the queue of a connection

`Resumption.queue_cases` says which messages a step of routing adds to a queue. Here the queue is
looked at as a whole: `Outbox.Gains` says that messages came in at its end and that nothing else was
done to it, and that none comes into a queue that is closed. Whatever is routed on whatever
connection, that is all that happens to the queue of a connection, and it happens only while the
connection is registered (`State.Feeds`).
-/

set_option autoImplicit false

namespace Relay

/-! ### One queue -/

namespace Outbox

/-- Messages were put into a queue, and nothing else was done to it. -/
structure Gains (box box' : Outbox) (added : List Message) : Prop where
  eq : box' = { box with waiting := box.waiting ++ added }
  /-- Nothing comes into a queue that is closed. -/
  closed : box.isOpen = false → added = []

namespace Gains

variable {box box' box'' : Outbox} {added later : List Message}

theorem refl (box : Outbox) : box.Gains box [] := ⟨by rw [List.append_nil], fun _ => rfl⟩

theorem trans (h : box.Gains box' added) (h' : box'.Gains box'' later) :
    box.Gains box'' (added ++ later) := by
  obtain ⟨rfl, hclosed⟩ := h
  obtain ⟨rfl, hclosed'⟩ := h'
  refine ⟨by rw [List.append_assoc], fun hshut => ?_⟩
  rw [hclosed hshut, hclosed' hshut, List.append_nil]

theorem isOpen_eq (h : box.Gains box' added) : box'.isOpen = box.isOpen := by
  rw [h.eq]

theorem waiting_eq (h : box.Gains box' added) : box'.waiting = box.waiting ++ added := by
  rw [h.eq]

end Gains

/-- A queue that takes messages is open. -/
theorem isOpen_of_queued {box : Outbox} (h : box.delivery = .queued) : box.isOpen = true := by
  unfold delivery at h
  split at h
  · cases h
  · rename_i hopen
    simpa using hopen

/-- A queue refuses messages for good just if it is closed. -/
theorem delivery_eq_closed_iff (box : Outbox) : box.delivery = .closed ↔ box.isOpen = false := by
  unfold delivery
  split
  · rename_i hclosed
    simpa using hclosed
  · rename_i hopen
    split <;> simpa using hopen

theorem gains_push {box : Outbox} (h : box.delivery = .queued) (m : Message) :
    box.Gains (box.push m) [m] := by
  refine ⟨by rw [push, if_pos h], fun hclosed => ?_⟩
  rw [isOpen_of_queued h] at hclosed
  cases hclosed

end Outbox

/-! ### The queues of a relay -/

namespace State

variable {σ τ υ : State} {conn : ConnId}

/-- The queue of a connection has gained messages at most, and none unless the connection was
registered. -/
def Feeds (σ τ : State) (conn : ConnId) : Prop :=
  ∀ box, σ.outboxes.get? conn = some box → ∃ (box' : Outbox) (added : List Message),
    τ.outboxes.get? conn = some box' ∧ box.Gains box' added ∧
      (added ≠ [] → σ.registry.contains conn)

theorem feeds_of_get? (h : τ.outboxes.get? conn = σ.outboxes.get? conn) : σ.Feeds τ conn :=
  fun box hbox => ⟨box, [], h.trans hbox, .refl box, fun hnone => absurd rfl hnone⟩

theorem feeds_of_outboxes (h : τ.outboxes = σ.outboxes) : σ.Feeds τ conn :=
  feeds_of_get? (by rw [h])

theorem Feeds.trans (h : σ.Feeds τ conn) (h' : τ.Feeds υ conn)
    (hregistry : τ.registry = σ.registry) : σ.Feeds υ conn := by
  intro box hbox
  obtain ⟨box', added, hbox', hgains, hlive⟩ := h box hbox
  obtain ⟨box'', later, hbox'', hgains', hlive'⟩ := h' box' hbox'
  refine ⟨box'', added ++ later, hbox'', hgains.trans hgains', fun hsome => ?_⟩
  by_cases hadded : added = []
  · subst hadded
    exact hregistry ▸ hlive' hsome
  · exact hlive hadded

theorem waiting_of_get? {box : Outbox} (hbox : σ.outboxes.get? conn = some box) :
    σ.waiting conn = box.waiting := by
  rw [waiting, hbox]

/-- What was placed in a queue is what it has gained. -/
theorem placed_of_gains {box box' : Outbox} {added : List Message}
    (hbox : σ.outboxes.get? conn = some box) (hbox' : τ.outboxes.get? conn = some box')
    (hgains : box.Gains box' added) : τ.waiting conn = σ.waiting conn ++ added := by
  rw [waiting_of_get? hbox, waiting_of_get? hbox', hgains.waiting_eq]

/-- A message that is put into the queue of a connection. -/
theorem get?_enqueue (σ : State) (conn : ConnId) (m : Message) :
    (σ.enqueue conn m).outboxes.get? conn = (σ.outboxes.get? conn).map (Outbox.push · m) := by
  rw [enqueue, Table.get?_modify, if_pos rfl]

theorem delivery_of_get? {box : Outbox} (hbox : σ.outboxes.get? conn = some box) :
    σ.delivery conn = box.delivery := by
  rw [delivery, hbox]

/-- A message for one queue is put into that queue and into no other. -/
theorem feeds_enqueue (hlive : σ.registry.contains conn) (hqueued : σ.delivery conn = .queued)
    (m : Message) (other : ConnId) : σ.Feeds (σ.enqueue conn m) other := by
  by_cases hother : other = conn
  · subst hother
    intro box hbox
    rw [delivery_of_get? hbox] at hqueued
    refine ⟨box.push m, [m], ?_, Outbox.gains_push hqueued m, fun _ => hlive⟩
    rw [get?_enqueue, hbox, Option.map_some]
  · exact feeds_of_get? (by rw [enqueue, Table.get?_modify, if_neg hother])

end State

/-! ### Routing -/

namespace Service

variable {S : Service} {σ : State} {t : Moment} {conn : ConnId} {m : Message} {p : Pending}
  {turn : Turn}

theorem feeds_deliver (σ : State) (m : Message) (other : ConnId) : σ.Feeds (deliver σ m) other := by
  unfold deliver
  split
  · exact State.feeds_of_outboxes rfl
  · rename_i conn hsession
    rw [Registry.session?, Option.filter_eq_some_iff] at hsession
    split
    · rename_i hqueued
      exact State.feeds_enqueue hsession.2 hqueued m other
    · exact State.feeds_of_outboxes rfl
    · exact State.feeds_of_outboxes rfl

/-- Copies go to sessions that are registered. -/
theorem feeds_foldl_announceTo (S : Service) (t : Moment) (body : Bytes)
    (sessions : List (UserId × ConnId)) (σ : State)
    (hlive : ∀ session ∈ sessions, σ.registry.contains session.2) (other : ConnId) :
    σ.Feeds (sessions.foldl (S.announceTo t body) σ) other := by
  induction sessions generalizing σ with
  | nil => exact State.feeds_of_outboxes rfl
  | cons session rest ih =>
    obtain ⟨hfirst, hlater⟩ := List.forall_mem_cons.1 hlive
    have hregistry := S.registry_announceTo t body σ session
    have hcopy : σ.Feeds (S.announceTo t body σ session) other := by
      unfold announceTo
      split
      · rename_i hqueued
        exact State.feeds_enqueue hfirst hqueued _ other
      · exact State.feeds_of_outboxes rfl
      · exact State.feeds_of_outboxes rfl
    exact hcopy.trans (ih _ (hregistry.symm ▸ hlater)) hregistry

theorem feeds_announce (S : Service) (σ : State) (t : Moment) (author : UserId) (body : Bytes)
    (other : ConnId) : σ.Feeds (S.announce σ t author body) other := by
  refine S.feeds_foldl_announceTo t body _ σ (fun session hsession => ?_) other
  exact (List.mem_filter.1 (List.mem_filter.1 hsession).1).2

/-- A message that comes in is put into no queue yet. -/
theorem Beginning.feeds (h : S.Beginning σ t conn m turn) (other : ConnId) :
    σ.Feeds turn.state other := State.feeds_of_outboxes h.outboxes_eq

/-- A step of routing puts messages into queues of registered connections. -/
theorem Resumption.feeds (h : S.Resumption σ t conn p turn) (other : ConnId) :
    σ.Feeds turn.state other := by
  cases h with
  | signal => exact feeds_deliver σ _ other
  | @keep m =>
    let kept : State := { σ with
      store.mailbox := (σ.store.mailbox.add m.timestamp m.sender m.recipient m.body).2 }
    have hkept : σ.Feeds kept other := State.feeds_of_outboxes rfl
    exact hkept.trans (feeds_deliver kept m other) rfl
  | notKeep => exact feeds_deliver σ _ other
  | announce => exact S.feeds_announce σ t _ _ other
  | _ => exact State.feeds_of_outboxes rfl

end Service

end Relay
