import Relay.Routing.Step

/-!
# `Relay.Proofs.Routing.Delivery`: what handing messages over changes

A relayed message goes to one queue (`Service.deliver`), an announcement of the administrator to
many (`Service.announce`). Neither touches anything but queues and counters. A queue that `deliver`
changes is the one of the recipient's session, and it gets the message itself as its last
(`waiting_deliver`). A message that `announce` adds to a queue is a copy for the user whose session
the queue belongs to (`exists_waiting_announce`).
-/

set_option autoImplicit false

namespace Relay

namespace Service

variable (S : Service)

/-! ### One message -/

@[simp] theorem registry_deliver (σ : State) (m : Message) :
    (deliver σ m).registry = σ.registry := by
  unfold deliver
  repeat' split
  all_goals rfl

@[simp] theorem store_deliver (σ : State) (m : Message) : (deliver σ m).store = σ.store := by
  unfold deliver
  repeat' split
  all_goals rfl

@[simp] theorem shuttingDown_deliver (σ : State) (m : Message) :
    (deliver σ m).shuttingDown = σ.shuttingDown := by
  unfold deliver
  repeat' split
  all_goals rfl

/-- A message that is handed over comes last in the queue of its recipient, if the recipient is on a
connection and its queue takes the message. Nothing else is added to any queue. -/
theorem waiting_deliver_eq (σ : State) (m : Message) (conn : ConnId) :
    (deliver σ m).waiting conn = σ.waiting conn ++
      if σ.registry.session? m.recipient = some conn ∧ σ.delivery conn = .queued then [m]
      else [] := by
  unfold deliver
  split
  · rename_i hsession
    simp [hsession]
  · rename_i other hsession
    by_cases hconn : other = conn
    · subst hconn
      split
      · rename_i hqueued
        rw [if_pos ⟨hsession, hqueued⟩, State.waiting_count, State.waiting_enqueue,
          if_pos ⟨rfl, hqueued⟩]
      · rename_i hfull
        simp [hfull]
      · rename_i hclosed
        simp [hclosed]
    · have helsewhere : σ.registry.session? m.recipient ≠ some conn := by
        rw [hsession]
        exact fun h => hconn (Option.some.inj h)
      rw [if_neg (helsewhere ·.1), List.append_nil]
      split
      · rw [State.waiting_count, State.waiting_enqueue, if_neg fun h => hconn h.1.symm]
      · rfl
      · rfl

/-- A message that is handed over comes last in the queue of its recipient, or nothing changes. -/
theorem waiting_deliver (σ : State) (m : Message) (conn : ConnId) :
    (deliver σ m).waiting conn = σ.waiting conn ∨
      σ.registry.session? m.recipient = some conn ∧
        (deliver σ m).waiting conn = σ.waiting conn ++ [m] := by
  rw [waiting_deliver_eq]
  split
  · rename_i htakes
    exact .inr ⟨htakes.1, rfl⟩
  · exact .inl (List.append_nil _)

/-- All that is added to a queue is the message that is handed over, and its recipient is on the
connection of the queue. -/
theorem exists_waiting_deliver (σ : State) (relayed : Message) (conn : ConnId) :
    ∃ added : List Message, (deliver σ relayed).waiting conn = σ.waiting conn ++ added ∧
      ∀ m ∈ added, m = relayed ∧ σ.registry.sessions.get? relayed.recipient = some conn := by
  rcases waiting_deliver σ relayed conn with hsame | ⟨hsession, hadded⟩
  · exact ⟨[], by rw [hsame, List.append_nil], List.forall_mem_nil _⟩
  · refine ⟨[relayed], hadded, fun m hm => ⟨List.mem_singleton.1 hm, ?_⟩⟩
    rw [Registry.session?, Option.filter_eq_some_iff] at hsession
    exact hsession.1

/-! ### Many messages -/

variable (t : Moment) (body : Bytes)

@[simp] theorem registry_announceTo (σ : State) (session : UserId × ConnId) :
    (S.announceTo t body σ session).registry = σ.registry := by
  unfold announceTo
  split <;> rfl

@[simp] theorem store_announceTo (σ : State) (session : UserId × ConnId) :
    (S.announceTo t body σ session).store = σ.store := by
  unfold announceTo
  split <;> rfl

@[simp] theorem shuttingDown_announceTo (σ : State) (session : UserId × ConnId) :
    (S.announceTo t body σ session).shuttingDown = σ.shuttingDown := by
  unfold announceTo
  split <;> rfl

/-- A copy comes last in the queue of its session, or nothing changes. -/
theorem waiting_announceTo (σ : State) (session : UserId × ConnId) (conn : ConnId) :
    (S.announceTo t body σ session).waiting conn = σ.waiting conn ∨
      session.2 = conn ∧ (S.announceTo t body σ session).waiting conn =
        σ.waiting conn ++ [{ S.message t .broadcast session.1 with body }] := by
  unfold announceTo
  split
  · rename_i hqueued
    rw [State.waiting_count, State.waiting_enqueue]
    by_cases hconn : conn = session.2
    · rw [if_pos ⟨hconn, hqueued⟩]
      exact .inr ⟨hconn.symm, rfl⟩
    · rw [if_neg (fun h => hconn h.1)]
      exact .inl rfl
  all_goals exact .inl rfl

/-- Copies for a list of sessions change nothing but queues and counters. -/
theorem frame_foldl_announceTo (sessions : List (UserId × ConnId)) (σ : State) :
    (sessions.foldl (S.announceTo t body) σ).registry = σ.registry ∧
      (sessions.foldl (S.announceTo t body) σ).store = σ.store ∧
      (sessions.foldl (S.announceTo t body) σ).shuttingDown = σ.shuttingDown := by
  -- The state goes along: the copies for the rest start from what the first copy leaves.
  induction sessions generalizing σ with
  | nil => exact ⟨rfl, rfl, rfl⟩
  | cons session rest ih =>
    obtain ⟨hregistry, hstore, hshutting⟩ := ih (S.announceTo t body σ session)
    rw [List.foldl_cons, hregistry, hstore, hshutting]
    simp

/-- All that copies for a list of sessions add to a queue is copies for the sessions on it. -/
theorem exists_waiting_foldl_announceTo (sessions : List (UserId × ConnId)) (σ : State)
    (conn : ConnId) :
    ∃ added : List Message,
      (sessions.foldl (S.announceTo t body) σ).waiting conn = σ.waiting conn ++ added ∧
        ∀ m ∈ added, ∃ user, (user, conn) ∈ sessions ∧
          m = { S.message t .broadcast user with body } := by
  induction sessions generalizing σ with
  | nil => exact ⟨[], (List.append_nil _).symm, List.forall_mem_nil _⟩
  | cons session rest ih =>
    obtain ⟨added, hwaiting, hadded⟩ := ih (S.announceTo t body σ session)
    have hrest : ∀ m ∈ added, ∃ user, (user, conn) ∈ session :: rest ∧
        m = { S.message t .broadcast user with body } := by
      intro m hm
      obtain ⟨user, hmem, heq⟩ := hadded m hm
      exact ⟨user, List.mem_cons_of_mem _ hmem, heq⟩
    rw [List.foldl_cons, hwaiting]
    -- The first copy comes before those of the rest, if it comes into this queue at all.
    rcases S.waiting_announceTo t body σ session conn with hsame | ⟨hconn, hcopy⟩
    · rw [hsame]
      exact ⟨added, rfl, hrest⟩
    · rw [hcopy, List.append_assoc]
      refine ⟨_, rfl, fun m hm => ?_⟩
      rcases List.mem_cons.1 hm with hfirst | hlater
      · refine ⟨session.1, ?_, hfirst⟩
        rw [← hconn]
        exact List.mem_cons_self
      · exact hrest m hlater

variable (σ : State) (author : UserId)

@[simp] theorem registry_announce : (S.announce σ t author body).registry = σ.registry :=
  (S.frame_foldl_announceTo t body _ σ).1

@[simp] theorem store_announce : (S.announce σ t author body).store = σ.store :=
  (S.frame_foldl_announceTo t body _ σ).2.1

@[simp] theorem shuttingDown_announce :
    (S.announce σ t author body).shuttingDown = σ.shuttingDown :=
  (S.frame_foldl_announceTo t body _ σ).2.2

/-- All that an announcement adds to a queue is copies for users who are on its connection. -/
theorem exists_waiting_announce (conn : ConnId) :
    ∃ added : List Message,
      (S.announce σ t author body).waiting conn = σ.waiting conn ++ added ∧
        ∀ m ∈ added, ∃ user, σ.registry.sessions.get? user = some conn ∧ user ≠ author ∧
          m = { S.message t .broadcast user with body } := by
  obtain ⟨added, hwaiting, hadded⟩ := S.exists_waiting_foldl_announceTo t body
    (σ.registry.authenticated.filter fun e => e.1 ≠ author) σ conn
  refine ⟨added, hwaiting, fun m hm => ?_⟩
  obtain ⟨user, hmem, heq⟩ := hadded m hm
  simp only [Registry.authenticated, List.mem_filter, decide_eq_true_eq] at hmem
  exact ⟨user, (Table.mem_entries_iff _ _ _).1 hmem.1.1, hmem.2, heq⟩

end Service

end Relay
