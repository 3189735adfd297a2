import Relay.Proofs.Routing.Delivery
import Relay.Proofs.Traffic.Privileges

/-!
# `Relay.Proofs.Traffic.Announcement`: whom an announcement reaches

An announcement of the administrator goes to everybody else who is logged in, one copy after the
other. In which order that is, and what the clock says when each copy is written, is not fixed:
`Service.announceEach` is the loop for any order and any readings, and `Service.announce` is one
instance of it (`announce_eq_announceEach`).

Nobody is on two connections and nobody shares one (`nodup_audience`), so that no two copies meet in
a queue. Each queue is therefore changed once or not at all, and what the loop comes to can be said
queue by queue (`Announces`), without the order. Two orders agree in everything but the timestamps of
the copies (`Announces.agree`).
-/

set_option autoImplicit false

namespace Relay

/-- A queue that refuses a message stays as it is. -/
theorem Outbox.push_of_refused {box : Outbox} (h : box.delivery ≠ .queued) (m : Message) :
    box.push m = box := if_neg h

/-- A message with its timestamp taken off. -/
def Message.undated (m : Message) : Message := { m with timestamp := 0 }

/-- A queue with the timestamps of its messages taken off. -/
def Outbox.undated (box : Outbox) : Outbox :=
  { box with waiting := box.waiting.map Message.undated }

/-- Nothing but queues and counters tells two states apart. -/
structure State.SameButQueues (σ τ : State) : Prop where
  registry : τ.registry = σ.registry
  store : τ.store = σ.store
  shuttingDown : τ.shuttingDown = σ.shuttingDown
  entropy : τ.entropy = σ.entropy

namespace State.SameButQueues

theorem refl (σ : State) : σ.SameButQueues σ := ⟨rfl, rfl, rfl, rfl⟩

theorem symm {σ τ : State} (h : σ.SameButQueues τ) : τ.SameButQueues σ :=
  ⟨h.registry.symm, h.store.symm, h.shuttingDown.symm, h.entropy.symm⟩

theorem trans {σ τ υ : State} (h : σ.SameButQueues τ) (h' : τ.SameButQueues υ) :
    σ.SameButQueues υ :=
  ⟨h'.registry.trans h.registry, h'.store.trans h.store,
    h'.shuttingDown.trans h.shuttingDown, h'.entropy.trans h.entropy⟩

end State.SameButQueues

/-- Two states are the same but for the timestamps of the messages that wait. Counters are compared
by their values, and not by which of them was touched first. -/
structure State.AgreeUndated (σ τ : State) : Prop where
  others : σ.SameButQueues τ
  queues : ∀ conn : ConnId,
    (τ.outboxes.get? conn).map Outbox.undated = (σ.outboxes.get? conn).map Outbox.undated
  counters : ∀ s : Series, τ.metrics.get s = σ.metrics.get s
  latency : τ.metrics.latency = σ.metrics.latency

namespace Service

variable (S : Service) (body : Bytes)

/-! ### The loop -/

/-- The sessions that an announcement is for: those of everybody but its author. -/
def audience (σ : State) (author : UserId) : List (UserId × ConnId) :=
  σ.registry.authenticated.filter fun session => session.1 ≠ author

/-- Puts copies into queues one after the other, each with a reading of the clock of its own. -/
def announceEach (copies : List (Moment × UserId × ConnId)) (σ : State) : State :=
  copies.foldl (fun σ copy => S.announceTo copy.1 body σ copy.2) σ

/-- In one step, the copies are put into the queues in the order of the index of sessions. -/
theorem announce_eq_announceEach (σ : State) (t : Moment) (author : UserId) :
    S.announce σ t author body =
      S.announceEach body ((audience σ author).map fun session => (t, session)) σ := by
  rw [announceEach, List.foldl_map]
  rfl

/-- The copy of an announcement for a user. -/
def copyFor (t : Moment) (user : UserId) : Message := { S.message t .broadcast user with body }

/-- What is counted for a session: that its queue takes the copy, or that it does not. -/
def fate (σ : State) (session : UserId × ConnId) : Series :=
  if σ.delivery session.2 = .queued then .relayed else .dropped .queueFull

variable {S body} {σ : State} {t : Moment} {author : UserId} {conn : ConnId}

/-! ### One copy -/

/-- A copy is put into the queue of its session. -/
theorem get?_outboxes_announceTo (session : UserId × ConnId) :
    (S.announceTo t body σ session).outboxes.get? conn =
      if conn = session.2 then
        (σ.outboxes.get? conn).map fun box => box.push (S.copyFor body t session.1)
      else σ.outboxes.get? conn := by
  have hrefused : σ.delivery session.2 ≠ .queued → conn = session.2 →
      (σ.outboxes.get? conn).map (fun box => box.push (S.copyFor body t session.1)) =
        σ.outboxes.get? conn := by
    rintro hdelivery rfl
    cases hbox : σ.outboxes.get? session.2 with
    | none => rfl
    | some box =>
      rw [State.delivery, hbox] at hdelivery
      rw [Option.map_some, Outbox.push_of_refused hdelivery]
  unfold announceTo
  split
  · simp only [State.outboxes_count, State.enqueue, Table.get?_modify]
    split
    · rename_i hconn
      rw [hconn]
      rfl
    · rfl
  all_goals
    rename_i hdelivery
    rw [State.outboxes_count]
    split
    · rename_i hconn
      exact (hrefused (by rw [hdelivery]; decide) hconn).symm
    · rfl

/-- A copy that is put into another queue does not matter for what becomes of a copy. -/
theorem delivery_announceTo {session : UserId × ConnId} (hother : conn ≠ session.2) :
    (S.announceTo t body σ session).delivery conn = σ.delivery conn := by
  rw [State.delivery, get?_outboxes_announceTo, if_neg hother]
  rfl

/-- It is counted what becomes of the copy. -/
theorem metrics_announceTo (session : UserId × ConnId) :
    (S.announceTo t body σ session).metrics = σ.metrics.count (fate σ session) := by
  unfold announceTo fate
  cases σ.delivery session.2 <;> rfl

theorem others_announceTo (session : UserId × ConnId) :
    σ.SameButQueues (S.announceTo t body σ session) := by
  unfold announceTo
  cases σ.delivery session.2 <;> exact ⟨rfl, rfl, rfl, rfl⟩

/-! ### All copies -/

/-- Nothing but queues and counters is changed. -/
theorem others_announceEach (copies : List (Moment × UserId × ConnId)) (σ : State) :
    σ.SameButQueues (S.announceEach body copies σ) := by
  induction copies generalizing σ with
  | nil => exact .refl σ
  | cons copy rest ih => exact (others_announceTo copy.2).trans (ih _)

/-- The queue of a connection that no copy is for stays as it is. -/
theorem get?_announceEach_of_notMem {copies : List (Moment × UserId × ConnId)}
    (hnone : conn ∉ copies.map fun copy => copy.2.2) :
    (S.announceEach body copies σ).outboxes.get? conn = σ.outboxes.get? conn := by
  induction copies generalizing σ with
  | nil => rfl
  | cons copy rest ih =>
    rw [List.map_cons, List.mem_cons, not_or] at hnone
    obtain ⟨hfirst, hrest⟩ := hnone
    rw [announceEach, List.foldl_cons, ← announceEach, ih hrest, get?_outboxes_announceTo,
      if_neg hfirst]

/-- If no two copies are for one connection, each is put into its queue, and it is the only one. -/
theorem get?_announceEach_of_mem {copies : List (Moment × UserId × ConnId)}
    (hnodup : (copies.map fun copy => copy.2.2).Nodup) {user : UserId}
    (hcopy : (t, user, conn) ∈ copies) :
    (S.announceEach body copies σ).outboxes.get? conn =
      (σ.outboxes.get? conn).map fun box => box.push (S.copyFor body t user) := by
  induction copies generalizing σ with
  | nil => cases hcopy
  | cons copy rest ih =>
    obtain ⟨hfresh, hrest⟩ := List.nodup_cons.1 hnodup
    rw [announceEach, List.foldl_cons, ← announceEach]
    rcases List.mem_cons.1 hcopy with rfl | hlater
    · -- No later copy comes into this queue.
      rw [get?_announceEach_of_notMem hfresh, get?_outboxes_announceTo, if_pos rfl]
    · have hother : conn ≠ copy.2.2 := by
        rintro rfl
        exact hfresh (List.mem_map.2 ⟨_, hlater, rfl⟩)
      rw [ih hrest hlater, get?_outboxes_announceTo, if_neg hother]

/-- If no two copies are for one connection, what becomes of a copy depends on its queue as it was
at first. -/
theorem get_metrics_announceEach {copies : List (Moment × UserId × ConnId)}
    (hnodup : (copies.map fun copy => copy.2.2).Nodup) (s : Series) :
    (S.announceEach body copies σ).metrics.get s =
      σ.metrics.get s + ((copies.map Prod.snd).map (fate σ)).count s := by
  induction copies generalizing σ with
  | nil => exact (Int.add_zero _).symm
  | cons copy rest ih =>
    obtain ⟨hfresh, hrest⟩ := List.nodup_cons.1 hnodup
    have hfates : (rest.map Prod.snd).map (fate (S.announceTo copy.1 body σ copy.2)) =
        (rest.map Prod.snd).map (fate σ) := by
      refine List.map_congr_left fun session hsession => ?_
      obtain ⟨later, hlater, rfl⟩ := List.mem_map.1 hsession
      have hother : later.2.2 ≠ copy.2.2 := by
        intro heq
        have hmem : later.2.2 ∈ rest.map fun copy => copy.2.2 := List.mem_map.2 ⟨later, hlater, rfl⟩
        rw [heq] at hmem
        exact hfresh hmem
      rw [fate, fate, delivery_announceTo hother]
    rw [announceEach, List.foldl_cons, ← announceEach, ih hrest, hfates, metrics_announceTo,
      Metrics.count, Metrics.get_add, List.map_cons, List.map_cons, List.count_cons]
    by_cases hs : s = fate σ copy.2
    · simp only [hs, if_true, beq_self_eq_true]
      omega
    · have hs' : ¬ fate σ copy.2 = s := fun heq => hs heq.symm
      simp only [hs, hs', if_false, beq_iff_eq]
      omega

/-- How long frames took is not touched. -/
theorem latency_announceEach (copies : List (Moment × UserId × ConnId)) (σ : State) :
    (S.announceEach body copies σ).metrics.latency = σ.metrics.latency := by
  induction copies generalizing σ with
  | nil => rfl
  | cons copy rest ih =>
    rw [announceEach, List.foldl_cons, ← announceEach, ih, metrics_announceTo]
    rfl

/-! ### Whom it is for -/

/-- An announcement is for the connections that are bound to somebody else than its author. -/
theorem mem_audience_iff (hσ : σ.registry.Consistent) (id : UserId) :
    (id, conn) ∈ audience σ author ↔
      id ≠ author ∧ ∃ user : User, σ.registry.user? conn = some user ∧ user.id = id := by
  simp only [audience, Registry.authenticated, List.mem_filter, Table.mem_entries_iff,
    decide_eq_true_eq, hσ.indexed]
  constructor
  · rintro ⟨⟨hbound, -⟩, hother⟩
    exact ⟨hother, hbound⟩
  · rintro ⟨hother, user, huser, hid⟩
    exact ⟨⟨⟨user, huser, hid⟩, Registry.contains_of_user? huser⟩, hother⟩

/-- No two sessions are on one connection. -/
theorem nodup_audience (hσ : σ.registry.Consistent) (author : UserId) :
    ((audience σ author).map Prod.snd).Nodup := by
  have hsessions : (audience σ author).Nodup := by
    have hentries : σ.registry.sessions.entries.Nodup :=
      List.Nodup.of_map Prod.fst σ.registry.sessions.keys_nodup
    exact (hentries.filter _).filter _
  refine List.Nodup.map_on ?_ hsessions
  rintro ⟨id, conn⟩ hmem ⟨other, _⟩ hmem' rfl
  obtain ⟨-, user, huser, rfl⟩ := (mem_audience_iff hσ _).1 hmem
  obtain ⟨-, user', huser', rfl⟩ := (mem_audience_iff hσ _).1 hmem'
  rw [Option.some.inj (huser.symm.trans huser')]

variable (S body)

/-- A message is a copy of an announcement for a user: an announcement that says that it is from the
relay, and carries the relay's token. -/
structure IsCopy (user : UserId) (copy : Message) : Prop where
  flag : copy.flag = .broadcast
  sender : copy.sender = UserId.fromRelay
  token : copy.token = S.relayToken
  recipient : copy.recipient = user
  body : copy.body = body
  alone : copy.index = 0 ∧ copy.count = 1

/-- What may be relied on about an announcement: what it makes of a state, with the given readings
of the clock. -/
structure Announces (author : UserId) (readings : List Moment) (σ τ : State) : Prop where
  /-- Whoever else is on a connection whose queue is open and not full gets one copy, as the last
  message in the queue. -/
  received : ∀ (conn : ConnId) (user : User), σ.registry.user? conn = some user →
    user.id ≠ author → σ.delivery conn = .queued →
      ∃ (box : Outbox) (copy : Message), σ.outboxes.get? conn = some box ∧
        τ.outboxes.get? conn = some { box with waiting := box.waiting ++ [copy] } ∧
        S.IsCopy body user.id copy ∧ ∃ t ∈ readings, copy.timestamp = t.now
  /-- A queue that is full or closed stays as it is, and so does the queue of a connection without
  a user, and that of the author. -/
  spared : ∀ conn : ConnId, (σ.delivery conn ≠ .queued ∨
    ∀ user : User, σ.registry.user? conn = some user → user.id = author) →
      τ.outboxes.get? conn = σ.outboxes.get? conn
  /-- Nothing but queues and counters changes. -/
  others : σ.SameButQueues τ
  /-- Copies that are put into a queue are counted, and those that are not. -/
  counted : ∀ s : Series,
    τ.metrics.get s = σ.metrics.get s + ((audience σ author).map (fate σ)).count s
  latency : τ.metrics.latency = σ.metrics.latency

variable {S body}

theorem isCopy_copyFor (user : UserId) : S.IsCopy body user (S.copyFor body t user) :=
  ⟨rfl, rfl, rfl, rfl, rfl, rfl, rfl⟩

/-- Two copies for one user differ in their timestamps only. -/
theorem IsCopy.undated_eq {user : UserId} {copy copy' : Message} (h : S.IsCopy body user copy)
    (h' : S.IsCopy body user copy') : copy'.undated = copy.undated := by
  rw [Message.undated, Message.undated, Message.mk.injEq]
  exact ⟨h'.flag.trans h.flag.symm, rfl, h'.alone.1.trans h.alone.1.symm,
    h'.alone.2.trans h.alone.2.symm, h'.sender.trans h.sender.symm,
    h'.recipient.trans h.recipient.symm, h'.token.trans h.token.symm, h'.body.trans h.body.symm⟩

/-- In whatever order the sessions are gone through, and whatever the clock says, the loop does what
an announcement is to do. -/
theorem announces_announceEach (hσ : σ.registry.Consistent)
    {copies : List (Moment × UserId × ConnId)}
    (hcopies : (copies.map Prod.snd).Perm (audience σ author)) :
    S.Announces body author (copies.map Prod.fst) σ (S.announceEach body copies σ) := by
  have hnodup : (copies.map fun copy => copy.2.2).Nodup := by
    have hconns := (hcopies.map Prod.snd).nodup_iff.2 (nodup_audience hσ author)
    rwa [List.map_map] at hconns
  constructor
  case received =>
    intro conn user huser hother hqueued
    have hmem : (user.id, conn) ∈ copies.map Prod.snd :=
      hcopies.mem_iff.2 ((mem_audience_iff hσ _).2 ⟨hother, user, huser, rfl⟩)
    obtain ⟨⟨t, _⟩, hcopy, rfl⟩ := List.mem_map.1 hmem
    cases hbox : σ.outboxes.get? conn with
    | none =>
      rw [State.delivery, hbox] at hqueued
      cases hqueued
    | some box =>
      rw [State.delivery, hbox] at hqueued
      refine ⟨box, S.copyFor body t user.id, rfl, ?_, isCopy_copyFor _, t,
        List.mem_map_of_mem hcopy, rfl⟩
      rw [get?_announceEach_of_mem hnodup hcopy, hbox, Option.map_some, Outbox.push,
        if_pos hqueued]
  case spared =>
    intro conn hspared
    by_cases hmem : conn ∈ copies.map fun copy => copy.2.2
    · obtain ⟨⟨t, id, other⟩, hcopy, hconn⟩ := List.mem_map.1 hmem
      obtain rfl : other = conn := hconn
      obtain ⟨hother, user, huser, rfl⟩ := (mem_audience_iff hσ _).1
        (hcopies.mem_iff.1 (List.mem_map_of_mem hcopy))
      rcases hspared with hrefused | hauthor
      · rw [get?_announceEach_of_mem hnodup hcopy]
        cases hbox : σ.outboxes.get? other with
        | none => rfl
        | some box =>
          rw [State.delivery, hbox] at hrefused
          rw [Option.map_some, Outbox.push_of_refused hrefused]
      · exact absurd (hauthor user huser) hother
    · exact get?_announceEach_of_notMem hmem
  case others => exact others_announceEach copies σ
  case counted =>
    intro s
    rw [get_metrics_announceEach hnodup, (hcopies.map (fate σ)).count_eq]
  case latency => exact latency_announceEach copies σ

/-- Whatever does what an announcement is to do comes to the same, but for the timestamps of the
copies. -/
theorem Announces.agree {readings readings' : List Moment} {τ τ' : State}
    (h : S.Announces body author readings σ τ) (h' : S.Announces body author readings' σ τ') :
    τ.AgreeUndated τ' := by
  constructor
  case others => exact h.others.symm.trans h'.others
  case queues =>
    intro conn
    by_cases hspared : σ.delivery conn ≠ .queued ∨
        ∀ user : User, σ.registry.user? conn = some user → user.id = author
    · rw [h.spared conn hspared, h'.spared conn hspared]
    · rw [not_or, not_not] at hspared
      obtain ⟨hqueued, hbound⟩ := hspared
      push Not at hbound
      obtain ⟨user, huser, hother⟩ := hbound
      obtain ⟨box, copy, hbox, hget, hcopy, -⟩ := h.received conn user huser hother hqueued
      obtain ⟨box', copy', hbox', hget', hcopy', -⟩ := h'.received conn user huser hother hqueued
      obtain rfl := Option.some.inj (hbox.symm.trans hbox')
      rw [hget, hget', Option.map_some, Option.map_some, Outbox.undated, Outbox.undated,
        List.map_append, List.map_append, List.map_singleton, List.map_singleton,
        hcopy.undated_eq hcopy']
  case counters => exact fun s => (h'.counted s).trans (h.counted s).symm
  case latency => exact h'.latency.trans h.latency.symm

variable (S body)

/-- What may be relied on about the state after an announcement, whatever the order in which the
sessions are gone through: it is reached in one order, in every order the announcement does what it
is to do, and any two orders agree. -/
structure Announced (author : UserId) (t : Moment) (σ τ : State) : Prop where
  announces : S.Announces body author [t] σ τ
  reached : ∃ copies : List (Moment × UserId × ConnId),
    (copies.map Prod.snd).Perm (audience σ author) ∧ τ = S.announceEach body copies σ
  inAnyOrder : ∀ copies : List (Moment × UserId × ConnId),
    (copies.map Prod.snd).Perm (audience σ author) →
      S.Announces body author (copies.map Prod.fst) σ (S.announceEach body copies σ)
  agree : ∀ copies copies' : List (Moment × UserId × ConnId),
    (copies.map Prod.snd).Perm (audience σ author) →
      (copies'.map Prod.snd).Perm (audience σ author) →
        (S.announceEach body copies σ).AgreeUndated (S.announceEach body copies' σ)

variable {S body} {m : Message} {user : User}

theorem announced_announce (hσ : σ.registry.Consistent) (author : UserId) (t : Moment) :
    S.Announced body author t σ (S.announce σ t author body) := by
  have hperm : (((audience σ author).map fun session => (t, session)).map Prod.snd).Perm
      (audience σ author) := by
    rw [List.map_map]
    exact .of_eq (List.map_id _)
  constructor
  case announces =>
    have hall : S.Announces body author _ σ _ := S.announces_announceEach hσ hperm
    rw [← announce_eq_announceEach] at hall
    refine ⟨fun conn user huser hother hqueued => ?_, hall.spared, hall.others, hall.counted,
      hall.latency⟩
    obtain ⟨box, copy, hbox, hget, hcopy, now, hnow, hstamp⟩ :=
      hall.received conn user huser hother hqueued
    refine ⟨box, copy, hbox, hget, hcopy, now, ?_, hstamp⟩
    -- There is only the one reading.
    simp only [List.map_map, List.mem_map, Function.comp_apply] at hnow
    obtain ⟨_, -, rfl⟩ := hnow
    exact List.mem_singleton_self _
  case reached => exact ⟨_, hperm, S.announce_eq_announceEach body σ t author⟩
  case inAnyOrder => exact fun copies hcopies => S.announces_announceEach hσ hcopies
  case agree =>
    exact fun copies copies' hcopies hcopies' =>
      (S.announces_announceEach hσ hcopies).agree (S.announces_announceEach hσ hcopies')

/-- The administrator is known by the id when the store can be asked. -/
theorem isAdmin_of_eq (hadmin : user.id = UserId.admin) (hstore : t.outage .isAdmin = none) :
    isAdmin t user = true := by
  simp [isAdmin, Outage.attempt, hstore, hadmin]

/-- When the store has told that the author is the administrator, the announcement is made. -/
theorem resume_announcer (σ : State) (conn : ConnId) (hadmin : user.id = UserId.admin)
    (hstore : t.outage .isAdmin = none) (hbody : m.body ≠ []) :
    S.resume σ t conn (.announcer user m) =
      Turn.answer (S.announce σ t user.id m.body) [] := by
  simp [resume, isAdmin_of_eq hadmin hstore, hbody]

/-- A request for an announcement waits for the store, and has done nothing. -/
theorem begin_broadcast (hauth : S.Authorized σ conn m user) (hσ : σ.registry.Consistent)
    (hup : σ.shuttingDown = false) (hflag : m.flag = .broadcast)
    (hrecipient : m.recipient = UserId.toRelay) (t : Moment) :
    S.begin σ t conn m = Turn.wait (σ.count (.dispatched .broadcast)) (.announcer user m) := by
  have hop : Operation.ofFlag m.flag = .broadcast := by rw [hflag]; rfl
  rw [S.begin_of_authorized hauth hσ]
  simp [perform, hop, hup, hrecipient]

end Service

/-- A request for an announcement waits for nothing but to make it. -/
theorem Pending.Serves.of_broadcast {m : Message} {user : Option User} {p : Pending}
    (h : p.Serves m user) (hflag : m.flag = .broadcast) :
    ∃ author : User, p = .announcer author m ∧ user = some author := by
  cases h with
  | announcer => exact ⟨_, rfl, rfl⟩
  | recipient hother =>
    rw [hflag] at hother
    cases hother
  | _ hother => exact absurd (hflag.symm.trans hother) (by decide)

namespace Traffic

variable {S : Service} {first last : Traffic} {h : List (Step S)}

/-- Whatever state a relay has come to, an announcement of the administrator that is let through
reaches everybody else who is logged in and whose queue takes a message, exactly once, and nobody
else; nobody is answered, and the administrator's connection stays. The order in which the sessions
are gone through does not matter. If other connections go on while the request waits for the store,
the announcement is made in the state in which the store answers. -/
theorem announced_to_all_others (hopening : Opening S first) (hrun : Run S first h last) :
    (∀ (conn : ConnId) (m : Message) (admin : User) (t : Moment),
      S.Authorized last.state conn m admin → admin.id = UserId.admin → m.flag = .broadcast →
      m.recipient = UserId.toRelay → m.body ≠ [] → last.state.shuttingDown = false →
      t.outage .isAdmin = none →
        (S.route last.state t conn m).outcome = .stay ∧
          (S.route last.state t conn m).replies = [] ∧
          S.Announced m.body admin.id t (last.state.count (.dispatched .broadcast))
            (S.route last.state t conn m).state) ∧
    ∀ (h₁ h₂ : List (Step S)) (step : Step S) (conn : ConnId) (t : Moment) (call : Call)
      (admin : User), h = h₁ ++ step :: h₂ → step.Resumes conn t call →
      call.message.flag = .broadcast → call.user = some admin → admin.id = UserId.admin →
      call.message.body ≠ [] → t.outage .isAdmin = none →
        step.after.calls = step.before.calls.erase conn ∧
          call.replies ++ step.replies = [] ∧
          S.Announced call.message.body admin.id t step.before.state step.after.state := by
  constructor
  · intro conn m admin t hauth hadmin hflag hrecipient hbody hup hstore
    have hconsistent := (hrun.sound hopening.sound).consistent
    have hbegin := S.begin_broadcast hauth hconsistent hup hflag hrecipient t
    have hresume := S.resume_announcer (last.state.count (.dispatched .broadcast)) conn hadmin
      hstore hbody
    rw [Service.route_of_wait hbegin (congrArg Turn.next hresume), hresume]
    exact ⟨rfl, rfl, S.announced_announce (σ := last.state.count _) hconsistent admin.id t⟩
  · rintro h₁ h₂ step conn t call admin rfl hresumes hflag hasker hadmin hbody hstore
    have hbefore := (run_append_cons_iff.1 hrun).1
    have hgenuine := hbefore.genuine hopening hresumes.call
    obtain ⟨author, hpending, hauthor⟩ := hgenuine.serves.of_broadcast hflag
    obtain rfl := Option.some.inj (hasker.symm.trans hauthor)
    have hnone := hgenuine.no_replies (by rw [hpending]; exact nofun)
    have hresume := S.resume_announcer step.before.state conn hadmin hstore hbody
    rw [hresumes.after, hresumes.replies, hpending, hnone, hresume]
    exact ⟨rfl, rfl, S.announced_announce (hbefore.sound hopening.sound).consistent admin.id t⟩

/-- The administrator and the guest are logged in, and somebody else is connected. An announcement
reaches the guest only, whether it is made step by step or at once. -/
theorem announced_to_all_others_guest :
    ∃ (h : List (Step Sample.relay)) (step : Step Sample.relay) (copy later : Message),
      (h ++ [step]).map Step.event = Sample.conversation.take 11 ++
        [.connect 7 8 0,
          .receive 5 ⟨9, .none⟩ (Sample.request .broadcast 5 Sample.admin UserId.toRelay [7]),
          .resume 5 ⟨10, .none⟩] ∧
      Opening Sample.relay Sample.first ∧
      Run Sample.relay Sample.first (h ++ [step]) step.after ∧
      step.after.state.waiting 6 = [copy] ∧ step.after.state.waiting 5 = [] ∧
      step.after.state.waiting 7 = [] ∧
      Sample.relay.Announced [7] Sample.admin.id ⟨10, .none⟩ step.before.state step.after.state ∧
      (Sample.relay.route step.after.state ⟨11, .none⟩ 5
        (Sample.request .broadcast 5 Sample.admin UserId.toRelay [8])).state.waiting 6 =
          [copy, later] ∧
      Sample.relay.Announced [8] Sample.admin.id ⟨11, .none⟩
        (step.after.state.count (.dispatched .broadcast))
        (Sample.relay.route step.after.state ⟨11, .none⟩ 5
          (Sample.request .broadcast 5 Sample.admin UserId.toRelay [8])).state := by
  let m := Sample.request .broadcast 5 Sample.admin UserId.toRelay [7]
  let m' := Sample.request .broadcast 5 Sample.admin UserId.toRelay [8]
  let earlier : List Event := Sample.conversation.take 11 ++
    [.connect 7 8 0, .receive 5 ⟨9, .none⟩ m]
  let copy := Sample.relay.copyFor [7] ⟨10, .none⟩ Sample.guest.id
  let later := Sample.relay.copyFor [8] ⟨11, .none⟩ Sample.guest.id
  have hsome : (Sample.first.follow? Sample.relay (earlier ++ [.resume 5 ⟨10, .none⟩])).isSome := by
    decide +kernel
  obtain ⟨⟨h, last⟩, hfollow⟩ := Option.isSome_iff_exists.1 hsome
  obtain ⟨hrun, hevents⟩ := run_of_follow? hfollow
  have hlast := check_of_follow? hfollow (fun s =>
    s.state.waiting 6 = [copy] && s.state.waiting 5 = [] && s.state.waiting 7 = [] &&
      s.state.registry.user? 5 = some Sample.admin && !s.state.shuttingDown &&
      (Sample.relay.route s.state ⟨11, .none⟩ 5 m').state.waiting 6 = [copy, later])
    (by decide +kernel)
  obtain ⟨h₁, step, rfl, hevent, hbefore, rfl⟩ := snoc_of_follow? hfollow
  have hcall := of_decide_eq_true (check_of_follow? hbefore (fun s =>
    s.calls.get? 5 = some ⟨m, some Sample.admin, .announcer Sample.admin m, []⟩)
    (by decide +kernel))
  simp only [Bool.and_eq_true, decide_eq_true_eq, Bool.not_eq_true'] at hlast
  obtain ⟨⟨⟨⟨⟨hcopy, hown⟩, hnobody⟩, hadmin⟩, hup⟩, hlater⟩ := hlast
  have hauth : Sample.relay.Authorized step.after.state 5 m' Sample.admin :=
    ⟨rfl, hadmin, rfl, by decide +kernel, by decide, by decide⟩
  obtain ⟨hatOnce, hstepwise⟩ := announced_to_all_others Sample.opening hrun
  obtain ⟨-, -, hfirst⟩ := hstepwise h₁ [] step 5 ⟨10, .none⟩ _ Sample.admin rfl ⟨hevent, hcall⟩
    rfl rfl rfl (by decide) rfl
  obtain ⟨-, -, hsecond⟩ := hatOnce 5 m' Sample.admin ⟨11, .none⟩ hauth rfl rfl rfl (by decide) hup
    rfl
  exact ⟨h₁, step, copy, later, hevents, Sample.opening, hrun, hcopy, hown, hnobody, hfirst, hlater,
    hsecond⟩

end Traffic

end Relay
