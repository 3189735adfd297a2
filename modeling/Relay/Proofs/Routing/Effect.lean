import Relay.Proofs.Routing.Delivery
import Relay.Proofs.Routing.Turn

/-!
# `Relay.Proofs.Routing.Effect`: what a step of routing does to each part of the state

`Service.Beginning` and `Service.Resumption` list what steps can do as a whole. Here the same is
said part by part: what becomes of the registry, of the directory, of the mailbox and of the queues,
and which messages the caller is sent. Each part changes in few ways only, and every one of them is
named together with what routing waited for when it happened. Facts about runs are proved from these
lemmas.
-/

set_option autoImplicit false

namespace Relay

/-- Whether a log-in or a registration is what waits. -/
def Pending.isPreamble : Pending → Bool
  | .credentials .. | .seats .. | .hashing .. | .enrolment .. => true
  | _ => false

/-- A message under the name and the token of the relay. -/
structure Message.FromRelay (relayToken : Token) (m : Message) : Prop where
  sender : m.sender = UserId.fromRelay
  token : m.token = relayToken

namespace Pending

/-- A preamble is served for nobody, and nothing else is. -/
theorem Serves.isPreamble_iff {m : Message} {user : Option User} {p : Pending}
    (h : p.Serves m user) : p.isPreamble ↔ user = none := by
  cases h <;> simp [isPreamble]

end Pending

namespace Service

variable {S : Service} {σ : State} {t : Moment} {conn : ConnId} {m : Message} {p : Pending}
  {turn : Turn}

/-! ### What is waited for -/

/-- What is waited for after a message has come in is part of what the message asks for, and the
message was let through. -/
theorem Beginning.serves (h : S.Beginning σ t conn m turn) (hnext : turn.next = .waiting p) :
    turn.replies = [] ∧ p.isFirst ∧
      ((Opens σ conn m ∧ p.Serves m none) ∨
        ∃ user : User, S.Authorized σ conn m user ∧ p.Serves m (some user)) := by
  cases h with
  | preamble hopens hserves hfirst =>
    cases hnext
    exact ⟨rfl, hfirst, .inl ⟨hopens, hserves⟩⟩
  | session hauth hserves hfirst =>
    cases hnext
    exact ⟨rfl, hfirst, .inr ⟨_, hauth, hserves⟩⟩
  | unregistered => cases hnext
  | refuse => cases hnext
  | finish => cases hnext
  | early => cases hnext

/-- What is waited for after an answer of the store is part of what the same message asks for, on
behalf of the same user. Only a fetch that found messages has replied before it is through. -/
theorem Resumption.serves {user : Option User} {q : Pending} (h : S.Resumption σ t conn p turn)
    (hserves : p.Serves m user) (hnext : turn.next = .waiting q) :
    q.Serves m user ∧ (turn.replies = [] ∨ ∃ ids : List UInt64, q = .consumption ids) := by
  -- Only six of the cases go on to wait; each waits for the next part of the same request.
  cases h with
  | seat hbody =>
    cases hnext
    cases hserves with
    | seats hflag => exact ⟨.hashing hflag hbody, .inl rfl⟩
  | hash =>
    cases hnext
    cases hserves with
    | hashing hflag hbody => exact ⟨.enrolment hflag hbody, .inl rfl⟩
  | toKeep _ hflag =>
    cases hnext
    cases hserves with
    | recipient _ hsender hother => exact ⟨.keeping hflag hsender hother, .inl rfl⟩
  | toSelect =>
    cases hnext
    cases hserves with
    | target hflag hbody => exact ⟨.selection hflag hbody, .inl rfl⟩
  | select =>
    cases hnext
    cases hserves with
    | selection hflag => exact ⟨.consumption hflag, .inr ⟨_, rfl⟩⟩
  | stop hadmin =>
    cases hnext
    cases hserves with
    | stopper hflag => exact ⟨.clearance hflag hadmin, .inl rfl⟩
  | _ => cases hnext

/-- A fetch is through when messages have been removed, or could not be. -/
theorem Resumption.next_of_consumption {ids : List UInt64}
    (h : S.Resumption σ t conn (.consumption ids) turn) :
    turn.replies = [] ∧ turn.next = .finished .stay := by
  cases h with
  | refuse _ hp => cases hp
  | consume => exact ⟨rfl, rfl⟩
  | notConsume => exact ⟨rfl, rfl⟩

/-- A message has been dealt with when it was kept, or could not be. -/
theorem Resumption.next_of_keeping {kept : Message}
    (h : S.Resumption σ t conn (.keeping kept) turn) : turn.next = .finished .stay := by
  cases h with
  | refuse _ hp => cases hp
  | keep => rfl
  | notKeep => rfl

/-- Messages are to be removed only when a fetch has just replied with what it found. -/
theorem Resumption.of_next_consumption {ids : List UInt64} (h : S.Resumption σ t conn p turn)
    (hnext : turn.next = .waiting (.consumption ids)) :
    ∃ (user : User) (request : FetchRequest), p = .selection user request ∧
      t.outage .messages = none ∧
      turn.replies =
        S.fetchedMessages user.id (σ.store.mailbox.select (request.query user.id)) ∧
      ids = consumed user.id (σ.store.mailbox.select (request.query user.id)) := by
  cases h with
  | select hstore =>
    cases hnext
    exact ⟨_, _, rfl, hstore, rfl, rfl⟩
  | _ => cases hnext

/-- A fetch that finds messages replies with them and goes on to remove those that it consumes. -/
theorem resume_selection {viewer : User} {request : FetchRequest}
    (hstore : t.outage .messages = none)
    (hsome : σ.store.mailbox.select (request.query viewer.id) ≠ []) :
    S.resume σ t conn (.selection viewer request) =
      ⟨σ, S.fetchedMessages viewer.id (σ.store.mailbox.select (request.query viewer.id)),
        .waiting (.consumption
          (consumed viewer.id (σ.store.mailbox.select (request.query viewer.id))))⟩ := by
  simp only [resume, Outage.attempt, hstore]

/-! ### The registry -/

/-- What a step of routing does to its connection; `preamble` tells whether a log-in or a
registration was waiting. Other connections stay as they are. -/
inductive RegistryEffect (σ : State) (conn : ConnId) (preamble : Prop) (turn : Turn) : Prop where
  /-- The connection stays as it is. A preamble goes on waiting. -/
  | kept (hregistry : turn.state.registry = σ.registry)
      (hnext : preamble → ∃ p : Pending, p.isPreamble ∧ turn.next = .waiting p)
  /-- The connection is removed. -/
  | removed {outcome : Outcome} (hregistry : turn.state.registry = σ.registry.delete conn)
      (hnext : turn.next = .finished outcome)
  /-- The first message of the connection is let through, and waits. -/
  | established {p : Pending} (hphase : σ.registry.phase? conn = some .connected)
      (hregistry : turn.state.registry = σ.registry.advance conn .secureEstablished)
      (hpreamble : p.isPreamble) (hnext : turn.next = .waiting p)
  /-- A registered user is bound to the connection. -/
  | loggedIn {user : User} {bound : Registry} (huser : user ∈ σ.store.directory.users)
      (hbind : σ.registry.bind conn user = .ok bound)
      (hregistry : turn.state.registry = bound.advance conn .loggedIn)
      (hnext : turn.next = .finished .stay)

/-- What happens to the connection of a message that comes in. -/
theorem Beginning.registryEffect (h : S.Beginning σ t conn m turn) :
    RegistryEffect σ conn False turn := by
  cases h with
  | unregistered => exact .kept rfl nofun
  | refuse => exact .removed rfl rfl
  | preamble hopens hserves =>
    exact .established hopens.phase rfl (hserves.isPreamble_iff.2 rfl) rfl
  | finish => exact .removed rfl rfl
  | early => exact .kept rfl nofun
  | session => exact .kept rfl nofun

/-- A first message that is let through is the last that is: its connection is removed at once, or
is no longer where only a first message is let through. -/
theorem Beginning.phase_of_opens (h : S.Beginning σ t conn m turn) (hopens : Opens σ conn m) :
    turn.state.registry.phase? conn ≠ some .connected := by
  have session {user : User} (hauth : S.Authorized σ conn m user) : False := by
    have := hopens.operation
    rw [hauth.operation] at this
    cases this
  cases h with
  | unregistered hgone =>
    rw [hopens.phase] at hgone
    cases hgone
  | refuse => simp [Turn.interrupt, Registry.phase?_delete]
  | preamble => simp [Turn.wait, Registry.phase?_advance, Registry.mayAdvance, hopens.phase,
      Phase.rank]
  | finish hauth => exact (session hauth).elim
  | early hauth => exact (session hauth).elim
  | session hauth => exact (session hauth).elim

/-- What happens to the connection of a message for which the store answers. -/
theorem Resumption.registryEffect (h : S.Resumption σ t conn p turn) :
    RegistryEffect σ conn p.isPreamble turn := by
  cases h with
  | refuse => exact .removed rfl rfl
  | logIn _ hfind hbind =>
    exact .loggedIn (Directory.mem_users_of_findUser? hfind) hbind rfl rfl
  | seat => exact .kept rfl fun _ => ⟨_, rfl, rfl⟩
  | hash => exact .kept rfl fun _ => ⟨_, rfl, rfl⟩
  | enrol => exact .removed rfl rfl
  | unknownRecipient => exact .kept rfl nofun
  | toKeep => exact .kept rfl nofun
  | signal => exact .kept (registry_deliver _ _) nofun
  | keep => exact .kept (registry_deliver _ _) nofun
  | notKeep => exact .kept (registry_deliver _ _) nofun
  | announce => exact .kept (S.registry_announce _ _ _ _) nofun
  | list => exact .kept rfl nofun
  | unknownTarget => exact .kept rfl nofun
  | toSelect => exact .kept rfl nofun
  | nothing => exact .kept rfl nofun
  | select => exact .kept rfl nofun
  | consume => exact .kept rfl nofun
  | notConsume => exact .kept rfl nofun
  | stop => exact .kept rfl nofun
  | clear => exact .removed rfl rfl
  | notClear => exact .removed rfl rfl

namespace RegistryEffect

variable {preamble : Prop} {other : ConnId}

/-- Other connections are as far as they were. -/
theorem phase?_of_ne (h : RegistryEffect σ conn preamble turn) (hne : other ≠ conn) :
    turn.state.registry.phase? other = σ.registry.phase? other := by
  cases h with
  | kept hregistry => rw [hregistry]
  | removed hregistry => rw [hregistry, Registry.phase?_delete, if_neg hne]
  | established _ hregistry => rw [hregistry, Registry.phase?_advance, if_neg (hne ·.1)]
  | loggedIn _ hbind hregistry => rw [hregistry, Registry.phase?_logIn hbind, if_neg hne]

/-- Other connections have the users that they had. -/
theorem user?_of_ne (h : RegistryEffect σ conn preamble turn) (hne : other ≠ conn) :
    turn.state.registry.user? other = σ.registry.user? other := by
  cases h with
  | kept hregistry => rw [hregistry]
  | removed hregistry => rw [hregistry, Registry.user?_delete, if_neg hne]
  | established _ hregistry => rw [hregistry, Registry.user?_advance]
  | loggedIn _ hbind hregistry => rw [hregistry, Registry.user?_logIn hbind, if_neg hne]

/-- Who is on a connection stays on it, as long as it is registered. -/
theorem user?_of_bound (h : RegistryEffect σ conn preamble turn) {user : User}
    (hbound : σ.registry.user? other = some user) (hlive : turn.state.registry.contains other) :
    turn.state.registry.user? other = some user := by
  by_cases hother : other = conn
  · subst hother
    cases h with
    | kept hregistry => rw [hregistry, hbound]
    | removed hregistry =>
      rw [hregistry, Registry.contains_delete] at hlive
      simp at hlive
    | established _ hregistry => rw [hregistry, Registry.user?_advance, hbound]
    | loggedIn _ hbind =>
      -- Nobody was on a connection to which somebody is bound.
      obtain ⟨-, c, hc, hnobody⟩ := Registry.free_of_bind hbind
      rw [Registry.user?, hc, Option.bind_some, hnobody] at hbound
      cases hbound
  · rw [h.user?_of_ne hother, hbound]

/-- As long as routing goes on, nobody comes or goes. -/
theorem user?_of_waiting (h : RegistryEffect σ conn preamble turn) (hnext : turn.next = .waiting p) :
    turn.state.registry.user? other = σ.registry.user? other := by
  cases h with
  | kept hregistry => rw [hregistry]
  | removed _ hfinished =>
    rw [hnext] at hfinished
    cases hfinished
  | established _ hregistry => rw [hregistry, Registry.user?_advance]
  | loggedIn _ _ _ hfinished =>
    rw [hnext] at hfinished
    cases hfinished

/-- No connection is registered by routing. -/
theorem contains (h : RegistryEffect σ conn preamble turn)
    (hlive : turn.state.registry.contains other) : σ.registry.contains other := by
  cases h with
  | kept hregistry => exact hregistry ▸ hlive
  | removed hregistry => exact Registry.contains_of_delete (hregistry ▸ hlive)
  | established _ hregistry =>
    rw [hregistry, Registry.contains_advance] at hlive
    exact hlive
  | loggedIn _ hbind hregistry =>
    rw [hregistry, Registry.contains_logIn hbind] at hlive
    exact hlive

theorem consistent (h : RegistryEffect σ conn preamble turn) (hσ : σ.registry.Consistent) :
    turn.state.registry.Consistent := by
  cases h with
  | kept hregistry =>
    rw [hregistry]
    exact hσ
  | removed hregistry =>
    rw [hregistry]
    exact Registry.consistent_delete hσ conn
  | established hphase hregistry =>
    rw [hregistry]
    exact Registry.consistent_establish hσ hphase
  | loggedIn _ hbind hregistry =>
    rw [hregistry]
    exact Registry.consistent_logIn hσ hbind

/-- Whoever is on a connection was on it, or is in the directory. -/
theorem user?_cases (h : RegistryEffect σ conn preamble turn) {user : User}
    (huser : turn.state.registry.user? other = some user) :
    σ.registry.user? other = some user ∨ user ∈ σ.store.directory.users := by
  cases h with
  | kept hregistry =>
    rw [hregistry] at huser
    exact .inl huser
  | removed hregistry => exact .inl (Registry.user?_of_delete (hregistry ▸ huser))
  | established _ hregistry =>
    rw [hregistry, Registry.user?_advance] at huser
    exact .inl huser
  | loggedIn hmem hbind hregistry =>
    rw [hregistry, Registry.user?_logIn hbind] at huser
    split at huser
    · cases huser
      exact .inr hmem
    · exact .inl huser

/-- A connection that stays is as far as it was, or farther. -/
theorem rank_le (h : RegistryEffect σ conn preamble turn) {before after : Phase}
    (hbefore : σ.registry.phase? other = some before)
    (hafter : turn.state.registry.phase? other = some after) : before.rank ≤ after.rank := by
  -- A connection that is removed has no phase afterwards, so the claim is about the other three.
  by_cases hother : other = conn
  · subst hother
    cases h with
    | kept hregistry =>
      rw [hregistry, hbefore] at hafter
      cases hafter
      exact Nat.le_refl _
    | removed hregistry =>
      rw [hregistry, Registry.phase?_delete, if_pos rfl] at hafter
      cases hafter
    | established hphase =>
      rw [hphase] at hbefore
      cases hbefore
      exact Nat.zero_le _
    | loggedIn _ hbind hregistry =>
      rw [hregistry, Registry.phase?_logIn hbind, if_pos rfl] at hafter
      cases hafter
      exact before.rank_le_loggedIn
  · rw [h.phase?_of_ne hother, hbefore] at hafter
    cases hafter
    exact Nat.le_refl _

end RegistryEffect

/-! ### The store -/

/-- A message that comes in changes nothing in the store. -/
theorem Beginning.store_eq (h : S.Beginning σ t conn m turn) : turn.state.store = σ.store := by
  cases h <;> rfl

/-- The directory stays as it is or gets one more user. -/
theorem Resumption.directory_cases (h : S.Resumption σ t conn p turn) :
    turn.state.store.directory = σ.store.directory ∨
      ∃ (name : Username) (record : String) (user : User),
        σ.store.directory.enrol name record = .ok (user, turn.state.store.directory) := by
  cases h with
  | enrol henrol => exact .inr ⟨_, _, _, henrol⟩
  | signal => exact .inl (congrArg Store.directory (store_deliver _ _))
  | keep =>
    left
    simp only [Turn.answer, store_deliver]
  | notKeep => exact .inl (congrArg Store.directory (store_deliver _ _))
  | announce => exact .inl (congrArg Store.directory (S.store_announce _ _ _ _))
  | _ => exact .inl rfl

/-- The mailbox stays as it is, or a message is kept, or messages that were fetched are removed, or
all are. A message that waits to be kept is kept unless the store fails. -/
theorem Resumption.mailbox_cases (h : S.Resumption σ t conn p turn) :
    (turn.state.store.mailbox = σ.store.mailbox ∧
        ∀ m : Message, p = .keeping m → t.outage .addMessage ≠ none) ∨
      (∃ m : Message, p = .keeping m ∧ t.outage .addMessage = none ∧
        turn.state.store.mailbox =
          (σ.store.mailbox.add m.timestamp m.sender m.recipient m.body).2) ∨
      (∃ ids : List UInt64, p = .consumption ids ∧ t.outage .deleteMessages = none ∧
        turn.state.store.mailbox = σ.store.mailbox.delete ids) ∨
      (p = .clearance ∧ t.outage .deleteAllMessages = none ∧
        turn.state.store.mailbox = σ.store.mailbox.clear) := by
  cases h with
  | refuse _ hp =>
    refine .inl ⟨rfl, fun m hm => ?_⟩
    -- What waits to be kept is not refused any more.
    rw [hm] at hp
    cases hp
  | signal =>
    refine .inl ⟨congrArg Store.mailbox (store_deliver _ _), fun m hm => ?_⟩
    cases hm
  | keep hstore =>
    refine .inr (.inl ⟨_, rfl, hstore, ?_⟩)
    simp only [Turn.answer, store_deliver]
  | notKeep hstore => exact .inl ⟨congrArg Store.mailbox (store_deliver _ _), fun _ _ => hstore⟩
  | announce =>
    refine .inl ⟨congrArg Store.mailbox (S.store_announce _ _ _ _), fun m hm => ?_⟩
    cases hm
  | consume hstore => exact .inr (.inr (.inl ⟨_, rfl, hstore, rfl⟩))
  | clear hstore => exact .inr (.inr (.inr ⟨rfl, hstore, rfl⟩))
  | _ =>
    refine .inl ⟨rfl, fun m hm => ?_⟩
    cases hm

/-! ### The mark of shutdown -/

/-- No message starts a shutdown as soon as it comes in. -/
theorem Beginning.shuttingDown_eq (h : S.Beginning σ t conn m turn) :
    turn.state.shuttingDown = σ.shuttingDown := by
  cases h <;> rfl

/-- A message is let through only as long as the relay is not shutting down. -/
theorem Beginning.up_of_waiting (h : S.Beginning σ t conn m turn) (hnext : turn.next = .waiting p) :
    σ.shuttingDown = false := by
  cases h with
  | preamble _ _ _ hup => exact hup
  | session _ _ _ hup => exact hup
  | _ => cases hnext

/-- Only a request of the administrator starts a shutdown, and then all messages are to be
removed. -/
theorem Resumption.shuttingDown_cases (h : S.Resumption σ t conn p turn) :
    (turn.state.shuttingDown = σ.shuttingDown ∧ turn.next ≠ .waiting .clearance) ∨
      ∃ user : User, p = .stopper user ∧ user.id = UserId.admin ∧
        turn.state.shuttingDown = true ∧ turn.next = .waiting .clearance := by
  cases h with
  | stop hadmin => exact .inr ⟨_, rfl, hadmin, rfl, rfl⟩
  | signal => exact .inl ⟨shuttingDown_deliver _ _, nofun⟩
  | keep => exact .inl ⟨shuttingDown_deliver _ _, nofun⟩
  | notKeep => exact .inl ⟨shuttingDown_deliver _ _, nofun⟩
  | announce => exact .inl ⟨S.shuttingDown_announce _ _ _ _, nofun⟩
  | _ => exact .inl ⟨rfl, nofun⟩

/-- The relay never stops as soon as a message comes in. -/
theorem Beginning.next_ne_shutdown (h : S.Beginning σ t conn m turn) :
    turn.next ≠ .finished .shutdown := by
  cases h <;> nofun

/-- The relay stops when all messages were to be removed. -/
theorem Resumption.next_eq_shutdown_iff (h : S.Resumption σ t conn p turn) :
    turn.next = .finished .shutdown ↔ p = .clearance := by
  cases h with
  | refuse _ hp =>
    constructor
    · nofun
    · rintro rfl
      cases hp
  | clear => exact ⟨fun _ => rfl, fun _ => rfl⟩
  | notClear => exact ⟨fun _ => rfl, fun _ => rfl⟩
  | _ => exact ⟨nofun, nofun⟩

/-! ### The queues -/

/-- A message that comes in changes no queue. -/
theorem Beginning.outboxes_eq (h : S.Beginning σ t conn m turn) :
    turn.state.outboxes = σ.outboxes := by
  cases h <;> rfl

/-- Every message that is added to a queue is relayed to a user who is on the connection of the
queue, or it is a copy of an announcement of the administrator. -/
theorem Resumption.queue_cases (h : S.Resumption σ t conn p turn) (other : ConnId) :
    ∃ added : List Message, turn.state.waiting other = σ.waiting other ++ added ∧
      ∀ m ∈ added,
        ((p = .recipient m ∨ p = .keeping m) ∧
            σ.registry.sessions.get? m.recipient = some other) ∨
          ∃ (author : User) (asked : Message) (user : UserId), p = .announcer author asked ∧
            author.id = UserId.admin ∧ σ.registry.sessions.get? user = some other ∧
            m = { S.message t .broadcast user with body := asked.body } := by
  cases h with
  | @signal relayed =>
    obtain ⟨added, hwaiting, hadded⟩ := exists_waiting_deliver σ relayed other
    refine ⟨added, hwaiting, fun m hm => ?_⟩
    obtain ⟨rfl, hsession⟩ := hadded m hm
    exact .inl ⟨.inl rfl, hsession⟩
  | @keep relayed =>
    obtain ⟨added, hwaiting, hadded⟩ := exists_waiting_deliver
      { σ with store.mailbox := (σ.store.mailbox.add relayed.timestamp relayed.sender
        relayed.recipient relayed.body).2 } relayed other
    refine ⟨added, hwaiting, fun m hm => ?_⟩
    obtain ⟨rfl, hsession⟩ := hadded m hm
    exact .inl ⟨.inr rfl, hsession⟩
  | @notKeep relayed =>
    obtain ⟨added, hwaiting, hadded⟩ := exists_waiting_deliver σ relayed other
    refine ⟨added, hwaiting, fun m hm => ?_⟩
    obtain ⟨rfl, hsession⟩ := hadded m hm
    exact .inl ⟨.inr rfl, hsession⟩
  | @announce author asked hadmin =>
    obtain ⟨added, hwaiting, hadded⟩ :=
      S.exists_waiting_announce t asked.body σ author.id other
    refine ⟨added, hwaiting, fun m hm => ?_⟩
    obtain ⟨user, hsession, -, hcopy⟩ := hadded m hm
    exact .inr ⟨author, asked, user, rfl, hadmin, hsession, hcopy⟩
  | _ => exact ⟨[], (List.append_nil _).symm, List.forall_mem_nil _⟩

/-! ### The replies -/

theorem Refusal.fromRelay {reply : Message} (h : S.Refusal t reply) :
    reply.FromRelay S.relayToken := by
  cases h <;> exact ⟨rfl, rfl⟩

/-- No refusal looks like a reply to a fetch. -/
theorem Refusal.flag_ne_fetchMessages {reply : Message} (h : S.Refusal t reply) :
    reply.flag ≠ .fetchMessages := by
  cases h with
  | error => exact (by decide : Flag.error ≠ Flag.fetchMessages)
  | unauthenticated => exact (by decide : Flag.unauthenticated ≠ Flag.fetchMessages)
  | accessDenied => exact (by decide : Flag.accessDenied ≠ Flag.fetchMessages)

/-- The replies to a message that comes in are the relay's own, and none looks like a reply to a
fetch. -/
theorem Beginning.fromRelay (h : S.Beginning σ t conn m turn) {reply : Message}
    (hreply : reply ∈ turn.replies) :
    reply.FromRelay S.relayToken ∧ reply.flag ≠ .fetchMessages := by
  cases h with
  | refuse _ hrefusal =>
    obtain rfl := List.mem_singleton.1 hreply
    exact ⟨hrefusal.fromRelay, hrefusal.flag_ne_fetchMessages⟩
  | early =>
    obtain rfl := List.mem_singleton.1 hreply
    exact ⟨⟨rfl, rfl⟩, (by decide : Flag.error ≠ Flag.fetchMessages)⟩
  | _ => cases hreply

/-- What a fetch was sent: the empty marker alone, if there was nothing, or else the messages that
were found. -/
inductive Fetched (S : Service) (t : Moment) (user : User) (request : FetchRequest)
    (found : List StoredMessage) : Message → Prop where
  | marker (hnone : found = []) :
      Fetched S t user request found
        { S.message t .fetchMessages user.id with body := request.marker }
  | message {reply : Message} (hmem : reply ∈ S.fetchedMessages user.id found) :
      Fetched S t user request found reply

/-- When the store answers, the replies are the relay's own and none looks like a reply to a fetch,
except those to a fetch. -/
theorem Resumption.replies_cases (h : S.Resumption σ t conn p turn) {reply : Message}
    (hreply : reply ∈ turn.replies) :
    (reply.FromRelay S.relayToken ∧ reply.flag ≠ .fetchMessages) ∨
      ∃ (user : User) (request : FetchRequest), p = .selection user request ∧
        t.outage .messages = none ∧
        Fetched S t user request (σ.store.mailbox.select (request.query user.id)) reply := by
  -- Whatever its flag and its body are, a message of the relay is its own.
  have own {flag : Flag} {recipient : UserId} {body : Bytes} (hflag : flag ≠ .fetchMessages)
      (hreply : reply ∈ [{ S.message t flag recipient with body }]) :
      reply.FromRelay S.relayToken ∧ reply.flag ≠ .fetchMessages := by
    obtain rfl := List.mem_singleton.1 hreply
    exact ⟨⟨rfl, rfl⟩, hflag⟩
  cases h with
  | refuse _ _ hrefusal =>
    obtain rfl := List.mem_singleton.1 hreply
    exact .inl ⟨hrefusal.fromRelay, hrefusal.flag_ne_fetchMessages⟩
  | logIn => exact .inl (own (by decide) hreply)
  | enrol => exact .inl (own (by decide) hreply)
  | unknownRecipient => exact .inl (own (by decide) hreply)
  | unknownTarget => exact .inl (own (by decide) hreply)
  | list =>
    simp only [Turn.answer, directoryPages, List.mem_mapIdx] at hreply
    obtain ⟨index, hindex, rfl⟩ := hreply
    exact .inl ⟨⟨rfl, rfl⟩, (by decide : Flag.fetchUsers ≠ Flag.fetchMessages)⟩
  | nothing hstore hnone =>
    obtain rfl := List.mem_singleton.1 hreply
    exact .inr ⟨_, _, rfl, hstore, .marker hnone⟩
  | select hstore => exact .inr ⟨_, _, rfl, hstore, .message hreply⟩
  | _ => cases hreply

/-- A message that was found is sent under the name of its author, with the token of the relay. -/
theorem mem_fetchedMessages {requester : UserId} {found : List StoredMessage} {reply : Message}
    (h : reply ∈ S.fetchedMessages requester found) :
    ∃ stored ∈ found, reply.flag = .fetchMessages ∧ reply.timestamp = stored.timestamp ∧
      reply.sender = stored.author ∧ reply.recipient = requester ∧ reply.token = S.relayToken ∧
      reply.body = stored.body := by
  simp only [fetchedMessages, List.mem_mapIdx] at h
  obtain ⟨index, hindex, rfl⟩ := h
  exact ⟨found[index], List.getElem_mem hindex, rfl, rfl, rfl, rfl, rfl, rfl⟩

end Service

end Relay
