import Relay.Proofs.Link.Step

/-!
# `Relay.Proofs.Link.Welcome`: what comes before the welcome of a client

The reply to a log-in, the welcome, tells a client its id and its token. Its reader puts it into the
queue of the connection in a step of its own, after the one in which the user is bound to the
connection. From the one to the other the user can be found by everybody else, and what others relay
or announce to the user is in the queue before the welcome.

`Welcome` says how far a log-in has come, given what was placed in the queue since the connection was
registered: nothing at all before it is answered, and nothing but messages of others before the
welcome. A step of the session itself keeps it (`Link.Course.welcome`), and so does one of another
session (`Link.Course.welcome_of_ne`).
-/

set_option autoImplicit false

namespace Relay

/-- Whether a message is one that others place in a queue: it is passed on or announced. -/
def Message.isForeign (m : Message) : Bool := m.flag.isRelayed || m.flag = .broadcast

/-- The reply that lets a user in. -/
structure Message.Welcomes (m : Message) (user : User) : Prop where
  flag : m.flag = .loggedIn
  recipient : m.recipient = user.id

/-- How far the log-in on a registered connection has come, with the user of the connection and what
was placed in its queue so far. -/
inductive Welcome (reader : ReaderStage) : Option User → List Message → Prop where
  /-- Nobody has logged in. Nothing was placed, and the reader has nothing to place. -/
  | awaited (hreplies : reader.replies = []) : Welcome reader none []
  /-- The log-in was answered, and the reader has the welcome in hand. -/
  | answered {user : User} {welcome : Message} {since : Nat} {log : List Message}
      (hreader : reader = .replying [welcome] .stay since) (hwelcome : welcome.Welcomes user)
      (hforeign : ∀ m ∈ log, m.isForeign) : Welcome reader (some user) log
  /-- The welcome was lost, because nobody took messages out of the queue any more. -/
  | lost {user : User} {log : List Message} (hended : reader.hasEnded)
      (hforeign : ∀ m ∈ log, m.isForeign) : Welcome reader (some user) log
  /-- The welcome was placed, behind messages of others. -/
  | placed {user : User} {before after : List Message} {welcome : Message}
      (hforeign : ∀ m ∈ before, m.isForeign) (hwelcome : welcome.Welcomes user) :
      Welcome reader (some user) (before ++ welcome :: after)

/-- More is placed by others, and only if there is somebody to place it for. -/
theorem Welcome.append {reader : ReaderStage} {user : Option User} {log added : List Message}
    (h : Welcome reader user log) (hforeign : ∀ m ∈ added, m.isForeign)
    (hnobody : user = none → added = []) : Welcome reader user (log ++ added) := by
  have hall {log : List Message} (hlog : ∀ m ∈ log, m.isForeign) :
      ∀ m ∈ log ++ added, m.isForeign := fun m hm =>
    (List.mem_append.1 hm).elim (hlog m) (hforeign m)
  cases h with
  | awaited hreplies =>
    rw [hnobody rfl]
    exact .awaited hreplies
  | answered hreader hwelcome hlog => exact .answered hreader hwelcome (hall hlog)
  | lost hended hlog => exact .lost hended (hall hlog)
  | placed hbefore hwelcome =>
    rw [List.append_assoc, List.cons_append]
    exact .placed hbefore hwelcome

namespace State

variable {σ τ : State} {conn : ConnId} {added : List Message}

/-- What was placed in the queue of a connection from one state to the next. No step both places
messages in a queue and takes some out. -/
def placed (σ τ : State) (conn : ConnId) : List Message :=
  (τ.waiting conn).drop (σ.waiting conn).length

theorem placed_of_append (h : τ.waiting conn = σ.waiting conn ++ added) :
    σ.placed τ conn = added := by
  rw [placed, h, List.drop_left]

theorem placed_of_suffix (h : τ.waiting conn <:+ σ.waiting conn) : σ.placed τ conn = [] :=
  List.drop_eq_nil_of_le h.length_le

theorem placed_of_outboxes (h : τ.outboxes = σ.outboxes) (conn : ConnId) :
    σ.placed τ conn = [] :=
  placed_of_suffix (suffix_of_get? (by rw [h]))

end State

/-! ### Routing -/

namespace Service

variable {S : Service} {σ : State} {t : Moment} {conn : ConnId} {m : Message} {p : Pending}
  {turn : Turn}

/-- A message that comes in on a connection without a user goes on to the store, or its connection
is removed. -/
theorem Beginning.of_nobody (h : S.Beginning σ t conn m turn)
    (hnobody : σ.registry.user? conn = none) (hlive : turn.state.registry.contains conn) :
    turn.replies = [] ∧ ∃ p, turn.next = .waiting p := by
  have session {user : User} (hauth : S.Authorized σ conn m user) : False := by
    have hbound := hauth.bound
    rw [hnobody] at hbound
    cases hbound
  cases h with
  | unregistered hgone =>
    obtain ⟨c, hc⟩ := (Table.contains_iff _ _).1 hlive
    change Option.map _ (σ.registry.connections.get? conn) = none at hgone
    change σ.registry.connections.get? conn = some c at hc
    rw [hc] at hgone
    cases hgone
  | refuse =>
    simp [Turn.interrupt, Registry.contains_delete] at hlive
  | preamble => exact ⟨rfl, _, rfl⟩
  | finish hauth => exact (session hauth).elim
  | early hauth => exact (session hauth).elim
  | session hauth => exact (session hauth).elim

/-- A log-in or a registration waits again, or a user is bound and welcomed, or the connection is
removed. -/
theorem Resumption.of_isPreamble (h : S.Resumption σ t conn p turn) (hp : p.isPreamble)
    (hlive : turn.state.registry.contains conn) :
    (turn.replies = [] ∧ ∃ q, turn.next = .waiting q) ∨
      ∃ (user : User) (welcome : Message), turn.state.registry.user? conn = some user ∧
        turn.replies = [welcome] ∧ welcome.Welcomes user ∧ turn.next = .finished .stay := by
  cases h with
  | refuse => simp [Turn.interrupt, Registry.contains_delete] at hlive
  | logIn _ _ hbind =>
    refine .inr ⟨_, _, ?_, rfl, ⟨rfl, rfl⟩, rfl⟩
    exact (Registry.user?_logIn hbind conn).trans (if_pos rfl)
  | seat => exact .inl ⟨rfl, _, rfl⟩
  | hash => exact .inl ⟨rfl, _, rfl⟩
  | enrol => simp [Registry.contains_delete] at hlive
  | _ => cases hp

/-- What is placed while the store answers is passed on or announced, and there is somebody on the
connection that it is for. -/
theorem Resumption.foreign_of_placed (h : S.Resumption σ t conn p turn)
    (hσ : σ.registry.Consistent) {user : Option User} (hserves : p.Serves m user)
    (other : ConnId) :
    (∀ x ∈ σ.placed turn.state other, x.isForeign) ∧
      (σ.registry.user? other = none → σ.placed turn.state other = []) := by
  obtain ⟨added, hwaiting, hadded⟩ := h.queue_cases other
  rw [State.placed_of_append hwaiting]
  constructor
  · intro x hx
    rw [Message.isForeign, Bool.or_eq_true]
    rcases hadded x hx with ⟨rfl | rfl, -⟩ | ⟨author, asked, user, -, -, -, rfl⟩
    · obtain ⟨rfl, hflag, -⟩ := hserves.of_recipient
      exact .inl hflag
    · obtain ⟨rfl, hflag, -⟩ := hserves.of_keeping
      rw [hflag]
      exact .inl rfl
    · exact .inr rfl
  · intro hnobody
    refine List.eq_nil_iff_forall_not_mem.2 fun x hx => ?_
    -- Whoever a message is placed for is on the connection.
    have hsession : ∃ user, σ.registry.sessions.get? user = some other := by
      rcases hadded x hx with ⟨-, hsession⟩ | ⟨-, -, user, -, -, hsession, -⟩
      · exact ⟨_, hsession⟩
      · exact ⟨user, hsession⟩
    obtain ⟨user, hsession⟩ := hsession
    obtain ⟨_, hbound, -⟩ := (hσ.indexed user other).1 hsession
    rw [hnobody] at hbound
    cases hbound

end Service

/-! ### A session -/

namespace Link

variable {S : Service} {now : Nat} {l l' k : Link} {σ σ' : State} {log : List Message}

/-- What a reader waits for is served for the user of its connection. -/
def Serves (l : Link) (r : Registry) : Prop :=
  ∀ p replies since, l.reader = .routing p replies since →
    ∃ (m : Message) (user : Option User), p.Serves m user ∧
      (r.contains l.id → r.user? l.id = user)

theorem serves_of_isAwaiting (h : l.reader.isAwaiting) (r : Registry) : l.Serves r := by
  intro p replies since hrouting
  rw [hrouting] at h
  cases h

namespace Course

/-- A step of another session leaves it so. -/
theorem serves_of_ne (h : Course S now l σ l' σ') (hne : k.id ≠ l.id)
    (hserves : k.Serves σ.registry) : k.Serves σ'.registry := by
  intro p replies since hrouting
  obtain ⟨m, user, hp, huser⟩ := hserves p replies since hrouting
  refine ⟨m, user, hp, fun hlive => ?_⟩
  rw [h.registrySource.user?_of_ne hne]
  exact huser (h.registrySource.contains hlive)

theorem serves (h : Course S now l σ l' σ') (hid : l'.id = l.id) (hσ : σ.registry.Consistent)
    (hserves : l.Serves σ.registry) : l'.Serves σ'.registry := by
  have same (hreader : l'.reader = l.reader) (hregistry : σ'.registry = σ.registry) :
      l'.Serves σ'.registry := by
    rw [Serves, hreader, hid, hregistry]
    exact hserves
  have elsewhere (hreader : ∀ p replies since, l'.reader ≠ .routing p replies since) :
      l'.Serves σ'.registry := fun p replies since hrouting =>
    absurd hrouting (hreader p replies since)
  -- A step of routing that goes on waiting does so for the same user.
  have turned {turn : Turn} {replies : List Message} {since : Nat}
      (hreader : l'.reader = .ofTurn turn replies since)
      (hturn : ∀ q, turn.next = .waiting q → ∃ (m : Message) (user : Option User),
        q.Serves m user ∧ (σ'.registry.contains l.id → σ'.registry.user? l.id = user)) :
      l'.Serves σ'.registry := by
    intro q _ _ hrouting
    rw [hreader, ReaderStage.ofTurn] at hrouting
    split at hrouting
    · cases hrouting
    · rename_i hnext
      cases hrouting
      rw [hid]
      exact hturn q hnext
  cases h with
  | stays hreader hshared => exact same hreader hshared.registry
  | waits _ hreader => exact serves_of_isAwaiting hreader _
  | ends hreader =>
    refine elsewhere fun p replies since hrouting => ?_
    rw [hrouting] at hreader
    cases hreader
  | malformed _ _ hreader =>
    refine elsewhere fun p replies since hrouting => ?_
    rw [hreader] at hrouting
    cases hrouting
  | @begins t _ m _ _ hreader hstate =>
    have hbegin := S.beginning_begin σ t l.id m
    refine turned hreader fun q hnext => ?_
    rw [hstate, hbegin.registryEffect.user?_of_waiting hnext]
    rcases (hbegin.serves hnext).2.2 with ⟨hopens, hq⟩ | ⟨user, hauth, hq⟩
    · exact ⟨_, none, hq, fun _ => hσ.nobody hopens.phase⟩
    · exact ⟨_, some user, hq, fun _ => hauth.bound⟩
  | @resumes t p _ _ hbefore hreader hstate =>
    obtain ⟨m, user, hp, huser⟩ := hserves _ _ _ hbefore
    have hresume := S.resumption_resume σ t l.id p
    refine turned hreader fun q hnext => ?_
    rw [hstate, hresume.registryEffect.user?_of_waiting hnext]
    exact ⟨m, user, (hresume.serves hp hnext).1,
      fun hlive => huser (hresume.registryEffect.contains hlive)⟩
  | replies _ _ hreader =>
    refine elsewhere fun p replies since hrouting => ?_
    rw [hreader] at hrouting
    cases hrouting
  | takes hreader hdrains => exact same hreader hdrains.registry

/-- What a session places in the queue of another is passed on or announced, and there is somebody
on the connection that it is for. -/
theorem foreign_of_placed (h : Course S now l σ l' σ') (hσ : σ.registry.Consistent)
    (hserves : l.Serves σ.registry) {other : ConnId} (hne : other ≠ l.id) :
    (∀ m ∈ σ.placed σ' other, m.isForeign) ∧
      (σ.registry.user? other = none → σ.placed σ' other = []) := by
  have nothing (hnone : σ.placed σ' other = []) : (∀ m ∈ σ.placed σ' other, m.isForeign) ∧
      (σ.registry.user? other = none → σ.placed σ' other = []) := by
    rw [hnone]
    exact ⟨List.forall_mem_nil _, fun _ => rfl⟩
  cases h with
  | stays _ hshared => exact nothing (State.placed_of_outboxes hshared.outboxes other)
  | waits _ _ hshared => exact nothing (State.placed_of_outboxes hshared.outboxes other)
  | ends _ hshared => exact nothing (State.placed_of_outboxes hshared.outboxes other)
  | malformed _ _ _ hstate =>
    exact nothing (State.placed_of_outboxes (congrArg State.outboxes hstate) other)
  | @begins t _ m _ _ _ hstate =>
    have houtboxes := (S.beginning_begin σ t l.id m).outboxes_eq
    exact nothing (State.placed_of_outboxes (hstate ▸ houtboxes) other)
  | resumes t hbefore _ hstate =>
    obtain ⟨m, user, hp, -⟩ := hserves _ _ _ hbefore
    rw [hstate]
    exact (S.resumption_resume σ t l.id _).foreign_of_placed hσ hp other
  | replies _ _ _ hstate =>
    refine nothing (State.placed_of_append ?_)
    rw [hstate, State.waiting_enqueue, if_neg (hne ·.1), List.append_nil]
  | takes _ hdrains => exact nothing (State.placed_of_suffix (hdrains.queues other))

/-- A step of another session keeps what is known of the welcome. -/
theorem welcome_of_ne (h : Course S now l σ l' σ') (hσ : σ.registry.Consistent)
    (hserves : l.Serves σ.registry) {conn : ConnId} (hne : conn ≠ l.id) {reader : ReaderStage}
    (hwelcome : Welcome reader (σ.registry.user? conn) log) :
    Welcome reader (σ'.registry.user? conn) (log ++ σ.placed σ' conn) := by
  obtain ⟨hforeign, hnobody⟩ := h.foreign_of_placed hσ hserves hne
  rw [h.registrySource.user?_of_ne hne]
  exact hwelcome.append hforeign hnobody

/-- Before a log-in is answered, nothing is placed, and the answer is the welcome. -/
theorem of_nobody (h : Course S now l σ l' σ') (hσ : σ.registry.Consistent)
    (hserves : l.Serves σ.registry) (hlive : σ'.registry.contains l.id)
    (hnobody : σ.registry.user? l.id = none) (hreplies : l.reader.replies = []) :
    σ.placed σ' l.id = [] ∧
      ((σ'.registry.user? l.id = none ∧ l'.reader.replies = []) ∨
        ∃ (user : User) (welcome : Message) (since : Nat),
          σ'.registry.user? l.id = some user ∧ welcome.Welcomes user ∧
            l'.reader = .replying [welcome] .stay since) := by
  cases h with
  | stays hreader hshared =>
    rw [hshared.registry, hreader]
    exact ⟨State.placed_of_outboxes hshared.outboxes _, .inl ⟨hnobody, hreplies⟩⟩
  | waits _ hreader hshared =>
    rw [hshared.registry]
    exact ⟨State.placed_of_outboxes hshared.outboxes _,
      .inl ⟨hnobody, ReaderStage.replies_of_isAwaiting hreader⟩⟩
  | ends hreader hshared =>
    rw [hshared.registry]
    exact ⟨State.placed_of_outboxes hshared.outboxes _,
      .inl ⟨hnobody, ReaderStage.replies_of_hasEnded hreader⟩⟩
  | malformed _ _ _ hstate =>
    rw [hstate, State.registry_purge, Registry.contains_delete] at hlive
    simp at hlive
  | @begins t _ m _ _ hreader hstate =>
    have hbegin := S.beginning_begin σ t l.id m
    rw [hstate] at hlive ⊢
    obtain ⟨hnone, p, hnext⟩ := hbegin.of_nobody hnobody hlive
    refine ⟨State.placed_of_outboxes hbegin.outboxes_eq _, .inl ⟨?_, ?_⟩⟩
    · rw [hbegin.registryEffect.user?_of_waiting hnext, hnobody]
    · rw [hreader, ReaderStage.ofTurn, hnext, hnone]
      rfl
  | @resumes t p replies since hbefore hreader hstate =>
    have hresume := S.resumption_resume σ t l.id p
    rw [hstate] at hlive ⊢
    obtain ⟨m, user, hp, huser⟩ := hserves _ _ _ hbefore
    have hpreamble : p.isPreamble := by
      rw [hp.isPreamble_iff, ← huser (hresume.registryEffect.contains hlive), hnobody]
    obtain rfl : replies = [] := by rwa [hbefore] at hreplies
    refine ⟨(hresume.foreign_of_placed hσ hp l.id).2 hnobody, ?_⟩
    rcases hresume.of_isPreamble hpreamble hlive with
      ⟨hnone, q, hnext⟩ | ⟨bound, welcome, hbound, hwelcome, hwelcomes, hnext⟩
    · refine .inl ⟨?_, ?_⟩
      · rw [hresume.registryEffect.user?_of_waiting hnext, hnobody]
      · rw [hreader, ReaderStage.ofTurn, hnext, hnone]
        rfl
    · refine .inr ⟨bound, welcome, since, hbound, hwelcomes, ?_⟩
      rw [hreader, ReaderStage.ofTurn, hnext, hwelcome]
      rfl
  | replies hbefore =>
    rw [hbefore] at hreplies
    cases hreplies
  | takes hreader hdrains =>
    rw [hdrains.registry, hreader]
    exact ⟨State.placed_of_suffix (hdrains.queues _), .inl ⟨hnobody, hreplies⟩⟩

/-- When the reader hands the welcome over, it is the message that is placed. -/
theorem of_welcome (h : Course S now l σ l' σ') {welcome : Message} {since : Nat}
    (hreader : l.reader = .replying [welcome] .stay since) :
    (l'.reader = l.reader ∨ l'.reader.hasEnded) ∧ σ.placed σ' l.id = [] ∨
      l'.reader = .replying [] .stay since ∧ σ.placed σ' l.id = [welcome] := by
  have awaiting (h : l.reader.isAwaiting) : False := by
    rw [hreader] at h
    cases h
  cases h with
  | stays hsame hshared =>
    exact .inl ⟨.inl hsame, State.placed_of_outboxes hshared.outboxes _⟩
  | waits hbefore =>
    rcases hbefore with hawaiting | ⟨outcome, since', hdone⟩
    · exact (awaiting hawaiting).elim
    · rw [hreader] at hdone
      cases hdone
  | ends hended hshared =>
    exact .inl ⟨.inr hended, State.placed_of_outboxes hshared.outboxes _⟩
  | malformed _ hawaiting => exact (awaiting hawaiting).elim
  | begins _ hawaiting => exact (awaiting hawaiting).elim
  | resumes _ hbefore =>
    rw [hreader] at hbefore
    cases hbefore
  | replies hbefore hqueued hnext hstate =>
    rw [hreader] at hbefore
    cases hbefore
    refine .inr ⟨hnext, State.placed_of_append ?_⟩
    rw [hstate, State.waiting_enqueue, if_pos ⟨rfl, hqueued⟩]
  | takes hsame hdrains => exact .inl ⟨.inl hsame, State.placed_of_suffix (hdrains.queues _)⟩

/-- A reader that has ended places nothing more. -/
theorem of_hasEnded (h : Course S now l σ l' σ') (hended : l.reader.hasEnded) :
    l'.reader.hasEnded ∧ σ.placed σ' l.id = [] := by
  cases hreader : l.reader with
  | awaiting | routing | replying =>
    rw [hreader] at hended
    cases hended
  | ended result =>
    cases h with
    | stays hsame hshared =>
      exact ⟨hsame ▸ hended, State.placed_of_outboxes hshared.outboxes _⟩
    | ends hended hshared => exact ⟨hended, State.placed_of_outboxes hshared.outboxes _⟩
    | takes hsame hdrains => exact ⟨hsame ▸ hended, State.placed_of_suffix (hdrains.queues _)⟩
    | waits hbefore =>
      rcases hbefore with hawaiting | ⟨outcome, since, hdone⟩
      · rw [hreader] at hawaiting
        cases hawaiting
      · rw [hreader] at hdone
        cases hdone
    | malformed _ hbefore | begins _ hbefore | resumes _ hbefore | replies hbefore =>
      rw [hreader] at hbefore
      cases hbefore

/-- A step of the session itself keeps what is known of the welcome. -/
theorem welcome (h : Course S now l σ l' σ') (hσ : σ.registry.Consistent)
    (hserves : l.Serves σ.registry) (hlive : σ'.registry.contains l.id)
    (hwelcome : Welcome l.reader (σ.registry.user? l.id) log) :
    Welcome l'.reader (σ'.registry.user? l.id) (log ++ σ.placed σ' l.id) := by
  cases huser : σ.registry.user? l.id with
  | none =>
    rw [huser] at hwelcome
    cases hwelcome with
    | awaited hreplies =>
      obtain ⟨hnothing, hnext⟩ := h.of_nobody hσ hserves hlive huser hreplies
      rw [hnothing]
      rcases hnext with ⟨hnobody, hreplies⟩ | ⟨user, welcome, since, hbound, hwelcomes, hreader⟩
      · rw [hnobody]
        exact .awaited hreplies
      · rw [hbound]
        exact .answered hreader hwelcomes (List.forall_mem_nil _)
  | some user =>
    rw [h.registrySource.user?_of_bound huser hlive]
    rw [huser] at hwelcome
    cases hwelcome with
    | answered hreader hwelcomes hforeign =>
      rcases h.of_welcome hreader with ⟨hsame | hended, hnothing⟩ | ⟨-, hplaced⟩
      · rw [hnothing, List.append_nil]
        exact .answered (hsame.trans hreader) hwelcomes hforeign
      · rw [hnothing, List.append_nil]
        exact .lost hended hforeign
      · rw [hplaced]
        exact .placed hforeign hwelcomes
    | lost hended hforeign =>
      obtain ⟨hended, hnothing⟩ := h.of_hasEnded hended
      rw [hnothing, List.append_nil]
      exact .lost hended hforeign
    | placed hforeign hwelcomes =>
      rw [List.append_assoc, List.cons_append]
      exact .placed hforeign hwelcomes

end Course

end Link

end Relay
