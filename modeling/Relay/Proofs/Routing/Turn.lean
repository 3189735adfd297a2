import Relay.Proofs.Registry.Consistent
import Relay.Routing.Route

/-!
# `Relay.Proofs.Routing.Turn`: everything that a step of routing can do

`Service.begin` and `Service.resume` branch a lot. This module reads them once and says what they
can come to: `Service.Beginning` has one case for each thing that happens when a message comes in
(`beginning_begin`), and `Service.Resumption` one for each thing that happens when the store answers
(`resumption_resume`). What holds of every step is proved by cases on these two, and no later proof
looks at the branches again.

What authorizes a message is said apart: `Service.Opens` for a log-in or a registration, which comes
first on its connection, and `Service.Authorized` for every other message, which acts for the user
of the connection. `Pending.Serves` ties what routing waits for to the message that it works on.
-/

set_option autoImplicit false

namespace Relay

/-! ### What routing waits for, and for which message -/

/-- What routing waits for is part of what a message asks for. The user is the one on whose behalf
the message is served; a log-in and a registration are served for nobody yet. -/
inductive Pending.Serves (m : Message) : Option User → Pending → Prop where
  | credentials {name : Username} {password : Password} (hflag : m.flag = .logIn)
      (hbody : credentials? m.body = some (name, password)) :
      Serves m none (.credentials name password)
  | seats (hflag : m.flag = .register) : Serves m none (.seats m.body)
  | hashing {name : Username} {password : Password} (hflag : m.flag = .register)
      (hbody : credentials? m.body = some (name, password)) :
      Serves m none (.hashing name password)
  | enrolment {name : Username} {password : Password} {record : String}
      (hflag : m.flag = .register) (hbody : credentials? m.body = some (name, password)) :
      Serves m none (.enrolment name record)
  | recipient {user : User} (hflag : m.flag.isRelayed) (hsender : m.sender = user.id)
      (hother : m.recipient ≠ m.sender) : Serves m (some user) (.recipient m)
  | keeping {user : User} (hflag : m.flag = .proceed) (hsender : m.sender = user.id)
      (hother : m.recipient ≠ m.sender) : Serves m (some user) (.keeping m)
  | announcer {user : User} (hflag : m.flag = .broadcast) :
      Serves m (some user) (.announcer user m)
  | listing {user : User} (hflag : m.flag = .fetchUsers) : Serves m (some user) (.listing user)
  | target {user : User} {request : FetchRequest} (hflag : m.flag = .fetchMessages)
      (hbody : FetchRequest.parse? user.id m.body = some request) :
      Serves m (some user) (.target user request)
  | selection {user : User} {request : FetchRequest} (hflag : m.flag = .fetchMessages)
      (hbody : FetchRequest.parse? user.id m.body = some request) :
      Serves m (some user) (.selection user request)
  | consumption {user : User} {ids : List UInt64} (hflag : m.flag = .fetchMessages) :
      Serves m (some user) (.consumption ids)
  | stopper {user : User} (hflag : m.flag = .shutdown) : Serves m (some user) (.stopper user)
  | clearance {user : User} (hflag : m.flag = .shutdown) (hadmin : user.id = UserId.admin) :
      Serves m (some user) .clearance

/-! What a message is that is served in one of the ways, where the message is not known yet. -/

theorem Pending.Serves.of_selection {m : Message} {user : Option User} {viewer : User}
    {request : FetchRequest} (h : (Pending.selection viewer request).Serves m user) :
    user = some viewer ∧ m.flag = .fetchMessages ∧
      FetchRequest.parse? viewer.id m.body = some request := by
  cases h with
  | selection hflag hbody => exact ⟨rfl, hflag, hbody⟩

theorem Pending.Serves.of_credentials {m : Message} {user : Option User} {name : Username}
    {password : Password} (h : (Pending.credentials name password).Serves m user) :
    m.flag = .logIn ∧ credentials? m.body = some (name, password) := by
  cases h with
  | credentials hflag hbody => exact ⟨hflag, hbody⟩

/-- A log-in waits for nothing but its credentials. -/
theorem Pending.Serves.of_logIn {m : Message} {user : Option User} {p : Pending}
    (h : p.Serves m user) (hflag : m.flag = .logIn) :
    ∃ (name : Username) (password : Password), p = .credentials name password := by
  cases h with
  | credentials => exact ⟨_, _, rfl⟩
  | recipient hother =>
    rw [hflag] at hother
    cases hother
  | seats hother | hashing hother | enrolment hother | keeping hother | announcer hother
  | listing hother | target hother | selection hother | consumption hother | stopper hother
  | clearance hother =>
    rw [hflag] at hother
    cases hother

theorem Pending.Serves.of_recipient {m relayed : Message} {user : Option User}
    (h : (Pending.recipient relayed).Serves m user) :
    m = relayed ∧ m.flag.isRelayed ∧ ∃ author : User, user = some author := by
  cases h with
  | recipient hflag => exact ⟨rfl, hflag, _, rfl⟩

theorem Pending.Serves.of_keeping {m kept : Message} {user : Option User}
    (h : (Pending.keeping kept).Serves m user) :
    m = kept ∧ m.flag = .proceed ∧ m.recipient ≠ m.sender ∧
      ∃ author : User, user = some author := by
  cases h with
  | keeping hflag _ hother => exact ⟨rfl, hflag, hother, _, rfl⟩

theorem Pending.Serves.of_consumption {m : Message} {user : Option User} {ids : List UInt64}
    (h : (Pending.consumption ids).Serves m user) : m.flag = .fetchMessages := by
  cases h with
  | consumption hflag => exact hflag

theorem Pending.Serves.of_clearance {m : Message} {user : Option User}
    (h : Pending.clearance.Serves m user) :
    m.flag = .shutdown ∧ ∃ admin : User, user = some admin ∧ admin.id = UserId.admin := by
  cases h with
  | clearance hflag hadmin => exact ⟨hflag, _, rfl, hadmin⟩

theorem Pending.Serves.of_announcer {m asked : Message} {user : Option User} {author : User}
    (h : (Pending.announcer author asked).Serves m user) :
    m.flag = .broadcast ∧ user = some author ∧ asked = m := by
  cases h with
  | announcer hflag => exact ⟨hflag, rfl, rfl⟩

theorem Pending.Serves.of_stopper {m : Message} {user : Option User} {author : User}
    (h : (Pending.stopper author).Serves m user) : m.flag = .shutdown ∧ user = some author := by
  cases h with
  | stopper hflag => exact ⟨hflag, rfl⟩

/-- Whether a request can still be refused: what was promised or done is not taken back. -/
def Pending.isRefusable : Pending → Bool
  | .keeping .. | .consumption .. | .clearance => false
  | _ => true

/-- Whether a message may wait for this as soon as it comes in. -/
def Pending.isFirst : Pending → Bool
  | .credentials .. | .seats .. | .recipient .. | .announcer .. | .listing .. | .target ..
  | .stopper .. => true
  | _ => false

/-- How far a connection had come does not matter once it is closed. -/
theorem Turn.interrupt_advance (σ : State) (conn : ConnId) (phase : Phase) (reply : Message) :
    Turn.interrupt { σ with registry := σ.registry.advance conn phase } conn reply =
      Turn.interrupt σ conn reply := by
  simp only [Turn.interrupt, State.purge, Registry.delete_advance]

/-- Nor does it matter who was bound to it. -/
theorem Turn.interrupt_logIn (σ : State) {conn : ConnId} {user : User} {registry : Registry}
    (hbind : σ.registry.bind conn user = .ok registry) (phase : Phase) (entropy : Entropy)
    (reply : Message) :
    Turn.interrupt { σ with registry := registry.advance conn phase, entropy } conn reply =
      Turn.interrupt { σ with entropy } conn reply := by
  simp only [Turn.interrupt, State.purge, Registry.delete_advance, Registry.delete_bind hbind]

namespace Service

variable (S : Service)

/-! ### What lets a message through -/

/-- A log-in or a registration that comes first on its connection and claims nothing. -/
structure Opens (σ : State) (conn : ConnId) (m : Message) : Prop where
  operation : (Operation.ofFlag m.flag).isPreamble
  phase : σ.registry.phase? conn = some .connected
  sender : m.sender = UserId.fromAnonymous
  token : m.token = Token.empty
  recipient : m.recipient = UserId.toRelay

/-- A message that acts for the user of its connection: it says that it comes from the user, and its
token was minted for the user on this connection. -/
structure Authorized (σ : State) (conn : ConnId) (m : Message) (user : User) : Prop where
  operation : (Operation.ofFlag m.flag).isPreamble = false
  bound : σ.registry.user? conn = some user
  sender : m.sender = user.id
  token : S.tokens.open? m.token = some (conn, user.id)
  known : m.sender ≠ UserId.fromAnonymous
  foreign : m.sender ≠ UserId.fromRelay

/-- The replies with which a request is refused and its connection is closed. -/
inductive Refusal (t : Moment) : Message → Prop where
  | error (offending : Flag) (recipient : UserId) :
      Refusal t (S.errorReply t offending recipient)
  | unauthenticated : Refusal t (S.unauthenticatedReply t)
  | accessDenied (user : User) : Refusal t (S.message t .accessDenied user.id)

/-! ### The two kinds of steps -/

/-- What can happen when a message comes in. -/
inductive Beginning (σ : State) (t : Moment) (conn : ConnId) (m : Message) : Turn → Prop where
  /-- The connection is no longer registered. -/
  | unregistered (hgone : σ.registry.phase? conn = none) :
      Beginning σ t conn m
        ⟨σ.count (.dispatched (.ofFlag m.flag)), [], .finished .finishWithError⟩
  /-- The message is refused. -/
  | refuse {phase : Phase} {reply : Message} (hphase : σ.registry.phase? conn = some phase)
      (hreply : S.Refusal t reply) :
      Beginning σ t conn m
        (Turn.interrupt (σ.count (.dispatched (.ofFlag m.flag))) conn reply)
  /-- A log-in or a registration goes on to the store. -/
  | preamble {p : Pending} (hopens : Opens σ conn m) (hserves : p.Serves m none)
      (hfirst : p.isFirst) (hup : σ.shuttingDown = false) :
      Beginning σ t conn m
        (Turn.wait { σ.count (.dispatched (.ofFlag m.flag)) with
          registry := σ.registry.advance conn .secureEstablished } p)
  /-- The client closes the connection. -/
  | finish {user : User} (hauth : S.Authorized σ conn m user) (hflag : m.flag = .finish)
      (hup : σ.shuttingDown = false) :
      Beginning σ t conn m
        ⟨(σ.count (.dispatched (.ofFlag m.flag))).purge conn, [], .finished .finish⟩
  /-- The watermark of a fetch is not in the past. -/
  | early {user : User} (hauth : S.Authorized σ conn m user) (hflag : m.flag = .fetchMessages)
      (hup : σ.shuttingDown = false) :
      Beginning σ t conn m
        (Turn.answer (σ.count (.dispatched (.ofFlag m.flag))) [S.errorReply t m.flag user.id])
  /-- A request of a user goes on to the store. -/
  | session {user : User} {p : Pending} (hauth : S.Authorized σ conn m user)
      (hserves : p.Serves m (some user)) (hfirst : p.isFirst) (hup : σ.shuttingDown = false) :
      Beginning σ t conn m (Turn.wait (σ.count (.dispatched (.ofFlag m.flag))) p)

/-- What can happen when the store answers. -/
inductive Resumption (σ : State) (t : Moment) (conn : ConnId) : Pending → Turn → Prop where
  /-- The request is refused. -/
  | refuse {p : Pending} {reply : Message} (entropy : Entropy) (hp : p.isRefusable)
      (hreply : S.Refusal t reply) :
      Resumption σ t conn p (Turn.interrupt { σ with entropy } conn reply)
  /-- A user is bound and gets a token. -/
  | logIn {name : Username} {password : Password} {user : User} {registry : Registry} {token : Token}
      (hstore : t.outage .findUser = none)
      (hfind : σ.store.directory.findUser? S.passwords name password = some user)
      (hbind : σ.registry.bind conn user = .ok registry)
      (hmint : S.tokens.mint (σ.entropy.draw nonceSize).1 conn user.id = some token) :
      Resumption σ t conn (.credentials name password)
        (Turn.answer
          { σ with
            registry := registry.advance conn .loggedIn
            entropy := (σ.entropy.draw nonceSize).2 }
          [{ S.message t .loggedIn user.id with body := token.bytes }])
  /-- There is a seat for a new user. -/
  | seat {body : Bytes} {name : Username} {password : Password}
      (hbody : credentials? body = some (name, password)) :
      Resumption σ t conn (.seats body) (Turn.wait σ (.hashing name password))
  /-- The password of a new user is hashed. -/
  | hash {name : Username} {password : Password} {record : String} (entropy : Entropy) :
      Resumption σ t conn (.hashing name password)
        (Turn.wait { σ with entropy } (.enrolment name record))
  /-- A user is registered. -/
  | enrol {name : Username} {record : String} {user : User} {directory : Directory}
      (henrol : σ.store.directory.enrol name record = .ok (user, directory)) :
      Resumption σ t conn (.enrolment name record)
        ⟨{ σ with store.directory := directory }.purge conn, [S.message t .registered user.id],
          .finished .finishToReconnect⟩
  /-- The recipient is not a user. -/
  | unknownRecipient {m : Message} (hnobody : σ.store.directory.contains m.recipient = false) :
      Resumption σ t conn (.recipient m)
        (Turn.answer (σ.count (.dropped .unknownRecipient)) [S.errorReply t m.flag m.sender])
  /-- A message that is to be kept goes on to the store. -/
  | toKeep {m : Message} (huser : σ.store.directory.contains m.recipient)
      (hflag : m.flag = .proceed) :
      Resumption σ t conn (.recipient m) (Turn.wait σ (.keeping m))
  /-- A signal between clients is handed over. -/
  | signal {m : Message} (huser : σ.store.directory.contains m.recipient)
      (hflag : m.flag ≠ .proceed) :
      Resumption σ t conn (.recipient m) (Turn.answer (deliver σ m) [])
  /-- A message is kept and handed over. -/
  | keep {m : Message} (hstore : t.outage .addMessage = none) :
      Resumption σ t conn (.keeping m)
        (Turn.answer
          (deliver { σ with
            store.mailbox :=
              (σ.store.mailbox.add m.timestamp m.sender m.recipient m.body).2 } m) [])
  /-- A message that cannot be kept is handed over. -/
  | notKeep {m : Message} (hstore : t.outage .addMessage ≠ none) :
      Resumption σ t conn (.keeping m) (Turn.answer (deliver σ m) [])
  /-- A message of the administrator goes to everybody. -/
  | announce {user : User} {m : Message} (hadmin : user.id = UserId.admin) :
      Resumption σ t conn (.announcer user m) (Turn.answer (S.announce σ t user.id m.body) [])
  /-- The users are listed. -/
  | list {user : User} (hstore : t.outage .users = none) :
      Resumption σ t conn (.listing user)
        (Turn.answer σ (S.directoryPages σ t user.id σ.store.directory.users))
  /-- The target of a fetch is not a user. -/
  | unknownTarget {user : User} {request : FetchRequest}
      (hnobody : σ.store.directory.contains request.target = false) :
      Resumption σ t conn (.target user request)
        (Turn.answer σ [S.errorReply t .fetchMessages user.id])
  /-- A fetch goes on to the messages. -/
  | toSelect {user : User} {request : FetchRequest}
      (huser : σ.store.directory.contains request.target) :
      Resumption σ t conn (.target user request) (Turn.wait σ (.selection user request))
  /-- A fetch finds nothing. -/
  | nothing {user : User} {request : FetchRequest} (hstore : t.outage .messages = none)
      (hnone : σ.store.mailbox.select (request.query user.id) = []) :
      Resumption σ t conn (.selection user request)
        (Turn.answer σ [{ S.message t .fetchMessages user.id with body := request.marker }])
  /-- A fetch finds messages. -/
  | select {user : User} {request : FetchRequest} (hstore : t.outage .messages = none) :
      Resumption σ t conn (.selection user request)
        ⟨σ, S.fetchedMessages user.id (σ.store.mailbox.select (request.query user.id)),
          .waiting (.consumption
            (consumed user.id (σ.store.mailbox.select (request.query user.id))))⟩
  /-- Messages that were fetched by their recipient are removed. -/
  | consume {ids : List UInt64} (hstore : t.outage .deleteMessages = none) :
      Resumption σ t conn (.consumption ids)
        (Turn.answer { σ with store.mailbox := σ.store.mailbox.delete ids } [])
  /-- Messages that were fetched cannot be removed. -/
  | notConsume {ids : List UInt64} (hstore : t.outage .deleteMessages ≠ none) :
      Resumption σ t conn (.consumption ids) (Turn.answer σ [])
  /-- The administrator stops the relay. -/
  | stop {user : User} (hadmin : user.id = UserId.admin) :
      Resumption σ t conn (.stopper user) (Turn.wait σ.markShuttingDown .clearance)
  /-- All messages are removed. -/
  | clear (hstore : t.outage .deleteAllMessages = none) :
      Resumption σ t conn .clearance
        ⟨{ σ with store.mailbox := σ.store.mailbox.clear }.purge conn, [], .finished .shutdown⟩
  /-- The messages cannot be removed. -/
  | notClear (hstore : t.outage .deleteAllMessages ≠ none) :
      Resumption σ t conn .clearance ⟨σ.purge conn, [], .finished .shutdown⟩

/-! ### Nothing else can happen -/

theorem isAdmin_eq_true {t : Moment} {user : User} (h : isAdmin t user = true) :
    user.id = UserId.admin := by
  unfold isAdmin at h
  split at h
  · rename_i hok
    obtain ⟨-, rfl⟩ := Outage.attempt_ok_eq_ok hok
    simpa using h
  · cases h

/-- Every step after the store has answered is one of the cases. -/
theorem resumption_resume (σ : State) (t : Moment) (conn : ConnId) (p : Pending) :
    S.Resumption σ t conn p (S.resume σ t conn p) := by
  -- Where nothing was drawn, a refusal leaves the entropy as it was.
  have refuse (p : Pending) (hp : p.isRefusable) {reply : Message} (hreply : S.Refusal t reply) :
      S.Resumption σ t conn p (Turn.interrupt σ conn reply) := .refuse σ.entropy hp hreply
  cases p with
  | credentials name password =>
    simp only [resume]
    split
    · exact refuse _ rfl (.error ..)
    · exact refuse _ rfl .unauthenticated
    · rename_i user hfind
      obtain ⟨hstore, hfind⟩ := Outage.attempt_ok_eq_ok hfind
      split
      · exact refuse _ rfl .unauthenticated
      · rename_i registry hbind
        split
        · -- The user who was bound is let go again with the connection.
          rw [Turn.interrupt_logIn σ hbind]
          exact .refuse _ rfl (.error ..)
        · rename_i token hmint
          exact .logIn hstore hfind hbind hmint
  | seats body =>
    simp only [resume]
    split
    · exact refuse _ rfl (.error ..)
    · split
      · exact refuse _ rfl (.error ..)
      · split
        · exact refuse _ rfl (.error ..)
        · rename_i hbody
          split
          · exact refuse _ rfl (.error ..)
          · exact .seat hbody
  | hashing name password =>
    simp only [resume]
    split
    · exact refuse _ rfl (.error ..)
    · split
      · rename_i entropy _
        exact .refuse entropy rfl (.error ..)
      · rename_i entropy _
        exact .hash entropy
  | enrolment name record =>
    simp only [resume]
    split
    · exact refuse _ rfl (.error ..)
    · rename_i henrol
      exact .enrol henrol
  | recipient m =>
    simp only [resume]
    split
    · exact refuse _ rfl (.error ..)
    · rename_i hnobody
      exact .unknownRecipient (Outage.attempt_ok_eq_ok hnobody).2
    · rename_i huser
      have huser := (Outage.attempt_ok_eq_ok huser).2
      split
      · rename_i hflag
        exact .toKeep huser hflag
      · rename_i hflag
        exact .signal huser hflag
  | keeping m =>
    simp only [resume]
    split
    · rename_i hstore
      exact .notKeep (by simp [hstore])
    · rename_i hstore
      exact .keep hstore
  | announcer user m =>
    simp only [resume]
    split
    · exact refuse _ rfl (.accessDenied user)
    · rename_i hadmin
      split
      · exact refuse _ rfl (.error ..)
      · exact .announce (isAdmin_eq_true (by simpa using hadmin))
  | listing user =>
    simp only [resume]
    split
    · exact refuse _ rfl (.error ..)
    · rename_i users hlist
      obtain ⟨hstore, rfl⟩ := Outage.attempt_ok_eq_ok hlist
      exact .list hstore
  | target user request =>
    simp only [resume]
    split
    · exact refuse _ rfl (.error ..)
    · rename_i hnobody
      exact .unknownTarget (Outage.attempt_ok_eq_ok hnobody).2
    · rename_i huser
      exact .toSelect (Outage.attempt_ok_eq_ok huser).2
  | selection user request =>
    simp only [resume]
    split
    · exact refuse _ rfl (.error ..)
    · rename_i hnone
      obtain ⟨hstore, hnone⟩ := Outage.attempt_ok_eq_ok hnone
      exact .nothing hstore hnone
    · rename_i hsome
      obtain ⟨hstore, rfl⟩ := Outage.attempt_ok_eq_ok hsome
      exact .select hstore
  | consumption ids =>
    simp only [resume]
    split
    · rename_i hstore
      exact .notConsume (by simp [hstore])
    · rename_i hstore
      exact .consume hstore
  | stopper user =>
    simp only [resume]
    split
    · exact refuse _ rfl (.accessDenied user)
    · rename_i hadmin
      exact .stop (isAdmin_eq_true (by simpa using hadmin))
  | clearance =>
    simp only [resume]
    split
    · rename_i hstore
      exact .notClear (by simp [hstore])
    · rename_i hstore
      exact .clear hstore

/-- What a log-in or a registration comes to once it is let through. -/
theorem perform_preamble (σ : State) (t : Moment) (conn : ConnId) (m : Message)
    (hop : (Operation.ofFlag m.flag).isPreamble) :
    (∃ reply, S.Refusal t reply ∧ S.perform σ t conn none m = Turn.interrupt σ conn reply) ∨
      ∃ p : Pending, p.Serves m none ∧ p.isFirst ∧ σ.shuttingDown = false ∧
        S.perform σ t conn none m = Turn.wait σ p := by
  have hasked := Operation.isAskedBy_ofFlag m.flag
  simp only [perform]
  split
  · exact .inl ⟨_, .error .., rfl⟩
  · rename_i hgate
    have hup : σ.shuttingDown = false := by simp_all
    -- The operation tells the flag, and only two operations are preambles.
    cases hoperation : Operation.ofFlag m.flag <;> rw [hoperation] at hop hasked
    case logIn =>
      simp only [beginLogIn]
      split
      · exact .inl ⟨_, .error .., rfl⟩
      · rename_i hbody
        exact .inr ⟨_, .credentials hasked hbody, rfl, hup, rfl⟩
    case register => exact .inr ⟨_, .seats hasked, rfl, hup, rfl⟩
    all_goals cases hop

/-- What a request of a user comes to once it is let through. -/
theorem perform_session (σ : State) (t : Moment) (conn : ConnId) (m : Message) (user : User)
    (hop : (Operation.ofFlag m.flag).isPreamble = false) (hsender : m.sender = user.id) :
    (∃ reply, S.Refusal t reply ∧ S.perform σ t conn (some user) m = Turn.interrupt σ conn reply) ∨
      (m.flag = .finish ∧ σ.shuttingDown = false ∧
        S.perform σ t conn (some user) m = ⟨σ.purge conn, [], .finished .finish⟩) ∨
      (m.flag = .fetchMessages ∧ σ.shuttingDown = false ∧
        S.perform σ t conn (some user) m =
          Turn.answer σ [S.errorReply t m.flag user.id]) ∨
      ∃ p : Pending, p.Serves m (some user) ∧ p.isFirst ∧ σ.shuttingDown = false ∧
        S.perform σ t conn (some user) m = Turn.wait σ p := by
  have hasked := Operation.isAskedBy_ofFlag m.flag
  -- A message that is kept and a signal begin in the same way.
  have relay (hflag : m.flag.isRelayed) (hup : σ.shuttingDown = false) :
      (∃ reply, S.Refusal t reply ∧ S.beginRelay σ t conn m = Turn.interrupt σ conn reply) ∨
        ∃ p : Pending, p.Serves m (some user) ∧ p.isFirst ∧ σ.shuttingDown = false ∧
          S.beginRelay σ t conn m = Turn.wait σ p := by
    simp only [beginRelay]
    split
    · exact .inl ⟨_, .error .., rfl⟩
    · rename_i hfit
      exact .inr ⟨_, .recipient hflag hsender (by simp_all), rfl, hup, rfl⟩
  simp only [perform]
  split
  · exact .inl ⟨_, .error .., rfl⟩
  · rename_i hgate
    have hup : σ.shuttingDown = false := by simp_all
    cases hoperation : Operation.ofFlag m.flag <;> rw [hoperation] at hop hasked
    case proceed =>
      rcases relay (by rw [hasked]; decide) hup with hrefused | hwait
      · exact .inl hrefused
      · exact .inr (.inr (.inr hwait))
    case relaySignal =>
      rcases relay hasked.1 hup with hrefused | hwait
      · exact .inl hrefused
      · exact .inr (.inr (.inr hwait))
    case broadcast => exact .inr (.inr (.inr ⟨_, .announcer hasked, rfl, hup, rfl⟩))
    case finish => exact .inr (.inl ⟨hasked, hup, rfl⟩)
    case fetchUsers => exact .inr (.inr (.inr ⟨_, .listing hasked, rfl, hup, rfl⟩))
    case fetchMessages =>
      simp only [beginFetch]
      split
      · exact .inl ⟨_, .error .., rfl⟩
      · rename_i hbody
        split
        · exact .inr (.inr (.inl ⟨hasked, hup, rfl⟩))
        · exact .inr (.inr (.inr ⟨_, .target hasked hbody, rfl, hup, rfl⟩))
    case shutdown => exact .inr (.inr (.inr ⟨_, .stopper hasked, rfl, hup, rfl⟩))
    case unknown => exact .inl ⟨_, .error .., rfl⟩
    all_goals cases hop

/-- A log-in or a registration that comes first on its connection is let through, and the connection
moves on. -/
theorem begin_of_opens {σ : State} {conn : ConnId} {m : Message} (hopens : Opens σ conn m)
    (t : Moment) :
    S.begin σ t conn m =
      S.perform { σ.count (.dispatched (.ofFlag m.flag)) with
        registry := σ.registry.advance conn .secureEstablished } t conn none m := by
  have hpreamble : isPreamble .connected m := by
    simp [isPreamble, hopens.sender, hopens.token, hopens.recipient]
  simp only [begin, State.registry_count, hopens.phase, hopens.operation, hpreamble, if_true]

/-- A message that is authorized is let through. -/
theorem begin_of_authorized {σ : State} {conn : ConnId} {m : Message} {user : User}
    (hauth : S.Authorized σ conn m user) (hσ : σ.registry.Consistent) (t : Moment) :
    S.begin σ t conn m =
      S.perform (σ.count (.dispatched (.ofFlag m.flag))) t conn (some user) m := by
  obtain ⟨c, hc, huser⟩ := (Registry.user?_eq_some_iff _ _ _).1 hauth.bound
  have hloggedIn := (hσ.bound_iff conn c hc).1 (by simp [huser])
  have hphase := (Registry.phase?_eq_some_iff _ _ _).2 ⟨c, hc, hloggedIn⟩
  have hclaimant :
      claimant? (σ.count (.dispatched (.ofFlag m.flag))) conn .loggedIn m = some user := by
    rw [claimant?, State.registry_count, hauth.bound]
    simp [hauth.known, hauth.foreign]
  have hholds : S.tokenHolds conn user m := by
    simp [tokenHolds, hauth.token, hauth.sender]
  simp only [begin, State.registry_count, hphase, hauth.operation, Bool.false_eq_true, if_false,
    hclaimant, hholds, if_true]

/-- The step that a message begins with is one of the cases. -/
theorem beginning_begin (σ : State) (t : Moment) (conn : ConnId) (m : Message) :
    S.Beginning σ t conn m (S.begin σ t conn m) := by
  simp only [begin, State.registry_count]
  split
  · rename_i hgone
    exact .unregistered hgone
  · rename_i phase hphase
    split
    · rename_i hop
      split
      · rename_i hpreamble
        simp only [isPreamble, Bool.and_eq_true, decide_eq_true_eq] at hpreamble
        obtain ⟨⟨⟨rfl, hsender⟩, htoken⟩, hrecipient⟩ := hpreamble
        have hopens : Opens σ conn m := ⟨hop, hphase, hsender, htoken, hrecipient⟩
        rcases S.perform_preamble { σ.count (.dispatched (.ofFlag m.flag)) with
            registry := σ.registry.advance conn .secureEstablished } t conn m hop with
          ⟨reply, hreply, hturn⟩ | ⟨p, hserves, hfirst, hup, hturn⟩
        · -- The connection has advanced before it is closed, which leaves no trace.
          have hclosed := hturn.trans
            (Turn.interrupt_advance (σ.count (.dispatched (.ofFlag m.flag))) conn _ reply)
          rw [hclosed]
          exact .refuse hphase hreply
        · rw [hturn]
          exact .preamble hopens hserves hfirst hup
      · exact .refuse hphase (.error ..)
    · rename_i hop
      have hop : (Operation.ofFlag m.flag).isPreamble = false := by simpa using hop
      split
      · exact .refuse hphase (.error ..)
      · rename_i user hclaimant
        simp only [claimant?, State.registry_count, Option.filter_eq_some_iff] at hclaimant
        split
        · rename_i hholds
          simp only [tokenHolds, Bool.and_eq_true, decide_eq_true_eq] at hholds hclaimant
          obtain ⟨htoken, hsender⟩ := hholds
          obtain ⟨hbound, ⟨-, hknown⟩, hforeign⟩ := hclaimant
          have hauth : S.Authorized σ conn m user :=
            ⟨hop, hbound, hsender, htoken, hknown, hforeign⟩
          rcases S.perform_session (σ.count (.dispatched (.ofFlag m.flag))) t conn m user hop
              hsender with
            ⟨reply, hreply, hturn⟩ | ⟨hflag, hup, hturn⟩ | ⟨hflag, hup, hturn⟩ |
              ⟨p, hserves, hfirst, hup, hturn⟩
          · rw [hturn]
            exact .refuse hphase hreply
          · rw [hturn]
            exact .finish hauth hflag hup
          · rw [hturn]
            exact .early hauth hflag hup
          · rw [hturn]
            exact .session hauth hserves hfirst hup
        · exact .refuse hphase .unauthenticated

end Service

end Relay
