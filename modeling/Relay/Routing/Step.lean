import Relay.Message.DirectoryRecord
import Relay.Routing.Request
import Relay.Routing.State

/-!
# `Relay.Routing.Step`: routing a message, step by step

Routing first authorizes a message and then does what it asks for. Whenever it needs the store it
stops, so that other connections may go on in between: `Pending` is what a connection waits for,
`Service.begin` runs until the first such point and `Service.resume` from one to the next. A `Turn`
is what one step comes to: the new state, the replies it adds for the caller, and whether routing
has finished.

Replies go to the caller. Messages for other connections are put straight into their queues.
-/

set_option autoImplicit false

namespace Relay

/-- What routing waits for. -/
inductive Pending where
  /-- A log-in waits for its credentials to be checked. -/
  | credentials (name : Username) (password : Password)
  /-- A registration waits for the number of users. -/
  | seats (body : Bytes)
  /-- A registration waits for its password to be hashed. -/
  | hashing (name : Username) (password : Password)
  /-- A registration waits to be entered into the directory. -/
  | enrolment (name : Username) (record : String)
  /-- A relayed message waits for its recipient to be looked up. -/
  | recipient (m : Message)
  /-- A relayed message waits to be kept. -/
  | keeping (m : Message)
  /-- A broadcast waits for its author to be looked up. -/
  | announcer (user : User) (m : Message)
  /-- A listing waits for the users. -/
  | listing (user : User)
  /-- A fetch waits for its target to be looked up. -/
  | target (user : User) (request : FetchRequest)
  /-- A fetch waits for the messages. -/
  | selection (user : User) (request : FetchRequest)
  /-- A fetch waits for messages to be removed. -/
  | consumption (ids : List UInt64)
  /-- A shutdown waits for its author to be looked up. -/
  | stopper (user : User)
  /-- A shutdown waits for all messages to be removed. -/
  | clearance
deriving DecidableEq

/-- How many more steps there are at most. -/
def Pending.rank : Pending → Nat
  | credentials .. | enrolment .. | keeping .. | announcer .. | listing .. | consumption ..
  | clearance => 1
  | hashing .. | recipient .. | selection .. | stopper .. => 2
  | seats .. | target .. => 3

/-- Whether routing has finished. -/
inductive Progress where
  /-- It has. -/
  | finished (outcome : Outcome)
  /-- It waits for the store. -/
  | waiting (pending : Pending)
deriving DecidableEq

/-- How many more steps there are at most. -/
def Progress.rank : Progress → Nat
  | finished _ => 0
  | waiting p => p.rank

/-- What a step comes to. -/
structure Turn where
  /-- The state after it. -/
  state : State
  /-- The replies that it adds. -/
  replies : List Message
  /-- How routing goes on. -/
  next : Progress

namespace Turn

/-- Replies and waits for the next message. -/
def answer (σ : State) (replies : List Message) : Turn := ⟨σ, replies, .finished .stay⟩

/-- Replies, removes the connection and closes it with an error. -/
def interrupt (σ : State) (conn : ConnId) (reply : Message) : Turn :=
  ⟨σ.purge conn, [reply], .finished .finishWithError⟩

/-- Waits for the store. -/
def wait (σ : State) (pending : Pending) : Turn := ⟨σ, [], .waiting pending⟩

end Turn

/-- The most records of users in one message. -/
def usersPerPage : Nat := DirectoryRecord.perMessage

namespace Service

variable (S : Service)

/-! ### Authorization -/

/-- Whether a log-in or a registration comes at the right place: first on its connection, from
nobody known, without a token, for the relay. -/
def isPreamble (phase : Phase) (m : Message) : Bool :=
  phase = .connected && m.sender = UserId.fromAnonymous && m.token = Token.empty &&
    m.recipient = UserId.toRelay

/-- The user on whose behalf a request may be made: the one bound to the connection, unless the
message claims to come from nobody known or from the relay. -/
def claimant? (σ : State) (conn : ConnId) (phase : Phase) (m : Message) : Option User :=
  (σ.registry.user? conn).filter fun _ =>
    phase ≠ .connected && m.sender ≠ UserId.fromAnonymous && m.sender ≠ UserId.fromRelay

/-- Whether the token of a message was minted for this connection and this user, and the message
says that it comes from the user. -/
def tokenHolds (conn : ConnId) (user : User) (m : Message) : Bool :=
  S.tokens.open? m.token = some (conn, user.id) && m.sender = user.id

/-! ### The steps of each operation -/

/-- The refusal of a registration. -/
def refuseRegistration (σ : State) (t : Moment) (conn : ConnId) : Turn :=
  Turn.interrupt σ conn (S.errorReply t .register UserId.toAnonymous)

/-- Hands a relayed message to its recipient, if the recipient is on a connection whose queue takes
it, and counts what becomes of it. -/
def deliver (σ : State) (m : Message) : State :=
  match σ.registry.session? m.recipient with
  | none => σ.count (.dropped .offline)
  | some conn =>
    match σ.delivery conn with
    | .queued => (σ.enqueue conn m).count .relayed
    | .full => σ.count (.dropped .queueFull)
    | .closed => σ.count (.dropped .offline)

/-- Puts a copy of a broadcast into the queue of one user. -/
def announceTo (t : Moment) (body : Bytes) (σ : State) (session : UserId × ConnId) : State :=
  match σ.delivery session.2 with
  | .queued =>
    (σ.enqueue session.2 { S.message t .broadcast session.1 with body }).count .relayed
  | .full | .closed => σ.count (.dropped .queueFull)

/-- Puts a copy of a broadcast into the queue of every authenticated user but its author. -/
def announce (σ : State) (t : Moment) (author : UserId) (body : Bytes) : State :=
  (σ.registry.authenticated.filter fun e => e.1 ≠ author).foldl (S.announceTo t body) σ

/-- The pages that list the given users. -/
def directoryPages (σ : State) (t : Moment) (requester : UserId) (users : List User) :
    List Message :=
  let pages := blocks usersPerPage users
  pages.mapIdx fun index page =>
    { S.message t .fetchUsers requester with
      body := page.flatMap fun u =>
        (DirectoryRecord.mk u.id (σ.registry.isOnline u.id) u.name).pack
      index := UInt32.ofNat index
      count := UInt32.ofNat pages.length }

/-- The messages that answer a fetch. -/
def fetchedMessages (requester : UserId) (messages : List StoredMessage) : List Message :=
  messages.mapIdx fun index m =>
    { flag := .fetchMessages
      timestamp := m.timestamp
      sender := m.author
      recipient := requester
      token := S.relayToken
      body := m.body
      index := UInt32.ofNat index
      count := UInt32.ofNat messages.length }

/-- The numbers of those messages that were fetched by their recipient. -/
def consumed (requester : UserId) (messages : List StoredMessage) : List UInt64 :=
  (messages.filter fun m => m.recipient = requester).map StoredMessage.id

/-- Whether a user is the administrator; a user who cannot be looked up is not. -/
def isAdmin (t : Moment) (user : User) : Bool :=
  match t.outage.attempt .isAdmin (.ok (user.id == UserId.admin)) with
  | .ok answer => answer
  | .error _ => false

/-- The refusal of what only the administrator may do. -/
def denyAccess (σ : State) (t : Moment) (conn : ConnId) (user : User) : Turn :=
  Turn.interrupt σ conn (S.message t .accessDenied user.id)

/-! ### From one wait to the next -/

/-- Goes on after the store has answered. -/
def resume (σ : State) (t : Moment) (conn : ConnId) : Pending → Turn
  | .credentials name password =>
    match t.outage.attempt .findUser
        (.ok (σ.store.directory.findUser? S.passwords name password)) with
    | .error _ => Turn.interrupt σ conn (S.errorReply t .logIn UserId.toAnonymous)
    | .ok none => Turn.interrupt σ conn (S.unauthenticatedReply t)
    | .ok (some user) =>
      match σ.registry.bind conn user with
      | .error _ => Turn.interrupt σ conn (S.unauthenticatedReply t)
      | .ok registry =>
        -- The user can be reached from here on, before the reply is handed over.
        let (nonce, entropy) := σ.entropy.draw nonceSize
        let σ := { σ with registry := registry.advance conn .loggedIn, entropy }
        match S.tokens.mint nonce conn user.id with
        | none => Turn.interrupt σ conn (S.errorReply t .logIn UserId.toAnonymous)
        | some token =>
          Turn.answer σ [{ S.message t .loggedIn user.id with body := token.bytes }]
  | .seats body =>
    match t.outage.attempt .usersCount (.ok σ.store.directory.size) with
    | .error _ => S.refuseRegistration σ t conn
    | .ok count =>
      if count ≥ S.config.maxUsers then S.refuseRegistration σ t conn
      else
        match credentials? body with
        | none => S.refuseRegistration σ t conn
        | some (name, password) =>
          if nonBlank name.bytes < minCredentialSize ||
              nonBlank password.bytes < minCredentialSize then S.refuseRegistration σ t conn
          else Turn.wait σ (.hashing name password)
  | .hashing name password =>
    match t.outage .addUser with
    | some _ => S.refuseRegistration σ t conn
    | none =>
      match Store.hashPassword S.passwords password σ.entropy with
      | (.error _, entropy) => S.refuseRegistration { σ with entropy } t conn
      | (.ok record, entropy) => Turn.wait { σ with entropy } (.enrolment name record)
  | .enrolment name record =>
    match σ.store.directory.enrol name record with
    | .error _ => S.refuseRegistration σ t conn
    | .ok (user, directory) =>
      ⟨{ σ with store.directory := directory }.purge conn, [S.message t .registered user.id],
        .finished .finishToReconnect⟩
  | .recipient m =>
    match t.outage.attempt .userExists (.ok (σ.store.directory.contains m.recipient)) with
    | .error _ => Turn.interrupt σ conn (S.errorReply t m.flag m.sender)
    | .ok false =>
      Turn.answer (σ.count (.dropped .unknownRecipient)) [S.errorReply t m.flag m.sender]
    | .ok true =>
      if m.flag = .proceed then Turn.wait σ (.keeping m) else Turn.answer (deliver σ m) []
  | .keeping m =>
    match t.outage .addMessage with
    -- A message that cannot be kept is still delivered to a recipient who is there.
    | some _ => Turn.answer (deliver σ m) []
    | none =>
      let (_, mailbox) := σ.store.mailbox.add m.timestamp m.sender m.recipient m.body
      Turn.answer (deliver { σ with store.mailbox := mailbox } m) []
  | .announcer user m =>
    if !isAdmin t user then S.denyAccess σ t conn user
    else if m.body = [] then Turn.interrupt σ conn (S.errorReply t m.flag m.sender)
    else Turn.answer (S.announce σ t user.id m.body) []
  | .listing user =>
    match t.outage.attempt .users (.ok σ.store.directory.users) with
    | .error _ => Turn.interrupt σ conn (S.errorReply t .fetchUsers user.id)
    | .ok users => Turn.answer σ (S.directoryPages σ t user.id users)
  | .target user request =>
    match t.outage.attempt .userExists (.ok (σ.store.directory.contains request.target)) with
    | .error _ => Turn.interrupt σ conn (S.errorReply t .fetchMessages user.id)
    | .ok false => Turn.answer σ [S.errorReply t .fetchMessages user.id]
    | .ok true => Turn.wait σ (.selection user request)
  | .selection user request =>
    match t.outage.attempt .messages (.ok (σ.store.mailbox.select (request.query user.id))) with
    | .error _ => Turn.interrupt σ conn (S.errorReply t .fetchMessages user.id)
    | .ok [] =>
      Turn.answer σ [{ S.message t .fetchMessages user.id with body := request.marker }]
    | .ok messages =>
      ⟨σ, S.fetchedMessages user.id messages, .waiting (.consumption (consumed user.id messages))⟩
  | .consumption ids =>
    match t.outage .deleteMessages with
    -- The replies are out already: messages that stay are fetched again.
    | some _ => Turn.answer σ []
    | none => Turn.answer { σ with store.mailbox := σ.store.mailbox.delete ids } []
  | .stopper user =>
    if !isAdmin t user then S.denyAccess σ t conn user
    -- No request that comes from here on is served; those under way go on.
    else Turn.wait σ.markShuttingDown .clearance
  | .clearance =>
    let σ := match t.outage .deleteAllMessages with
      | some _ => σ
      | none => { σ with store.mailbox := σ.store.mailbox.clear }
    ⟨σ.purge conn, [], .finished .shutdown⟩

/-! ### From a message to the first wait -/

/-- Starts a log-in. -/
def beginLogIn (σ : State) (t : Moment) (conn : ConnId) (m : Message) : Turn :=
  match credentials? m.body with
  | none => Turn.interrupt σ conn (S.errorReply t m.flag UserId.toAnonymous)
  | some (name, password) => Turn.wait σ (.credentials name password)

/-- Starts to relay a message. -/
def beginRelay (σ : State) (t : Moment) (conn : ConnId) (m : Message) : Turn :=
  if m.body = [] || m.recipient = m.sender then
    Turn.interrupt σ conn (S.errorReply t m.flag m.sender)
  else Turn.wait σ (.recipient m)

/-- Starts a fetch. -/
def beginFetch (σ : State) (t : Moment) (conn : ConnId) (user : User) (m : Message) : Turn :=
  match FetchRequest.parse? user.id m.body with
  | none => Turn.interrupt σ conn (S.errorReply t m.flag m.sender)
  | some request =>
    if request.after ≥ t.now then Turn.answer σ [S.errorReply t m.flag user.id]
    else Turn.wait σ (.target user request)

/-- Does what an authorized message asks for; without a user it opens a session or an account. -/
def perform (σ : State) (t : Moment) (conn : ConnId) (user : Option User) (m : Message) : Turn :=
  let operation := Operation.ofFlag m.flag
  if σ.shuttingDown || (operation.isForRelay && m.recipient ≠ UserId.toRelay) then
    Turn.interrupt σ conn (S.errorReply t m.flag m.sender)
  else
    match operation, user with
    | .logIn, none => S.beginLogIn σ t conn m
    | .register, none => Turn.wait σ (.seats m.body)
    | .finish, some _ => ⟨σ.purge conn, [], .finished .finish⟩
    | .shutdown, some user => Turn.wait σ (.stopper user)
    | .broadcast, some user => Turn.wait σ (.announcer user m)
    | .fetchUsers, some user => Turn.wait σ (.listing user)
    | .fetchMessages, some user => S.beginFetch σ t conn user m
    | .proceed, some _ | .relaySignal, some _ => S.beginRelay σ t conn m
    | _, _ => Turn.interrupt σ conn (S.errorReply t m.flag m.sender)

/-- Authorizes a message and starts what it asks for. -/
def begin (σ : State) (t : Moment) (conn : ConnId) (m : Message) : Turn :=
  let operation := Operation.ofFlag m.flag
  let σ := σ.count (.dispatched operation)
  match σ.registry.phase? conn with
  | none => ⟨σ, [], .finished .finishWithError⟩
  | some phase =>
    if operation.isPreamble then
      if isPreamble phase m then
        -- The phase moves on even if the request fails: there is no second try.
        S.perform { σ with registry := σ.registry.advance conn .secureEstablished } t conn none m
      else Turn.interrupt σ conn (S.errorReply t m.flag UserId.toAnonymous)
    else
      match claimant? σ conn phase m with
      | none => Turn.interrupt σ conn (S.errorReply t m.flag m.sender)
      | some user =>
        if S.tokenHolds conn user m then S.perform σ t conn (some user) m
        else Turn.interrupt σ conn (S.unauthenticatedReply t)

end Service

end Relay
