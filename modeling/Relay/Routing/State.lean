import Relay.Config.Basic
import Relay.Identity
import Relay.Metrics.Basic
import Relay.Outbox
import Relay.Registry
import Relay.Session.Token
import Relay.Store.Basic

/-!
# `Relay.Routing.State`: what routing works on

`Service` is what stays the same while a relay runs; `State` is what connections share and change.
Every step of routing is taken at a `Moment`: a reading of the clock, and which operations of the
store are out of order.
-/

set_option autoImplicit false

namespace Relay

/-- What stays the same while a relay runs. -/
structure Service where
  /-- The settings. -/
  config : Config
  /-- Mints and opens session tokens. -/
  tokens : TokenCipher
  /-- The token of the relay's own messages. -/
  relayToken : Token
  /-- Hashes and checks passwords. -/
  passwords : PasswordScheme

/-- What connections share. -/
structure State where
  /-- Live connections and who is on them. -/
  registry : Registry
  /-- What waits to be written, by connection. A queue outlives the registration of its
  connection, so that last replies are still sent. -/
  outboxes : Table Outbox := .empty
  /-- Users and messages. -/
  store : Store
  /-- Whether every further request is refused. -/
  shuttingDown : Bool := false
  /-- Where nonces and salts come from. -/
  entropy : Entropy
  /-- What was counted. -/
  metrics : Metrics := {}
deriving DecidableEq

/-- When a step is taken. -/
structure Moment where
  /-- The clock, in milliseconds since the start of 1970. -/
  now : UInt64
  /-- Which operations of the store fail. -/
  outage : Outage := Outage.none

/-- What becomes of a connection after a message was routed. -/
inductive Outcome where
  /-- It stays. -/
  | stay
  /-- The client asked to close it. -/
  | finish
  /-- It is closed after an error. -/
  | finishWithError
  /-- It is closed after a registration. -/
  | finishToReconnect
  /-- It is closed and the relay stops. -/
  | shutdown
deriving DecidableEq

/-- Whether a connection is closed. -/
def Outcome.closes (o : Outcome) : Bool := o != .stay

namespace State

/-- Counts once. -/
def count (σ : State) (s : Series) : State := { σ with metrics := σ.metrics.count s }

/-- Removes a connection from the registry. -/
def purge (σ : State) (conn : ConnId) : State := { σ with registry := σ.registry.delete conn }

/-- What putting a message into the queue of a connection would come to. -/
def delivery (σ : State) (conn : ConnId) : Delivery :=
  match σ.outboxes.get? conn with
  | none => .closed
  | some box => box.delivery

/-- Puts a message into the queue of a connection, unless it is refused. -/
def enqueue (σ : State) (conn : ConnId) (m : Message) : State :=
  { σ with outboxes := σ.outboxes.modify conn fun box => box.push m }

/-- Registers a connection with a fresh queue. -/
def connect (σ : State) (conn : ConnId) (capacity : Nat) (now : Nat) :
    Except Violation State := do
  let box ← Outbox.ofCapacity? capacity
  let registry ← σ.registry.add conn now
  return { σ with registry, outboxes := σ.outboxes.insert conn box }

/-- From now on every request is refused. -/
def markShuttingDown (σ : State) : State := { σ with shuttingDown := true }

/-- What waits in the queue of a connection. -/
def waiting (σ : State) (conn : ConnId) : List Message :=
  match σ.outboxes.get? conn with
  | none => []
  | some box => box.waiting

/-- A connection that is registered had a free id, and has a queue with room and nothing in it. -/
theorem connect_eq_ok {σ τ : State} {conn : ConnId} {capacity now : Nat}
    (h : σ.connect conn capacity now = .ok τ) :
    ∃ (box : Outbox) (registry : Registry), box.waiting = [] ∧
      σ.registry.add conn now = .ok registry ∧
      τ = { σ with registry, outboxes := σ.outboxes.insert conn box } := by
  unfold connect at h
  cases hbox : Outbox.ofCapacity? capacity with
  | error => rw [hbox] at h; cases h
  | ok box =>
    cases hadd : σ.registry.add conn now with
    | error => rw [hbox, hadd] at h; cases h
    | ok registry =>
      rw [hbox, hadd] at h
      cases h
      obtain ⟨-, -, rfl⟩ := Outbox.ofCapacity?_eq_ok_iff.1 hbox
      exact ⟨_, registry, rfl, rfl, rfl⟩

/-- A connection is registered if its id is free and its queue may have so much room. -/
theorem exists_connect {σ : State} {conn : ConnId} {capacity : Nat}
    (hfree : σ.registry.contains conn = false) (hroom : 0 < capacity)
    (hlimit : capacity ≤ Outbox.capacityLimit) (now : Nat) :
    ∃ τ, σ.connect conn capacity now = .ok τ := by
  have hbox : Outbox.ofCapacity? capacity = .ok { capacity } :=
    Outbox.ofCapacity?_eq_ok_iff.2 ⟨hroom, hlimit, rfl⟩
  simp only [connect, hbox, Registry.add, hfree]
  exact ⟨_, rfl⟩

/-! ### What the operations leave as it is -/

@[simp] theorem registry_count (σ : State) (s : Series) : (σ.count s).registry = σ.registry := rfl
@[simp] theorem outboxes_count (σ : State) (s : Series) : (σ.count s).outboxes = σ.outboxes := rfl
@[simp] theorem store_count (σ : State) (s : Series) : (σ.count s).store = σ.store := rfl
@[simp] theorem shuttingDown_count (σ : State) (s : Series) :
    (σ.count s).shuttingDown = σ.shuttingDown := rfl

@[simp] theorem registry_purge (σ : State) (conn : ConnId) :
    (σ.purge conn).registry = σ.registry.delete conn := rfl
@[simp] theorem outboxes_purge (σ : State) (conn : ConnId) :
    (σ.purge conn).outboxes = σ.outboxes := rfl
@[simp] theorem store_purge (σ : State) (conn : ConnId) : (σ.purge conn).store = σ.store := rfl
@[simp] theorem shuttingDown_purge (σ : State) (conn : ConnId) :
    (σ.purge conn).shuttingDown = σ.shuttingDown := rfl

@[simp] theorem registry_enqueue (σ : State) (conn : ConnId) (m : Message) :
    (σ.enqueue conn m).registry = σ.registry := rfl
@[simp] theorem store_enqueue (σ : State) (conn : ConnId) (m : Message) :
    (σ.enqueue conn m).store = σ.store := rfl
@[simp] theorem shuttingDown_enqueue (σ : State) (conn : ConnId) (m : Message) :
    (σ.enqueue conn m).shuttingDown = σ.shuttingDown := rfl

@[simp] theorem registry_markShuttingDown (σ : State) :
    σ.markShuttingDown.registry = σ.registry := rfl
@[simp] theorem outboxes_markShuttingDown (σ : State) :
    σ.markShuttingDown.outboxes = σ.outboxes := rfl
@[simp] theorem store_markShuttingDown (σ : State) : σ.markShuttingDown.store = σ.store := rfl
@[simp] theorem shuttingDown_markShuttingDown (σ : State) :
    σ.markShuttingDown.shuttingDown = true := rfl

/-! ### What the operations do to a queue -/

@[simp] theorem waiting_count (σ : State) (s : Series) (conn : ConnId) :
    (σ.count s).waiting conn = σ.waiting conn := rfl

@[simp] theorem waiting_purge (σ : State) (conn other : ConnId) :
    (σ.purge conn).waiting other = σ.waiting other := rfl

/-- A message that is not refused comes last in the queue that it is put into. -/
theorem waiting_enqueue (σ : State) (conn other : ConnId) (m : Message) :
    (σ.enqueue conn m).waiting other =
      if other = conn ∧ σ.delivery conn = .queued then σ.waiting other ++ [m]
      else σ.waiting other := by
  simp only [waiting, enqueue, Table.get?_modify]
  by_cases ho : other = conn
  · subst ho
    cases hbox : σ.outboxes.get? other with
    | none => simp [delivery, hbox]
    | some box => simp [delivery, hbox]
  · simp [ho]

end State

namespace Service

variable (S : Service)

/-- A message of the relay without a body. -/
def message (t : Moment) (flag : Flag) (recipient : UserId) : Message :=
  { flag, timestamp := t.now, sender := UserId.fromRelay, recipient, token := S.relayToken }

/-- The reply to a request that failed: the body names the request's flag. -/
def errorReply (t : Moment) (offending : Flag) (recipient : UserId) : Message :=
  { S.message t .error recipient with body := offending.bytes }

/-- The reply to a frame that is no packed message. -/
def malformedReply (t : Moment) : Message := S.message t .error UserId.toAnonymous

/-- The reply to credentials or a token that were rejected. -/
def unauthenticatedReply (t : Moment) : Message :=
  S.message t .unauthenticated UserId.toAnonymous

end Service

/-- The unchanging part and the first state of a relay with the given settings and signing seed,
whose store is there already. -/
def Service.start (suite : Suite) (passwords : PasswordScheme) (config : Config) (seed : Key)
    (store : Store) (e : Entropy) : Service × State :=
  let (key, e) := e.draw keySize
  ({ config, passwords,
     tokens := ⟨suite.aead, key, suite.refuses key⟩
     relayToken := suite.signatures.relayToken seed },
   { registry := { lifetime := config.lifetimeMs.toNat }, store, entropy := e })

end Relay
