import Relay.Store.Directory
import Relay.Table

/-!
# `Relay.Registry`: live connections

The registry holds every live connection by id and, for every authenticated user, the id of the
connection that the user is on. A user is on at most one connection: binding a user who is already
indexed is refused. The phase of a connection only moves forward. Every operation has one lemma that
says what it does to the look-up of a connection.

Times are numbers of nanoseconds on a clock that never goes back.
-/

set_option autoImplicit false

namespace Relay

/-- A span of milliseconds, in nanoseconds. -/
def millis (n : Nat) : Nat := n * 1000000

/-- How often the registry is looked through for connections that have lived too long, in
milliseconds. -/
def lifetimeWatchPeriod : Nat := 100

/-- How far a connection has come. -/
inductive Phase where
  /-- The handshake is done and nothing was received. -/
  | connected
  /-- A log-in or a registration was received. -/
  | secureEstablished
  /-- A user is bound. -/
  | loggedIn
deriving DecidableEq

/-- The place of a phase in the order in which a connection passes them. -/
def Phase.rank : Phase → Nat
  | connected => 0
  | secureEstablished => 1
  | loggedIn => 2

/-- No phase comes after that of a connection with a user. -/
theorem Phase.rank_le_loggedIn (phase : Phase) : phase.rank ≤ loggedIn.rank := by
  cases phase <;> decide

/-- A live connection. -/
structure Connection where
  /-- How far it has come. -/
  phase : Phase
  /-- The user who is logged in on it. -/
  user : Option User
  /-- When it was registered. -/
  since : Nat
deriving DecidableEq

/-- Why a user is not bound to a connection. -/
inductive BindError where
  /-- There is no such connection. -/
  | unknownConnection
  /-- The connection has a user. -/
  | connectionBound
  /-- The user is on another connection. -/
  | userConnected
deriving DecidableEq

/-- The wording of a refusal to bind. -/
def BindError.message : BindError → String
  | unknownConnection => "unknown connection"
  | connectionBound => "connection already bound"
  | userConnected => "user already connected"

/-- The live connections and who is on them. -/
structure Registry where
  /-- How long a connection may live, in milliseconds. -/
  lifetime : Nat
  /-- The connections by id. -/
  connections : Table Connection := .empty
  /-- The connections of authenticated users, by the users' ids. -/
  sessions : Table ConnId := .empty
deriving DecidableEq

namespace Registry

/-- The connection of an id. -/
def get? (r : Registry) (id : ConnId) : Option Connection := r.connections.get? id

/-- Whether an id is registered. -/
def contains (r : Registry) (id : ConnId) : Bool := r.connections.contains id

/-- The phase of a connection. -/
def phase? (r : Registry) (id : ConnId) : Option Phase := (r.get? id).map Connection.phase

/-- The user bound to a connection. -/
def user? (r : Registry) (id : ConnId) : Option User := (r.get? id).bind Connection.user

/-- The registry with a new connection. -/
def add (r : Registry) (id : ConnId) (now : Nat) : Except Violation Registry :=
  if r.contains id then .error (.registeredTwice id)
  else .ok { r with connections := r.connections.insert id ⟨.connected, none, now⟩ }

/-- Whether a connection may move to a phase: it is registered and not beyond it. -/
def mayAdvance (r : Registry) (id : ConnId) (phase : Phase) : Bool :=
  match r.phase? id with
  | none => false
  | some current => current.rank ≤ phase.rank

/-- The registry with a connection moved to a phase, if it may. -/
def advance (r : Registry) (id : ConnId) (phase : Phase) : Registry :=
  if r.mayAdvance id phase then
    { r with connections := r.connections.modify id fun c => { c with phase } }
  else r

/-- The registry with a user bound to a connection. -/
def bind (r : Registry) (id : ConnId) (user : User) : Except BindError Registry :=
  if r.sessions.contains user.id then .error .userConnected
  else
    match r.get? id with
    | none => .error .unknownConnection
    | some c =>
      if c.user.isSome then .error .connectionBound
      else
        .ok { r with
          connections := r.connections.modify id fun c => { c with user := some user }
          sessions := r.sessions.insert user.id id }

/-- The live connection that a user is on. -/
def session? (r : Registry) (user : UserId) : Option ConnId :=
  (r.sessions.get? user).filter r.contains

/-- Whether a user is on a connection. -/
def isOnline (r : Registry) (user : UserId) : Bool := r.sessions.contains user

/-- Every authenticated user with the connection that the user is on. -/
def authenticated (r : Registry) : List (UserId × ConnId) :=
  r.sessions.entries.filter fun e => r.contains e.2

/-- The connections that have lived longer than they may. -/
def expired (r : Registry) (now : Nat) : List ConnId :=
  (r.connections.entries.filter fun e => now - e.2.since > millis r.lifetime).map Prod.fst

/-- The registry without a connection; its user is on no connection then. -/
def delete (r : Registry) (id : ConnId) : Registry :=
  match r.get? id with
  | none => r
  | some c =>
    { r with
      connections := r.connections.erase id
      sessions := match c.user with
        | none => r.sessions
        | some user => r.sessions.erase user.id }

/-- The number of live connections. -/
def size (r : Registry) : Nat := r.connections.size

/-! ### What the operations do to a look-up -/

theorem get?_add {r s : Registry} {id : ConnId} {now : Nat} (h : r.add id now = .ok s)
    (other : ConnId) :
    s.get? other = if other = id then some ⟨.connected, none, now⟩ else r.get? other := by
  unfold add at h
  split at h
  · cases h
  · cases h
    exact Table.get?_insert _ _ _ _

theorem get?_advance (r : Registry) (id other : ConnId) (phase : Phase) :
    (r.advance id phase).get? other =
      if other = id ∧ r.mayAdvance id phase then (r.get? id).map fun c => { c with phase }
      else r.get? other := by
  unfold advance
  by_cases h : r.mayAdvance id phase
  · simp only [h, if_true, get?, Table.get?_modify, and_true]
  · simp [h]

theorem get?_bind {r s : Registry} {id : ConnId} {user : User} (h : r.bind id user = .ok s)
    (other : ConnId) :
    s.get? other =
      if other = id then (r.get? id).map fun c => { c with user := some user }
      else r.get? other := by
  unfold bind at h
  split at h
  · cases h
  · split at h
    · cases h
    · split at h
      · cases h
      · cases h
        exact Table.get?_modify _ _ _ _

theorem get?_delete (r : Registry) (id other : ConnId) :
    (r.delete id).get? other = if other = id then none else r.get? other := by
  unfold delete
  split
  · rename_i h
    split
    · rename_i ho
      rw [ho, h]
    · rfl
  · exact Table.get?_erase _ _ _

end Registry

end Relay
