import Relay.Bytes

/-!
# `Relay.Message.Flag`: what a message asks for

Every message opens with a flag, a signed 32-bit code. `Flag` keeps the code as it stands on the
wire, so a code that nobody has given a meaning to is still a flag and can be echoed in an error
reply. `Operation` is the meaning: the relay sorts every flag into one of ten operations
(`Operation.ofFlag`), and one of them, `unknown`, collects all that it does not serve.
-/

set_option autoImplicit false

namespace Relay

/-- An operation code, as the 32-bit word that stands on the wire. -/
@[ext] structure Flag where
  /-- The code in two's complement. -/
  code : UInt32
deriving DecidableEq

namespace Flag

/-- Relay a message to another user and keep it until the recipient fetches it. -/
def proceed : Flag := ⟨0x00000000⟩

/-- Send a message of the administrator to every authenticated connection. -/
def broadcast : Flag := ⟨0x10000000⟩

/-- The client closes the connection. -/
def finish : Flag := ⟨0x00000001⟩

/-- The connection was closed after an error reply. -/
def finishWithError : Flag := ⟨0x00000002⟩

/-- The connection was closed after a registration; the client logs in on a new one. -/
def finishToReconnect : Flag := ⟨0x00000003⟩

/-- Log in with credentials. -/
def logIn : Flag := ⟨0x00000004⟩

/-- The log-in succeeded; the body carries the session token. -/
def loggedIn : Flag := ⟨0x00000005⟩

/-- Register a new account. -/
def register : Flag := ⟨0x00000006⟩

/-- The registration succeeded; the recipient field carries the new user's id. -/
def registered : Flag := ⟨0x00000007⟩

/-- A request succeeded. -/
def success : Flag := ⟨0x00000008⟩

/-- A request failed; the body carries the flag of the request. -/
def error : Flag := ⟨0x00000009⟩

/-- The credentials or the session token were rejected. -/
def unauthenticated : Flag := ⟨0x0000000a⟩

/-- The caller may not do what it asked for. -/
def accessDenied : Flag := ⟨0x0000000b⟩

/-- List the user directory. -/
def fetchUsers : Flag := ⟨0x0000000c⟩

/-- Fetch buffered messages. -/
def fetchMessages : Flag := ⟨0x0000000d⟩

/-- Key exchange between two clients, passed on unread. -/
def exchangeKeys : Flag := ⟨0x000000a0⟩

/-- Acknowledgement of a key exchange between two clients. -/
def exchangeKeysDone : Flag := ⟨0x000000b0⟩

/-- Exchange of stream headers between two clients. -/
def exchangeHeaders : Flag := ⟨0x000000c0⟩

/-- Acknowledgement of an exchange of stream headers. -/
def exchangeHeadersDone : Flag := ⟨0x000000d0⟩

/-- Offer of a file. -/
def fileAsk : Flag := ⟨0x000000e0⟩

/-- A piece of a file. -/
def file : Flag := ⟨0x000000f0⟩

/-- The administrator stops the relay. -/
def shutdown : Flag := ⟨0x7fffffff⟩

/-- The flags that are passed on verbatim between users. -/
def relayed : List Flag :=
  [proceed, exchangeKeys, exchangeKeysDone, exchangeHeaders, exchangeHeadersDone, fileAsk, file]

/-- Whether a message with this flag is passed on verbatim between users. -/
def isRelayed (flag : Flag) : Bool := relayed.contains flag

/-- Every flag with a meaning, under the name that clients know it by. -/
def named : List (String × Flag) :=
  [("PROCEED", proceed), ("BROADCAST", broadcast), ("FINISH", finish),
   ("FINISH_WITH_ERROR", finishWithError), ("FINISH_TO_RECONNECT", finishToReconnect),
   ("LOG_IN", logIn), ("LOGGED_IN", loggedIn), ("REGISTER", register), ("REGISTERED", registered),
   ("SUCCESS", success), ("ERROR", error), ("UNAUTHENTICATED", unauthenticated),
   ("ACCESS_DENIED", accessDenied), ("FETCH_USERS", fetchUsers), ("FETCH_MESSAGES", fetchMessages),
   ("EXCHANGE_KEYS", exchangeKeys), ("EXCHANGE_KEYS_DONE", exchangeKeysDone),
   ("EXCHANGE_HEADERS", exchangeHeaders), ("EXCHANGE_HEADERS_DONE", exchangeHeadersDone),
   ("FILE_ASK", fileAsk), ("FILE", file), ("SHUTDOWN", shutdown)]

/-- The flag as it stands on the wire, least significant byte first. -/
def bytes (flag : Flag) : Bytes := word32 flag.code

/-- The code as a signed number. -/
def toInt (flag : Flag) : Int := flag.code.toInt32.toInt

/-- The flag of a signed code, taken modulo `2 ^ 32`. -/
def ofInt (code : Int) : Flag := ⟨(Int32.ofInt code).toUInt32⟩

end Flag

/-- What a client can ask of the relay. -/
inductive Operation where
  /-- Pass a message on and keep it for its recipient. -/
  | proceed
  /-- Send a message to every authenticated connection. -/
  | broadcast
  /-- Close the connection. -/
  | finish
  /-- Log in. -/
  | logIn
  /-- Register an account. -/
  | register
  /-- List the user directory. -/
  | fetchUsers
  /-- Fetch buffered messages. -/
  | fetchMessages
  /-- Stop the relay. -/
  | shutdown
  /-- Pass a signal between clients on without keeping it. -/
  | relaySignal
  /-- Nothing that the relay serves. -/
  | unknown
deriving DecidableEq

namespace Operation

/-- The operation that a flag asks for. -/
def ofFlag (flag : Flag) : Operation :=
  if flag = .proceed then .proceed
  else if flag = .broadcast then .broadcast
  else if flag = .finish then .finish
  else if flag = .logIn then .logIn
  else if flag = .register then .register
  else if flag = .fetchUsers then .fetchUsers
  else if flag = .fetchMessages then .fetchMessages
  else if flag = .shutdown then .shutdown
  else if flag.isRelayed then .relaySignal
  else .unknown

/-- The operation's name in metrics. -/
def label : Operation → String
  | proceed => "proceed"
  | broadcast => "broadcast"
  | finish => "finish"
  | logIn => "log_in"
  | register => "register"
  | fetchUsers => "fetch_users"
  | fetchMessages => "fetch_messages"
  | shutdown => "shutdown"
  | relaySignal => "relay_signal"
  | unknown => "unknown"

/-- The operations that carry credentials and open a session or an account. -/
def isPreamble : Operation → Bool
  | logIn | register => true
  | _ => false

/-- The operations that make sense only when addressed to the relay itself. -/
def isForRelay : Operation → Bool
  | logIn | register | finish | fetchUsers | fetchMessages | broadcast | shutdown => true
  | proceed | relaySignal | unknown => false

/-! ### Which flags ask for an operation -/

/-- Whether a flag asks for an operation. -/
def IsAskedBy (flag : Flag) : Operation → Prop
  | proceed => flag = .proceed
  | broadcast => flag = .broadcast
  | finish => flag = .finish
  | logIn => flag = .logIn
  | register => flag = .register
  | fetchUsers => flag = .fetchUsers
  | fetchMessages => flag = .fetchMessages
  | shutdown => flag = .shutdown
  | relaySignal => flag.isRelayed ∧ flag ≠ .proceed
  | unknown => True

/-- The operation of a flag is one that the flag asks for. -/
theorem isAskedBy_ofFlag (flag : Flag) : IsAskedBy flag (ofFlag flag) := by
  unfold ofFlag
  repeat' split
  all_goals simp_all [IsAskedBy]

theorem isPreamble_ofFlag (flag : Flag) :
    (ofFlag flag).isPreamble ↔ flag = .logIn ∨ flag = .register := by
  constructor
  · intro h
    have hasked := isAskedBy_ofFlag flag
    cases hop : ofFlag flag <;> simp_all [isPreamble, IsAskedBy]
  · rintro (rfl | rfl) <;> decide

end Operation

end Relay
