import Relay.Config.Arguments
import Relay.Files
import Relay.Log.Filter
import Relay.Server.Step
import Relay.Text.Base64

/-!
# `Relay.Startup`: how a relay comes up and goes down

A relay comes up in a fixed order: the settings are checked, the signing seed is read or made, the
store is filled, the address is bound. The first fault ends it, with what was noted down before.
What happens later is noted down along with the events of the loop.
-/

set_option autoImplicit false

namespace Relay

/-- Why a relay does not come up. -/
inductive StartupError where
  /-- A setting is out of bounds. -/
  | configuration (cause : ConfigError)
  /-- The key file cannot be read. -/
  | keyFileUnreadable (cause : FileFault)
  /-- Others than its owner may use the key file. -/
  | keyFileTooOpen (mode : Nat)
  /-- The key file does not hold a seed. -/
  | keyFileTooShort
  /-- Passwords cannot be hashed at the cost that is set. -/
  | hashCost (cause : Crypto.Argon2.CostError)
  /-- The store cannot be filled. -/
  | store (cause : StoreError)
  /-- The address cannot be bound. -/
  | bind (address : Address) (cause : String)

namespace StartupError

/-- What the process says at last: the wording of a fault and, where that does not say it, its
cause. -/
def message : StartupError → String × Option String
  | configuration cause => (s!"configuration error: {cause.message}", none)
  | keyFileUnreadable cause => (cause.message, none)
  | keyFileTooOpen mode =>
    let digits := String.ofList (Nat.toDigits 8 mode)
    (s!"keypair file permissions too open: {digits}. Expected 0600", none)
  | keyFileTooShort => (s!"keypair file too short, expected at least {keySize} bytes", none)
  | hashCost cause => (s!"invalid password hashing cost: {cause.message}", none)
  | store cause => ("failed to seed the user directory", some cause.message)
  | bind address cause => (s!"failed to bind {address.toText}", some cause)

/-- The lines that the process says at last. -/
def lines (e : StartupError) : List String :=
  match e.message with
  | (text, none) => ["Error: " ++ text]
  | (text, some cause) => ["Error: " ++ text, "", "Caused by:", "    " ++ cause]

/-- The exit code of a process that did not come up. -/
def exitCode : Nat := 1

end StartupError

namespace Startup

/-- The signing seed: that of a key file, or a fresh one that is gone when the relay stops. -/
def signingSeed (path : String) (file : Option (Except FileFault File)) (e : Entropy) :
    Except StartupError (Key × LogLine × Entropy) :=
  match file with
  | none =>
    let (seed, e) := e.draw keySize
    .ok (seed, .process .warn "using ephemeral keypair (not persisted)", e)
  | some (.error cause) => .error (.keyFileUnreadable cause)
  | some (.ok file) =>
    -- The last two octal digits are what others than the owner may do.
    if file.mode % 64 ≠ 0 then .error (.keyFileTooOpen file.mode)
    else
      match file.data with
      | .error cause => .error (.keyFileUnreadable cause)
      | .ok data =>
        if data.length < keySize then .error .keyFileTooShort
        else .ok (Octets.padded keySize data, .process .info s!"loaded keypair from {path}", e)

/-- A relay with the settings of an invocation, before it binds its address, and what is noted down
until then. -/
def prepare (suite : Suite) (i : Invocation) (file : Option (Except FileFault File))
    (e : Entropy) : List LogLine × Except StartupError Server :=
  match i.config.validate with
  | .error cause => ([], .error (.configuration cause))
  | .ok _ =>
    match signingSeed (i.keypair.getD "") file e with
    | .error fault => ([], .error fault)
    | .ok (seed, line, e) =>
      let publicKey := Base64.encodePadded (suite.signatures.verifyingKey seed).bytes
      let log := [line, .process .info s!"server public key: {publicKey}"] ++
        if i.config.adminPassword = "admin" then
          [.process .warn "admin account uses the default password"]
        else []
      match Crypto.Argon2.Cost.of? i.config.hashMemoryKib.toNat i.config.hashIterations.toNat 1 with
      | .error cause => (log, .error (.hashCost cause))
      | .ok cost =>
        let passwords := PasswordScheme.argon2id cost
        match Store.initial passwords i.config.maxUsers i.config.adminPasswordBytes e with
        | .error cause => (log, .error (.store cause))
        | .ok (store, e) => (log, .ok (Server.start suite passwords i.config seed store e))

/-- A relay that is up to binding its address; the answer of the system is the address that was
bound, in which a port of zero is replaced, or why none was. -/
def bind (answer : Except String Address) (log : List LogLine) (s : Server) :
    List LogLine × Except StartupError (Address × Server) :=
  match answer with
  | .error cause => (log, .error (.bind s.config.listen cause))
  | .ok address =>
    (log ++ [.process .info s!"bound to {s.config.listen.toText}"], .ok (address, s))

end Startup

namespace Server

/-- What is noted down when an event happens to a relay that is bound to an address. -/
def notes (address : Address) (s : Server) (event : Event) : List LogLine :=
  match event with
  | .begin => [.loop .info s!"server listening on {address.toText}"]
  | .accept =>
    match s.loop with
    | .waiting none => [.loop .warn "max connections reached, rejecting a client"]
    | _ => []
  | .signal => [.loop .info "received shutdown signal"]
  | .check =>
    if s.shared.shuttingDown then
      let count := s.workers.length
      [.loop .info s!"shutdown signal received, draining {count} connections"]
    else []
  | .expire =>
    let count := s.workers.length
    [.loop .warn s!"drain timeout reached with {count} connections still active"]
  | .drained => [.loop .info "server shut down gracefully"]
  | _ => []

/-- What events make of a relay, those that cannot happen left out, and what is noted down. -/
def follow (address : Address) (s : Server) : List Event → List LogLine × Server
  | [] => ([], s)
  | event :: rest =>
    match s.step? event with
    | none => s.follow address rest
    | some next =>
      let (log, last) := next.follow address rest
      (s.notes address event ++ log, last)

end Server

end Relay
