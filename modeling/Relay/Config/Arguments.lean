import Relay.Config.Basic
import Relay.Text.Decimal

/-!
# `Relay.Config.Arguments`: settings from the command line and the environment

Every setting has an option `--name VALUE` or `--name=VALUE` and an environment variable; the
option wins over the variable, and the variable over the default. `-v` may be repeated. A value
that stands apart from its option does not start with `-`: such a word is an option of its own.

A word that is no option is refused as soon as it is met, while the value of an option is looked at
only when the next option is accepted or the words end. That order decides which of two faults is
reported.
-/

set_option autoImplicit false

namespace Relay

/-- What can be set. -/
inductive Setting where
  /-- Where clients connect. -/
  | listen
  /-- Where metrics are served. -/
  | metricsAddress
  /-- The most connections at a time. -/
  | maxConns
  /-- The most registered users. -/
  | maxUsers
  /-- The file that holds the signing seed. -/
  | keypair
  /-- The administrator's password. -/
  | adminPassword
  /-- How long a connection may be silent. -/
  | idleTimeout
  /-- How long a frame may take. -/
  | partTimeout
  /-- How long a connection may live. -/
  | lifetime
  /-- How long shutdown may take. -/
  | drainTimeout
  /-- The memory cost of password records. -/
  | hashMemory
  /-- The number of passes of password records. -/
  | hashIterations
deriving DecidableEq

namespace Setting

/-- Every setting, in the order in which the environment is consulted. -/
def all : List Setting :=
  [listen, metricsAddress, maxConns, maxUsers, keypair, adminPassword, idleTimeout, partTimeout,
   lifetime, drainTimeout, hashMemory, hashIterations]

/-- The name of the option, without its hyphens. -/
def option : Setting → String
  | listen => "listen"
  | metricsAddress => "metrics-addr"
  | maxConns => "max-conns"
  | maxUsers => "max-users"
  | keypair => "keypair"
  | adminPassword => "admin-password"
  | idleTimeout => "idle-timeout-ms"
  | partTimeout => "part-timeout-ms"
  | lifetime => "lifetime-ms"
  | drainTimeout => "drain-timeout"
  | hashMemory => "hash-memory-kib"
  | hashIterations => "hash-iterations"

/-- The environment variable. -/
def variableName : Setting → String
  | listen => "MRPS_LISTEN"
  | metricsAddress => "MRPS_METRICS"
  | maxConns => "MRPS_MAX_CONNS"
  | maxUsers => "MRPS_MAX_USERS"
  | keypair => "MRPS_KEYPAIR"
  | adminPassword => "MRPS_ADMIN_PASSWORD"
  | idleTimeout => "MRPS_IDLE_TIMEOUT_MS"
  | partTimeout => "MRPS_PART_TIMEOUT_MS"
  | lifetime => "MRPS_LIFETIME_MS"
  | drainTimeout => "MRPS_DRAIN_TIMEOUT"
  | hashMemory => "MRPS_HASH_MEMORY_KIB"
  | hashIterations => "MRPS_HASH_ITERATIONS"

/-- The setting of an option name. -/
def ofOption? (name : String) : Option Setting := all.find? fun s => s.option == name

end Setting

/-- Why the relay does not start from its arguments. -/
inductive ArgumentError where
  /-- A word is no option, or an option that there is not. -/
  | unknownArgument
  /-- A value cannot be read. -/
  | valueValidation
  /-- An option has no value, or an empty one where that means none. -/
  | invalidValue
  /-- An option is given twice. -/
  | argumentConflict
  /-- An option that takes no value is given one. -/
  | tooManyValues
  /-- Help is asked for. -/
  | displayHelp
  /-- The version is asked for. -/
  | displayVersion
deriving DecidableEq

/-- The wording of a refusal, or of what was asked for instead. -/
def ArgumentError.message : ArgumentError → String
  | unknownArgument => "unexpected argument"
  | valueValidation => "invalid value"
  | invalidValue => "a value is required"
  | argumentConflict => "an option cannot be used multiple times"
  | tooManyValues => "unexpected value"
  | displayHelp => "Usage: mrps [OPTIONS]"
  | displayVersion => "mrps"

/-- The exit code of the process: asking for help or the version is no failure. -/
def ArgumentError.exitCode : ArgumentError → Nat
  | displayHelp | displayVersion => 0
  | _ => 2

/-- What the arguments and the environment come to. -/
structure Invocation where
  /-- The settings. -/
  config : Config := {}
  /-- The file that holds the signing seed. -/
  keypair : Option String := none
  /-- How often more detail was asked for, at most 255 times. -/
  verbosity : Nat := 0

namespace Invocation

/-! ### Values -/

/-- A number that fits the given count of bits; a plus sign may precede it. -/
def unsigned? (bits : Nat) (text : String) : Option Nat :=
  (Decimal.unsigned? text.toList).filter (· < 1 <<< bits)

/-- A number of 32 bits; it is read with a sign, so zero may be negative. -/
def number32? (text : String) : Option Nat :=
  match text.toList with
  | '-' :: rest => (Decimal.digits? rest).filter (· = 0)
  | _ => unsigned? 32 text

/-- The invocation with one setting changed to the value of a text. -/
def assign (i : Invocation) (s : Setting) (text : String) : Except ArgumentError Invocation :=
  let readAs {α : Type} (value : Option α) (f : α → Config) : Except ArgumentError Invocation :=
    match value with
    | none => .error .valueValidation
    | some a => .ok { i with config := f a }
  let c := i.config
  match s with
  | .listen => readAs (Address.parse? text) fun a => { c with listen := a }
  | .metricsAddress => readAs (Address.parse? text) fun a => { c with metricsAddress := a }
  | .maxConns => readAs (number32? text) fun n => { c with maxConns := UInt32.ofNat n }
  | .maxUsers => readAs (number32? text) fun n => { c with maxUsers := UInt32.ofNat n }
  | .keypair => if text.isEmpty then .error .invalidValue else .ok { i with keypair := some text }
  | .adminPassword => .ok { i with config := { c with adminPassword := text } }
  | .idleTimeout => readAs (unsigned? 64 text) fun n => { c with idleTimeoutMs := UInt64.ofNat n }
  | .partTimeout => readAs (unsigned? 64 text) fun n => { c with partTimeoutMs := UInt64.ofNat n }
  | .lifetime => readAs (unsigned? 64 text) fun n => { c with lifetimeMs := UInt64.ofNat n }
  | .drainTimeout => readAs (unsigned? 64 text) fun n => { c with drainTimeout := UInt64.ofNat n }
  | .hashMemory => readAs (number32? text) fun n => { c with hashMemoryKib := UInt32.ofNat n }
  | .hashIterations => readAs (number32? text) fun n => { c with hashIterations := UInt32.ofNat n }

/-! ### The words of the command line -/

/-- Where reading the words has come to. -/
structure Reading where
  /-- What was accepted so far. -/
  invocation : Invocation := {}
  /-- The settings that were accepted so far. -/
  given : List Setting := []
  /-- An option that was met but not looked at yet, with its value once that is there. -/
  pending : Option (Setting × Option String) := none
  /-- Whether a lone `--` was met, after which no word is an option. -/
  ended : Bool := false

namespace Reading

/-- Accepts a setting, unless it was given before. -/
def accept (r : Reading) (s : Setting) (text : String) : Except ArgumentError Reading :=
  if r.given.contains s then .error .argumentConflict
  else
    match r.invocation.assign s text with
    | .error e => .error e
    | .ok invocation => .ok { r with invocation, given := s :: r.given }

/-- Looks at the option that is pending. -/
def settle (r : Reading) : Except ArgumentError Reading :=
  match r.pending with
  | none => .ok r
  | some (_, none) => .error .invalidValue
  | some (s, some text) => { r with pending := none }.accept s text

/-- Counts one more wish for detail. -/
def raise (r : Reading) : Reading :=
  { r with invocation.verbosity := min 255 (r.invocation.verbosity + 1) }

/-- Takes a word of the form `--name` or `--name=value`. -/
def long (r : Reading) (name : String) (value : Option String) : Except ArgumentError Reading :=
  let plain (next : Reading → Except ArgumentError Reading) : Except ArgumentError Reading :=
    if value.isSome then .error .tooManyValues else r.settle >>= next
  match Setting.ofOption? name with
  | some s =>
    match value with
    | some text => r.settle >>= fun r => r.accept s text
    | none => r.settle >>= fun r => .ok { r with pending := some (s, none) }
  | none =>
    if name = "verbose" then plain fun r => .ok r.raise
    else if name = "help" then plain fun _ => .error .displayHelp
    else if name = "version" then plain fun _ => .error .displayVersion
    else .error .unknownArgument

/-- Takes the letters of a word of the form `-abc`. -/
def short (r : Reading) : List Char → Except ArgumentError Reading
  | [] => .ok r
  | c :: rest =>
    if c = 'v' then
      match r.settle with
      | .error e => .error e
      | .ok r => r.raise.short rest
    else if c = 'h' then r.settle >>= fun _ => .error .displayHelp
    else if c = 'V' then r.settle >>= fun _ => .error .displayVersion
    else .error .unknownArgument

/-- Takes one word. -/
def word (r : Reading) (text : String) : Except ArgumentError Reading :=
  if r.ended then .error .unknownArgument
  else
    match text.toList with
    -- An option that is pending stays so: only a plain word could have been its value.
    | ['-', '-'] => .ok { r with ended := true }
    | '-' :: '-' :: rest =>
      let name := rest.takeWhile (· != '=')
      let value := (rest.drop name.length).tail?.map String.ofList
      r.long (String.ofList name) value
    | '-' :: c :: rest => r.short (c :: rest)
    -- A lone hyphen is a plain word.
    | _ =>
      match r.pending with
      | some (s, none) => .ok { r with pending := some (s, some text) }
      | _ => .error .unknownArgument

/-- Takes a setting from the environment, unless the command line gave it. -/
def environment (lookup : String → Option String) (r : Reading) (s : Setting) :
    Except ArgumentError Reading :=
  match lookup s.variableName with
  | none => .ok r
  | some text =>
    if r.given.contains s then .ok r
    else (r.invocation.assign s text).map fun invocation => { r with invocation }

end Reading

/-- What the words of the command line and an environment come to. -/
def parse (words : List String) (lookup : String → Option String) :
    Except ArgumentError Invocation := do
  let r ← words.foldlM Reading.word {}
  let r ← r.settle
  let r ← Setting.all.foldlM (Reading.environment lookup) r
  return r.invocation

end Invocation

end Relay
