import Relay.Server.Drive
import Relay.Startup
import Std.Time.DateTime.Timestamp

/-!
# `Relay.Main`: the command

The process reads its arguments, its environment and its key file, and runs a relay until its
standard input ends. It opens no sockets: whoever starts it hands it the one client that it serves,
whose bytes come in on descriptor 3 and go out on descriptor 4, and is gone only once that client
has nothing more to say. Everything that is decided is decided in the library; here the bytes, the
clocks and the log are carried to and fro.
-/

set_option autoImplicit false

namespace Relay.Command

/-- The bytes that came from the client and were not handed on, and whether no more will come. -/
abbrev Inbox := IO.Ref (Bytes × Bool)

/-- Reads from the client until it has nothing more to send. -/
partial def listen (client : IO.FS.Handle) (inbox : Inbox) : IO Unit := do
  let chunk ← client.read 1
  if chunk.isEmpty then inbox.modify fun (bytes, _) => (bytes, true)
  else
    inbox.modify fun (bytes, atEnd) => (bytes ++ chunk.toList, atEnd)
    listen client inbox

/-- Reads until there is nothing more to read. -/
partial def exhaust (input : IO.FS.Stream) : IO Unit := do
  unless (← input.read 1024).isEmpty do exhaust input

/-- The clock that messages are stamped with, in milliseconds since the start of 1970. -/
def wallClock : IO UInt64 := do
  let now ← Std.Time.Timestamp.now
  return UInt64.ofNat now.toMillisecondsSinceUnixEpoch.val.toNat

/-- So many random bytes. -/
def randomBytes (count : USize) : IO Bytes := return (← IO.getRandomBytes count).toList

/-- Writes lines of the log that the filter lets through, each after the time. -/
def write (filter : LogFilter) (lines : List LogLine) : IO Unit := do
  let now ← wallClock
  for line in lines.filter filter.permits do IO.println s!"{now} {line.toText}"
  (← IO.getStdout).flush

/-- What is found where the key file should be. Whose rights it has cannot be seen from here, so it
is taken to be its owner's alone. -/
def keyFile (path : String) : IO (Except FileFault File) := do
  try
    let data ← IO.FS.readBinFile path
    return .ok { mode := 0o100600, data := .ok data.toList }
  catch
    | .noFileOrDirectory .. => return .error .notFound
    | .permissionDenied .. => return .error .accessDenied
    | e => return .error (.other (toString e))

/-- What a running process works with. -/
structure Surroundings where
  /-- The address that clients reach the relay under. -/
  address : Address
  /-- Which lines of the log are written. -/
  filter : LogFilter
  /-- What the client has sent. -/
  inbox : Inbox
  /-- Where the client is written to, if there is a client. -/
  client : Option IO.FS.Handle
  /-- Ends when the process is to stop. -/
  stop : Task (Except IO.Error Unit)

/-- Lets events happen, those that cannot happen left out, and writes the log. -/
def happen (around : Surroundings) (s : Server) (events : List Event) : IO Server := do
  let (log, s) := s.follow around.address events
  unless log.isEmpty do write around.filter log
  return s

/-- Writes what the workers want written, until they want nothing more. -/
partial def flush (around : Surroundings) (t : Moment) (s : Server) : IO Server := do
  let s := s.drive t 100000
  match s.workers.findIdx? fun worker => worker.outgoing?.isSome, around.client with
  | some index, some client =>
    let bytes := (s.workers[index]?.bind Worker.outgoing?).getD []
    try
      client.write (ByteArray.mk bytes.toArray)
      client.flush
      flush around t (s.attempt (.worker index (.link .taken)))
    catch _ => flush around t (s.attempt (.worker index (.link .refuse)))
  | _, _ => return s

/-- Takes a handshake as far as the bytes that came in allow. What the relay says to them is written
once; the number tells how much of it was. -/
def greet (around : Surroundings) (s : Server) (written : Nat) : IO (Server × Nat) := do
  let (bytes, atEnd) ← around.inbox.get
  let peer : Peer := { arriving := [bytes], ending := if atEnd then none else some .silent }
  let idle := s.config.idleTimeoutMs.toNat
  let (result, _, after) := s.host.suite.shakeHands s.host.seed s.host.pair idle s.shared.entropy peer
  if let some client := around.client then
    client.write (ByteArray.mk (after.accepted.drop written).toArray)
    client.flush
  match result with
  | .error (.timeout _) => return (s, after.accepted.length)
  | _ =>
    around.inbox.modify fun (all, atEnd) => (all.drop bytes.length, atEnd)
    return (← happen around s [.worker 0 (.greet peer)], after.accepted.length)

/-- Attends to the client: goes on with the handshake until it is too late, and then hands on what
has come in. The number is how much the relay has said in the handshake. -/
def attend (around : Surroundings) (s : Server) (written deadline : Nat) : IO (Server × Nat) := do
  match s.workers[0]? with
  | some (Worker.greeting _) =>
    if deadline ≤ s.now then
      return (← happen around s [.worker 0 (.greet { ending := some .silent })], written)
    else greet around s written
  | some (Worker.serving _) =>
    let (bytes, atEnd) ← around.inbox.modifyGet fun (bytes, atEnd) => ((bytes, atEnd), ([], atEnd))
    let arrival := if bytes.isEmpty then [] else [Event.worker 0 (.link (.arrive bytes))]
    let hangUp := if atEnd then [Event.worker 0 (.link (.hangUp none))] else []
    return (← happen around s (arrival ++ hangUp), written)
  | _ => return (s, written)

/-- Puts fresh random bytes behind those that are left, when few are left. -/
def refill (s : Server) : IO Server := do
  let e := s.shared.entropy
  if e.tape.length ≥ 1024 then return s
  else
    let entropy := { e with tape := e.tape ++ (← randomBytes 4096) }
    return { s with shared := { s.shared with entropy } }

/-- Ends the process after a rule was broken. -/
def halt (v : Violation) : IO UInt32 := do
  IO.eprintln v.message
  return UInt32.ofNat Violation.exitCode

/-- Runs a relay to its end and gives the exit code. The numbers are how much the relay has said in
a handshake and when that is given up. -/
partial def run (around : Surroundings) (s : Server) (written deadline : Nat) : IO UInt32 := do
  let s ← happen around (← refill s) [.tick (← IO.monoNanosNow), .watch, .expire]
  let (s, written) ← attend around s written deadline
  let s ← flush around { now := ← wallClock } s
  let signal := if ← IO.hasFinished around.stop then [Event.signal] else []
  let s ← happen around s (signal ++ [.wake, .check, .drained])
  match s.halted with
  | some v => halt v
  | none =>
    if s.loop = .stopped then return 0
    else
      IO.sleep 5
      run around s written deadline

/-- Runs the command. -/
def main (args : List String) : IO UInt32 := do
  let names := "RUST_LOG" :: Setting.all.map Setting.variableName
  let environment ← names.filterMapM fun name => do
    return (← IO.getEnv name).map fun value => (name, value)
  let lookup (name : String) : Option String := (environment.find? fun v => v.1 == name).map Prod.snd
  match Invocation.parse args lookup with
  | .error e =>
    if e.exitCode = 0 then IO.println e.message else IO.eprintln s!"error: {e.message}"
    return UInt32.ofNat e.exitCode
  | .ok i =>
    let filter ← match LogFilter.choose (lookup "RUST_LOG") i.verbosity with
      | .error v => return ← halt v
      | .ok filter => pure filter
    let file ← i.keypair.mapM keyFile
    let (log, prepared) := Startup.prepare .standard i file ⟨← randomBytes 4096, 0⟩
    let (log, result) := match prepared with
      | .error e => (log, Except.error e)
      | .ok s => Startup.bind (.ok i.config.listen) log s
    write filter log
    match result with
    | .error e =>
      for line in e.lines do IO.eprintln line
      return UInt32.ofNat StartupError.exitCode
    | .ok (address, s) =>
      let inbox ← IO.mkRef ([], false)
      let client ← try
          let input ← IO.FS.Handle.mk "/dev/fd/3" .read
          let output ← IO.FS.Handle.mk "/dev/fd/4" .write
          let _ ← IO.asTask (listen input inbox) .dedicated
          pure (some output)
        catch _ => pure none
      let stop ← IO.asTask (exhaust (← IO.getStdin)) .dedicated
      let around : Surroundings := { address, filter, inbox, client, stop }
      let now ← IO.monoNanosNow
      let accepted := if client.isSome then [Event.accept, .check] else []
      let s ← happen around s ([.tick now, .begin, .check] ++ accepted)
      run around s 0 (now + millis i.config.idleTimeoutMs.toNat)

end Relay.Command

/-- Runs the command. -/
def main (args : List String) : IO UInt32 := Relay.Command.main args
