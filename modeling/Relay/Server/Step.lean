import Relay.Server.Basic

/-!
# `Relay.Server.Step`: what may happen to a running relay

`Server.step?` says what an `Event` makes of a relay, and is `none` where the event cannot happen.
Events come in any order: the loop, the workers and the two halves of every session work at the same
time, and only one of them does one step at a time. A run is a list of events.

The workers are named by their place in the list of workers.
-/

set_option autoImplicit false

namespace Relay

/-- What may happen to a worker. -/
inductive WorkerEvent where
  /-- A client has been turned away, or was not listening. -/
  | refuse
  /-- The handshake comes to its end, with a peer who does as given. -/
  | greet (peer : Peer)
  /-- Something happens on the session. -/
  | link (event : LinkEvent)
  /-- The reader has ended, and the connection is removed. -/
  | leave
  /-- The writer has ended or is out of time, and the worker ends. -/
  | depart
  /-- The worker is dropped at whatever point it has come to. -/
  | drop
  /-- A worker that was dropped while it served ends. -/
  | unwind

/-- What may happen to a relay. -/
inductive Event where
  /-- The loop begins. -/
  | begin
  /-- The loop sees whether it should go on, and takes the next id. -/
  | check
  /-- A client connects. -/
  | accept
  /-- A client fails to connect. -/
  | acceptFail
  /-- A worker that has ended is collected. -/
  | collect (worker : Nat)
  /-- The loop sees that shutdown was requested. -/
  | wake
  /-- The process is told to stop. -/
  | signal
  /-- All workers have ended. -/
  | drained
  /-- The workers are out of time. -/
  | expire
  /-- Shutdown is requested. -/
  | requestShutdown
  /-- Connections that have lived too long are told to end. -/
  | watch
  /-- Time passes. -/
  | tick (now : Nat)
  /-- Something happens to a worker. -/
  | worker (index : Nat) (event : WorkerEvent)

namespace Server

/-! ### The loop -/

/-- The loop goes around: an id that nobody got is given back. -/
def turnRound (s : Server) (lease : Option ConnId) : Server :=
  let s := { s with loop := .checking }
  match lease with
  | none => s
  | some id => s.giveBack id

/-- What the loop does while it waits, given the id that it holds. -/
def whileWaiting (s : Server) (f : Option ConnId → Server) : Option Server :=
  match s.loop with
  | .waiting lease => some (f lease)
  | _ => none

/-- The loop begins. Requests to shut down that came before are not waited for: the loop looks for
them anyway. -/
def begin? (s : Server) : Option Server :=
  match s.loop with
  | .starting => some { s with health := .ready, loop := .checking, wake := false }
  | _ => none

/-- The loop sees whether it should go on. -/
def check? (s : Server) : Option Server :=
  match s.loop with
  | .checking =>
    -- The flag is looked at anew every time around.
    if s.shared.shuttingDown then
      let deadline := s.now + millis (1000 * s.config.drainTimeout.toNat)
      some { s with health := .draining, loop := .draining deadline }
    else
      match s.ids.take? with
      | some (id, ids) => some { s with ids, loop := .waiting (some id) }
      | none => some { s with loop := .waiting none }
  | _ => none

/-- A client connects: it is served under the id that the loop holds, or turned away. -/
def accept (s : Server) (lease : Option ConnId) : Server :=
  match lease with
  | some id => { s with workers := s.workers ++ [.greeting id], loop := .checking }
  | none =>
    { s.count (.admissions .rejectedFull) with
      workers := s.workers ++ [.refusing], loop := .checking }

/-- A worker that has ended is collected. -/
def collect? (s : Server) (index : Nat) : Option Server :=
  match s.workers[index]?, s.loop with
  | some (.ended _), .waiting lease =>
    some ({ s with workers := s.workers.eraseIdx index }.turnRound lease)
  | some (.ended _), .draining _ => some { s with workers := s.workers.eraseIdx index }
  | _, _ => none

/-- All workers have ended, and so does the loop. -/
def drained? (s : Server) : Option Server :=
  if s.workers.all Worker.hasEnded then
    match s.loop with
    | .draining _ | .aborting => some { s with workers := [], loop := .stopped }
    | _ => none
  else none

/-- The workers are out of time. -/
def expire? (s : Server) : Option Server :=
  match s.loop with
  | .draining deadline => if deadline ≤ s.now then some { s with loop := .aborting } else none
  | _ => none

/-- Leaves the permit to close at every connection that has lived too long. -/
def watch? (s : Server) : Option Server :=
  let old := s.shared.registry.expired s.now
  let close (worker : Worker) : Worker :=
    match worker with
    | .serving link => .serving { link with closing := link.closing || old.contains link.id }
    | other => other
  match s.loop with
  | .starting | .stopped => none
  | _ => some { s with workers := s.workers.map close }

/-! ### Workers -/

/-- Puts a worker in the place of another. -/
def setWorker (s : Server) (index : Nat) (worker : Worker) : Server :=
  { s with workers := s.workers.set index worker }

/-- The handshake comes to its end. A session is registered before anything is read from it. -/
def greet (s : Server) (index : Nat) (id : ConnId) (peer : Peer) : Server :=
  let idle := s.config.idleTimeoutMs.toNat
  let (result, entropy, peer) :=
    s.host.suite.shakeHands s.host.seed s.host.pair idle s.shared.entropy peer
  let s := { s with shared := { s.shared with entropy } }
  match result with
  | .error _ =>
    ((s.count (.admissions .handshakeFailed)).setWorker index (.ended false)).giveBack id
  | .ok session =>
    match (s.count (.admissions .admitted)).shared.connect id outboundCapacity s.now with
    | .error v => { s with halted := some v }
    | .ok shared =>
      let shared := { shared with metrics := shared.metrics.add .connectionsActive 1 }
      { s with shared }.setWorker index (.serving (Link.start id session peer s.now idle))

/-- Removes a connection from the registry because its worker leaves it. -/
def unregister (s : Server) (id : ConnId) : Server :=
  let shared := s.shared.purge id
  { s with shared := { shared with metrics := shared.metrics.add .connectionsActive (-1) } }

/-- Ends a worker: what waits to be written is lost, and the id is given back. -/
def release (s : Server) (index : Nat) (id : ConnId) (dropped : Bool) : Server :=
  let shared := { s.shared with outboxes := s.shared.outboxes.erase id }
  ({ s with shared }.setWorker index (.ended dropped)).giveBack id

/-- The reader has ended, and the connection is removed. -/
def leave? (s : Server) (index : Nat) : Worker → Option Server
  | .serving link =>
    match link.reader with
    | .ended result =>
      let limit := s.config.idleTimeoutMs.toNat + s.config.partTimeoutMs.toNat
      let worker := Worker.flushing { link with released := true } result (s.now + millis limit)
      some ((s.unregister link.id).setWorker index worker)
    | _ => none
  | _ => none

/-- The writer has ended or is out of time, and the worker ends. A worker on whose connection the
administrator asked to shut down requests that now. -/
def depart? (s : Server) (index : Nat) : Worker → Option Server
  | .flushing link result deadline =>
    if link.writer = .ended ∨ deadline ≤ s.now then
      -- The id is given back last, when nothing is left that it names.
      let s := match result with
        | .ok .shutdown => s.requestShutdown
        | _ => s
      some (s.release index link.id false)
    else none
  | _ => none

/-- The worker is dropped. A connection that is registered is removed first. Its id is given back by
a step of its own, since others may come in between. -/
def drop? (s : Server) (index : Nat) : Worker → Option Server
  | .refusing => some (s.setWorker index (.ended true))
  | .greeting id => some ((s.setWorker index (.ended true)).giveBack id)
  | .serving link => some ((s.unregister link.id).setWorker index (.unwinding link.id))
  | .flushing link _ _ => some (s.release index link.id true)
  | .unwinding _ | .ended _ => none

/-- A worker that was dropped while it served ends. -/
def unwind? (s : Server) (index : Nat) : Worker → Option Server
  | .unwinding id => some (s.release index id true)
  | _ => none

/-- Something happens on a session. -/
def link? (s : Server) (index : Nat) (event : LinkEvent) : Worker → Option Server
  | .serving link =>
    (link.step? s.host.service s.now s.shared event).map fun (link, shared) =>
      { s with shared }.setWorker index (.serving link)
  | .flushing link result deadline =>
    (link.step? s.host.service s.now s.shared event).map fun (link, shared) =>
      { s with shared }.setWorker index (.flushing link result deadline)
  | _ => none

/-- What an event makes of the worker at a place. -/
def worker? (s : Server) (index : Nat) (worker : Worker) : WorkerEvent → Option Server
  | .refuse =>
    match worker with
    | .refusing => some (s.setWorker index (.ended false))
    | _ => none
  | .greet peer =>
    match worker with
    | .greeting id => some (s.greet index id peer)
    | _ => none
  | .link event => s.link? index event worker
  | .leave => s.leave? index worker
  | .depart => s.depart? index worker
  | .drop => s.drop? index worker
  | .unwind => s.unwind? index worker

/-! ### All events -/

/-- What an event makes of a relay. -/
def step? (s : Server) (event : Event) : Option Server :=
  if s.halted.isSome then none
  else
    match event with
    | .begin => s.begin?
    | .check => s.check?
    | .accept => s.whileWaiting s.accept
    | .acceptFail => s.whileWaiting s.turnRound
    | .collect index => s.collect? index
    | .wake => if s.wake then s.whileWaiting ({ s with wake := false }.turnRound) else none
    | .signal => s.whileWaiting s.requestShutdown.turnRound
    | .drained => s.drained?
    | .expire => s.expire?
    | .requestShutdown => some s.requestShutdown
    | .watch => s.watch?
    | .tick now => if s.now ≤ now then some { s with now } else none
    | .worker index event => s.workers[index]?.bind fun worker => s.worker? index worker event

/-- What a list of events makes of a relay, if each of them can happen in its turn. -/
def run? (s : Server) (events : List Event) : Option Server := events.foldlM step? s

/-- What each event keeps, a run keeps. -/
theorem invariant_of_run? {P : Server → Prop}
    (hkeeps : ∀ {s s' : Server} {event : Event}, s.step? event = some s' → P s → P s')
    {s s' : Server} {events : List Event} (h : P s) (hrun : s.run? events = some s') : P s' := by
  -- Induction on the events, from the state that the first of them leads to.
  induction events generalizing s with
  | nil =>
    obtain rfl := Option.some.inj hrun
    exact h
  | cons event events ih =>
    obtain ⟨next, hstep, hrest⟩ := Option.bind_eq_some_iff.1 hrun
    exact ih (hkeeps hstep h) hrest

/-- What an event makes of a relay, or nothing if it cannot happen. -/
def attempt (s : Server) (event : Event) : Server := (s.step? event).getD s

/-- Lets the loop go on until it waits or ends, as far as that needs nobody else. -/
def settle (s : Server) : Server :=
  [Event.begin, .wake, .check, .drained].foldl attempt s

end Server

end Relay
