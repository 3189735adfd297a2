import Relay.Proofs.Link.Flushing
import Relay.Proofs.Link.Promises
import Relay.Proofs.Server.Passage
import Relay.Proofs.Server.Stopping

/-!
# `Relay.Proofs.Server.Pipeline`: every session goes through what arrives in order

`Server.journals` follows a relay along a run and keeps a `Journal` for each session, from the event
with which the session begins. `Server.Recorded` says that the journals tell of their sessions. An
event keeps it because of where the sessions come from afterwards (`Server.Passage`): a session takes
a step of its own, or others put messages into its queue at most. So any number of connections may
relay to each other in between.

What may be relied on is `Server.Pipelined`. Besides what holds of a session in every state it says
why the halves of a session end, that nothing is registered under the id of a worker that does not
serve any more, and that what was placed in a queue is written. Whatever a reader ended with, its
worker goes on to wait for the writer, and the queue is what it was (`Pipelined.leaves`). The session
is not over before the worker ends or is dropped (`Pipelined.lasts`). The worker ends after all was
written, unless the writer has failed or is out of time (`Pipelined.departs`), and the writer can
write all of it by itself as long as the client takes it (`Pipelined.flushes`).
-/

set_option autoImplicit false

namespace Relay

namespace Server

variable {s s' : Server} {event : Event} {index : Nat} {l k : Link} {limit : UInt32} {conn : ConnId}
  {log : ConnId → Option Journal} {j : Journal}

/-! ### Journals of all sessions -/

/-- The session on a connection. -/
def session? (s : Server) (conn : ConnId) : Option Link := s.links.find? fun l => l.id = conn

/-- The journals of the sessions after an event. -/
def noted (s s' : Server) (event : Event) (log : ConnId → Option Journal) (conn : ConnId) :
    Option Journal :=
  match s.session? conn, s'.session? conn with
  | _, none => none
  | none, some k => some (.opening k)
  | some l, some _ =>
    (log conn).map fun j =>
      match s.act? conn event with
      | some e => j.note s.host.service l s.shared s'.shared e
      | none => j.place false (s.shared.placed s'.shared conn)

/-- The journals of the sessions after a list of events. -/
def journals (s : Server) (log : ConnId → Option Journal) : List Event → ConnId → Option Journal
  | [] => log
  | event :: rest =>
    match s.step? event with
    | none => log
    | some s' => s'.journals (s.noted s' event log) rest

theorem session?_eq_some (hcustody : Custody limit none s) (hl : l ∈ s.links) :
    s.session? l.id = some l := by
  have hfound : (s.session? l.id).isSome := List.find?_isSome.2 ⟨l, hl, by simp⟩
  obtain ⟨k, hk⟩ := Option.isSome_iff_exists.1 hfound
  have hid : k.id = l.id := by simpa using List.find?_some hk
  rw [hk, hcustody.eq_of_id (List.mem_of_find?_eq_some hk) hl hid]

theorem session?_eq_none (hnew : ∀ l ∈ s.links, l.id ≠ conn) : s.session? conn = none :=
  List.find?_eq_none.2 fun l hl => by simpa using hnew l hl

theorem noted_of_begins (hbefore : s.session? conn = none) (hafter : s'.session? conn = some k) :
    s.noted s' event log conn = some (.opening k) := by
  simp only [noted, hbefore, hafter]

theorem noted_of_acts {e : LinkEvent} (hbefore : s.session? conn = some l)
    (hafter : s'.session? conn = some k) (hact : s.act? conn event = some e)
    (hj : log conn = some j) :
    s.noted s' event log conn = some (j.note s.host.service l s.shared s'.shared e) := by
  simp only [noted, hbefore, hafter, hact, hj, Option.map_some]

theorem noted_of_apart (hbefore : s.session? conn = some l) (hafter : s'.session? conn = some k)
    (hact : s.act? conn event = none) (hj : log conn = some j) :
    s.noted s' event log conn = some (j.place false (s.shared.placed s'.shared conn)) := by
  simp only [noted, hbefore, hafter, hact, hj, Option.map_some]

/-! ### The invariant -/

/-- Each session has a journal that tells of it, and the session is left alone with its queue just if
its worker waits for the writer. -/
def Recorded (s : Server) (log : ConnId → Option Journal) : Prop :=
  ∀ worker ∈ s.workers, ∀ l, worker.link? = some l → l.released = worker.isFlushing ∧
    ∃ j, log l.id = some j ∧ j.Tells s.host.service l s.shared

namespace Recorded

theorem tells (h : s.Recorded log) (hl : l ∈ s.links) :
    ∃ j, log l.id = some j ∧ j.Tells s.host.service l s.shared := by
  obtain ⟨worker, hworker, hlink⟩ := mem_links_iff.1 hl
  exact (h worker hworker l hlink).2

/-- A session goes on to have a journal that tells of it, wherever it comes from. -/
theorem of_passage (h : s.Recorded log) (hcustody : Custody limit none s) {next : Worker}
    (hpassage : s.Passage event s' next k) (hafter : s'.session? k.id = some k) :
    k.released = next.isFlushing ∧ ∃ j, s.noted s' event log k.id = some j ∧
      j.Tells s.host.service k s'.shared := by
  have hsession {worker : Worker} {l : Link} (hworker : worker ∈ s.workers)
      (hlink : worker.link? = some l) : s.session? l.id = some l :=
    session?_eq_some hcustody (mem_links_iff.2 ⟨worker, hworker, hlink⟩)
  cases hpassage with
  | begins id session peer now idle hk hnew hnext hbox hopen hempty =>
    subst hk
    exact ⟨hnext.symm, _, noted_of_begins (session?_eq_none hnew) hafter,
      .opening id session peer now idle hbox hopen hempty⟩
  | @acts worker l e hworker hlink hnext hact hmoves =>
    obtain ⟨hreleased, j, hj, htells⟩ := h worker hworker l hlink
    rw [hmoves.course.1] at hafter ⊢
    exact ⟨hmoves.released_eq.trans (hreleased.trans hnext.symm), _,
      noted_of_acts (hsession hworker hlink) hafter hact hj, htells.step hmoves⟩
  | @leaves worker l hworker hlink hk hnext hact hended houtboxes hgone =>
    subst hk
    obtain ⟨-, j, hj, htells⟩ := h worker hworker l hlink
    have hbefore := hsession hworker hlink
    refine ⟨hnext.symm, _, noted_of_apart hbefore hafter hact hj, ?_⟩
    rw [State.placed_of_outboxes houtboxes, Journal.place_nil]
    exact htells.release hended houtboxes hgone
  | @stays worker l hworker hlink closing hk hnext hapart =>
    subst hk
    obtain ⟨hreleased, j, hj, htells⟩ := h worker hworker l hlink
    have hbefore := hsession hworker hlink
    exact ⟨hreleased.trans hnext.symm, _, noted_of_apart hbefore hafter hapart.act hj,
      htells.others hapart.feeds hapart.registry closing⟩

theorem of_step? (h : s.Recorded log) (hcustody : Custody limit none s)
    (hstep : s.step? event = some s') : s'.Recorded (s.noted s' event log) := by
  intro next hnext k hlink
  have hcustody' := (hcustody.follows_step? hstep).custody
  rw [(course_of_step? hstep).1]
  exact h.of_passage hcustody (passage_of_step? hcustody hstep hnext hlink)
    (session?_eq_some hcustody' (mem_links_iff.2 ⟨next, hnext, hlink⟩))

/-- In a run, the journals are kept along with the relay. -/
theorem of_run? {events : List Event} (h : s.Recorded log) (hcustody : Custody limit none s)
    (hrun : s.run? events = some s') : s'.Recorded (s.journals log events) := by
  -- Induction on the events, from the state that the first of them leads to.
  induction events generalizing s log with
  | nil =>
    cases hrun
    exact h
  | cons event events ih =>
    obtain ⟨next, hstep, hrest⟩ := Option.bind_eq_some_iff.1 hrun
    rw [Server.journals, hstep]
    exact ih (h.of_step? hcustody hstep) (hcustody.follows_step? hstep).custody hrest

end Recorded

/-! ### How a session ends -/

/-- A session has taken a step of its own, or its halves are where they were. -/
theorem moves_or_same (hcustody : Custody limit none s) (hstep : s.step? event = some s')
    (hl : l ∈ s.links) (hk : k ∈ s'.links) (hid : k.id = l.id) :
    (∃ e, s.act? l.id event = some e ∧
      l.Moves s.host.service s.now s.shared e k s'.shared) ∨
        k.reader = l.reader ∧ k.writer = l.writer := by
  obtain ⟨next, hnext, hlink⟩ := mem_links_iff.1 hk
  have hsame {worker : Worker} {other : Link} (hworker : worker ∈ s.workers)
      (hother : worker.link? = some other) (heq : other.id = l.id) : other = l :=
    hcustody.eq_of_id (mem_links_iff.2 ⟨worker, hworker, hother⟩) hl heq
  cases passage_of_step? hcustody hstep hnext hlink with
  | begins _ _ _ _ _ hstart hnew =>
    subst hstart
    exact absurd hid.symm (hnew l hl)
  | acts hworker hother _ hact hmoves =>
    obtain rfl := hsame hworker hother (hmoves.course.1.symm.trans hid)
    exact .inl ⟨_, hact, hmoves⟩
  | leaves hworker hother hleft =>
    subst hleft
    obtain rfl := hsame hworker hother hid
    exact .inr ⟨rfl, rfl⟩
  | stays hworker hother closing hmarked =>
    subst hmarked
    obtain rfl := hsame hworker hother hid
    exact .inr ⟨rfl, rfl⟩

/-- Nothing is registered under the id of a worker that does not serve. -/
theorem unregistered (hcustody : Custody limit none s) {worker : Worker}
    (hworker : worker ∈ s.workers) (hlease : worker.lease? = some conn)
    (hserves : worker.registered? = none) : s.shared.registry.contains conn = false := by
  refine Bool.eq_false_iff.2 fun hlive => ?_
  -- The worker that serves the connection would hold the id as well.
  obtain ⟨server, hserver, hregistered⟩ := hcustody.served conn hlive
  obtain ⟨index, hindex⟩ := List.mem_iff_getElem?.1 hworker
  obtain ⟨place, hplace⟩ := List.mem_iff_getElem?.1 hserver
  obtain rfl := hcustody.index_eq hindex hplace hlease (Worker.lease?_of_registered? hregistered)
  obtain rfl : server = worker := Option.some.inj (hplace.symm.trans hindex)
  rw [hserves] at hregistered
  cases hregistered

/-- A worker leaves the reader of its session, which ended with a result, and the queue to the
writer. -/
structure Leaves (s : Server) (index : Nat) (l : Link) (result : Except WireError Outcome)
    (s' : Server) : Prop where
  step : s.step? (.worker index .leave) = some s'
  /-- Whatever the result is, the worker waits for the writer, and the session is what it was. -/
  waits : s'.workers[index]? = some (.flushing { l with released := true } result
    (s.now + millis (s.config.idleTimeoutMs.toNat + s.config.partTimeoutMs.toNat)))
  /-- What waits in the queues goes on to wait. -/
  outboxes : s'.shared.outboxes = s.shared.outboxes
  /-- The connection is removed. -/
  gone : s'.shared.registry.contains l.id = false

/-- A worker whose reader has ended can leave it. -/
theorem exists_leaves (hrunning : s.halted = none) (hworker : s.workers[index]? = some (.serving l))
    {result : Except WireError Outcome} (hended : l.reader = .ended result) :
    ∃ s', s.Leaves index l result s' := by
  have hstep : s.step? (.worker index .leave) = s.leave? index (.serving l) :=
    step_worker hrunning hworker .leave
  simp only [leave?] at hstep
  split at hstep
  · rename_i found hfound
    obtain rfl : found = result := by simpa [hended] using hfound.symm
    refine ⟨_, hstep, ?_, rfl, ?_⟩
    · exact getElem?_setWorker (s := s.unregister l.id) hworker _
    · show (s.shared.registry.delete l.id).contains l.id = false
      rw [Registry.contains_delete, decide_eq_false (by simp), Bool.false_and]
  · rename_i hother
    exact absurd hended (hother result)

/-- A worker that leaves its reader has one that has ended. -/
theorem ended_of_leave (hstep : s.step? (.worker index .leave) = some s') :
    ∃ (l : Link) (result : Except WireError Outcome),
      s.workers[index]? = some (.serving l) ∧ l.reader = .ended result := by
  unfold step? at hstep
  split at hstep
  · cases hstep
  · obtain ⟨worker, hworker, hleave⟩ := Option.bind_eq_some_iff.1 hstep
    simp only [worker?, leave?] at hleave
    split at hleave
    · split at hleave
      · rename_i l _ result hended
        exact ⟨l, result, hworker, hended⟩
      · cases hleave
    · cases hleave

/-- A session is over when its worker ends or is dropped, and not before. -/
theorem lasts_of_step? (hstep : s.step? event = some s') {worker : Worker}
    (hworker : s.workers[index]? = some worker) (hlink : worker.link? = some l)
    (hgone : ∀ k ∈ s'.links, k.id ≠ l.id) :
    event = .worker index .depart ∨ event = .worker index .drop := by
  obtain ⟨next, hnext, hnow⟩ := exists_next_of_step? hstep hworker (by rw [hlink]; nofun)
  have stays {k : Link} (hk : next.link? = some k) (hid : k.id = l.id) : False :=
    hgone k (mem_links_iff.2 ⟨next, hnext, hk⟩) hid
  rcases hnow with hmarked | ⟨wevent, rfl, hhandles⟩
  · cases hmarked with
    | refl => exact (stays hlink rfl).elim
    | closing =>
      cases hlink
      exact (stays rfl rfl).elim
  · cases hhandles with
    | apart hnone =>
      rw [hlink] at hnone
      cases hnone
    | serves hid | flushes hid =>
      cases hlink
      exact (stays rfl hid).elim
    | leaves =>
      cases hlink
      exact (stays rfl rfl).elim
    | requests | departs => exact .inl rfl
    | drops => exact .inr rfl

/-! ### What is written at the end -/

/-- The writer that the worker at a place waits for can write these messages from the beginning of
its stream on, and end, if the client takes what is written. -/
def Flushes (s : Server) (index : Nat) (first : StreamEncoder) (messages : List Message) : Prop :=
  ∃ (events : List LinkEvent) (s' : Server) (l : Link) (result : Except WireError Outcome)
    (deadline : Nat), (∀ event ∈ events, event.isWriting) ∧
      s.run? (events.map fun event => .worker index (.link event)) = some s' ∧
      s'.workers[index]? = some (.flushing l result deadline) ∧ l.writer = .ended ∧
        first.Writes messages l.sent

/-- What happens on a session while its worker waits for the writer happens in the relay. -/
theorem run?_of_link (hrunning : s.halted = none) {result : Except WireError Outcome}
    {deadline : Nat} (hworker : s.workers[index]? = some (.flushing l result deadline))
    {events : List LinkEvent} {σ : State}
    (hrun : l.run? s.host.service s.now s.shared events = some (k, σ)) :
    ∃ s', s.run? (events.map fun event => .worker index (.link event)) = some s' ∧
      s'.workers[index]? = some (.flushing k result deadline) := by
  -- Induction on the events, from the session and the relay after the first of them.
  induction events generalizing s l with
  | nil =>
    cases hrun
    exact ⟨s, rfl, hworker⟩
  | cons event events ih =>
    unfold Link.run? at hrun
    split at hrun
    · cases hrun
    · rename_i l' τ hlinkStep
      have hstep : s.step? (.worker index (.link event)) =
          some ({ s with shared := τ }.setWorker index (.flushing l' result deadline)) := by
        rw [step_worker hrunning hworker]
        simp only [worker?, link?, hlinkStep, Option.map_some]
      obtain ⟨s', hrest, hafter⟩ := ih
        (s := { s with shared := τ }.setWorker index (.flushing l' result deadline)) hrunning
        (getElem?_setWorker (s := { s with shared := τ }) hworker _) hrun
      exact ⟨s', Option.bind_eq_some_iff.2 ⟨_, hstep, hrest⟩, hafter⟩

/-- A worker that ends is out of time, or its writer has failed or has written everything. -/
theorem Recorded.departs (h : s.Recorded log)
    (hstep : s.step? (.worker index .depart) = some s') :
    ∃ (l : Link) (result : Except WireError Outcome) (deadline : Nat) (j : Journal),
      s.workers[index]? = some (.flushing l result deadline) ∧ log l.id = some j ∧
        (deadline ≤ s.now ∨ l.writer = .ended ∧ (s.shared.delivery l.id = .closed ∨
          j.first.encoder.Writes j.messages l.sent)) := by
  unfold step? at hstep
  split at hstep
  · cases hstep
  · obtain ⟨worker, hworker, hdepart⟩ := Option.bind_eq_some_iff.1 hstep
    simp only [worker?, depart?] at hdepart
    split at hdepart
    · rename_i l result deadline
      obtain ⟨j, hj, htells⟩ := h.tells (mem_links_of_getElem? hworker rfl)
      refine ⟨l, result, deadline, j, hworker, hj, ?_⟩
      split at hdepart
      · rename_i hover
        refine hover.symm.imp_right fun hended => ⟨hended, ?_⟩
        obtain ⟨box, hbox, -, hwriting⟩ := htells.queue
        rw [hended] at hwriting
        rw [State.delivery_of_get? hbox, Outbox.delivery_eq_closed_iff]
        exact hwriting.written_of_ended
      · cases hdepart
    · cases hdepart

/-- A writer that has not failed by the time the reader has left can write all that was placed in the
queue. -/
theorem Recorded.flushes (h : s.Recorded log) (hcustody : Custody limit none s) (hfits : s.Fits)
    {result : Except WireError Outcome} {deadline : Nat}
    (hworker : s.workers[index]? = some (.flushing l result deadline)) (hj : log l.id = some j)
    (hruns : l.writer ≠ .ended)
    (hroom : l.encoder.counter.toNat + (s.shared.waiting l.id).length ≤ streamLimit) :
    s.Flushes index j.first.encoder j.messages := by
  obtain ⟨hreleased, j', hj', htells⟩ := h _ (List.mem_of_getElem? hworker) l rfl
  obtain rfl : j' = j := Option.some.inj (hj'.symm.trans hj)
  obtain ⟨box, hbox, -, hwriting⟩ := htells.queue
  have hqueued := hfits.shared.queued l.id
  rw [State.waiting_of_get? hbox] at hqueued hroom
  have halone : l.LeftAlone j'.first.encoder j'.messages box s.shared :=
    ⟨hbox, hwriting.isOpen_of_ne_ended hruns, hreleased, hwriting⟩
  obtain ⟨events, k, σ, hevents, hrun, hended⟩ :=
    halone.flushes hruns hqueued hroom s.host.service s.now
  obtain ⟨s', hrun', hafter⟩ := run?_of_link hcustody.running hworker hrun
  exact ⟨events, s', k, result, deadline, hevents, hrun', hafter, hended⟩

/-! ### What may be relied on -/

/-- What may be relied on about the sessions of a relay, given what they went through. -/
structure Pipelined (s : Server) (log : ConnId → Option Journal) : Prop where
  /-- Each session goes through what arrives on it in order. -/
  sessions : ∀ l ∈ s.links, ∃ j, log l.id = some j ∧
    l.Pipelined s.host.service s.now j s.shared
  /-- A reader ends with the first frame that closes the connection, or because it gives up while it
  waits for the next, or because the writer has ended. -/
  stops : ∀ (event : Event) (s' : Server), s.step? event = some s' →
    ∀ l ∈ s.links, ∀ k ∈ s'.links, k.id = l.id → l.reader.hasEnded = false →
      ∀ result : Except WireError Outcome, k.reader = .ended result →
        ∃ e, s.act? l.id event = some e ∧ l.Stops s.host.service s.now e result
  /-- A writer ends because it is left alone with an empty queue, or because the connection breaks,
  the client is too slow or the numbers of its stream are used up. -/
  quits : ∀ (event : Event) (s' : Server), s.step? event = some s' →
    ∀ l ∈ s.links, ∀ k ∈ s'.links, k.id = l.id → l.writer ≠ .ended → k.writer = .ended →
      ∃ e, s.act? l.id event = some e ∧ l.Quits s.now s.shared e
  /-- Nothing is registered under the id of a worker that does not serve any more. -/
  unregistered : ∀ worker ∈ s.workers, ∀ id : ConnId, worker.lease? = some id →
    worker.registered? = none → s.shared.registry.contains id = false
  /-- A worker whose reader has ended can leave it, and leaving does not touch what is to be
  written. -/
  leaves : ∀ (index : Nat) (l : Link) (result : Except WireError Outcome),
    s.workers[index]? = some (.serving l) → l.reader = .ended result →
      ∃ s', s.Leaves index l result s'
  /-- It cannot before. -/
  ended : ∀ (index : Nat) (s' : Server), s.step? (.worker index .leave) = some s' →
    ∃ (l : Link) (result : Except WireError Outcome),
      s.workers[index]? = some (.serving l) ∧ l.reader = .ended result
  /-- A session is over when its worker ends or is dropped, and not before. -/
  lasts : ∀ (event : Event) (s' : Server), s.step? event = some s' →
    ∀ (index : Nat) (worker : Worker) (l : Link), s.workers[index]? = some worker →
      worker.link? = some l → (∀ k ∈ s'.links, k.id ≠ l.id) →
        event = .worker index .depart ∨ event = .worker index .drop
  /-- A worker ends when all that was placed in its queue was written, in its order, unless it is out
  of time or the writer has failed. -/
  departs : ∀ (index : Nat) (s' : Server), s.step? (.worker index .depart) = some s' →
    ∃ (l : Link) (result : Except WireError Outcome) (deadline : Nat) (j : Journal),
      s.workers[index]? = some (.flushing l result deadline) ∧ log l.id = some j ∧
        (deadline ≤ s.now ∨ l.writer = .ended ∧ (s.shared.delivery l.id = .closed ∨
          j.first.encoder.Writes j.messages l.sent))
  /-- A writer that lives when the reader has left can write all that was placed in the queue by
  itself, as long as the client takes it and its stream has numbers for what waits. -/
  flushes : ∀ (index : Nat) (l : Link) (result : Except WireError Outcome) (deadline : Nat)
    (j : Journal), s.workers[index]? = some (.flushing l result deadline) → log l.id = some j →
      l.writer ≠ .ended →
        l.encoder.counter.toNat + (s.shared.waiting l.id).length ≤ streamLimit →
          s.Flushes index j.first.encoder j.messages

end Server

/-- In every run of a relay, whatever happens on its connections and in whatever order, each session
goes through the frames that arrive on it in their order, up to the first that closes it, the replies
to them come into its queue in that order among what others put there, and the queue is written to its
end after the connection is removed. -/
theorem sessions_pipelined {suite : Suite} {passwords : PasswordScheme} {config : Config} {seed : Key}
    {e e' : Entropy} {store : Store} {events : List Event} {s : Server}
    (hstore : Store.initial passwords config.maxUsers config.adminPasswordBytes e = .ok (store, e'))
    (hrun : (Server.start suite passwords config seed store e').run? events = some s) :
    s.Pipelined
      ((Server.start suite passwords config seed store e').journals (fun _ => none) events) := by
  have hstart := Custody.start suite passwords config seed store e'
  have hnone : (Server.start suite passwords config seed store e').Recorded fun _ => none :=
    fun worker hworker => by cases hworker
  have hrecorded := hnone.of_run? hstart hrun
  have hcustody := hstart.of_run? hrun
  have hfits := (Server.Fits.start hstore suite config seed).of_run? hrun
  constructor
  · intro l hl
    obtain ⟨j, hj, htells⟩ := hrecorded.tells hl
    exact ⟨j, hj, htells.pipelined s.now⟩
  · intro event s' hstep l hl k hk hid hreads result hended
    rcases Server.moves_or_same hcustody hstep hl hk hid with ⟨e, hact, hmoves⟩ | ⟨hsame, -⟩
    · obtain ⟨j, -, htells⟩ := hrecorded.tells hl
      exact ⟨e, hact, htells.stops hmoves hreads hended⟩
    · rw [← hsame, hended] at hreads
      cases hreads
  · intro event s' hstep l hl k hk hid hwrites hended
    rcases Server.moves_or_same hcustody hstep hl hk hid with ⟨e, hact, hmoves⟩ | ⟨-, hsame⟩
    · exact ⟨e, hact, hmoves.quits hwrites hended (hfits.shared.queued l.id)⟩
    · exact absurd (hsame.symm.trans hended) hwrites
  · exact fun worker hworker id => Server.unregistered hcustody hworker
  · exact fun index l result hworker => Server.exists_leaves hcustody.running hworker
  · exact fun index s' => Server.ended_of_leave
  · exact fun event s' hstep index worker l => Server.lasts_of_step? hstep
  · exact fun index s' => hrecorded.departs
  · exact fun index l result deadline j => hrecorded.flushes hcustody hfits

namespace Sample

/-- The administrator logs in and then sends a text that is no message. The worker leaves the reader
behind while both replies wait. -/
def garbled : List Event :=
  let frame := framed (aead.encrypt (.zero keySize) (.zero nonceSize) [7, 7, 7])
  [.begin, .check] ++ greeting 0 ++ sends 0 (preamble .logIn admin) ++
    [onLink 0 (.resume ⟨3, .none⟩), onLink 0 .reply, onLink 0 .conclude,
      onLink 0 (.arrive frame), onLink 0 (.read ⟨4, .none⟩), onLink 0 (.read ⟨5, .none⟩),
      onLink 0 .reply, onLink 0 .conclude, .worker 0 .leave]

end Sample

/-- The administrator is welcomed and then told of the error, and both can still be written when
the connection is not registered any more. -/
theorem sessions_pipelined_garbled :
    ∃ (s : Server) (j : Journal), Sample.server.run? Sample.garbled = some s ∧
      Sample.server.journals (fun _ => none) Sample.garbled 0 = some j ∧
      j.own.map Message.flag = [.loggedIn, .error] ∧
      s.Pipelined (Sample.server.journals (fun _ => none) Sample.garbled) ∧
      s.shared.registry.contains 0 = false ∧ s.Flushes 0 j.first.encoder j.messages := by
  have hevents : (Sample.server.run? Sample.garbled).any fun s =>
      s.workers[0]?.any Worker.isFlushing && s.links.all fun l => l.id = 0 ∧ l.writer = .idle ∧
        l.encoder.counter.toNat + (s.shared.waiting l.id).length ≤ streamLimit := by
    decide +kernel
  have hjournals : (Sample.server.journals (fun _ => none) Sample.garbled 0).any fun j =>
      j.own.map Message.flag = [.loggedIn, .error] := by
    decide +kernel
  obtain ⟨s, hrun, hchecks⟩ := (Option.any_eq_true _ _).1 hevents
  obtain ⟨hflushing, hlinks⟩ := (Bool.and_eq_true _ _).mp hchecks
  obtain ⟨worker, hworker, hleft⟩ := (Option.any_eq_true _ _).1 hflushing
  obtain ⟨j, hj, hown⟩ := (Option.any_eq_true _ _).1 hjournals
  have hpipelined := sessions_pipelined Sample.initial_eq hrun
  cases worker with
  | flushing l result deadline =>
    obtain ⟨hid, hwriter, hroom⟩ :=
      of_decide_eq_true (List.all_eq_true.1 hlinks l (Server.mem_links_of_getElem? hworker rfl))
    have hgone := hpipelined.unregistered _ (List.mem_of_getElem? hworker) l.id rfl rfl
    refine ⟨s, j, hrun, hj, of_decide_eq_true hown, hpipelined, hid ▸ hgone, ?_⟩
    refine hpipelined.flushes 0 l result deadline j hworker (hid ▸ hj) ?_ hroom
    rw [hwriter]
    exact nofun
  | refusing | greeting | serving | unwinding | ended => cases hleft

end Relay
