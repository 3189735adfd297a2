import Relay.Proofs.Link.Pipeline
import Relay.Proofs.Server.Welcome

/-!
# `Relay.Proofs.Server.Passage`: where each session comes from

An event of a running relay is an event of one session, or it leaves the halves of every session
where they are. `Server.Passage` says this from the side of a session that is there afterwards: it has
just begun, it has taken a step of its own, its worker has left the reader behind, or nothing has
happened to it but what others put into its queue (`Server.Apart`).

That the others do no more than this rests on custody: a worker changes what is kept under the id
that it holds, and no two workers hold the same id.
-/

set_option autoImplicit false

namespace Relay

/-- Whether a worker waits for the writer of its session only. -/
def Worker.isFlushing : Worker → Bool
  | flushing .. => true
  | refusing | greeting _ | serving _ | unwinding _ | ended _ => false

theorem Worker.Marked.isFlushing {worker marked : Worker} (h : worker.Marked marked) :
    marked.isFlushing = worker.isFlushing := by
  cases h <;> rfl

/-- What happens on one session puts messages into the queues of other connections at most. -/
theorem Link.Moves.feeds_of_ne {S : Service} {now : Nat} {l l' : Link} {σ σ' : State}
    {event : LinkEvent} (h : Moves S now l σ event l' σ') {conn : ConnId} (hne : conn ≠ l.id) :
    σ.Feeds σ' conn := by
  cases h with
  | arrives | hangsUp | measures | rejects | misreads | fails | rings | loses | goesOn | concludes
  | announces | writes | finishes => exact State.feeds_of_outboxes rfl
  | begins t => exact (S.beginning_begin σ t l.id _).feeds conn
  | resumes t => exact (S.resumption_resume σ t l.id _).feeds conn
  | replies | collects | breaks =>
    exact State.feeds_of_get? (by simp only [State.enqueue, Table.get?_modify, if_neg hne])
  | chokes => exact State.feeds_of_get? (by simp only [Table.get?_modify, if_neg hne])

namespace Server

variable {s s' t : Server} {event : Event} {index : Nat} {worker next : Worker} {l k : Link}
  {limit : UInt32} {id conn : ConnId}

/-- What an event is on the session of a connection, if it is one of that session. -/
def act? (s : Server) (conn : ConnId) : Event → Option LinkEvent
  | .worker index (.link event) =>
    if s.workers[index]?.bind Worker.lease? = some conn then some event else none
  | _ => none

/-- An event does not concern the session of a connection, and puts messages into its queue at
most. -/
structure Apart (s : Server) (event : Event) (s' : Server) (conn : ConnId) : Prop where
  act : s.act? conn event = none
  feeds : s.shared.Feeds s'.shared conn
  registry : s'.shared.registry.contains conn → s.shared.registry.contains conn

/-- Where a session comes from that a worker has after an event. -/
inductive Passage (s : Server) (event : Event) (s' : Server) (next : Worker) (k : Link) : Prop where
  /-- It has just begun, with an empty queue. -/
  | begins (id : ConnId) (session : Session) (peer : Peer) (now idle : Nat) {box : Outbox}
      (hk : k = Link.start id session peer now idle) (hnew : ∀ l ∈ s.links, l.id ≠ id)
      (hnext : next.isFlushing = false) (hbox : s'.shared.outboxes.get? id = some box)
      (hopen : box.isOpen = true) (hempty : box.waiting = [])
  /-- It has taken a step. -/
  | acts {worker : Worker} {l : Link} {e : LinkEvent} (hworker : worker ∈ s.workers)
      (hlink : worker.link? = some l) (hnext : next.isFlushing = worker.isFlushing)
      (hact : s.act? l.id event = some e)
      (hmoves : l.Moves s.host.service s.now s.shared e k s'.shared)
  /-- Its reader has ended, and the connection is removed. -/
  | leaves {worker : Worker} {l : Link} (hworker : worker ∈ s.workers)
      (hlink : worker.link? = some l) (hk : k = { l with released := true })
      (hnext : next.isFlushing = true) (hact : s.act? l.id event = none)
      (hended : l.reader.hasEnded) (houtboxes : s'.shared.outboxes = s.shared.outboxes)
      (hgone : s'.shared.registry.contains l.id = false)
  /-- Nothing has happened to it but that it may have been told to end. -/
  | stays {worker : Worker} {l : Link} (hworker : worker ∈ s.workers)
      (hlink : worker.link? = some l) (closing : Bool) (hk : k = { l with closing })
      (hnext : next.isFlushing = worker.isFlushing) (hapart : s.Apart event s' l.id)

/-! ### Events that concern no session, or one -/

theorem apart_of_tables (hact : s.act? conn event = none)
    (houtboxes : s'.shared.outboxes = s.shared.outboxes)
    (hregistry : s'.shared.registry = s.shared.registry) : s.Apart event s' conn :=
  ⟨hact, State.feeds_of_outboxes houtboxes, fun hlive => hregistry ▸ hlive⟩

/-- A session that is as it was. -/
theorem passage_of_mem (hnext : next ∈ s.workers) (hlink : next.link? = some k)
    (hapart : s.Apart event s' k.id) : s.Passage event s' next k :=
  .stays hnext hlink k.closing rfl rfl hapart

/-- Where nothing happens to the sessions, each of them is as it was. -/
theorem Keeps.passage (h : s.Keeps s') (hact : ∀ conn, s.act? conn event = none)
    (hnext : next ∈ s'.workers) (hlink : next.link? = some k) : s.Passage event s' next k := by
  rcases h.workers next hnext with hold | hnone
  · exact passage_of_mem hold hlink (apart_of_tables (hact _) h.shared.outboxes h.shared.registry)
  · rw [hnone] at hlink
    cases hlink

theorem passage_watch? (hstep : s.watch? = some s') (hnext : next ∈ s'.workers)
    (hlink : next.link? = some k) : s.Passage .watch s' next k := by
  obtain ⟨mark, hmarks, rfl⟩ := exists_marks_of_watch? hstep
  obtain ⟨worker, hworker, rfl⟩ := List.mem_map.1 hnext
  obtain ⟨l, closing, hl, hk⟩ := (hmarks worker).exists_link hlink
  have hsame : (mark worker).isFlushing = worker.isFlushing := (hmarks worker).isFlushing
  exact .stays hworker hl closing hk hsame (apart_of_tables rfl rfl rfl)

/-- One worker becomes another. The sessions of the others are as they were, if what happens concerns
no connection but that of the worker. -/
theorem passage_of_set (hcustody : Custody limit none s)
    (hworker : s.workers[index]? = some worker) {after : Worker}
    (hworkers : s'.workers = s.workers.set index after)
    (hothers : ∀ conn, worker.lease? ≠ some conn → s.Apart event s' conn)
    (hown : ∀ k, after.link? = some k → s.Passage event s' after k)
    (hnext : next ∈ s'.workers) (hlink : next.link? = some k) : s.Passage event s' next k := by
  rw [hworkers] at hnext
  obtain ⟨place, hplace⟩ := List.mem_iff_getElem?.1 hnext
  by_cases hsame : place = index
  · subst hsame
    rw [List.getElem?_set_self (List.getElem?_eq_some_iff.1 hworker).1] at hplace
    cases hplace
    exact hown k hlink
  · -- A worker at another place holds another id.
    rw [List.getElem?_set_ne (Ne.symm hsame)] at hplace
    refine passage_of_mem (List.mem_of_getElem? hplace) hlink (hothers k.id fun hlease => ?_)
    exact hsame (hcustody.index_eq hworker hplace hlease (Worker.lease?_of_link? hlink))

/-! ### Events of a worker -/

/-- A worker without a session ends, and nothing that sessions share is changed. -/
theorem passage_of_ended (hcustody : Custody limit none s)
    (hworker : s.workers[index]? = some worker) {dropped : Bool}
    (hworkers : s'.workers = s.workers.set index (.ended dropped))
    (houtboxes : s'.shared.outboxes = s.shared.outboxes)
    (hregistry : s'.shared.registry = s.shared.registry)
    (hact : ∀ conn, s.act? conn event = none) (hnext : next ∈ s'.workers)
    (hlink : next.link? = some k) : s.Passage event s' next k :=
  passage_of_set hcustody hworker hworkers
    (fun conn _ => apart_of_tables (hact conn) houtboxes hregistry) (fun _ hk => by cases hk) hnext
    hlink

theorem release_eq (s : Server) (index : Nat) (id : ConnId) (dropped : Bool) :
    (s.release index id dropped).workers = s.workers.set index (.ended dropped) ∧
      (s.release index id dropped).shared =
        { s.shared with outboxes := s.shared.outboxes.erase id } := by
  unfold release
  exact ⟨(giveBack_eq _ _).2.2, (giveBack_eq _ _).2.1⟩

/-- A worker ends, and the queue of its connection is taken away. -/
theorem passage_of_release (hcustody : Custody limit none s)
    (hworker : s.workers[index]? = some worker) (hlease : worker.lease? = some id) {dropped : Bool}
    (hworkers : t.workers = s.workers) (houtboxes : t.shared.outboxes = s.shared.outboxes)
    (hregistry : t.shared.registry = s.shared.registry) (hact : ∀ conn, s.act? conn event = none)
    (hnext : next ∈ (t.release index id dropped).workers) (hlink : next.link? = some k) :
    s.Passage event (t.release index id dropped) next k := by
  obtain ⟨hset, hshared⟩ := t.release_eq index id dropped
  rw [hworkers] at hset
  refine passage_of_set hcustody hworker hset (fun conn hother => ?_) (fun _ hk => by cases hk) hnext
    hlink
  have hne : conn ≠ id := fun heq => hother (heq ▸ hlease)
  refine ⟨hact conn, State.feeds_of_get? ?_, fun hlive => ?_⟩
  · rw [hshared, Table.get?_erase, if_neg hne, houtboxes]
  · rw [hshared] at hlive
    exact hregistry ▸ hlive

theorem passage_greet (hcustody : Custody limit none s)
    (hworker : s.workers[index]? = some (.greeting id)) (peer : Peer)
    (hnext : next ∈ (s.greet index id peer).workers) (hlink : next.link? = some k) :
    s.Passage (.worker index (.greet peer)) (s.greet index id peer) next k := by
  have hgreets := s.greets_greet index id peer
  generalize s.greet index id peer = s' at hgreets hnext ⊢
  cases hgreets with
  | fails entropy metrics =>
    obtain ⟨-, hshared, hworkers⟩ := ({ s with shared := { s.shared with entropy, metrics }
      }.setWorker index (.ended false)).giveBack_eq id
    exact passage_of_ended hcustody hworker hworkers (by rw [hshared]; rfl) (by rw [hshared]; rfl)
      (fun _ => rfl) hnext hlink
  | begins entropy metrics session peer now idle hadd =>
    refine passage_of_set hcustody hworker rfl (fun conn hother => ?_) (fun k hk => ?_) hnext hlink
    · have hne : conn ≠ id := fun heq => hother (heq ▸ rfl)
      refine ⟨rfl, State.feeds_of_get? ?_, fun hlive => ?_⟩
      · exact (Table.get?_insert ..).trans (if_neg hne)
      · have hboth := (Registry.contains_add hadd conn).symm.trans hlive
        rwa [decide_eq_false hne, Bool.false_or] at hboth
    · cases hk
      refine .begins id session peer now idle rfl (fun l hl hid => ?_) rfl
        ((Table.get?_insert ..).trans (if_pos rfl)) rfl rfl
      -- The worker that had a session there would hold the id as well.
      obtain ⟨other, hother, hsession⟩ := mem_links_iff.1 hl
      obtain ⟨place, hplace⟩ := List.mem_iff_getElem?.1 hother
      obtain rfl := hcustody.index_eq hworker hplace rfl (hid ▸ Worker.lease?_of_link? hsession)
      rw [hworker] at hplace
      cases hplace
      cases hsession
  | halts => exact passage_of_mem hnext hlink (apart_of_tables rfl rfl rfl)

theorem passage_link? (hcustody : Custody limit none s)
    (hworker : s.workers[index]? = some worker) {e : LinkEvent}
    (hstep : s.link? index e worker = some s') (hnext : next ∈ s'.workers)
    (hlink : next.link? = some k) : s.Passage (.worker index (.link e)) s' next k := by
  have hset {l l' : Link} {σ : State} {after : Worker} (hl : worker.link? = some l)
      (hafter : after.link? = some l') (hsame : after.isFlushing = worker.isFlushing)
      (hlinkStep : l.step? s.host.service s.now s.shared e = some (l', σ))
      (hnext : next ∈ ({ s with shared := σ }.setWorker index after).workers) :
      s.Passage (.worker index (.link e)) ({ s with shared := σ }.setWorker index after) next k := by
    have hmoves := Link.moves_of_step? hlinkStep
    have hlease := Worker.lease?_of_link? hl
    refine passage_of_set hcustody hworker rfl (fun conn hother => ?_) (fun k hk => ?_) hnext hlink
    · have hne : conn ≠ l.id := fun heq => hother (heq ▸ hlease)
      refine ⟨if_neg ?_, hmoves.feeds_of_ne hne, hmoves.course.2.registrySource.contains⟩
      rw [hworker, Option.bind_some]
      exact hother
    · obtain rfl := Option.some.inj (hafter.symm.trans hk)
      refine .acts (List.mem_of_getElem? hworker) hl hsame (if_pos ?_) hmoves
      rw [hworker, Option.bind_some, hlease]
  unfold link? at hstep
  split at hstep
  · obtain ⟨⟨l', σ⟩, hlinkStep, rfl⟩ := Option.map_eq_some_iff.1 hstep
    exact hset rfl rfl rfl hlinkStep hnext
  · obtain ⟨⟨l', σ⟩, hlinkStep, rfl⟩ := Option.map_eq_some_iff.1 hstep
    exact hset rfl rfl rfl hlinkStep hnext
  · cases hstep

/-- A connection is removed from the registry, and its worker goes on without the reader or ends. -/
theorem passage_of_unregister (hcustody : Custody limit none s)
    (hworker : s.workers[index]? = some (.serving l)) {after : Worker}
    (hact : ∀ conn, s.act? conn event = none)
    (hafter : ∀ k, after.link? = some k → k = { l with released := true } ∧
      after.isFlushing = true ∧ l.reader.hasEnded)
    (hnext : next ∈ ((s.unregister l.id).setWorker index after).workers)
    (hlink : next.link? = some k) :
    s.Passage event ((s.unregister l.id).setWorker index after) next k := by
  have hgone (conn : ConnId) :
      ((s.unregister l.id).setWorker index after).shared.registry.contains conn =
        (decide (conn ≠ l.id) && s.shared.registry.contains conn) :=
    Registry.contains_delete ..
  refine passage_of_set hcustody hworker rfl (fun conn _ => ?_) (fun k hk => ?_) hnext hlink
  · refine ⟨hact conn, State.feeds_of_outboxes rfl, fun hlive => ?_⟩
    rw [hgone, Bool.and_eq_true] at hlive
    exact hlive.2
  · obtain ⟨rfl, hflushing, hended⟩ := hafter k hk
    refine .leaves (List.mem_of_getElem? hworker) rfl rfl hflushing (hact _) hended rfl ?_
    rw [hgone, decide_eq_false (by simp), Bool.false_and]

theorem passage_depart? (hcustody : Custody limit none s)
    (hworker : s.workers[index]? = some worker) (hact : ∀ conn, s.act? conn event = none)
    (hstep : s.depart? index worker = some s') (hnext : next ∈ s'.workers)
    (hlink : next.link? = some k) : s.Passage event s' next k := by
  unfold depart? at hstep
  split at hstep
  · split at hstep
    · dsimp only at hstep
      split at hstep
      · cases hstep
        exact passage_of_release (t := s.requestShutdown) hcustody hworker rfl rfl rfl rfl hact hnext
          hlink
      · cases hstep
        exact passage_of_release hcustody hworker rfl rfl rfl rfl hact hnext hlink
    · cases hstep
  · cases hstep

theorem passage_drop? (hcustody : Custody limit none s)
    (hworker : s.workers[index]? = some worker) (hact : ∀ conn, s.act? conn event = none)
    (hstep : s.drop? index worker = some s') (hnext : next ∈ s'.workers)
    (hlink : next.link? = some k) : s.Passage event s' next k := by
  cases worker with
  | refusing =>
    cases hstep
    exact passage_of_ended hcustody hworker rfl rfl rfl hact hnext hlink
  | greeting id =>
    cases hstep
    obtain ⟨-, hshared, hworkers⟩ := (s.setWorker index (.ended true)).giveBack_eq id
    exact passage_of_ended hcustody hworker hworkers (by rw [hshared]; rfl) (by rw [hshared]; rfl)
      hact hnext hlink
  | serving l =>
    cases hstep
    exact passage_of_unregister hcustody hworker hact (fun _ hk => by cases hk) hnext hlink
  | flushing l result deadline =>
    cases hstep
    exact passage_of_release hcustody hworker rfl rfl rfl rfl hact hnext hlink
  | unwinding id => cases hstep
  | ended dropped => cases hstep

theorem passage_worker? (hcustody : Custody limit none s)
    (hworker : s.workers[index]? = some worker) {wevent : WorkerEvent}
    (hstep : s.worker? index worker wevent = some s') (hnext : next ∈ s'.workers)
    (hlink : next.link? = some k) : s.Passage (.worker index wevent) s' next k := by
  cases wevent with
  | refuse =>
    simp only [worker?] at hstep
    split at hstep
    · cases hstep
      exact passage_of_ended hcustody hworker rfl rfl rfl (fun _ => rfl) hnext hlink
    · cases hstep
  | greet peer =>
    simp only [worker?] at hstep
    split at hstep
    · cases hstep
      exact passage_greet hcustody hworker peer hnext hlink
    · cases hstep
  | link e => exact passage_link? hcustody hworker hstep hnext hlink
  | leave =>
    simp only [worker?, leave?] at hstep
    split at hstep
    · split at hstep
      · rename_i hended
        cases hstep
        refine passage_of_unregister hcustody hworker (fun _ => rfl) (fun k hk => ?_) hnext hlink
        cases hk
        exact ⟨rfl, rfl, by rw [hended]; rfl⟩
      · cases hstep
    · cases hstep
  | depart => exact passage_depart? hcustody hworker (fun _ => rfl) hstep hnext hlink
  | drop => exact passage_drop? hcustody hworker (fun _ => rfl) hstep hnext hlink
  | unwind =>
    simp only [worker?, unwind?] at hstep
    split at hstep
    · cases hstep
      exact passage_of_release hcustody hworker rfl rfl rfl rfl (fun _ => rfl) hnext hlink
    · cases hstep

/-! ### All events -/

/-- There is nothing else that a session can come from. -/
theorem passage_of_step? (hcustody : Custody limit none s) (hstep : s.step? event = some s')
    (hnext : next ∈ s'.workers) (hlink : next.link? = some k) : s.Passage event s' next k := by
  cases event with
  | watch =>
    unfold step? at hstep
    split at hstep
    · cases hstep
    · exact passage_watch? hstep hnext hlink
  | worker index wevent =>
    unfold step? at hstep
    split at hstep
    · cases hstep
    · obtain ⟨worker, hworker, hworkerStep⟩ := Option.bind_eq_some_iff.1 hstep
      exact passage_worker? hcustody hworker hworkerStep hnext hlink
  | _ => exact (keeps_of_step? (by nofun) (by nofun) hstep).passage (fun _ => rfl) hnext hlink

end Server

end Relay
