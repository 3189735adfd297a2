import Relay.Proofs.Link.Step
import Relay.Server.Step

/-!
# `Relay.Proofs.Server.Course`: what an event does to the sessions of a relay

Most of what happens to a running relay concerns the loop, the ids and the clock. For the sessions
and for what they share there are five possibilities, which `Server.Course` lists: nothing changes, a
session begins, a session takes a step of its own (`Link.Course`), a connection is removed from the
registry, or the queue of a connection is taken away. `course_of_step?` says that there is nothing
else, so that an invariant of the sessions has five cases and not one for each event.
-/

set_option autoImplicit false

namespace Relay

/-- The session of a worker, while there is one. -/
def Worker.link? : Worker → Option Link
  | serving link | flushing link _ _ => some link
  | refusing | greeting _ | unwinding _ | ended _ => none

/-- Two values of a session agree on its connection and on where its reader is. -/
structure Link.SameReader (l k : Link) : Prop where
  id : k.id = l.id
  reader : k.reader = l.reader

theorem Link.SameReader.refl (l : Link) : l.SameReader l := ⟨rfl, rfl⟩

/-- A worker is the same but for the permit to close. -/
inductive Worker.Marked : Worker → Worker → Prop where
  | refl (worker : Worker) : Marked worker worker
  | closing (link : Link) (closing : Bool) : Marked (serving link) (serving { link with closing })

theorem Worker.Marked.exists_link {worker marked : Worker} {k : Link} (h : worker.Marked marked)
    (hlink : marked.link? = some k) :
    ∃ (l : Link) (closing : Bool), worker.link? = some l ∧ k = { l with closing } := by
  cases h with
  | refl => exact ⟨k, k.closing, hlink, rfl⟩
  | closing link closing =>
    cases hlink
    exact ⟨link, closing, rfl, rfl⟩

namespace Server

variable {s s' : Server} {index : Nat} {worker : Worker} {l k : Link}

/-- The sessions of a relay. -/
def links (s : Server) : List Link := s.workers.filterMap Worker.link?

theorem mem_links_iff : l ∈ s.links ↔ ∃ worker ∈ s.workers, worker.link? = some l :=
  List.mem_filterMap

theorem mem_links_of_getElem? (hworker : s.workers[index]? = some worker)
    (hlink : worker.link? = some l) : l ∈ s.links :=
  mem_links_iff.2 ⟨worker, List.mem_of_getElem? hworker, hlink⟩

/-- No session is there that was not there before. -/
def SameLinks (s s' : Server) : Prop := ∀ k ∈ s'.links, ∃ l ∈ s.links, l.SameReader k

/-- What an event does to the sessions and to what they share. -/
inductive Course (s s' : Server) : Prop where
  /-- Nothing. -/
  | keeps (hlinks : s.SameLinks s') (hshared : s.shared.SameTables s'.shared)
  /-- A session begins on a connection that is registered now, with an empty queue. -/
  | greets {l : Link} (hnext : l ∈ s'.links) (hlinks : ∀ k ∈ s'.links, k = l ∨ k ∈ s.links)
      (hreader : l.reader.isAwaiting) {box : Outbox} {registry : Registry}
      (hempty : box.waiting = []) (hadd : s.shared.registry.add l.id s.now = .ok registry)
      (hregistry : s'.shared.registry = registry)
      (houtboxes : s'.shared.outboxes = s.shared.outboxes.insert l.id box)
      (hstore : s'.shared.store = s.shared.store)
  /-- A session takes a step. -/
  | steps {l l' : Link} (hlink : l ∈ s.links) (hnext : l' ∈ s'.links)
      (hlinks : ∀ k ∈ s'.links, k = l' ∨ k ∈ s.links) (hid : l'.id = l.id)
      (hcourse : Link.Course s.host.service s.now l s.shared l' s'.shared)
  /-- A connection is removed from the registry. -/
  | unregisters (id : ConnId) (hlinks : s.SameLinks s')
      (hregistry : s'.shared.registry = s.shared.registry.delete id)
      (houtboxes : s'.shared.outboxes = s.shared.outboxes)
      (hstore : s'.shared.store = s.shared.store)
  /-- The queue of a connection is taken away. -/
  | releases (id : ConnId) (hlinks : s.SameLinks s')
      (hregistry : s'.shared.registry = s.shared.registry)
      (houtboxes : s'.shared.outboxes = s.shared.outboxes.erase id)
      (hstore : s'.shared.store = s.shared.store)

/-! ### Workers that come and go -/

/-- Workers that are new have no session. -/
theorem mem_links_of_workers
    (h : ∀ worker ∈ s'.workers, worker ∈ s.workers ∨ worker.link? = none) (hk : k ∈ s'.links) :
    k ∈ s.links := by
  obtain ⟨worker, hworker, hlink⟩ := mem_links_iff.1 hk
  rcases h worker hworker with hold | hnone
  · exact mem_links_iff.2 ⟨worker, hold, hlink⟩
  · rw [hnone] at hlink
    cases hlink

theorem sameLinks_of_workers
    (h : ∀ worker ∈ s'.workers, worker ∈ s.workers ∨ worker.link? = none) : s.SameLinks s' :=
  fun k hk => ⟨k, mem_links_of_workers h hk, .refl k⟩

theorem links_setWorker {next : Worker} (hnext : next.link? = some l)
    (hk : k ∈ (s.setWorker index next).links) : k = l ∨ k ∈ s.links := by
  obtain ⟨worker, hworker, hlink⟩ := mem_links_iff.1 hk
  rcases List.mem_or_eq_of_mem_set hworker with hold | rfl
  · exact .inr (mem_links_iff.2 ⟨worker, hold, hlink⟩)
  · rw [hnext] at hlink
    exact .inl (Option.some.inj hlink).symm

/-- The session of a worker that takes the place of another is there. -/
theorem mem_links_setWorker {next : Worker} (hworker : s.workers[index]? = some worker)
    (hnext : next.link? = some l) : l ∈ (s.setWorker index next).links :=
  mem_links_iff.2 ⟨next, List.mem_set (List.getElem?_eq_some_iff.1 hworker).1 next, hnext⟩

/-- A worker without a session takes the place of another. -/
theorem workers_setWorker {next : Worker} (hnext : next.link? = none)
    (hworker : worker ∈ s.workers.set index next) :
    worker ∈ s.workers ∨ worker.link? = none := by
  rcases List.mem_or_eq_of_mem_set hworker with hold | rfl
  · exact .inl hold
  · exact .inr hnext

theorem sameLinks_setWorker (next : Worker) (hnext : next.link? = none)
    (hworkers : s'.workers = s.workers.set index next) : s.SameLinks s' :=
  sameLinks_of_workers fun _ hworker => workers_setWorker hnext (hworkers ▸ hworker)

/-- A worker whose session goes on takes the place of the one that had it. -/
theorem sameLinks_setWorker_link {next : Worker} (hworker : s.workers[index]? = some worker)
    (hlink : worker.link? = some l) (hnext : next.link? = some k) (hsame : l.SameReader k)
    (hworkers : s'.workers = s.workers.set index next) : s.SameLinks s' := by
  intro j hj
  have hj : j ∈ (s.setWorker index next).links := by
    rw [links, setWorker, ← hworkers]
    exact hj
  rcases links_setWorker hnext hj with rfl | hold
  · exact ⟨l, mem_links_of_getElem? hworker hlink, hsame⟩
  · exact ⟨j, hold, .refl j⟩

/-- Giving an id back concerns no worker. -/
theorem giveBack_eq (s : Server) (id : ConnId) :
    (s.giveBack id).host = s.host ∧ (s.giveBack id).shared = s.shared ∧
      (s.giveBack id).workers = s.workers := by
  unfold giveBack
  split <;> exact ⟨rfl, rfl, rfl⟩

/-- Nothing happens to the sessions and to what they share. -/
structure Keeps (s t : Server) : Prop where
  host : t.host = s.host
  workers : ∀ worker ∈ t.workers, worker ∈ s.workers ∨ worker.link? = none
  shared : s.shared.SameTables t.shared

theorem Keeps.course {t : Server} (h : s.Keeps t) : t.host = s.host ∧ s.Course t :=
  ⟨h.host, .keeps (sameLinks_of_workers h.workers) h.shared⟩

theorem Keeps.giveBack {t : Server} (h : s.Keeps t) (id : ConnId) : s.Keeps (t.giveBack id) := by
  obtain ⟨hhost, hshared, hworkers⟩ := t.giveBack_eq id
  exact ⟨hhost.trans h.host, hworkers.symm ▸ h.workers, hshared.symm ▸ h.shared⟩

theorem keeps_refl (s : Server) : s.Keeps s := ⟨rfl, fun _ => .inl, .refl _⟩

theorem keeps_requestShutdown (s : Server) : s.Keeps s.requestShutdown :=
  ⟨rfl, fun _ => .inl, ⟨rfl, rfl, rfl⟩⟩

/-- A worker ends, or gives way to another, that has no session. -/
theorem keeps_setWorker (s : Server) (index : Nat) (next : Worker) (hnext : next.link? = none) :
    s.Keeps (s.setWorker index next) :=
  ⟨rfl, fun _ => workers_setWorker hnext, .refl _⟩

/-! ### The loop -/

theorem Keeps.turnRound {t : Server} (h : s.Keeps t) (lease : Option ConnId) :
    s.Keeps (t.turnRound lease) := by
  have hchecking : s.Keeps { t with loop := .checking } := ⟨h.host, h.workers, h.shared⟩
  cases lease with
  | none => exact hchecking
  | some id => exact hchecking.giveBack id

theorem keeps_whileWaiting {t : Server} {f : Option ConnId → Server}
    (hf : ∀ lease, s.Keeps (f lease)) (hstep : t.whileWaiting f = some s') : s.Keeps s' := by
  unfold whileWaiting at hstep
  split at hstep
  · cases hstep
    exact hf _
  · cases hstep

theorem keeps_accept (s : Server) (lease : Option ConnId) : s.Keeps (s.accept lease) := by
  have happended {worker new : Worker} (hnew : new.link? = none)
      (hworker : worker ∈ s.workers ++ [new]) : worker ∈ s.workers ∨ worker.link? = none := by
    rcases List.mem_append.1 hworker with hold | hlast
    · exact .inl hold
    · rw [List.mem_singleton.1 hlast]
      exact .inr hnew
  cases lease with
  | none => exact ⟨rfl, fun _ => happended rfl, ⟨rfl, rfl, rfl⟩⟩
  | some id => exact ⟨rfl, fun _ => happended rfl, .refl _⟩

/-- Looking for connections that have lived too long marks workers, and does nothing else. -/
theorem exists_marks_of_watch? (hstep : s.watch? = some s') :
    ∃ mark : Worker → Worker, (∀ worker : Worker, worker.Marked (mark worker)) ∧
      s' = { s with workers := s.workers.map mark } := by
  unfold watch? at hstep
  dsimp only at hstep
  split at hstep
  · cases hstep
  · cases hstep
  · refine ⟨_, fun worker => ?_, (Option.some.inj hstep).symm⟩
    cases worker with
    | serving link => exact .closing link _
    | refusing | greeting | flushing | unwinding | ended => exact .refl _

/-- Marking sessions leaves their halves where they are. -/
theorem course_watch? (hstep : s.watch? = some s') : s'.host = s.host ∧ s.Course s' := by
  obtain ⟨mark, hmarks, rfl⟩ := exists_marks_of_watch? hstep
  refine ⟨rfl, .keeps (fun k hk => ?_) (.refl _)⟩
  obtain ⟨marked, hmarked, hlink⟩ := mem_links_iff.1 hk
  obtain ⟨worker, hworker, rfl⟩ := List.mem_map.1 hmarked
  obtain ⟨l, closing, hl, rfl⟩ := (hmarks worker).exists_link hlink
  exact ⟨l, mem_links_iff.2 ⟨worker, hworker, hl⟩, ⟨rfl, rfl⟩⟩

theorem keeps_collect? (hstep : s.collect? index = some s') : s.Keeps s' := by
  have herased : s.Keeps { s with workers := s.workers.eraseIdx index } :=
    ⟨rfl, fun _ hworker => .inl (List.mem_of_mem_eraseIdx hworker), .refl _⟩
  unfold collect? at hstep
  split at hstep
  · cases hstep
    exact herased.turnRound _
  · cases hstep
    exact herased
  · cases hstep

/-- What happens to the loop concerns no session, unless it looks for connections that have lived too
long. -/
theorem keeps_of_step? {event : Event} (hwatch : event ≠ .watch)
    (hworker : ∀ index e, event ≠ .worker index e) (hstep : s.step? event = some s') :
    s.Keeps s' := by
  unfold step? at hstep
  split at hstep
  · cases hstep
  · cases event with
    | begin =>
      simp only [begin?] at hstep
      split at hstep
      · cases hstep
        exact ⟨rfl, fun _ => .inl, .refl _⟩
      · cases hstep
    | check =>
      simp only [check?] at hstep
      repeat' split at hstep
      all_goals cases hstep
      all_goals exact ⟨rfl, fun _ => .inl, .refl _⟩
    | accept => exact keeps_whileWaiting s.keeps_accept hstep
    | acceptFail => exact keeps_whileWaiting s.keeps_refl.turnRound hstep
    | collect index => exact keeps_collect? hstep
    | wake =>
      dsimp only at hstep
      split at hstep
      · have hasleep : s.Keeps { s with wake := false } := ⟨rfl, fun _ => .inl, .refl _⟩
        exact keeps_whileWaiting hasleep.turnRound hstep
      · cases hstep
    | signal => exact keeps_whileWaiting s.keeps_requestShutdown.turnRound hstep
    | drained =>
      simp only [drained?] at hstep
      repeat' split at hstep
      all_goals cases hstep
      all_goals exact ⟨rfl, fun _ hworker => (by cases hworker), .refl _⟩
    | expire =>
      simp only [expire?] at hstep
      repeat' split at hstep
      all_goals cases hstep
      all_goals exact ⟨rfl, fun _ => .inl, .refl _⟩
    | requestShutdown =>
      cases hstep
      exact s.keeps_requestShutdown
    | watch => exact absurd rfl hwatch
    | tick now =>
      dsimp only at hstep
      split at hstep
      · cases hstep
        exact ⟨rfl, fun _ => .inl, .refl _⟩
      · cases hstep
    | worker index event => exact absurd rfl (hworker index event)

/-! ### Workers -/

/-- What the end of a handshake comes to. -/
inductive Greets (s : Server) (index : Nat) (id : ConnId) : Server → Prop where
  /-- It has failed, and the worker ends. -/
  | fails (entropy : Entropy) (metrics : Metrics) :
      Greets s index id
        (({ s with shared := { s.shared with entropy, metrics } }.setWorker index
          (.ended false)).giveBack id)
  /-- A session begins, with a queue of its own. -/
  | begins (entropy : Entropy) (metrics : Metrics) (session : Session) (peer : Peer) (now idle : Nat)
      {registry : Registry} (hadd : s.shared.registry.add id s.now = .ok registry) :
      Greets s index id
        ({ s with shared :=
          { s.shared with
            entropy
            metrics
            registry
            outboxes := s.shared.outboxes.insert id { capacity := outboundCapacity } } }.setWorker
              index (.serving (Link.start id session peer now idle)))
  /-- The id is registered already, which no client can bring about. -/
  | halts (v : Violation) (entropy : Entropy) (metrics : Metrics)
      (hlive : s.shared.registry.contains id) :
      Greets s index id { s with shared := { s.shared with entropy, metrics }, halted := some v }

theorem greets_greet (s : Server) (index : Nat) (id : ConnId) (peer : Peer) :
    s.Greets index id (s.greet index id peer) := by
  unfold greet
  dsimp only
  generalize s.host.suite.shakeHands s.host.seed s.host.pair s.config.idleTimeoutMs.toNat
    s.shared.entropy peer = handshake
  obtain ⟨result, entropy, peer⟩ := handshake
  cases result with
  | error => exact .fails _ _
  | ok session =>
    have hroom : Outbox.ofCapacity? outboundCapacity = .ok { capacity := outboundCapacity } := rfl
    dsimp only [count, State.count, State.connect]
    rw [hroom]
    cases hadd : s.shared.registry.add id s.now with
    | error v =>
      refine .halts v _ _ ?_
      unfold Registry.add at hadd
      split at hadd
      · assumption
      · cases hadd
    | ok registry => exact .begins _ _ session peer _ _ hadd

theorem course_greet (hworker : s.workers[index]? = some worker) (id : ConnId) (peer : Peer) :
    (s.greet index id peer).host = s.host ∧ s.Course (s.greet index id peer) := by
  have hgreets := s.greets_greet index id peer
  generalize s.greet index id peer = s' at hgreets ⊢
  cases hgreets with
  | fails entropy metrics =>
    have hended : s.Keeps ({ s with shared := { s.shared with entropy, metrics } }.setWorker index
        (.ended false)) := ⟨rfl, fun _ => workers_setWorker rfl, ⟨rfl, rfl, rfl⟩⟩
    exact (hended.giveBack id).course
  | begins _ _ _ _ _ _ hadd =>
    exact ⟨rfl, .greets (mem_links_setWorker hworker rfl) (fun k hk => links_setWorker rfl hk)
      rfl rfl hadd rfl rfl rfl⟩
  | halts => exact ⟨rfl, .keeps (sameLinks_of_workers s.keeps_refl.workers) ⟨rfl, rfl, rfl⟩⟩

theorem course_link? (hworker : s.workers[index]? = some worker) {event : LinkEvent}
    (hstep : s.link? index event worker = some s') : s'.host = s.host ∧ s.Course s' := by
  have hset {l k : Link} {σ : State} {next : Worker} (hlink : worker.link? = some l)
      (hnext : next.link? = some k)
      (hlinkStep : l.step? s.host.service s.now s.shared event = some (k, σ)) :
      s.Course ({ s with shared := σ }.setWorker index next) := by
    obtain ⟨hid, hcourse⟩ := Link.course_of_step? hlinkStep
    exact .steps (mem_links_of_getElem? hworker hlink) (mem_links_setWorker hworker hnext)
      (fun j hj => links_setWorker hnext hj) hid hcourse
  unfold link? at hstep
  split at hstep
  · obtain ⟨⟨k, σ⟩, hlinkStep, rfl⟩ := Option.map_eq_some_iff.1 hstep
    exact ⟨rfl, hset rfl rfl hlinkStep⟩
  · obtain ⟨⟨k, σ⟩, hlinkStep, rfl⟩ := Option.map_eq_some_iff.1 hstep
    exact ⟨rfl, hset rfl rfl hlinkStep⟩
  · cases hstep

theorem course_leave? (hworker : s.workers[index]? = some worker)
    (hstep : s.leave? index worker = some s') : s'.host = s.host ∧ s.Course s' := by
  unfold leave? at hstep
  split at hstep
  · split at hstep
    · rename_i link _ _ _
      cases hstep
      have hsame : link.SameReader { link with released := true } := ⟨rfl, rfl⟩
      exact ⟨rfl, .unregisters _ (sameLinks_setWorker_link hworker rfl rfl hsame rfl) rfl rfl rfl⟩
    · cases hstep
  · cases hstep

/-- The queue of a connection is taken away when its worker ends. -/
theorem Keeps.release {t : Server} (h : s.Keeps t) (hworkers : t.workers = s.workers) (index : Nat)
    (id : ConnId) (dropped : Bool) :
    (t.release index id dropped).host = s.host ∧ s.Course (t.release index id dropped) := by
  unfold Server.release
  obtain ⟨hhost, hshared, hrest⟩ := giveBack_eq ({ t with shared :=
    { t.shared with outboxes := t.shared.outboxes.erase id } }.setWorker index (.ended dropped)) id
  refine ⟨hhost.trans h.host, .releases id ?_ ?_ ?_ ?_⟩
  · exact sameLinks_setWorker (.ended dropped) rfl
      (hrest.trans (congrArg (List.set · index _) hworkers))
  · exact (congrArg State.registry hshared).trans h.shared.registry
  · exact (congrArg State.outboxes hshared).trans (congrArg (Table.erase · id) h.shared.outboxes)
  · exact (congrArg State.store hshared).trans h.shared.store

theorem course_depart? (hstep : s.depart? index worker = some s') :
    s'.host = s.host ∧ s.Course s' := by
  unfold depart? at hstep
  split at hstep
  · split at hstep
    · cases hstep
      split
      · exact s.keeps_requestShutdown.release rfl index _ false
      · exact s.keeps_refl.release rfl index _ false
    · cases hstep
  · cases hstep

theorem course_drop? (hstep : s.drop? index worker = some s') :
    s'.host = s.host ∧ s.Course s' := by
  cases worker with
  | refusing =>
    cases hstep
    exact (s.keeps_setWorker index (.ended true) rfl).course
  | greeting id =>
    cases hstep
    exact ((s.keeps_setWorker index (.ended true) rfl).giveBack id).course
  | serving link =>
    cases hstep
    exact ⟨rfl, .unregisters link.id (sameLinks_setWorker (.unwinding link.id) rfl rfl) rfl rfl rfl⟩
  | flushing link result deadline =>
    cases hstep
    exact s.keeps_refl.release rfl index link.id true
  | unwinding id => cases hstep
  | ended dropped => cases hstep

theorem course_worker? (hworker : s.workers[index]? = some worker) {event : WorkerEvent}
    (hstep : s.worker? index worker event = some s') : s'.host = s.host ∧ s.Course s' := by
  cases event with
  | refuse =>
    simp only [worker?] at hstep
    split at hstep
    · cases hstep
      exact (s.keeps_setWorker index (.ended false) rfl).course
    · cases hstep
  | greet peer =>
    simp only [worker?] at hstep
    split at hstep
    · cases hstep
      exact course_greet hworker _ peer
    · cases hstep
  | link event => exact course_link? hworker hstep
  | leave => exact course_leave? hworker hstep
  | depart => exact course_depart? hstep
  | drop => exact course_drop? hstep
  | unwind =>
    simp only [worker?, unwind?] at hstep
    split at hstep
    · cases hstep
      exact s.keeps_refl.release rfl index _ true
    · cases hstep

/-! ### All events -/

/-- Whatever happens to a relay does one of the five things to its sessions, and what it works with
stays the same. -/
theorem course_of_step? {event : Event} (hstep : s.step? event = some s') :
    s'.host = s.host ∧ s.Course s' := by
  cases event with
  | watch =>
    unfold step? at hstep
    split at hstep
    · cases hstep
    · exact course_watch? hstep
  | worker index event =>
    unfold step? at hstep
    split at hstep
    · cases hstep
    · obtain ⟨worker, hworker, hworkerStep⟩ := Option.bind_eq_some_iff.1 hstep
      exact course_worker? hworker hworkerStep
  | _ => exact (keeps_of_step? (by nofun) (by nofun) hstep).course

end Server

end Relay
