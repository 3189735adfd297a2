import Relay.Proofs.Server.Course
import Relay.Proofs.Server.Lease
import Relay.Proofs.Traffic.Execution

/-!
# `Relay.Proofs.Server.Custody`: every id has one holder, in every state of a relay

Each event of a running relay leaves every id in custody (`Custody.follows_step?`), and so does
every run (`Custody.of_run?`). The events are taken one by one: those of the loop first, then those
of the workers. Wherever an id goes back into the pool, it was in transit just before, so that
nothing was registered under it any more (`Follows.gone`). What may be relied on is `InCustody`, and
`ids_in_custody` says that it holds whatever happens.
-/

set_option autoImplicit false

namespace Relay

/-- An event leaves every id in custody, and the ids that it puts back into the pool had no
connection registered under them any more. -/
structure Follows (limit : UInt32) (s s' : Server) : Prop where
  custody : Custody limit none s'
  gone : ∀ id, s.ids.isTaken id → s'.ids.isTaken id = false →
    s.shared.registry.contains id = false

namespace Custody

variable {limit : UInt32} {s s' t : Server} {id : ConnId} {index : Nat} {worker : Worker}

/-- Where no id goes back into the pool, there is nothing more to show. -/
theorem follows (h : Custody limit none s') (hkept : ∀ id, s.ids.isTaken id → s'.ids.isTaken id) :
    Follows limit s s' := by
  refine ⟨h, fun id htaken hfree => ?_⟩
  rw [hkept id htaken] at hfree
  cases hfree

theorem follows_giveBack (h : Custody limit (some id) t) (hids : t.ids = s.ids)
    (hregistry : t.shared.registry = s.shared.registry) : Follows limit s (t.giveBack id) := by
  obtain ⟨-, hfree⟩ := h.of_transit
  obtain ⟨ids, hgive, hcustody, htaken⟩ := h.giveBack
  rw [hgive]
  refine ⟨hcustody, fun other hbefore hafter => ?_⟩
  change ids.isTaken other = false at hafter
  rw [htaken] at hafter
  split at hafter
  · rename_i hother
    rw [hother, ← hregistry, hfree]
  · rw [hids, hbefore] at hafter
    cases hafter

/-! ### The loop -/

theorem requestShutdown (h : Custody limit none s) : Custody limit none s.requestShutdown :=
  h.of_same rfl rfl rfl rfl rfl

theorem follows_begin? (h : Custody limit none s) (hstep : s.begin? = some s') :
    Follows limit s s' := by
  unfold Server.begin? at hstep
  split at hstep
  · rename_i hloop
    obtain rfl := Option.some.inj hstep
    have hchecking : Custody limit none { s with loop := .checking } :=
      h.setLoop (fun id => by rw [hloop]; rfl) nofun
    exact follows (hchecking.of_same rfl rfl rfl rfl rfl) fun _ htaken => htaken
  · cases hstep

theorem follows_check? (h : Custody limit none s) (hstep : s.check? = some s') :
    Follows limit s s' := by
  unfold Server.check? at hstep
  split at hstep
  · rename_i hloop
    split at hstep
    · obtain rfl := Option.some.inj hstep
      have hdraining (deadline : Nat) : Custody limit none { s with loop := .draining deadline } :=
        h.setLoop (fun id => by rw [hloop]; rfl) nofun
      exact follows ((hdraining _).of_same rfl rfl rfl rfl rfl) fun _ htaken => htaken
    · split at hstep
      · rename_i id ids htake
        obtain rfl := Option.some.inj hstep
        -- The id is in transit when it leaves the pool, and then it is the loop's.
        obtain ⟨htransit, htaken⟩ := h.take htake
        have hwaiting : Custody limit none { s with ids, loop := .waiting (some id) } :=
          htransit.setLoop (fun other => by
            show share none other + share (some id) other =
              share (some id) other + share s.loop.lease? other
            rw [hloop, Nat.add_comm]
            rfl) nofun
        refine hwaiting.follows fun other hbefore => ?_
        show ids.isTaken other
        rw [htaken, hbefore, ite_self]
      · obtain rfl := Option.some.inj hstep
        have hwaiting : Custody limit none { s with loop := .waiting none } :=
          h.setLoop (fun id => by rw [hloop]; rfl) nofun
        exact hwaiting.follows fun _ htaken => htaken
  · cases hstep

/-- The loop lets go of the id that it holds. -/
theorem letGo (h : Custody limit none s) {lease : Option ConnId} (hloop : s.loop = .waiting lease) :
    Custody limit lease { s with loop := .checking } := by
  refine h.setLoop (fun id => ?_) nofun
  rw [hloop, Nat.add_comm]
  rfl

theorem follows_turnRound (h : Custody limit none s) {lease : Option ConnId}
    (hloop : s.loop = .waiting lease) : Follows limit s (s.turnRound lease) := by
  have htransit := h.letGo hloop
  cases lease with
  | none => exact htransit.follows fun _ htaken => htaken
  | some id => exact htransit.follows_giveBack rfl rfl

theorem follows_accept (h : Custody limit none s) {lease : Option ConnId}
    (hloop : s.loop = .waiting lease) : Follows limit s (s.accept lease) := by
  have htransit := h.letGo hloop
  cases lease with
  | none =>
    have hrefusing : Custody limit none
        { s with loop := .checking, workers := s.workers ++ [.refusing] } :=
      htransit.append nofun fun _ => rfl
    exact follows (hrefusing.of_same rfl rfl rfl rfl rfl) fun _ htaken => htaken
  | some id =>
    have hgreeting : Custody limit none
        { s with loop := .checking, workers := s.workers ++ [.greeting id] } :=
      htransit.append nofun fun _ => Nat.zero_add _
    exact hgreeting.follows fun _ htaken => htaken

theorem follows_whileWaiting {f : Option ConnId → Server}
    (hf : ∀ lease, s.loop = .waiting lease → Follows limit s (f lease))
    (hstep : s.whileWaiting f = some s') : Follows limit s s' := by
  unfold Server.whileWaiting at hstep
  split at hstep
  · rename_i lease hloop
    obtain rfl := Option.some.inj hstep
    exact hf lease hloop
  · cases hstep

theorem follows_collect? (h : Custody limit none s) (hstep : s.collect? index = some s') :
    Follows limit s s' := by
  unfold Server.collect? at hstep
  split at hstep
  · rename_i dropped lease hworker hloop
    obtain rfl := Option.some.inj hstep
    have hcollected := (h.eraseIdx hworker).follows_turnRound hloop
    exact ⟨hcollected.custody, hcollected.gone⟩
  · rename_i dropped deadline hworker hloop
    obtain rfl := Option.some.inj hstep
    exact (h.eraseIdx hworker).follows fun _ htaken => htaken
  · cases hstep

theorem follows_drained? (h : Custody limit none s) (hstep : s.drained? = some s') :
    Follows limit s s' := by
  -- Neither the loop nor a worker holds an id, so that no id is taken when they are gone.
  have hended (hall : s.workers.all Worker.hasEnded) (hloop : s.loop.lease? = none) :
      Custody limit none { s with workers := [], loop := .stopped } := by
    have hnone : ∀ worker ∈ s.workers, worker.lease? = none := by
      intro worker hworker
      have hhasEnded := List.all_eq_true.1 hall worker hworker
      cases worker <;> first | rfl | cases hhasEnded
    refine ⟨h.pool, h.capacity, fun id => ?_, fun id hlive => ?_, h.running, fun _ => rfl⟩
    · rw [← h.held id]
      simp only [Server.holders, hloop, List.countP_nil]
      rw [List.countP_eq_zero.2 fun worker hworker => by simp [hnone worker hworker]]
      rfl
    · obtain ⟨worker, hworker, hregistered⟩ := h.served id hlive
      have hlease := Worker.lease?_of_registered? hregistered
      rw [hnone worker hworker] at hlease
      cases hlease
  unfold Server.drained? at hstep
  split at hstep
  · rename_i hall
    split at hstep
    · rename_i hloop
      obtain rfl := Option.some.inj hstep
      exact (hended hall (by rw [hloop]; rfl)).follows fun _ htaken => htaken
    · rename_i hloop
      obtain rfl := Option.some.inj hstep
      exact (hended hall (by rw [hloop]; rfl)).follows fun _ htaken => htaken
    · cases hstep
  · cases hstep

theorem follows_expire? (h : Custody limit none s) (hstep : s.expire? = some s') :
    Follows limit s s' := by
  unfold Server.expire? at hstep
  split at hstep
  · rename_i hloop
    split at hstep
    · obtain rfl := Option.some.inj hstep
      have haborting : Custody limit none { s with loop := .aborting } :=
        h.setLoop (fun id => by rw [hloop]; rfl) nofun
      exact haborting.follows fun _ htaken => htaken
    · cases hstep
  · cases hstep

theorem follows_watch? (h : Custody limit none s) (hstep : s.watch? = some s') :
    Follows limit s s' := by
  unfold Server.watch? at hstep
  dsimp only at hstep
  split at hstep
  · cases hstep
  · cases hstep
  · obtain rfl := Option.some.inj hstep
    -- The worker of a connection that has expired is only marked.
    refine (h.mapWorkers (fun worker => ?_) fun worker => ?_).follows fun _ htaken => htaken
    · cases worker <;> rfl
    · cases worker <;> rfl

/-! ### The workers -/

/-- A worker that has nothing in the registry ends, and lets go of the id that it holds. -/
theorem letGoWorker (h : Custody limit none s) (hworker : s.workers[index]? = some worker)
    (hregistered : worker.registered? = none) (hlease : worker.lease? = some id) (dropped : Bool)
    {σ : State} (hregistry : σ.registry = s.shared.registry) :
    Custody limit (some id) ({ s with shared := σ }.setWorker index (.ended dropped)) := by
  refine h.setWorker hworker (fun other => ?_) fun other hlive => .inr ⟨?_, ?_⟩
  · rw [hlease, Nat.add_comm]
    rfl
  · exact hregistry ▸ hlive
  · rw [hregistered]
    exact nofun

theorem follows_release (h : Custody limit none s) (hworker : s.workers[index]? = some worker)
    (hregistered : worker.registered? = none) (hlease : worker.lease? = some id) (dropped : Bool) :
    Follows limit s (s.release index id dropped) := by
  have htransit := h.letGoWorker hworker hregistered hlease dropped
    (σ := { s.shared with outboxes := s.shared.outboxes.erase id }) rfl
  exact follows_giveBack (s := s) htransit rfl rfl

/-- A worker changes without letting go of its id or taking one up, and registers nothing. -/
theorem follows_setWorker (h : Custody limit none s) (hworker : s.workers[index]? = some worker)
    {next : Worker} {σ : State} (hlease : next.lease? = worker.lease?)
    (hserved : ∀ id, σ.registry.contains id → s.shared.registry.contains id ∧
      (worker.registered? = some id → next.registered? = some id)) :
    Follows limit s ({ s with shared := σ }.setWorker index next) := by
  refine (h.setWorker hworker (fun id => by rw [hlease]) fun id hlive => ?_).follows
    fun _ htaken => htaken
  obtain ⟨hbefore, hsame⟩ := hserved id hlive
  by_cases hregistered : worker.registered? = some id
  · exact .inl (hsame hregistered)
  · exact .inr ⟨hbefore, hregistered⟩

theorem follows_greet (h : Custody limit none s) (hworker : s.workers[index]? = some (.greeting id))
    (peer : Peer) : Follows limit s (s.greet index id peer) := by
  have htransit (σ : State) (hregistry : σ.registry = s.shared.registry) :
      Custody limit (some id) ({ s with shared := σ }.setWorker index (.ended false)) :=
    h.letGoWorker hworker rfl rfl false hregistry
  have hgreets := s.greets_greet index id peer
  generalize s.greet index id peer = s' at hgreets ⊢
  cases hgreets with
  | fails entropy metrics =>
    exact follows_giveBack (s := s) (htransit { s.shared with entropy, metrics } rfl) rfl rfl
  | @begins entropy metrics session peer now idle registry hadd =>
    -- The worker that greeted serves now. It holds the same id, which is registered for it.
    let σ : State := { s.shared with
      entropy, metrics, registry
      outboxes := s.shared.outboxes.insert id { capacity := outboundCapacity } }
    have hserving : Custody limit none ({ s with shared := σ }.setWorker index
        (.serving (Link.start id session peer now idle))) := by
      refine h.setWorker hworker (fun _ => rfl) fun other hlive => ?_
      rw [show σ.registry = registry from rfl, Registry.contains_add hadd, Bool.or_eq_true,
        decide_eq_true_eq] at hlive
      rcases hlive with rfl | hbefore
      · exact .inl rfl
      · exact .inr ⟨hbefore, nofun⟩
    exact hserving.follows fun _ htaken => htaken
  | halts _ _ _ hlive =>
    -- If the worker ended here, nothing would be registered under its id. So nothing is.
    have hfree : s.shared.registry.contains id = false := (htransit s.shared rfl).of_transit.2
    rw [hfree] at hlive
    cases hlive

theorem follows_link? (h : Custody limit none s) (hworker : s.workers[index]? = some worker)
    {event : LinkEvent} (hstep : s.link? index event worker = some s') : Follows limit s s' := by
  unfold Server.link? at hstep
  split at hstep
  · obtain ⟨⟨link', σ⟩, hlink, hs'⟩ := Option.map_eq_some_iff.1 hstep
    obtain ⟨hid, hsource⟩ := Link.registrySource_of_step? hlink
    rw [← hs']
    refine h.follows_setWorker hworker (congrArg some hid) fun id hlive => ?_
    refine ⟨hsource.contains hlive, fun hregistered => ?_⟩
    rw [← hregistered]
    exact congrArg some hid
  · obtain ⟨⟨link', σ⟩, hlink, hs'⟩ := Option.map_eq_some_iff.1 hstep
    obtain ⟨hid, hsource⟩ := Link.registrySource_of_step? hlink
    rw [← hs']
    exact h.follows_setWorker hworker (congrArg some hid) fun id hlive =>
      ⟨hsource.contains hlive, nofun⟩
  · cases hstep

/-- A worker that served removes its connection, and keeps the id. -/
theorem follows_unregister (h : Custody limit none s) {link : Link}
    (hworker : s.workers[index]? = some (.serving link)) {next : Worker}
    (hlease : next.lease? = some link.id) :
    Follows limit s ((s.unregister link.id).setWorker index next) := by
  refine h.follows_setWorker hworker hlease fun id hlive => ?_
  -- What is still registered is another connection, for which another worker is there.
  change (s.shared.registry.delete link.id).contains id at hlive
  rw [Registry.contains_delete, Bool.and_eq_true, decide_eq_true_eq] at hlive
  exact ⟨hlive.2, fun hregistered => absurd (Option.some.inj hregistered).symm hlive.1⟩

theorem follows_leave? (h : Custody limit none s) (hworker : s.workers[index]? = some worker)
    (hstep : s.leave? index worker = some s') : Follows limit s s' := by
  unfold Server.leave? at hstep
  split at hstep
  · split at hstep
    · obtain rfl := Option.some.inj hstep
      exact h.follows_unregister hworker rfl
    · cases hstep
  · cases hstep

theorem follows_depart? (h : Custody limit none s) (hworker : s.workers[index]? = some worker)
    (hstep : s.depart? index worker = some s') : Follows limit s s' := by
  unfold Server.depart? at hstep
  split at hstep
  · split at hstep
    · obtain rfl := Option.some.inj hstep
      split
      · -- That shutdown is requested first makes no difference to the ids.
        have hreleased := h.requestShutdown.follows_release hworker rfl rfl false
        exact ⟨hreleased.custody, hreleased.gone⟩
      · exact h.follows_release hworker rfl rfl false
    · cases hstep
  · cases hstep

theorem follows_drop? (h : Custody limit none s) (hworker : s.workers[index]? = some worker)
    (hstep : s.drop? index worker = some s') : Follows limit s s' := by
  cases worker with
  | refusing =>
    obtain rfl := Option.some.inj hstep
    exact h.follows_setWorker hworker rfl fun id hlive => ⟨hlive, nofun⟩
  | greeting id =>
    obtain rfl := Option.some.inj hstep
    exact follows_giveBack (s := s) (h.letGoWorker hworker rfl rfl true (σ := s.shared) rfl) rfl rfl
  | serving link =>
    obtain rfl := Option.some.inj hstep
    exact h.follows_unregister hworker rfl
  | flushing link result deadline =>
    obtain rfl := Option.some.inj hstep
    exact h.follows_release hworker rfl rfl true
  | unwinding id => cases hstep
  | ended dropped => cases hstep

theorem follows_worker? (h : Custody limit none s) (hworker : s.workers[index]? = some worker)
    {event : WorkerEvent} (hstep : s.worker? index worker event = some s') :
    Follows limit s s' := by
  cases event with
  | refuse =>
    simp only [Server.worker?] at hstep
    split at hstep
    · obtain rfl := Option.some.inj hstep
      exact h.follows_setWorker hworker rfl fun id hlive => ⟨hlive, fun hserves => by cases hserves⟩
    · cases hstep
  | greet peer =>
    simp only [Server.worker?] at hstep
    split at hstep
    · obtain rfl := Option.some.inj hstep
      exact h.follows_greet hworker peer
    · cases hstep
  | link event => exact h.follows_link? hworker hstep
  | leave => exact h.follows_leave? hworker hstep
  | depart => exact h.follows_depart? hworker hstep
  | drop => exact h.follows_drop? hworker hstep
  | unwind =>
    simp only [Server.worker?, Server.unwind?] at hstep
    split at hstep
    · obtain rfl := Option.some.inj hstep
      exact h.follows_release hworker rfl rfl true
    · cases hstep

/-! ### All events -/

theorem follows_step? (h : Custody limit none s) {event : Event} (hstep : s.step? event = some s') :
    Follows limit s s' := by
  unfold Server.step? at hstep
  split at hstep
  · cases hstep
  · cases event with
    | begin => exact h.follows_begin? hstep
    | check => exact h.follows_check? hstep
    | accept => exact follows_whileWaiting (fun _ => h.follows_accept) hstep
    | acceptFail => exact follows_whileWaiting (fun _ => h.follows_turnRound) hstep
    | collect index => exact h.follows_collect? hstep
    | wake =>
      dsimp only at hstep
      split at hstep
      · have hasleep : Custody limit none { s with wake := false } := h.of_same rfl rfl rfl rfl rfl
        refine follows_whileWaiting (fun _ hloop => ?_) hstep
        have hturned := hasleep.follows_turnRound hloop
        exact ⟨hturned.custody, hturned.gone⟩
      · cases hstep
    | signal =>
      refine follows_whileWaiting (fun _ hloop => ?_) hstep
      have hturned := h.requestShutdown.follows_turnRound hloop
      exact ⟨hturned.custody, hturned.gone⟩
    | drained => exact h.follows_drained? hstep
    | expire => exact h.follows_expire? hstep
    | requestShutdown =>
      obtain rfl := Option.some.inj hstep
      exact h.requestShutdown.follows fun _ htaken => htaken
    | watch => exact h.follows_watch? hstep
    | tick now =>
      dsimp only at hstep
      split at hstep
      · obtain rfl := Option.some.inj hstep
        exact follows (h.of_same rfl rfl rfl rfl rfl) fun _ htaken => htaken
      · cases hstep
    | worker index event =>
      obtain ⟨worker, hworker, hworkerStep⟩ := Option.bind_eq_some_iff.1 hstep
      exact h.follows_worker? hworker hworkerStep

theorem of_run? {events : List Event} (h : Custody limit none s) (hrun : s.run? events = some s') :
    Custody limit none s' :=
  Server.invariant_of_run? (fun hstep hs => (hs.follows_step? hstep).custody) h hrun

theorem start (suite : Suite) (passwords : PasswordScheme) (config : Config) (seed : Key)
    (store : Store) (e : Entropy) :
    Custody config.maxConns none (Server.start suite passwords config seed store e) := by
  constructor
  · exact IdPool.wellFormed_empty _
  · rfl
  · intro id
    show _ = if (IdPool.empty config.maxConns).isTaken id then 1 else 0
    rw [IdPool.isTaken_empty]
    rfl
  · intro id hlive
    cases hlive
  · rfl
  · exact nofun

end Custody

/-! ### What may be relied on -/

/-- What may be relied on about the ids of connections. -/
structure InCustody (config : Config) (s : Server) : Prop where
  /-- An id that is taken has exactly one holder, the loop or a worker, and a free one has none. -/
  held : ∀ id, s.holders id = if s.ids.isTaken id then 1 else 0
  /-- Whatever is registered is registered for a worker that serves the connection. -/
  served : ∀ id, s.shared.registry.contains id →
    ∃ worker ∈ s.workers, worker.registered? = some id
  /-- No more connections are registered than there may be. -/
  few : s.shared.registry.size ≤ config.maxConns.toNat
  /-- When an id goes back into the pool, its connection is not registered any more. -/
  gone : ∀ (event : Event) (s' : Server), s.step? event = some s' → ∀ id, s.ids.isTaken id →
    s'.ids.isTaken id = false →
      s.shared.registry.contains id = false ∧ s'.shared.registry.contains id = false
  /-- No id was registered twice, given back while it was free or given back out of range. -/
  running : s.halted = none
  /-- When the loop has ended, no id is taken and nothing is registered. -/
  ended : s.loop = .stopped → (∀ id, s.ids.isTaken id = false) ∧ s.ids.takenCount = 0 ∧
    (∀ id, s.shared.registry.contains id = false) ∧ s.shared.registry.size = 0

/-- In every state that a relay comes to, whatever happens to it and in whatever order, the ids of
its connections are in custody. -/
theorem ids_in_custody {suite : Suite} {passwords : PasswordScheme} {config : Config} {seed : Key}
    {store : Store} {e : Entropy} {events : List Event} {s : Server}
    (hrun : (Server.start suite passwords config seed store e).run? events = some s) :
    InCustody config s := by
  have h := (Custody.start suite passwords config seed store e).of_run? hrun
  have hheld (id : ConnId) : s.holders id = if s.ids.isTaken id then 1 else 0 := by
    rw [← h.held id, share_none, Nat.zero_add]
  constructor
  · exact hheld
  · exact h.served
  · refine Table.size_le _ fun id hlive => ?_
    have hlt := IdPool.lt_of_isTaken (h.isTaken_of_contains hlive)
    rw [h.capacity] at hlt
    exact UInt32.lt_iff_toNat_lt.1 hlt
  · intro event s' hstep id htaken hfree
    have hfollows := h.follows_step? hstep
    refine ⟨hfollows.gone id htaken hfree, Bool.eq_false_iff.2 fun hlive => ?_⟩
    rw [hfollows.custody.isTaken_of_contains hlive] at hfree
    cases hfree
  · exact h.running
  · intro hstopped
    have hfree (id : ConnId) : s.ids.isTaken id = false := by
      have hone := hheld id
      rw [Server.holders, hstopped, h.stopped hstopped] at hone
      by_contra htaken
      rw [Bool.not_eq_false] at htaken
      rw [if_pos htaken] at hone
      cases hone
    have hnone (id : ConnId) : s.shared.registry.contains id = false :=
      Bool.eq_false_iff.2 fun hlive => by
        have htaken := h.isTaken_of_contains hlive
        rw [hfree id] at htaken
        cases htaken
    refine ⟨hfree, h.pool.takenCount_eq_zero hfree, hnone, Nat.le_zero.1 ?_⟩
    refine Table.size_le _ fun id hlive => ?_
    have hgone := hnone id
    rw [Registry.contains, hlive] at hgone
    cases hgone

/-- The small relay as it takes connections. -/
def Sample.server : Server :=
  Server.start suite passwords config (.zero keySize) opened.1 opened.2

/-- A client who gets through the handshake. -/
def Sample.client : Peer where
  arriving := [List.replicate (keySize + headerSize) 0]

/-- A client connects, and gets the next worker and the next id. -/
def Sample.greeting (index : Nat) : List Event :=
  [.accept, .check, .worker index (.greet client)]

/-- Something happens on the session of a worker. -/
def Sample.onLink (index : Nat) (event : LinkEvent) : Event := .worker index (.link event)

/-- A message of a client arrives, and its routing begins. -/
def Sample.sends (index : Nat) (m : Message) : List Event :=
  let frame := framed (aead.encrypt (.zero keySize) (.zero nonceSize) (m.head ++ m.body))
  [onLink index (.arrive frame), onLink index (.read ⟨1, .none⟩), onLink index (.read ⟨2, .none⟩)]

/-- A worker is dropped while it serves a client, and the relay is told to stop. The worker still
holds the id when the connection is removed, and at the end nobody does. -/
theorem ids_in_custody_dropped :
    ∃ t s : Server,
      Sample.server.run? [.begin, .check, .accept, .check, .worker 0 (.greet Sample.client),
        .worker 0 .drop] = some t ∧
      t.shared.registry.contains 0 = false ∧ t.ids.isTaken 0 ∧ t.holders 0 = 1 ∧
      t.run? [.worker 0 .unwind, .signal, .check, .drained] = some s ∧
      s.loop = .stopped ∧ s.ids.takenCount = 0 ∧ s.shared.registry.size = 0 := by
  let events : List Event :=
    [.begin, .check, .accept, .check, .worker 0 (.greet Sample.client), .worker 0 .drop]
  let later : List Event := [.worker 0 .unwind, .signal, .check, .drained]
  have hevents : (Sample.server.run? events).any fun t =>
      !t.shared.registry.contains 0 && t.ids.isTaken 0 &&
        (t.run? later).any fun s => s.loop = .stopped := by
    decide +kernel
  obtain ⟨t, ht, hchecks⟩ := (Option.any_eq_true _ _).1 hevents
  simp only [Bool.and_eq_true, Bool.not_eq_true'] at hchecks
  obtain ⟨⟨hgone, htaken⟩, hlater⟩ := hchecks
  obtain ⟨s, hs, hstopped⟩ := (Option.any_eq_true _ _).1 hlater
  have hstopped : s.loop = .stopped := of_decide_eq_true hstopped
  have hheld := (ids_in_custody ht).held 0
  rw [if_pos htaken] at hheld
  have hrun : Sample.server.run? (events ++ later) = some s := by
    rw [Server.run?, List.foldlM_append]
    exact Option.bind_eq_some_iff.2 ⟨t, ht, hs⟩
  obtain ⟨-, hcount, -, hempty⟩ := (ids_in_custody hrun).ended hstopped
  exact ⟨t, s, ht, hgone, htaken, hheld, hs, hstopped, hcount, hempty⟩

end Relay
