import Relay.Proofs.Link.Stopping
import Relay.Proofs.Server.Sendable

/-!
# `Relay.Proofs.Server.Stopping`: a request to shut down reaches the loop

The loop that takes connections looks at the mark of shutdown each time around, and otherwise waits
for something to happen. The mark alone does not wake it. What wakes it is a request, which is made
when the worker of the administrator ends, long after the mark was set. So there are states in which
everything is refused and the loop waits. `Server.Blocked` says that nothing has happened by then
that will wake it.

`Worker.Carries` says that a worker has the request in hand, from the moment at which the mark is
set to the moment at which the worker ends. Whatever happens to the relay, a worker that carries the
request goes on to carry it, makes the request, or is dropped (`carries_of_step?`). Hence a relay
that refuses requests is not blocked, or a worker carries the request, as long as nobody drops that
worker (`awake_or_carried_of_run?`). Once the request is made, the loop is never blocked again
(`Awake.of_step?`). A worker that carries the request can always make it (`reaches_of_carries`).

An event is one of a worker, for which `Server.Handles` lists the cases, or one that leaves the
sessions where they are (`Server.Passes`).
-/

set_option autoImplicit false

namespace Relay

/-! ### Workers -/

/-- A worker has a request to shut down in hand. -/
inductive Worker.Carries : Worker → Prop where
  /-- Its reader has. -/
  | serving {link : Link} (hreader : link.reader.Carries) : Carries (serving link)
  /-- Its reader has ended with it, and the writer has not. -/
  | flushing {link : Link} {deadline : Nat} (hreader : link.reader = .ended (.ok .shutdown)) :
      Carries (flushing link (.ok .shutdown) deadline)

/-- What a worker knows of a shutdown, it carries; and the outcome with which it waits for its
writer is the one that its reader ended with. -/
def Worker.Orderly : Worker → Prop
  | serving link => link.reader.outcome? = some .shutdown → link.reader.Carries
  | flushing link result _ => link.reader = .ended result
  | refusing | greeting _ | unwinding _ | ended _ => True

namespace Worker

variable {worker next : Worker} {l : Link}

theorem orderly_of_link? (h : worker.link? = none) : worker.Orderly := by
  cases worker with
  | serving | flushing => cases h
  | refusing | greeting | unwinding | ended => trivial

/-- A worker on whose connection routing came to the shutdown carries the request. -/
theorem Orderly.carries (h : worker.Orderly) (hknown : worker.outcome? = some .shutdown) :
    worker.Carries := by
  cases worker with
  | serving link => exact .serving (h (link.outcome?_eq ▸ hknown))
  | flushing link result deadline =>
    have hended : link.reader = .ended result := h
    have hresult : result = .ok .shutdown := by
      have houtcome : link.outcome? = some .shutdown := hknown
      rw [link.outcome?_eq, hended] at houtcome
      cases result with
      | error => cases houtcome
      | ok outcome => rw [Option.some.inj houtcome]
    subst hresult
    exact .flushing hended
  | refusing | greeting | unwinding | ended => cases hknown

theorem Carries.exists_link (h : worker.Carries) : ∃ l, worker.link? = some l := by
  cases h with
  | serving | flushing => exact ⟨_, rfl⟩

theorem Carries.link?_ne_none (h : worker.Carries) : worker.link? ≠ none := by
  obtain ⟨l, hl⟩ := h.exists_link
  rw [hl]
  exact nofun

theorem Marked.lease? (h : worker.Marked next) : next.lease? = worker.lease? := by
  cases h <;> rfl

theorem Marked.orderly (h : worker.Marked next) (horderly : worker.Orderly) : next.Orderly := by
  cases h with
  | refl => exact horderly
  | closing => exact horderly

theorem Marked.carries (h : worker.Marked next) (hcarries : worker.Carries) : next.Carries := by
  cases h with
  | refl => exact hcarries
  | closing =>
    cases hcarries with
    | serving hreader => exact .serving hreader

end Worker

namespace Server

variable {s s' t : Server} {event : Event} {index : Nat} {worker : Worker}

/-! ### What happens to a worker -/

/-- What an event of a worker makes of the worker, given the state that connections share after it
and whether the loop is to be woken then. -/
inductive Handles (s : Server) (σ : State) (wake : Bool) :
    Worker → WorkerEvent → Worker → Prop where
  /-- The worker has no session, or has one that begins. -/
  | apart {worker next : Worker} {event : WorkerEvent} (hlink : worker.link? = none)
      (hnext : next.Orderly) (hmark : σ.shuttingDown = s.shared.shuttingDown)
      (hwake : wake = s.wake) : Handles s σ wake worker event next
  /-- The session takes a step. -/
  | serves {l l' : Link} {event : LinkEvent} (hid : l'.id = l.id)
      (hcourse : Link.Course s.host.service s.now l s.shared l' σ) (hwake : wake = s.wake) :
      Handles s σ wake (.serving l) (.link event) (.serving l')
  /-- The session takes a step while the worker waits for the writer. -/
  | flushes {l l' : Link} {event : LinkEvent} (hid : l'.id = l.id)
      (hcourse : Link.Course s.host.service s.now l s.shared l' σ) (hwake : wake = s.wake)
      (result : Except WireError Outcome) (deadline : Nat) :
      Handles s σ wake (.flushing l result deadline) (.link event) (.flushing l' result deadline)
  /-- The reader has ended. -/
  | leaves {l : Link} {result : Except WireError Outcome} (hended : l.reader = .ended result)
      (hmark : σ.shuttingDown = s.shared.shuttingDown) (hwake : wake = s.wake) (deadline : Nat) :
      Handles s σ wake (.serving l) .leave (.flushing { l with released := true } result deadline)
  /-- The worker ends with the shutdown, and requests it. -/
  | requests {l : Link} {deadline : Nat} (hmark : σ.shuttingDown = true) (hwake : wake = true) :
      Handles s σ wake (.flushing l (.ok .shutdown) deadline) .depart (.ended false)
  /-- The worker ends with anything else. -/
  | departs {l : Link} {result : Except WireError Outcome} {deadline : Nat}
      (hresult : result ≠ .ok .shutdown) (hmark : σ.shuttingDown = s.shared.shuttingDown)
      (hwake : wake = s.wake) :
      Handles s σ wake (.flushing l result deadline) .depart (.ended false)
  /-- The worker is dropped. -/
  | drops {worker next : Worker} (hnext : next.link? = none)
      (hmark : σ.shuttingDown = s.shared.shuttingDown) (hwake : wake = s.wake) :
      Handles s σ wake worker .drop next

/-- An event of the worker at a place changes the worker at that place, and nothing of the loop but
the permit that wakes it. -/
structure Replaces (s : Server) (index : Nat) (worker : Worker) (event : WorkerEvent)
    (s' : Server) (next : Worker) : Prop where
  workers : s'.workers = s.workers.set index next
  loop : s'.loop = s.loop
  handles : s.Handles s'.shared s'.wake worker event next

theorem giveBack_loop (s : Server) (id : ConnId) :
    (s.giveBack id).loop = s.loop ∧ (s.giveBack id).wake = s.wake := by
  unfold giveBack
  split <;> exact ⟨rfl, rfl⟩

/-- Giving an id back makes no difference to a request. -/
theorem Replaces.giveBack {next : Worker} {wevent : WorkerEvent}
    (h : s.Replaces index worker wevent t next) (id : ConnId) :
    s.Replaces index worker wevent (t.giveBack id) next := by
  obtain ⟨-, hshared, hworkers⟩ := t.giveBack_eq id
  obtain ⟨hloop, hwake⟩ := t.giveBack_loop id
  exact ⟨hworkers.trans h.workers, hloop.trans h.loop, by rw [hshared, hwake]; exact h.handles⟩

/-- So is it for a worker that ends. -/
theorem Replaces.release {dropped : Bool} {wevent : WorkerEvent} {id : ConnId}
    (h : s.Replaces index worker wevent
      ({ t with shared := { t.shared with outboxes := t.shared.outboxes.erase id } }.setWorker index
        (.ended dropped)) (.ended dropped)) :
    s.Replaces index worker wevent (t.release index id dropped) (.ended dropped) :=
  h.giveBack id

theorem replaces_greet (id : ConnId) (hworker : s.workers[index]? = some (.greeting id))
    (peer : Peer) :
    ∃ next, s.Replaces index (.greeting id) (.greet peer) (s.greet index id peer) next := by
  have hgreets := s.greets_greet index id peer
  generalize s.greet index id peer = s' at hgreets ⊢
  cases hgreets with
  | fails entropy metrics =>
    have hended : s.Replaces index (.greeting id) (.greet peer)
        ({ s with shared := { s.shared with entropy, metrics } }.setWorker index (.ended false))
        (.ended false) := ⟨rfl, rfl, .apart rfl trivial rfl rfl⟩
    exact ⟨_, hended.giveBack id⟩
  | begins => exact ⟨_, rfl, rfl, .apart rfl nofun rfl rfl⟩
  | halts =>
    -- The worker stays as it is, in a relay that stops here.
    have hindex := List.getElem?_eq_some_iff.1 hworker
    refine ⟨.greeting id, ?_, rfl, .apart rfl trivial rfl rfl⟩
    rw [← hindex.2, List.set_getElem_self]

theorem replaces_link? {levent : LinkEvent} (hstep : s.link? index levent worker = some s') :
    ∃ next, s.Replaces index worker (.link levent) s' next := by
  unfold link? at hstep
  split at hstep
  · obtain ⟨⟨k, σ⟩, hlink, rfl⟩ := Option.map_eq_some_iff.1 hstep
    obtain ⟨hid, hcourse⟩ := Link.course_of_step? hlink
    exact ⟨_, rfl, rfl, .serves hid hcourse rfl⟩
  · obtain ⟨⟨k, σ⟩, hlink, rfl⟩ := Option.map_eq_some_iff.1 hstep
    obtain ⟨hid, hcourse⟩ := Link.course_of_step? hlink
    exact ⟨_, rfl, rfl, .flushes hid hcourse rfl _ _⟩
  · cases hstep

theorem replaces_depart? (hstep : s.depart? index worker = some s') :
    ∃ next, s.Replaces index worker .depart s' next := by
  unfold depart? at hstep
  split at hstep
  · split at hstep
    · cases hstep
      refine ⟨.ended false, ?_⟩
      split
      · exact Replaces.release ⟨rfl, rfl, .requests rfl rfl⟩
      · rename_i hresult
        exact Replaces.release ⟨rfl, rfl, .departs hresult rfl rfl⟩
    · cases hstep
  · cases hstep

theorem replaces_drop? (hstep : s.drop? index worker = some s') :
    ∃ next, s.Replaces index worker .drop s' next := by
  cases worker with
  | refusing =>
    cases hstep
    exact ⟨_, rfl, rfl, .drops rfl rfl rfl⟩
  | greeting id =>
    cases hstep
    have hended : s.Replaces index (.greeting id) .drop (s.setWorker index (.ended true))
        (.ended true) := ⟨rfl, rfl, .drops rfl rfl rfl⟩
    exact ⟨_, hended.giveBack id⟩
  | serving link =>
    cases hstep
    exact ⟨_, rfl, rfl, .drops rfl rfl rfl⟩
  | flushing link result deadline =>
    cases hstep
    exact ⟨_, Replaces.release ⟨rfl, rfl, .drops rfl rfl rfl⟩⟩
  | unwinding id => cases hstep
  | ended dropped => cases hstep

theorem replaces_worker? (hworker : s.workers[index]? = some worker) {wevent : WorkerEvent}
    (hstep : s.worker? index worker wevent = some s') :
    ∃ next, s.Replaces index worker wevent s' next := by
  cases wevent with
  | refuse =>
    simp only [worker?] at hstep
    split at hstep
    · cases hstep
      exact ⟨.ended false, rfl, rfl, .apart rfl trivial rfl rfl⟩
    · cases hstep
  | greet peer =>
    simp only [worker?] at hstep
    split at hstep
    · cases hstep
      exact replaces_greet _ hworker peer
    · cases hstep
  | link levent => exact replaces_link? hstep
  | leave =>
    simp only [worker?, leave?] at hstep
    split at hstep
    · split at hstep
      · rename_i link _ _ hended
        cases hstep
        refine ⟨_, rfl, rfl, .leaves hended ?_ ?_ _⟩
        · rfl
        · rfl
      · cases hstep
    · cases hstep
  | depart => exact replaces_depart? hstep
  | drop => exact replaces_drop? hstep
  | unwind =>
    simp only [worker?, unwind?] at hstep
    split at hstep
    · cases hstep
      exact ⟨_, Replaces.release ⟨rfl, rfl, .apart rfl trivial rfl rfl⟩⟩
    · cases hstep

/-! ### What happens to the loop -/

/-- The loop waits, and nothing has happened since it last looked that will wake it. -/
def Blocked (s : Server) : Prop := (∃ lease, s.loop = .waiting lease) ∧ s.wake = false

theorem not_blocked_of_wake (h : s.wake = true) : ¬ s.Blocked := by
  intro hblocked
  rw [hblocked.2] at h
  cases h

theorem not_blocked_of_loop (h : ∀ lease, s.loop ≠ .waiting lease) : ¬ s.Blocked := by
  intro hblocked
  obtain ⟨lease, hloop⟩ := hblocked.1
  exact h lease hloop

/-- An event that is not one of a worker leaves the sessions where they are. When requests are
refused after it, the loop is not blocked, or the event concerned neither the mark nor the loop. -/
structure Passes (s s' : Server) : Prop where
  kept : ∀ worker ∈ s.workers, worker.link? ≠ none → ∃ next ∈ s'.workers, worker.Marked next
  fresh : ∀ next ∈ s'.workers, next.link? = none ∨ ∃ worker ∈ s.workers, worker.Marked next
  mark : s.shared.shuttingDown = true → s'.shared.shuttingDown = true
  loop : s'.shared.shuttingDown = true →
    ¬ s'.Blocked ∨ s.shared.shuttingDown = true ∧ s'.loop = s.loop ∧ s'.wake = s.wake

/-- The workers are as they were, and the loop is not blocked when requests are refused. -/
theorem passes_of_same (hworkers : s'.workers = s.workers)
    (hmark : s.shared.shuttingDown = true → s'.shared.shuttingDown = true)
    (hloop : s'.shared.shuttingDown = true → ¬ s'.Blocked) : s.Passes s' where
  kept worker hworker _ := ⟨worker, hworkers ▸ hworker, .refl worker⟩
  fresh next hnext := .inr ⟨next, hworkers ▸ hnext, .refl next⟩
  mark := hmark
  loop hdown := .inl (hloop hdown)

/-- A loop that has gone around is about to look at the mark. -/
theorem turnRound_eq (s : Server) (lease : Option ConnId) :
    (s.turnRound lease).loop = .checking ∧ (s.turnRound lease).shared = s.shared ∧
      (s.turnRound lease).workers = s.workers := by
  cases lease with
  | none => exact ⟨rfl, rfl, rfl⟩
  | some id =>
    obtain ⟨-, hshared, hworkers⟩ := giveBack_eq { s with loop := .checking } id
    exact ⟨(giveBack_loop { s with loop := .checking } id).1, hshared, hworkers⟩

theorem passes_turnRound (s t : Server) (hworkers : t.workers = s.workers)
    (hmark : s.shared.shuttingDown = true → t.shared.shuttingDown = true)
    (lease : Option ConnId) : s.Passes (t.turnRound lease) := by
  obtain ⟨hloop, hshared, hrest⟩ := t.turnRound_eq lease
  refine passes_of_same (hrest.trans hworkers) (fun hdown => hshared ▸ hmark hdown) fun _ => ?_
  exact not_blocked_of_loop fun _ => by rw [hloop]; nofun

theorem passes_whileWaiting {f : Option ConnId → Server} (hf : ∀ lease, s.Passes (f lease))
    (hstep : t.whileWaiting f = some s') : s.Passes s' := by
  unfold whileWaiting at hstep
  split at hstep
  · cases hstep
    exact hf _
  · cases hstep

theorem passes_accept (s : Server) (lease : Option ConnId) : s.Passes (s.accept lease) := by
  have happended {new : Worker} (hnew : new.link? = none) {σ : State}
      (hmark : σ.shuttingDown = s.shared.shuttingDown) :
      s.Passes { s with shared := σ, workers := s.workers ++ [new], loop := .checking } := by
    refine ⟨fun worker hworker _ => ?_, fun next hnext => ?_, fun hdown => hmark.trans hdown, ?_⟩
    · exact ⟨worker, List.mem_append_left _ hworker, .refl worker⟩
    · rcases List.mem_append.1 hnext with hold | hlast
      · exact .inr ⟨next, hold, .refl next⟩
      · rw [List.mem_singleton.1 hlast]
        exact .inl hnew
    · exact fun _ => .inl (not_blocked_of_loop (by simp))
  cases lease with
  | none => exact happended rfl rfl
  | some id => exact happended rfl rfl

theorem passes_collect? (hstep : s.collect? index = some s') : s.Passes s' := by
  -- The worker that is collected has ended, so that it has no session.
  have herased {dropped : Bool} (hended : s.workers[index]? = some (.ended dropped))
      (hworkers : s'.workers = s.workers.eraseIdx index) (hshared : s'.shared = s.shared)
      (hloop : ∀ lease, s'.loop ≠ .waiting lease) : s.Passes s' := by
    refine ⟨fun worker hworker hlink => ?_, fun next hnext => ?_, fun hdown => ?_, fun _ => ?_⟩
    · obtain ⟨place, hplace⟩ := List.mem_iff_getElem?.1 hworker
      have hother : place ≠ index := by
        rintro rfl
        rw [hended] at hplace
        cases hplace
        exact hlink rfl
      refine ⟨worker, ?_, .refl worker⟩
      rw [hworkers]
      exact List.mem_eraseIdx_iff_getElem?.2 ⟨place, hother, hplace⟩
    · rw [hworkers] at hnext
      exact .inr ⟨next, List.mem_of_mem_eraseIdx hnext, .refl next⟩
    · exact hshared ▸ hdown
    · exact .inl (not_blocked_of_loop hloop)
  unfold collect? at hstep
  split at hstep
  · rename_i dropped lease hended hwaiting
    cases hstep
    obtain ⟨hloop, hshared, hworkers⟩ :=
      turnRound_eq { s with workers := s.workers.eraseIdx index } lease
    exact herased hended hworkers hshared fun _ => by rw [hloop]; nofun
  · rename_i dropped deadline hended hdraining
    cases hstep
    exact herased hended rfl rfl fun _ => by rw [hdraining]; nofun
  · cases hstep

theorem passes_drained? (hstep : s.drained? = some s') : s.Passes s' := by
  -- No worker is left that has a session.
  have hended (hall : s.workers.all Worker.hasEnded) :
      s.Passes { s with workers := [], loop := .stopped } := by
    have hnone (next : Worker) (hnext : next ∈ ([] : List Worker)) :
        next.link? = none ∨ ∃ worker ∈ s.workers, worker.Marked next := by cases hnext
    refine ⟨fun worker hworker hlink => ?_, hnone, id,
      fun _ => .inl (not_blocked_of_loop (by simp))⟩
    have hhasEnded := List.all_eq_true.1 hall worker hworker
    cases worker with
    | ended dropped => exact absurd rfl hlink
    | refusing | greeting | serving | flushing | unwinding => cases hhasEnded
  unfold drained? at hstep
  split at hstep
  · rename_i hall
    split at hstep
    · cases hstep
      exact hended hall
    · cases hstep
      exact hended hall
    · cases hstep
  · cases hstep

theorem passes_watch? (hstep : s.watch? = some s') : s.Passes s' := by
  obtain ⟨mark, hmarks, rfl⟩ := exists_marks_of_watch? hstep
  refine ⟨fun worker hworker _ => ?_, fun next hnext => ?_, id, fun hdown => ?_⟩
  · exact ⟨_, List.mem_map_of_mem hworker, hmarks worker⟩
  · obtain ⟨worker, hworker, rfl⟩ := List.mem_map.1 hnext
    exact .inr ⟨worker, hworker, hmarks worker⟩
  · exact .inr ⟨hdown, rfl, rfl⟩

/-- Every event is one of a worker, or passes the sessions by. -/
theorem passes_or_replaces (hstep : s.step? event = some s') :
    s.Passes s' ∨ ∃ (index : Nat) (wevent : WorkerEvent) (worker next : Worker),
      event = .worker index wevent ∧ s.workers[index]? = some worker ∧
        s.Replaces index worker wevent s' next := by
  unfold step? at hstep
  split at hstep
  · cases hstep
  · cases event with
    | begin =>
      simp only [begin?] at hstep
      split at hstep
      · cases hstep
        exact .inl (passes_of_same rfl id fun _ => not_blocked_of_loop (by simp))
      · cases hstep
    | check =>
      simp only [check?] at hstep
      split at hstep
      · split at hstep
        · cases hstep
          exact .inl (passes_of_same rfl id fun _ => not_blocked_of_loop (by simp))
        · -- The loop waits only if requests are not refused.
          rename_i hup
          refine .inl ?_
          split at hstep
          · cases hstep
            exact passes_of_same rfl id fun hdown => absurd hdown hup
          · cases hstep
            exact passes_of_same rfl id fun hdown => absurd hdown hup
      · cases hstep
    | accept => exact .inl (passes_whileWaiting s.passes_accept hstep)
    | acceptFail => exact .inl (passes_whileWaiting (passes_turnRound s s rfl id) hstep)
    | collect index => exact .inl (passes_collect? hstep)
    | wake =>
      dsimp only at hstep
      split at hstep
      · have hasleep (lease : Option ConnId) :
            s.Passes ({ s with wake := false }.turnRound lease) :=
          passes_turnRound s { s with wake := false } rfl id lease
        exact .inl (passes_whileWaiting hasleep hstep)
      · cases hstep
    | signal =>
      have hrequested (lease : Option ConnId) : s.Passes (s.requestShutdown.turnRound lease) :=
        passes_turnRound s s.requestShutdown rfl (fun _ => rfl) lease
      exact .inl (passes_whileWaiting hrequested hstep)
    | drained => exact .inl (passes_drained? hstep)
    | expire =>
      simp only [expire?] at hstep
      split at hstep
      · split at hstep
        · cases hstep
          exact .inl (passes_of_same rfl id fun _ => not_blocked_of_loop (by simp))
        · cases hstep
      · cases hstep
    | requestShutdown =>
      cases hstep
      exact .inl (passes_of_same rfl (fun _ => rfl) fun _ => not_blocked_of_wake rfl)
    | watch => exact .inl (passes_watch? hstep)
    | tick now =>
      dsimp only at hstep
      split at hstep
      · cases hstep
        refine .inl ⟨fun worker hworker _ => ⟨worker, hworker, .refl worker⟩,
          fun next hnext => .inr ⟨next, hnext, .refl next⟩, id, fun hdown => .inr ⟨hdown, rfl, rfl⟩⟩
      · cases hstep
    | worker index wevent =>
      obtain ⟨worker, hworker, hworkerStep⟩ := Option.bind_eq_some_iff.1 hstep
      obtain ⟨next, hreplaces⟩ := replaces_worker? hworker hworkerStep
      exact .inr ⟨index, wevent, worker, next, rfl, hworker, hreplaces⟩

/-! ### What one event does to a request -/

/-- Requests are refused, and the loop is not blocked: it will look at the mark again. -/
structure Awake (s : Server) : Prop where
  mark : s.shared.shuttingDown = true
  unblocked : ¬ s.Blocked

/-- Some worker has a request to shut down in hand. -/
def Carried (s : Server) : Prop := ∃ worker ∈ s.workers, worker.Carries

/-- All that the sessions of a relay have in hand fits, and its workers know no shutdown that they
do not carry. -/
structure Tended (s : Server) : Prop where
  fits : s.Fits
  orderly : ∀ worker ∈ s.workers, worker.Orderly

/-- There is no reply to a request to shut down. -/
theorem Fits.quiet (h : s.Fits) {l : Link} (hl : l ∈ s.links) {replies : List Message} {since : Nat}
    (hclearing : l.reader = .routing .clearance replies since) : replies = [] := by
  obtain ⟨-, -, hnone | ⟨ids, hids⟩⟩ := (h.links l hl).pending _ _ _ hclearing
  · exact hnone
  · cases hids

/-- A worker with a session is marked at most, or the event is one of its own. -/
theorem exists_next_of_step? (hstep : s.step? event = some s')
    (hworker : s.workers[index]? = some worker) (hlink : worker.link? ≠ none) :
    ∃ next ∈ s'.workers, worker.Marked next ∨
      ∃ wevent, event = .worker index wevent ∧ s.Handles s'.shared s'.wake worker wevent next := by
  rcases passes_or_replaces hstep with hpasses | ⟨place, wevent, old, next, rfl, hold, hreplaces⟩
  · obtain ⟨next, hnext, hmarked⟩ := hpasses.kept worker (List.mem_of_getElem? hworker) hlink
    exact ⟨next, hnext, .inl hmarked⟩
  · by_cases hplace : place = index
    · subst hplace
      obtain rfl : old = worker := Option.some.inj (hold.symm.trans hworker)
      refine ⟨next, ?_, .inr ⟨wevent, rfl, hreplaces.handles⟩⟩
      rw [hreplaces.workers]
      exact List.mem_set (List.getElem?_eq_some_iff.1 hold).1 next
    · -- The event is one of another worker.
      refine ⟨worker, List.mem_of_getElem? (i := index) ?_, .inl (.refl worker)⟩
      rw [hreplaces.workers, List.getElem?_set_ne hplace]
      exact hworker

/-- A worker that carries a request goes on to carry it, for the same connection, unless it ends and
makes the request, or is dropped. -/
theorem carries_of_step? (hstep : s.step? event = some s')
    (hworker : s.workers[index]? = some worker) (hcarries : worker.Carries) :
    (∃ next ∈ s'.workers, next.lease? = worker.lease? ∧ next.Carries) ∨
      (event = .worker index .depart ∧ s'.shared.shuttingDown = true ∧ s'.wake = true) ∨
      event = .worker index .drop := by
  obtain ⟨next, hnext, hmarked | ⟨wevent, rfl, hhandles⟩⟩ :=
    exists_next_of_step? hstep hworker hcarries.link?_ne_none
  · exact .inl ⟨next, hnext, hmarked.lease?, hmarked.carries hcarries⟩
  · cases hhandles with
    | apart hlink => exact absurd hlink hcarries.link?_ne_none
    | serves hid hcourse =>
      cases hcarries with
      | serving hreader =>
        exact .inl ⟨_, hnext, congrArg some hid, .serving (hcourse.carries hreader)⟩
    | flushes hid hcourse =>
      cases hcarries with
      | flushing hended =>
        exact .inl ⟨_, hnext, congrArg some hid, .flushing (hcourse.reader_of_ended hended)⟩
    | leaves hended =>
      cases hcarries with
      | serving hreader =>
        obtain rfl := ReaderStage.Carries.of_ended (hended ▸ hreader)
        exact .inl ⟨_, hnext, rfl, .flushing hended⟩
    | requests hmark hwake => exact .inr (.inl ⟨rfl, hmark, hwake⟩)
    | departs hresult =>
      cases hcarries with
      | flushing => exact absurd rfl hresult
    | drops => exact .inr (.inr rfl)

theorem orderly_of_step? (h : s.Tended) (hstep : s.step? event = some s') :
    ∀ next ∈ s'.workers, next.Orderly := by
  intro other hother
  rcases passes_or_replaces hstep with hpasses | ⟨place, wevent, old, next, rfl, hold, hreplaces⟩
  · rcases hpasses.fresh other hother with hnone | ⟨worker, hworker, hmarked⟩
    · exact Worker.orderly_of_link? hnone
    · exact hmarked.orderly (h.orderly worker hworker)
  · rw [hreplaces.workers] at hother
    rcases List.mem_or_eq_of_mem_set hother with hbefore | rfl
    · exact h.orderly other hbefore
    · have horderly := h.orderly old (List.mem_of_getElem? hold)
      cases hreplaces.handles with
      | apart _ hnext => exact hnext
      | serves _ hcourse =>
        have hl := mem_links_of_getElem? hold rfl
        exact fun hknown => hcourse.carries_of_outcome horderly (fun _ _ => h.fits.quiet hl) hknown
      | flushes _ hcourse => exact hcourse.reader_of_ended horderly
      | leaves hended => exact hended
      | requests => trivial
      | departs => trivial
      | drops hnext => exact Worker.orderly_of_link? hnext

theorem Tended.of_step? (h : s.Tended) (hstep : s.step? event = some s') : s'.Tended :=
  ⟨h.fits.of_course (course_of_step? hstep).2, orderly_of_step? h hstep⟩

/-- The mark is not taken back. -/
theorem mark_of_step? (hstep : s.step? event = some s') (hmark : s.shared.shuttingDown = true) :
    s'.shared.shuttingDown = true := by
  rcases passes_or_replaces hstep with hpasses | ⟨place, wevent, old, next, rfl, hold, hreplaces⟩
  · exact hpasses.mark hmark
  · have hcourse {l l' : Link}
        (hcourse : Link.Course s.host.service s.now l s.shared l' s'.shared) :
        s'.shared.shuttingDown = true := by
      rcases hcourse.shuttingDown_cases with hsame | ⟨hset, -⟩
      · exact hsame.trans hmark
      · exact hset
    cases hreplaces.handles with
    | apart _ _ hsame => exact hsame.trans hmark
    | serves _ hlink => exact hcourse hlink
    | flushes _ hlink => exact hcourse hlink
    | leaves _ hsame => exact hsame.trans hmark
    | requests hset => exact hset
    | departs _ hsame => exact hsame.trans hmark
    | drops _ hsame => exact hsame.trans hmark

/-- When requests are refused, the loop is not blocked, or it is as it was before. Then the mark was
set before as well, or a worker carries the request for which it has been set. -/
theorem awake_or_carried_of_step? (h : s.Tended) (hstep : s.step? event = some s')
    (hmark : s'.shared.shuttingDown = true) :
    s'.Awake ∨ (s'.loop = s.loop ∧ s'.wake = s.wake) ∧
      (s.shared.shuttingDown = true ∨ s'.Carried) := by
  have htended := h.of_step? hstep
  rcases passes_or_replaces hstep with hpasses | ⟨place, wevent, old, next, rfl, hold, hreplaces⟩
  · rcases hpasses.loop hmark with hunblocked | ⟨hbefore, hsame⟩
    · exact .inl ⟨hmark, hunblocked⟩
    · exact .inr ⟨hsame, .inl hbefore⟩
  · have hnext : next ∈ s'.workers := by
      rw [hreplaces.workers]
      exact List.mem_set (List.getElem?_eq_some_iff.1 hold).1 next
    have hloop := hreplaces.loop
    have hkept (hsame : s'.shared.shuttingDown = s.shared.shuttingDown) :
        s.shared.shuttingDown = true ∨ s'.Carried := .inl (hsame.symm.trans hmark)
    cases hreplaces.handles with
    | apart _ _ hsame hwake => exact .inr ⟨⟨hloop, hwake⟩, hkept hsame⟩
    | serves _ hcourse hwake =>
      refine .inr ⟨⟨hloop, hwake⟩, ?_⟩
      rcases hcourse.shuttingDown_cases with hsame | ⟨-, replies, since, hclearing⟩
      · exact hkept hsame
      · obtain rfl := htended.fits.quiet (mem_links_iff.2 ⟨_, hnext, rfl⟩) hclearing
        exact .inr ⟨_, hnext, .serving (hclearing ▸ .clearing since)⟩
    | flushes _ hcourse hwake =>
      refine .inr ⟨⟨hloop, hwake⟩, ?_⟩
      rcases hcourse.shuttingDown_cases with hsame | ⟨-, replies, since, hclearing⟩
      · exact hkept hsame
      · -- The reader has ended, and routes nothing more.
        have hended := hcourse.reader_of_ended (h.orderly _ (List.mem_of_getElem? hold))
        rw [hclearing] at hended
        cases hended
    | leaves _ hsame hwake => exact .inr ⟨⟨hloop, hwake⟩, hkept hsame⟩
    | requests _ hwake => exact .inl ⟨hmark, not_blocked_of_wake hwake⟩
    | departs _ hsame hwake => exact .inr ⟨⟨hloop, hwake⟩, hkept hsame⟩
    | drops _ hsame hwake => exact .inr ⟨⟨hloop, hwake⟩, hkept hsame⟩

/-- A loop that will look at the mark again does so, and is never blocked after that. -/
theorem Awake.of_step? (h : s.Awake) (htended : s.Tended) (hstep : s.step? event = some s') :
    s'.Awake := by
  have hmark := mark_of_step? hstep h.mark
  rcases awake_or_carried_of_step? htended hstep hmark with hawake | ⟨⟨hloop, hwake⟩, -⟩
  · exact hawake
  · refine ⟨hmark, fun hblocked => h.unblocked ?_⟩
    rwa [Blocked, hloop, hwake] at hblocked

/-! ### What a run does to a request -/

/-- An event happens in a run, between two states of it. -/
structure Occurs (s₀ : Server) (events : List Event) (s : Server) (event : Event) (s' : Server) :
    Prop where
  reached : ∃ before after : List Event, events = before ++ event :: after ∧ s₀.run? before = some s
  step : s.step? event = some s'

theorem occurs_head (hstep : s.step? event = some s') (events : List Event) :
    s.Occurs (event :: events) s event s' := ⟨⟨[], events, rfl, rfl⟩, hstep⟩

theorem Occurs.tail {first next : Server} {earlier : Event} {events : List Event}
    (h : next.Occurs events s event s') (hstep : first.step? earlier = some next) :
    first.Occurs (earlier :: events) s event s' := by
  obtain ⟨before, after, rfl, hbefore⟩ := h.reached
  refine ⟨⟨earlier :: before, after, rfl, ?_⟩, h.step⟩
  exact Option.bind_eq_some_iff.2 ⟨next, hstep, hbefore⟩

/-- In a run, something happens to a worker that carries a request and holds the given id. -/
def Befalls (s₀ : Server) (events : List Event) (lease : Option ConnId) (wevent : WorkerEvent)
    (s' : Server) : Prop :=
  ∃ (s : Server) (index : Nat) (worker : Worker), s₀.Occurs events s (.worker index wevent) s' ∧
    s.workers[index]? = some worker ∧ worker.lease? = lease ∧ worker.Carries

theorem Befalls.tail {next : Server} {events : List Event} {lease : Option ConnId}
    {wevent : WorkerEvent} (h : next.Befalls events lease wevent s')
    (hstep : s.step? event = some next) : s.Befalls (event :: events) lease wevent s' := by
  obtain ⟨t, index, worker, hoccurs, hworker, hlease, hcarries⟩ := h
  exact ⟨t, index, worker, hoccurs.tail hstep, hworker, hlease, hcarries⟩

variable {events : List Event}

theorem Tended.of_run? (h : s.Tended) (hrun : s.run? events = some s') : s'.Tended :=
  invariant_of_run? (fun hstep hs => hs.of_step? hstep) h hrun

theorem Awake.of_run? (h : s.Awake) (htended : s.Tended) (hrun : s.run? events = some s') :
    s'.Awake := by
  have hboth : s'.Awake ∧ s'.Tended :=
    invariant_of_run? (P := fun s => s.Awake ∧ s.Tended)
      (fun hstep hs => ⟨hs.1.of_step? hs.2 hstep, hs.2.of_step? hstep⟩) ⟨h, htended⟩ hrun
  exact hboth.1

/-- As long as requests are refused, the loop will look at the mark or a worker carries a request,
unless a worker that carried one was dropped. -/
theorem awake_or_carried_of_run? (htended : s.Tended)
    (h : s.shared.shuttingDown = true → s.Awake ∨ s.Carried) (hrun : s.run? events = some s')
    (hmark : s'.shared.shuttingDown = true) :
    s'.Awake ∨ s'.Carried ∨ ∃ lease t, s.Befalls events lease .drop t := by
  -- Induction on the events, from the state that the first of them leads to. What holds there is
  -- lost only if this first event drops a worker that carries a request.
  induction events generalizing s with
  | nil =>
    cases hrun
    exact (h hmark).imp id .inl
  | cons event events ih =>
    obtain ⟨next, hstep, hrest⟩ := Option.bind_eq_some_iff.1 hrun
    by_cases hdrop : ∃ lease t, s.Befalls (event :: events) lease .drop t
    · exact .inr (.inr hdrop)
    · have hnext : next.shared.shuttingDown = true → next.Awake ∨ next.Carried := by
        intro hset
        rcases awake_or_carried_of_step? htended hstep hset with
          hawake | ⟨⟨hloop, hwake⟩, hbefore | hcarried⟩
        · exact .inl hawake
        · rcases h hbefore with hawake | ⟨worker, hworker, hcarries⟩
          · exact .inl (hawake.of_step? htended hstep)
          · obtain ⟨index, hindex⟩ := List.mem_iff_getElem?.1 hworker
            rcases carries_of_step? hstep hindex hcarries with
              ⟨later, hlater, -, hstill⟩ | ⟨-, -, hrequested⟩ | rfl
            · exact .inr ⟨later, hlater, hstill⟩
            · exact .inl ⟨hset, not_blocked_of_wake hrequested⟩
            · refine absurd ⟨worker.lease?, next, ?_⟩ hdrop
              exact ⟨s, index, worker, occurs_head hstep events, hindex, rfl, hcarries⟩
        · exact .inr hcarried
      rcases ih (htended.of_step? hstep) hnext hrest with hawake | hcarried | ⟨lease, t, hlater⟩
      · exact .inl hawake
      · exact .inr (.inl hcarried)
      · exact .inr (.inr ⟨lease, t, hlater.tail hstep⟩)

/-- A worker that carries a request carries it to the end of a run, unless it ends and makes the
request or is dropped. -/
theorem carries_of_run? (htended : s.Tended) (hrun : s.run? events = some s')
    (hworker : worker ∈ s.workers) (hcarries : worker.Carries) :
    (∃ next ∈ s'.workers, next.lease? = worker.lease? ∧ next.Carries) ∨
      (∃ t, s.Befalls events worker.lease? .depart t ∧ t.shared.shuttingDown = true ∧
        t.wake = true ∧ s'.Awake) ∨
      ∃ t, s.Befalls events worker.lease? .drop t := by
  -- Induction on the events. The worker that carries the request after the first of them holds the
  -- same id.
  induction events generalizing s worker with
  | nil =>
    cases hrun
    exact .inl ⟨worker, hworker, rfl, hcarries⟩
  | cons event events ih =>
    obtain ⟨next, hstep, hrest⟩ := Option.bind_eq_some_iff.1 hrun
    have hnext := htended.of_step? hstep
    obtain ⟨index, hindex⟩ := List.mem_iff_getElem?.1 hworker
    rcases carries_of_step? hstep hindex hcarries with
      ⟨later, hlater, hlease, hstill⟩ | ⟨rfl, hset, hwake⟩ | rfl
    · rw [← hlease]
      rcases ih hnext hrest hlater hstill with hkept | ⟨t, hbefalls, hrequested⟩ | ⟨t, hbefalls⟩
      · exact .inl hkept
      · exact .inr (.inl ⟨t, hbefalls.tail hstep, hrequested⟩)
      · exact .inr (.inr ⟨t, hbefalls.tail hstep⟩)
    · have hawake : next.Awake := ⟨hset, not_blocked_of_wake hwake⟩
      refine .inr (.inl ⟨next, ?_, hset, hwake, hawake.of_run? hnext hrest⟩)
      exact ⟨s, index, worker, occurs_head hstep events, hindex, rfl, hcarries⟩
    · refine .inr (.inr ⟨next, ?_⟩)
      exact ⟨s, index, worker, occurs_head hstep events, hindex, rfl, hcarries⟩

/-! ### How a request goes on -/

/-- The worker at a place can come to make a request by what it does itself, as time passes. -/
def Reaches (s : Server) (index : Nat) : Prop :=
  ∃ (more : List Event) (s' : Server), s.run? more = some s' ∧
    (∀ event ∈ more, (∃ now, event = .tick now) ∨
      ∃ wevent, wevent ≠ .drop ∧ event = .worker index wevent) ∧
    s'.shared.shuttingDown = true ∧ s'.wake = true

theorem Reaches.cons {next : Server} (h : next.Reaches index) (hstep : s.step? event = some next)
    (hown : (∃ now, event = .tick now) ∨ ∃ wevent, wevent ≠ .drop ∧ event = .worker index wevent) :
    s.Reaches index := by
  obtain ⟨more, s', hrun, hmore, hrequested⟩ := h
  refine ⟨event :: more, s', ?_, List.forall_mem_cons.2 ⟨hown, hmore⟩, hrequested⟩
  exact Option.bind_eq_some_iff.2 ⟨next, hstep, hrun⟩

theorem Reaches.cons_worker {wevent : WorkerEvent} {next : Server} (h : next.Reaches index)
    (hstep : s.step? (.worker index wevent) = some next) (hown : wevent ≠ .drop) :
    s.Reaches index := h.cons hstep (.inr ⟨wevent, hown, rfl⟩)

section
variable {limit : UInt32} {link : Link}

theorem step_worker (hrunning : s.halted = none) (hworker : s.workers[index]? = some worker)
    (wevent : WorkerEvent) :
    s.step? (.worker index wevent) = s.worker? index worker wevent := by
  simp only [step?, hrunning, hworker, Option.isSome_none, Bool.false_eq_true, if_false,
    Option.bind_some]

theorem getElem?_setWorker (hworker : s.workers[index]? = some worker) (next : Worker) :
    (s.setWorker index next).workers[index]? = some next :=
  List.getElem?_set_self (List.getElem?_eq_some_iff.1 hworker).1

/-- A worker that is out of time makes the request, whatever its writer has come to. -/
theorem reaches_of_late (hrunning : s.halted = none) {deadline : Nat}
    (hworker : s.workers[index]? = some (.flushing link (.ok .shutdown) deadline))
    (hlate : deadline ≤ s.now) : s.Reaches index := by
  have hdepart : s.step? (.worker index .depart) =
      some (s.requestShutdown.release index link.id false) := by
    rw [step_worker hrunning hworker]
    simp only [worker?, depart?]
    rw [if_pos (.inr hlate)]
  refine ⟨[.worker index .depart], _, Option.bind_eq_some_iff.2 ⟨_, hdepart, rfl⟩, ?_, ?_⟩
  · exact List.forall_mem_singleton.2 (.inr ⟨.depart, by simp, rfl⟩)
  · unfold release
    rw [(giveBack_eq _ _).2.1, (giveBack_loop _ _).2]
    exact ⟨rfl, rfl⟩

/-- A worker that waits for its writer will be out of time. -/
theorem reaches_of_flushing (hcustody : Custody limit none s) {deadline : Nat}
    (hworker : s.workers[index]? = some (.flushing link (.ok .shutdown) deadline)) :
    s.Reaches index := by
  have hforward : s.now ≤ max s.now deadline := Nat.le_max_left _ _
  have htick : s.step? (.tick (max s.now deadline)) =
      some { s with now := max s.now deadline } := by
    simp only [step?, hcustody.running, Option.isSome_none, Bool.false_eq_true, if_false,
      if_pos hforward]
  have hlate : Reaches { s with now := max s.now deadline } index :=
    reaches_of_late hcustody.running hworker (Nat.le_max_right _ _)
  exact hlate.cons htick (.inl ⟨_, rfl⟩)

/-- A worker whose reader has ended with the shutdown leaves, and waits for its writer. -/
theorem reaches_of_ended (hcustody : Custody limit none s)
    (hworker : s.workers[index]? = some (.serving link))
    (hreader : link.reader = .ended (.ok .shutdown)) : s.Reaches index := by
  obtain ⟨next, hstep, hnext⟩ : ∃ next, s.step? (.worker index .leave) = some next ∧
      ∃ deadline, next.workers[index]? =
        some (.flushing { link with released := true } (.ok .shutdown) deadline) := by
    rw [step_worker hcustody.running hworker]
    simp only [worker?, leave?, hreader]
    refine ⟨_, rfl, _, getElem?_setWorker (s := s.unregister link.id) hworker _⟩
  obtain ⟨deadline, hflushing⟩ := hnext
  have hcustody' := (hcustody.follows_step? hstep).custody
  exact (reaches_of_flushing hcustody' hflushing).cons_worker hstep (by simp)

/-- A worker whose routing has come to the shutdown is done with the message, and its reader
ends. -/
theorem reaches_of_concluding (hcustody : Custody limit none s)
    (hworker : s.workers[index]? = some (.serving link)) {since : Nat}
    (hreader : link.reader = .replying [] .shutdown since) : s.Reaches index := by
  obtain ⟨next, hstep, hnext⟩ : ∃ next, s.step? (.worker index (.link .conclude)) = some next ∧
      next.workers[index]? = some (.serving (link.stopReading (.ok .shutdown))) := by
    rw [step_worker hcustody.running hworker]
    simp only [worker?, link?, Link.step?, Link.conclude?, hreader]
    exact ⟨_, rfl, List.getElem?_set_self (List.getElem?_eq_some_iff.1 hworker).1⟩
  have hcustody' := (hcustody.follows_step? hstep).custody
  exact (reaches_of_ended hcustody' hnext rfl).cons_worker hstep (by simp)

/-- A worker that waits for all messages to be removed comes to the shutdown when the store answers,
whatever it answers. -/
theorem reaches_of_clearing (hcustody : Custody limit none s)
    (hworker : s.workers[index]? = some (.serving link)) {since : Nat}
    (hreader : link.reader = .routing .clearance [] since) : s.Reaches index := by
  have t : Moment := ⟨0, .none⟩
  obtain ⟨next, hstep, hnext⟩ : ∃ next, s.step? (.worker index (.link (.resume t))) = some next ∧
      next.workers[index]? =
        some (.serving { link with reader := .replying [] .shutdown since }) := by
    rw [step_worker hcustody.running hworker]
    simp only [worker?, link?, Link.step?, Link.resume?, hreader]
    exact ⟨_, rfl, List.getElem?_set_self (List.getElem?_eq_some_iff.1 hworker).1⟩
  have hcustody' := (hcustody.follows_step? hstep).custody
  exact (reaches_of_concluding hcustody' hnext rfl).cons_worker hstep (by simp)

/-- A worker that carries a request can make it, without the help of anybody else. -/
theorem reaches_of_carries (hcustody : Custody limit none s)
    (hworker : s.workers[index]? = some worker) (hcarries : worker.Carries) : s.Reaches index := by
  cases hcarries with
  | @serving link hreader =>
    generalize hstage : link.reader = stage at hreader
    cases hreader with
    | clearing since => exact reaches_of_clearing hcustody hworker hstage
    | concluding since => exact reaches_of_concluding hcustody hworker hstage
    | ended => exact reaches_of_ended hcustody hworker hstage
  | flushing => exact reaches_of_flushing hcustody hworker

end

/-! ### What may be relied on -/

/-- What may be relied on about requests to shut down, in a run from one state to another. -/
structure KeepsShutdown (s₀ : Server) (events : List Event) (s : Server) : Prop where
  /-- When requests are refused and the loop is blocked, a worker carries a request, unless a worker
  that carried one was dropped. -/
  waking : s.shared.shuttingDown = true → s.Blocked →
    s.Carried ∨ ∃ lease t, s₀.Befalls events lease .drop t
  /-- A worker on whose connection routing came to the shutdown carries a request. -/
  known : ∀ worker ∈ s.workers, worker.outcome? = some .shutdown → worker.Carries
  /-- A worker that carried a request at any time still does, or it has made the request when it
  ended, and the loop is not blocked any more, or it was dropped. -/
  handed : ∀ (before after : List Event) (t : Server), events = before ++ after →
    s₀.run? before = some t → ∀ worker ∈ t.workers, worker.Carries →
      (∃ next ∈ s.workers, next.lease? = worker.lease? ∧ next.Carries) ∨
        (∃ t', t.Befalls after worker.lease? .depart t' ∧ t'.shared.shuttingDown = true ∧
          t'.wake = true ∧ s.Awake) ∨
        ∃ t', t.Befalls after worker.lease? .drop t'
  /-- A worker that carries a request needs nobody else to make it. -/
  reaches : ∀ (index : Nat) (worker : Worker), s.workers[index]? = some worker →
    worker.Carries → s.Reaches index

end Server

/-- In every run of a relay, whatever happens and in whatever order, no request to shut down is
lost: from the moment at which the mark is set, a worker has the request in hand until the loop is
not blocked any more, and only by being dropped can the worker keep it from the loop. -/
theorem shutdown_kept {suite : Suite} {passwords : PasswordScheme} {config : Config} {seed : Key}
    {e e' : Entropy} {store : Store} {events : List Event} {s : Server}
    (hstore : Store.initial passwords config.maxUsers config.adminPasswordBytes e = .ok (store, e'))
    (hrun : (Server.start suite passwords config seed store e').run? events = some s) :
    Server.KeepsShutdown (Server.start suite passwords config seed store e') events s := by
  have hstart : (Server.start suite passwords config seed store e').Tended :=
    ⟨.start hstore suite config seed, fun worker hworker => by cases hworker⟩
  have hcustody := (Custody.start suite passwords config seed store e').of_run? hrun
  have hup : (Server.start suite passwords config seed store e').shared.shuttingDown = false := rfl
  constructor
  · intro hmark hblocked
    have hbefore : (Server.start suite passwords config seed store e').shared.shuttingDown = true →
        (Server.start suite passwords config seed store e').Awake ∨
          (Server.start suite passwords config seed store e').Carried := by
      rw [hup]
      exact nofun
    rcases Server.awake_or_carried_of_run? hstart hbefore hrun hmark with hawake | hrest
    · exact absurd hblocked hawake.unblocked
    · exact hrest
  · exact fun worker hworker hknown => ((hstart.of_run? hrun).orderly worker hworker).carries hknown
  · rintro before after t rfl hbefore worker hworker hcarries
    have hafter : t.run? after = some s := by
      rw [Server.run?, List.foldlM_append] at hrun
      obtain ⟨t', ht', hrest⟩ := Option.bind_eq_some_iff.1 hrun
      obtain rfl : t = t' := Option.some.inj (hbefore.symm.trans ht')
      exact hrest
    exact Server.carries_of_run? (hstart.of_run? hbefore) hafter hworker hcarries
  · exact fun index worker => Server.reaches_of_carries hcustody

/-- The administrator logs in and asks the relay to shut down. Routing comes to the shutdown. -/
def Sample.stopping : List Event :=
  [.begin, .check] ++ greeting 0 ++ sends 0 (preamble .logIn admin) ++
    [onLink 0 (.resume ⟨3, .none⟩), onLink 0 .reply, onLink 0 .conclude] ++
    sends 0 (request .shutdown 0 admin UserId.toRelay []) ++
    [onLink 0 (.resume ⟨4, .none⟩), onLink 0 (.resume ⟨5, .none⟩)]

/-- The mark comes before the outcome. While all messages are still to be removed, requests are
refused and the loop is blocked with nothing to wake it, and on no connection has routing come to the
shutdown, neither now nor before. Only a worker that still routes has the request in hand. -/
theorem blocked_while_clearing :
    ∃ s : Server, Sample.server.run? Sample.stopping.dropLast = some s ∧
      s.shared.shuttingDown = true ∧ s.Blocked ∧
      ∀ (before after : List Event) (t : Server), Sample.stopping.dropLast = before ++ after →
        Sample.server.run? before = some t →
          ∀ worker ∈ t.workers, worker.outcome? ≠ some .shutdown := by
  have hevents : (Sample.server.run? Sample.stopping.dropLast).any fun s =>
      s.shared.shuttingDown && s.loop = .waiting (some 1) && !s.wake := by
    decide +kernel
  have hbefore : ∀ k ≤ Sample.stopping.length,
      ((Sample.server.run? (Sample.stopping.dropLast.take k)).all fun t =>
        t.workers.all fun worker => worker.outcome? ≠ some .shutdown) = true := by
    decide +kernel
  obtain ⟨s, hrun, hchecks⟩ := (Option.any_eq_true _ _).1 hevents
  simp only [Bool.and_eq_true, Bool.not_eq_true', decide_eq_true_eq] at hchecks
  obtain ⟨⟨hmark, hloop⟩, hwake⟩ := hchecks
  refine ⟨s, hrun, hmark, ⟨⟨_, hloop⟩, hwake⟩, ?_⟩
  intro before after t hcut hreached worker hworker
  have hlength : before.length ≤ Sample.stopping.length := by
    have hsum := congrArg List.length hcut
    rw [List.length_dropLast, List.length_append] at hsum
    omega
  have hnone := hbefore before.length hlength
  rw [hcut, List.take_left, hreached] at hnone
  exact of_decide_eq_true (List.all_eq_true.1 hnone worker hworker)

/-- Requests are refused and the loop is blocked, but the worker of the administrator carries the
request to it. -/
theorem shutdown_kept_stopping :
    ∃ s : Server, Sample.server.run? Sample.stopping = some s ∧
      s.shared.shuttingDown = true ∧ s.Blocked ∧
      Server.KeepsShutdown Sample.server Sample.stopping s ∧ s.Reaches 0 := by
  have hevents : (Sample.server.run? Sample.stopping).any fun s =>
      s.shared.shuttingDown && s.loop = .waiting (some 1) && !s.wake &&
        (s.workers[0]?).bind Worker.outcome? = some .shutdown := by
    decide +kernel
  obtain ⟨s, hrun, hchecks⟩ := (Option.any_eq_true _ _).1 hevents
  simp only [Bool.and_eq_true, Bool.not_eq_true', decide_eq_true_eq] at hchecks
  obtain ⟨⟨⟨hmark, hloop⟩, hwake⟩, houtcome⟩ := hchecks
  obtain ⟨worker, hworker, hknown⟩ := Option.bind_eq_some_iff.1 houtcome
  have hkept := shutdown_kept Sample.initial_eq hrun
  have hcarries := hkept.known worker (List.mem_of_getElem? hworker) hknown
  exact ⟨s, hrun, hmark, ⟨⟨_, hloop⟩, hwake⟩, hkept, hkept.reaches 0 worker hworker hcarries⟩

end Relay
