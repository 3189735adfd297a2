import Mathlib.Data.List.Nodup
import Mathlib.Data.List.Perm.Subperm
import Relay.Proofs.IdPool
import Relay.Proofs.Link.Step
import Relay.Server.Step

/-!
# `Relay.Proofs.Server.Lease`: who holds the id of a connection

The loop takes an id before it takes a client, hands it over to the worker that serves the client,
and the worker gives it back when it ends, however it ends. `Server.holders` counts who holds an id.
`Custody` is the invariant: an id that is taken has one holder, an id that is free has none, and
what is registered is registered for a worker that serves it.

On its way from one holder to the next, or back into the pool, an id is in nobody's hands for a
moment. `Custody` therefore has the id that is in transit as a parameter. A holder lets go of it
first (`Custody.setLoop`, `Custody.setWorker`), and then it is given back (`Custody.giveBack`). That
cannot fail because nobody else holds the id, which is also why no connection is registered under it
any more.
-/

set_option autoImplicit false

namespace Relay

theorem Table.size_le {α : Type} (t : Table α) {bound : Nat}
    (h : ∀ id, t.contains id → id.toNat < bound) : t.size ≤ bound := by
  have hnodup : (t.keys.map UInt32.toNat).Nodup :=
    List.Nodup.map (fun _ _ => UInt32.toNat_inj.1) t.keys_nodup
  have hsubset : t.keys.map UInt32.toNat ⊆ List.range bound := by
    intro n hn
    obtain ⟨id, hid, rfl⟩ := List.mem_map.1 hn
    exact List.mem_range.2 (h id ((t.mem_keys_iff id).1 hid))
  have hlength := (List.subperm_of_subset hnodup hsubset).length_le
  rw [List.length_map, List.length_range, Table.keys, List.length_map] at hlength
  exact hlength

/-! ### Holders -/

/-- The id that the loop holds for the next connection. -/
def LoopStage.lease? : LoopStage → Option ConnId
  | waiting lease => lease
  | starting | checking | draining _ | aborting | stopped => none

/-- How many times a lease holds an id. -/
def share (lease : Option ConnId) (id : ConnId) : Nat := if lease = some id then 1 else 0

@[simp] theorem share_none (id : ConnId) : share none id = 0 := rfl

@[simp] theorem share_self (id : ConnId) : share (some id) id = 1 := if_pos rfl

theorem share_of_ne {id other : ConnId} (h : other ≠ id) : share (some id) other = 0 :=
  if_neg fun heq => h (Option.some.inj heq).symm

/-- The number of those who hold an id: the loop and the workers. -/
def Server.holders (s : Server) (id : ConnId) : Nat :=
  share s.loop.lease? id + s.workers.countP fun worker => worker.lease? = some id

theorem Worker.lease?_of_registered? {worker : Worker} {id : ConnId}
    (h : worker.registered? = some id) : worker.lease? = some id := by
  cases worker with
  | serving link => exact h
  | _ => cases h

theorem countP_lease_cons (worker : Worker) (workers : List Worker) (id : ConnId) :
    (worker :: workers).countP (fun worker => worker.lease? = some id) =
      share worker.lease? id + workers.countP fun worker => worker.lease? = some id := by
  rw [List.countP_cons, Nat.add_comm, share]
  simp only [decide_eq_true_eq]

theorem Server.holders_of_perm {s : Server} {worker : Worker} {rest : List Worker}
    (h : s.workers.Perm (worker :: rest)) (id : ConnId) :
    s.holders id = share s.loop.lease? id +
      (share worker.lease? id + rest.countP fun worker => worker.lease? = some id) := by
  rw [holders, h.countP_eq, countP_lease_cons]

/-- One worker of a list, and what the list is without it and with another in its place. -/
theorem exists_rest {workers : List Worker} {index : Nat} {worker : Worker}
    (h : workers[index]? = some worker) :
    ∃ rest : List Worker, workers.Perm (worker :: rest) ∧ workers.eraseIdx index = rest ∧
      ∀ next, (workers.set index next).Perm (next :: rest) := by
  obtain ⟨hindex, rfl⟩ := List.getElem?_eq_some_iff.1 h
  exact ⟨_, (List.getElem_cons_eraseIdx_perm hindex).symm, rfl,
    fun next => List.set_perm_cons_eraseIdx hindex next⟩

/-! ### The invariant -/

/-- Every id is held as it should be, given the id that is in transit. -/
structure Custody (limit : UInt32) (transit : Option ConnId) (s : Server) : Prop where
  pool : s.ids.WellFormed
  capacity : s.ids.capacity = limit
  /-- An id that is taken has one holder, and an id that is free has none. -/
  held : ∀ id, share transit id + s.holders id = if s.ids.isTaken id then 1 else 0
  /-- What is registered is registered for a worker. -/
  served : ∀ id, s.shared.registry.contains id →
    ∃ worker ∈ s.workers, worker.registered? = some id
  running : s.halted = none
  /-- A loop that has ended leaves no worker behind. -/
  stopped : s.loop = .stopped → s.workers = []

namespace Custody

variable {limit : UInt32} {s t : Server} {transit transit' : Option ConnId} {id : ConnId}
  {index : Nat} {worker : Worker}

/-- An id whose connection is registered is held by the worker that serves it. -/
theorem holders_pos (h : Custody limit transit s) (hlive : s.shared.registry.contains id) :
    0 < s.holders id := by
  obtain ⟨worker, hworker, hregistered⟩ := h.served id hlive
  have hpos : 0 < s.workers.countP fun worker => worker.lease? = some id := by
    refine List.countP_pos_iff.2 ⟨worker, hworker, ?_⟩
    simpa using Worker.lease?_of_registered? hregistered
  rw [Server.holders]
  omega

theorem isTaken_of_contains (h : Custody limit none s) (hlive : s.shared.registry.contains id) :
    s.ids.isTaken id := by
  have hheld := h.held id
  have hpos := h.holders_pos hlive
  by_contra hfree
  rw [share_none, if_neg hfree] at hheld
  omega

/-- An id in transit is taken, and nothing is registered under it. -/
theorem of_transit (h : Custody limit (some id) s) :
    s.ids.isTaken id ∧ s.shared.registry.contains id = false := by
  have hheld := h.held id
  rw [share_self] at hheld
  split at hheld
  · rename_i htaken
    -- The worker that serves a registered connection would be a second holder.
    refine ⟨htaken, Bool.eq_false_iff.2 fun hlive => ?_⟩
    have hpos := h.holders_pos hlive
    omega
  · omega

/-- No two workers hold the same id. -/
theorem index_eq (h : Custody limit none s) {place : Nat} {other : Worker}
    (hworker : s.workers[index]? = some worker) (hother : s.workers[place]? = some other)
    (hlease : worker.lease? = some id) (hsame : other.lease? = some id) : place = index := by
  by_contra hne
  obtain ⟨rest, hperm, hrest, -⟩ := exists_rest hworker
  have hmem : other ∈ rest := hrest ▸ List.mem_eraseIdx_iff_getElem?.2 ⟨place, hne, hother⟩
  have hpos : 0 < rest.countP fun worker => worker.lease? = some id :=
    List.countP_pos_iff.2 ⟨other, hmem, by simpa using hsame⟩
  have hheld := h.held id
  rw [share_none, Server.holders_of_perm hperm, hlease, share_self] at hheld
  split at hheld <;> omega

/-! ### What one part does -/

/-- What else there is to a relay does not matter. -/
theorem of_same (h : Custody limit transit s) (hids : t.ids = s.ids)
    (hregistry : t.shared.registry = s.shared.registry) (hloop : t.loop = s.loop)
    (hworkers : t.workers = s.workers) (hhalted : t.halted = s.halted) :
    Custody limit transit t := by
  constructor
  · exact hids ▸ h.pool
  · rw [hids, h.capacity]
  · intro id
    rw [Server.holders, hids, hloop, hworkers]
    exact h.held id
  · rw [hregistry, hworkers]
    exact h.served
  · exact hhalted.trans h.running
  · rw [hloop, hworkers]
    exact h.stopped

/-- The loop goes on, and lets go of an id or takes one up. -/
theorem setLoop (h : Custody limit transit s) {stage : LoopStage}
    (hlease : ∀ id, share transit' id + share stage.lease? id =
      share transit id + share s.loop.lease? id) (hstage : stage ≠ .stopped) :
    Custody limit transit' { s with loop := stage } := by
  refine ⟨h.pool, h.capacity, fun id => ?_, h.served, h.running, fun hstopped => ?_⟩
  · have hheld := h.held id
    have hshare := hlease id
    rw [← hheld]
    simp only [Server.holders]
    omega
  · exact absurd hstopped hstage

/-- A worker becomes another, and lets go of an id or takes one up. What is registered afterwards is
registered for it, or it was registered before for someone else. -/
theorem setWorker (h : Custody limit transit s) (hworker : s.workers[index]? = some worker)
    {next : Worker} {σ : State}
    (hlease : ∀ id, share transit' id + share next.lease? id =
      share transit id + share worker.lease? id)
    (hserved : ∀ id, σ.registry.contains id → next.registered? = some id ∨
      s.shared.registry.contains id ∧ worker.registered? ≠ some id) :
    Custody limit transit' ({ s with shared := σ }.setWorker index next) := by
  obtain ⟨rest, hworkers, -, hset⟩ := exists_rest hworker
  refine ⟨h.pool, h.capacity, fun id => ?_, fun id hlive => ?_, h.running, fun hstopped => ?_⟩
  · -- Before and after, the count is taken apart at the worker: the rest of it is the same.
    have hheld := h.held id
    have hshare := hlease id
    rw [Server.holders_of_perm hworkers] at hheld
    have hafter : ({ s with shared := σ }.setWorker index next).holders id =
        share s.loop.lease? id +
          (share next.lease? id + rest.countP fun worker => worker.lease? = some id) :=
      Server.holders_of_perm (hset next) id
    show _ = if s.ids.isTaken id then 1 else 0
    rw [hafter, ← hheld]
    omega
  · rcases hserved id hlive with hnext | ⟨hbefore, hother⟩
    · exact ⟨next, (hset next).mem_iff.2 List.mem_cons_self, hnext⟩
    · -- The worker that it was registered for is still there.
      obtain ⟨server, hserver, hregistered⟩ := h.served id hbefore
      rcases List.mem_cons.1 (hworkers.mem_iff.1 hserver) with rfl | hrest
      · exact absurd hregistered hother
      · exact ⟨server, (hset next).mem_iff.2 (List.mem_cons_of_mem _ hrest), hregistered⟩
  · rw [h.stopped hstopped] at hworker
    cases hworker

/-- All workers change, but neither what they hold nor what they have in the registry. -/
theorem mapWorkers (h : Custody limit transit s) {f : Worker → Worker}
    (hlease : ∀ worker, (f worker).lease? = worker.lease?)
    (hregistered : ∀ worker, (f worker).registered? = worker.registered?) :
    Custody limit transit { s with workers := s.workers.map f } := by
  refine ⟨h.pool, h.capacity, fun id => ?_, fun id hlive => ?_, h.running, fun hstopped => ?_⟩
  · rw [← h.held id]
    simp only [Server.holders, List.countP_map, Function.comp_def, hlease]
  · obtain ⟨worker, hworker, hserves⟩ := h.served id hlive
    exact ⟨f worker, List.mem_map_of_mem hworker, (hregistered worker).trans hserves⟩
  · rw [h.stopped hstopped]
    rfl

theorem eraseIdx (h : Custody limit transit s) {dropped : Bool}
    (hworker : s.workers[index]? = some (.ended dropped)) :
    Custody limit transit { s with workers := s.workers.eraseIdx index } := by
  obtain ⟨rest, hworkers, herase, -⟩ := exists_rest hworker
  rw [herase]
  refine ⟨h.pool, h.capacity, fun id => ?_, fun id hlive => ?_, h.running, fun hstopped => ?_⟩
  · have hheld := h.held id
    have hended : share (Worker.ended dropped).lease? id = 0 := rfl
    rw [Server.holders_of_perm hworkers, hended, Nat.zero_add] at hheld
    exact hheld
  · obtain ⟨server, hserver, hregistered⟩ := h.served id hlive
    rcases List.mem_cons.1 (hworkers.mem_iff.1 hserver) with rfl | hrest
    · -- Nothing is registered for a worker that has ended.
      cases hregistered
    · exact ⟨server, hrest, hregistered⟩
  · rw [h.stopped hstopped] at hworker
    cases hworker

/-- A worker that has nothing in the registry joins the others. It may take an id up. -/
theorem append (h : Custody limit transit s) (hloop : s.loop ≠ .stopped)
    (hlease : ∀ id, share transit' id + share worker.lease? id = share transit id) :
    Custody limit transit' { s with workers := s.workers ++ [worker] } := by
  refine ⟨h.pool, h.capacity, fun id => ?_, fun id hlive => ?_, h.running, fun hstopped => ?_⟩
  · have hheld := h.held id
    have hshare := hlease id
    have hone := countP_lease_cons worker [] id
    rw [List.countP_nil, Nat.add_zero] at hone
    rw [← hheld]
    simp only [Server.holders, List.countP_append, hone]
    omega
  · obtain ⟨server, hserver, hregistered⟩ := h.served id hlive
    exact ⟨server, List.mem_append_left _ hserver, hregistered⟩
  · exact absurd hstopped hloop

theorem take (h : Custody limit none s) {ids : IdPool} (htake : s.ids.take? = some (id, ids)) :
    Custody limit (some id) { s with ids } ∧
      ∀ other, ids.isTaken other = if other = id then true else s.ids.isTaken other := by
  obtain ⟨hmark, hfree, -⟩ := h.pool.of_take? htake
  obtain ⟨hpool, htaken⟩ := h.pool.of_mark hmark
  refine ⟨⟨hpool, (IdPool.capacity_mark hmark).trans h.capacity, fun other => ?_, h.served,
    h.running, h.stopped⟩, htaken⟩
  have hheld := h.held other
  rw [share_none, Nat.zero_add] at hheld
  show share (some id) other + s.holders other = if ids.isTaken other then 1 else 0
  rw [hheld, htaken]
  by_cases hother : other = id
  · subst hother
    simp [hfree]
  · rw [share_of_ne hother, if_neg hother, Nat.zero_add]

/-- The id in transit goes back into the pool, and no other does. -/
theorem giveBack (h : Custody limit (some id) s) :
    ∃ ids : IdPool, s.giveBack id = { s with ids } ∧ Custody limit none { s with ids } ∧
      ∀ other, ids.isTaken other = if other = id then false else s.ids.isTaken other := by
  obtain ⟨htaken, -⟩ := h.of_transit
  obtain ⟨ids, hgive, hmark⟩ := IdPool.exists_giveBack htaken
  obtain ⟨hpool, hother⟩ := h.pool.of_mark hmark
  refine ⟨ids, by rw [Server.giveBack, hgive], ?_, hother⟩
  refine ⟨hpool, (IdPool.capacity_mark hmark).trans h.capacity, fun other => ?_, h.served,
    h.running, h.stopped⟩
  have hheld := h.held other
  show share none other + s.holders other = if ids.isTaken other then 1 else 0
  rw [share_none, Nat.zero_add, hother]
  by_cases hsame : other = id
  · -- What is in transit is its one holder, so that none is left.
    subst hsame
    rw [share_self, if_pos htaken] at hheld
    rw [if_pos rfl, if_neg (by decide)]
    omega
  · rw [share_of_ne hsame, Nat.zero_add] at hheld
    rw [if_neg hsame, hheld]

end Custody

end Relay
