import Mathlib.Algebra.Ring.Int.Defs
import Mathlib.Algebra.Ring.Nat
import Mathlib.Data.List.Nodup
import Relay.Proofs.Routing.Turn

/-!
# `Relay.Proofs.Routing.Tally`: what is counted for the messages that are handed over

For every message that routing deals with one thing is counted: that it was put into a queue, or why
it was not (`Series.fates`). `State.Accounts` says so of two states and of what was counted in
between. It compares the counter of messages that were put into a queue with the queues themselves,
by what waits in all of them together (`State.load`).

Each step of routing accounts for the messages that it deals with (`Resumption.exists_accounts`), and
that is for none, unless it is the last step of a relayed message or of an announcement that is let
through (`Service.handled`).
-/

set_option autoImplicit false

namespace Relay

/-! ### Sums of counters -/

namespace Series

/-- Messages routed, by operation. -/
def dispatches : List Series :=
  [.dispatched .proceed, .dispatched .broadcast, .dispatched .finish, .dispatched .logIn,
    .dispatched .register, .dispatched .fetchUsers, .dispatched .fetchMessages,
    .dispatched .shutdown, .dispatched .relaySignal, .dispatched .unknown]

/-- Messages that were not put into a queue, by reason. -/
def drops : List Series := [.dropped .unknownRecipient, .dropped .queueFull, .dropped .offline]

/-- What becomes of a message that is handed over. -/
def fates : List Series := .relayed :: drops

/-- No operation is missing. -/
theorem count_dispatches (operation : Operation) : dispatches.count (.dispatched operation) = 1 := by
  cases operation <;> decide

/-- No reason is missing. -/
theorem count_drops (reason : DropReason) : drops.count (.dropped reason) = 1 := by
  cases reason <;> decide

theorem nodup_fates : fates.Nodup := by decide

theorem relayed_mem_fates : relayed ∈ fates := List.mem_cons_self ..

theorem dropped_mem_fates (reason : DropReason) : dropped reason ∈ fates :=
  List.mem_cons_of_mem _ (List.count_pos_iff.1 (by rw [count_drops]; decide))

theorem dispatched_notMem_fates (operation : Operation) : dispatched operation ∉ fates := by
  cases operation <;> decide

/-- A message that is routed is not one that is handed over yet. -/
theorem notMem_fates_of_mem_dispatches {s : Series} (h : s ∈ dispatches) : s ∉ fates := by
  revert s
  decide

end Series

namespace Metrics

variable (m : Metrics)

/-- The sum of the values of some series. -/
def total (series : List Series) : Int := (series.map m.get).sum

/-- Counts a list of things one after the other. -/
def countAll (counted : List Series) : Metrics := counted.foldl Metrics.count m

theorem total_cons (s : Series) (series : List Series) :
    m.total (s :: series) = m.get s + m.total series := by
  rw [total, List.map_cons, List.sum_cons, total]

/-- A sum does not change if none of its terms does. -/
theorem total_congr {m m' : Metrics} {series : List Series}
    (h : ∀ s ∈ series, m'.get s = m.get s) : m'.total series = m.total series := by
  rw [total, List.map_congr_left h, total]

theorem get_countAll (counted : List Series) (s : Series) :
    (m.countAll counted).get s = m.get s + counted.count s := by
  induction counted generalizing m with
  | nil => exact (Int.add_zero _).symm
  | cons first rest ih =>
    rw [countAll, List.foldl_cons, ← countAll, ih, count, get_add, List.count_cons]
    by_cases hs : s = first
    · simp only [hs, if_true, beq_self_eq_true]
      omega
    · have hs' : ¬ first = s := fun heq => hs heq.symm
      simp only [hs, hs', if_false, beq_iff_eq]
      omega

/-- What is not among the things that are counted keeps its value. -/
theorem get_countAll_of_notMem {counted : List Series} {s : Series} (h : s ∉ counted) :
    (m.countAll counted).get s = m.get s := by
  rw [get_countAll, List.count_eq_zero.2 h]
  exact Int.add_zero _

/-- To count once adds one for each time that the series stands in the sum. -/
theorem total_count (s : Series) (series : List Series) :
    (m.count s).total series = m.total series + series.count s := by
  induction series with
  | nil => rfl
  | cons first rest ih =>
    rw [total_cons, total_cons, ih, count, get_add, List.count_cons]
    by_cases hs : first = s
    · simp only [hs, if_true, beq_self_eq_true]
      omega
    · simp only [hs, if_false, beq_iff_eq]
      omega

/-- If each thing that is counted stands in a sum once, the sum grows by one for each. -/
theorem total_countAll {counted series : List Series} (hnodup : series.Nodup)
    (hcounted : ∀ s ∈ counted, s ∈ series) :
    (m.countAll counted).total series = m.total series + counted.length := by
  induction counted generalizing m with
  | nil => exact (Int.add_zero _).symm
  | cons first rest ih =>
    obtain ⟨hfirst, hrest⟩ := List.forall_mem_cons.1 hcounted
    rw [countAll, List.foldl_cons, ← countAll, ih _ hrest, total_count,
      List.count_eq_one_of_mem hnodup hfirst, List.length_cons]
    omega

end Metrics

/-! ### What waits in all queues together -/

/-- Changing a value leaves the ids as they are. -/
@[simp] theorem Table.keys_modify {α : Type} (t : Table α) (id : UInt32) (f : α → α) :
    (t.modify id f).keys = t.keys := by
  rw [keys, modify, List.map_map, keys]
  refine List.map_congr_left fun e _ => ?_
  rw [Function.comp_apply]
  split <;> rfl

/-- A sum in which one more is counted for one id. -/
theorem sum_map_add_one (keys : List ConnId) (conn : ConnId) (f : ConnId → Nat) :
    (keys.map fun other => f other + if other = conn then 1 else 0).sum =
      (keys.map f).sum + keys.count conn := by
  induction keys with
  | nil => rfl
  | cons other rest ih =>
    rw [List.map_cons, List.sum_cons, ih, List.map_cons, List.sum_cons, List.count_cons]
    simp only [beq_iff_eq]
    omega

namespace State

variable {σ τ υ : State} {counted later : List Series}

/-- How many messages wait, in all queues together. -/
def load (σ : State) : Nat := (σ.outboxes.keys.map fun conn => (σ.waiting conn).length).sum

/-- A connection whose queue takes messages has a queue. -/
theorem mem_keys_of_queued {conn : ConnId} (h : σ.delivery conn = .queued) :
    conn ∈ σ.outboxes.keys := by
  rw [Table.mem_keys_iff, Table.contains_iff]
  unfold delivery at h
  split at h
  · cases h
  · rename_i box hbox
    exact ⟨box, hbox⟩

/-- A message that is put into a queue that takes it is one more that waits. -/
theorem load_enqueue {conn : ConnId} (h : σ.delivery conn = .queued) (m : Message) :
    (σ.enqueue conn m).load = σ.load + 1 := by
  have hlength (other : ConnId) : ((σ.enqueue conn m).waiting other).length =
      (σ.waiting other).length + if other = conn then 1 else 0 := by
    rw [waiting_enqueue]
    by_cases hconn : other = conn
    · rw [if_pos ⟨hconn, h⟩, if_pos hconn, List.length_append, List.length_singleton]
    · rw [if_neg (fun hboth => hconn hboth.1), if_neg hconn, Nat.add_zero]
  have hkeys : (σ.enqueue conn m).outboxes.keys = σ.outboxes.keys := Table.keys_modify ..
  have hone : σ.outboxes.keys.count conn = 1 :=
    List.count_eq_one_of_mem σ.outboxes.keys_nodup (mem_keys_of_queued h)
  rw [load, hkeys, List.map_congr_left fun other _ => hlength other, sum_map_add_one, hone, load]

/-- From one state to another messages were dealt with. For each it was counted what became of it,
and as many wait in addition as were counted as put into a queue. -/
structure Accounts (σ τ : State) (counted : List Series) : Prop where
  /-- No queue came or went. -/
  keys : τ.outboxes.keys = σ.outboxes.keys
  metrics : τ.metrics = σ.metrics.countAll counted
  fates : ∀ s ∈ counted, s ∈ Series.fates
  load : τ.load = σ.load + counted.count .relayed

namespace Accounts

/-- Where nothing is counted and no queue is touched, nothing is dealt with. -/
theorem of_eq (hmetrics : τ.metrics = σ.metrics) (houtboxes : τ.outboxes = σ.outboxes) :
    σ.Accounts τ [] := by
  refine ⟨by rw [houtboxes], hmetrics, nofun, ?_⟩
  simp only [State.load, waiting, houtboxes, List.count_nil, Nat.add_zero]

theorem trans (h : σ.Accounts τ counted) (h' : τ.Accounts υ later) :
    σ.Accounts υ (counted ++ later) := by
  constructor
  case keys => exact h'.keys.trans h.keys
  case metrics => rw [h'.metrics, h.metrics, Metrics.countAll, Metrics.countAll, Metrics.countAll,
    List.foldl_append]
  case fates => exact fun s hs => (List.mem_append.1 hs).elim (h.fates s) (h'.fates s)
  case load => rw [h'.load, h.load, List.count_append, Nat.add_assoc]

/-- A message that is not put into a queue is counted, whatever the reason. -/
theorem drop (σ : State) (reason : DropReason) :
    σ.Accounts (σ.count (.dropped reason)) [.dropped reason] := by
  refine ⟨rfl, rfl, ?_, rfl⟩
  rintro s hs
  rw [List.mem_singleton.1 hs]
  exact Series.dropped_mem_fates reason

/-- A message that is put into a queue is counted. -/
theorem enqueue {conn : ConnId} (h : σ.delivery conn = .queued) (m : Message) :
    σ.Accounts ((σ.enqueue conn m).count .relayed) [.relayed] := by
  refine ⟨Table.keys_modify .., rfl, ?_, load_enqueue h m⟩
  rintro s hs
  rw [List.mem_singleton.1 hs]
  exact Series.relayed_mem_fates

end Accounts

end State

/-! ### What a step of routing deals with -/

namespace Service

variable (S : Service) {σ : State} {t : Moment} {conn : ConnId} {p : Pending} {turn : Turn}

/-- A message that is handed over is counted once. -/
theorem exists_accounts_deliver (σ : State) (m : Message) :
    ∃ fate : Series, σ.Accounts (deliver σ m) [fate] := by
  unfold deliver
  split
  · exact ⟨_, .drop σ _⟩
  · split
    · rename_i hqueued
      exact ⟨_, .enqueue hqueued m⟩
    · exact ⟨_, .drop σ _⟩
    · exact ⟨_, .drop σ _⟩

/-- A copy of an announcement is counted once. -/
theorem exists_accounts_announceTo (t : Moment) (body : Bytes) (σ : State)
    (session : UserId × ConnId) :
    ∃ fate : Series, σ.Accounts (S.announceTo t body σ session) [fate] := by
  unfold announceTo
  split
  · rename_i hqueued
    exact ⟨_, .enqueue hqueued _⟩
  · exact ⟨_, .drop σ _⟩
  · exact ⟨_, .drop σ _⟩

/-- Of an announcement there is one copy for each session. -/
theorem exists_accounts_foldl_announceTo (t : Moment) (body : Bytes)
    (sessions : List (UserId × ConnId)) (σ : State) :
    ∃ counted : List Series, σ.Accounts (sessions.foldl (S.announceTo t body) σ) counted ∧
      counted.length = sessions.length := by
  -- The state goes along: the copies for the rest start from what the first copy leaves.
  induction sessions generalizing σ with
  | nil => exact ⟨[], .of_eq rfl rfl, rfl⟩
  | cons session rest ih =>
    obtain ⟨fate, hfirst⟩ := S.exists_accounts_announceTo t body σ session
    obtain ⟨counted, hrest, hlength⟩ := ih (S.announceTo t body σ session)
    refine ⟨[fate] ++ counted, hfirst.trans hrest, ?_⟩
    rw [List.length_append, List.length_singleton, hlength, List.length_cons, Nat.add_comm]

/-- How many messages are dealt with for good in a step after which routing goes on in a given way:
one if it is the last step of a relayed message, and one copy for everybody else if it is that of an
announcement. -/
def handled (σ : State) : Pending → Progress → Nat
  | .recipient _, .finished .stay | .keeping _, .finished .stay => 1
  | .announcer user _, .finished .stay =>
    (σ.registry.authenticated.filter fun e => e.1 ≠ user.id).length
  | _, _ => 0

variable {S}

/-- When a message comes in it is counted which operation it asks for, and nothing else. -/
theorem Beginning.metrics_eq {m : Message} (h : S.Beginning σ t conn m turn) :
    turn.state.metrics = σ.metrics.count (.dispatched (.ofFlag m.flag)) := by
  cases h <;> rfl

/-- A step accounts for the messages that it deals with. -/
theorem Resumption.exists_accounts (h : S.Resumption σ t conn p turn) :
    ∃ counted : List Series, σ.Accounts turn.state counted ∧
      counted.length = handled σ p turn.next := by
  cases h with
  | unknownRecipient => exact ⟨_, .drop σ _, rfl⟩
  | signal =>
    obtain ⟨fate, hdeliver⟩ := exists_accounts_deliver σ _
    exact ⟨_, hdeliver, rfl⟩
  | notKeep =>
    obtain ⟨fate, hdeliver⟩ := exists_accounts_deliver σ _
    exact ⟨_, hdeliver, rfl⟩
  | @keep m =>
    let kept : State := { σ with
      store.mailbox := (σ.store.mailbox.add m.timestamp m.sender m.recipient m.body).2 }
    have hkept : σ.Accounts kept [] := .of_eq rfl rfl
    obtain ⟨fate, hdeliver⟩ := exists_accounts_deliver kept m
    exact ⟨_, hkept.trans hdeliver, rfl⟩
  | announce => exact S.exists_accounts_foldl_announceTo t _ _ σ
  | @refuse p _ _ hp => cases p <;> exact ⟨[], .of_eq rfl rfl, rfl⟩
  | _ => exact ⟨[], .of_eq rfl rfl, rfl⟩

end Service

end Relay
