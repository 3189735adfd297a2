import Mathlib.Data.List.Induction
import Relay.Routing.Route

/-!
# `Relay.Proofs.Traffic.Basic`: many messages at a time

`Traffic` is what connections share together with the messages that are being routed, at most one
for each connection. An `Event` is what happens next, on any connection: a message comes in, the
store answers, a connection opens or ends. The steps of different connections come in any order, and
every step names the clock and the outages of the store at its own time.

A `Step` is an event with what it led from and to, and `Run` says that steps follow on one another.
Everything that is claimed of "every run" is proved by induction on `Run` (`Run.invariant`) or by
cutting a run in two (`run_append_iff`). A message that is routed in one go is a run as well
(`exists_run_route`), so nothing that holds of all runs is lost by `Service.route`.
-/

set_option autoImplicit false

namespace Relay

/-- A message that is being routed. -/
structure Call where
  /-- The message. -/
  message : Message
  /-- The user who was on the connection when the message came in. -/
  user : Option User
  /-- What routing waits for. -/
  pending : Pending
  /-- The replies so far. -/
  replies : List Message
deriving DecidableEq

/-- What connections share, and the messages that are being routed. -/
structure Traffic where
  /-- What connections share. -/
  state : State
  /-- The messages that are being routed, by connection. -/
  calls : Table Call := .empty

namespace Traffic

/-- What happens next. -/
inductive Event where
  /-- A connection is registered. -/
  | connect (conn : ConnId) (capacity now : Nat)
  /-- A connection is removed. -/
  | disconnect (conn : ConnId)
  /-- A message comes in. -/
  | receive (conn : ConnId) (t : Moment) (m : Message)
  /-- The store answers. -/
  | resume (conn : ConnId) (t : Moment)
  /-- Routing is broken off, and the connection is removed. -/
  | abort (conn : ConnId)
  /-- The next message of a queue is sent. -/
  | collect (conn : ConnId)
  /-- The writer of a connection has gone. -/
  | close (conn : ConnId)
  /-- Random bytes are drawn for something else. -/
  | draw (size : Nat)
  /-- Shutdown is requested from outside. -/
  | stop

variable (S : Service)

/-- What a step of routing leaves: nothing, when routing has finished, or what it waits for. -/
def settle (s : Traffic) (conn : ConnId) (m : Message) (user : Option User)
    (replies : List Message) (turn : Turn) : Traffic where
  state := turn.state
  calls := match turn.next with
    | .finished _ => s.calls.erase conn
    | .waiting pending => s.calls.insert conn ⟨m, user, pending, replies ++ turn.replies⟩

/-- What an event leads to. A message comes in only where none is being routed. -/
inductive Moves (s : Traffic) : Event → Traffic → Prop where
  | connect {conn : ConnId} {capacity now : Nat} {σ : State}
      (hopen : s.state.connect conn capacity now = .ok σ) :
      Moves s (.connect conn capacity now) { s with state := σ }
  | disconnect (conn : ConnId) : Moves s (.disconnect conn) { s with state := s.state.purge conn }
  | receive {conn : ConnId} (t : Moment) (m : Message) (hidle : s.calls.get? conn = none) :
      Moves s (.receive conn t m)
        (s.settle conn m (s.state.registry.user? conn) [] (S.begin s.state t conn m))
  | resume {conn : ConnId} (t : Moment) {call : Call} (hcall : s.calls.get? conn = some call) :
      Moves s (.resume conn t)
        (s.settle conn call.message call.user call.replies
          (S.resume s.state t conn call.pending))
  | abort (conn : ConnId) :
      Moves s (.abort conn) { state := s.state.purge conn, calls := s.calls.erase conn }
  | collect (conn : ConnId) :
      Moves s (.collect conn)
        { s with state.outboxes := s.state.outboxes.modify conn Outbox.dropNext }
  | close (conn : ConnId) :
      Moves s (.close conn)
        { s with state.outboxes := s.state.outboxes.modify conn Outbox.close }
  | draw (size : Nat) :
      Moves s (.draw size) { s with state.entropy := (s.state.entropy.draw size).2 }
  | stop : Moves s .stop { s with state := s.state.markShuttingDown }

/-- An event, what it led from and what it led to. -/
structure Step where
  /-- What was there before. -/
  before : Traffic
  /-- What happened. -/
  event : Event
  /-- What came of it. -/
  after : Traffic
  /-- It could happen. -/
  moves : Moves S before event after

/-- The step of routing that an event is, if it is one. -/
def turn? (s : Traffic) : Event → Option Turn
  | .receive conn t m => some (S.begin s.state t conn m)
  | .resume conn t =>
    (s.calls.get? conn).map fun call => S.resume s.state t conn call.pending
  | _ => none

/-- The replies that an event adds. -/
def repliesTo (s : Traffic) (event : Event) : List Message :=
  ((s.turn? S event).map Turn.replies).getD []

variable {S}

/-- The replies that a step adds. -/
def Step.replies (step : Step S) : List Message := step.before.repliesTo S step.event

variable (S)

/-- Steps that follow on one another, from the first state to the last. -/
inductive Run (first : Traffic) : List (Step S) → Traffic → Prop where
  | start : Run first [] first
  | snoc {h : List (Step S)} {step : Step S} (hrun : Run first h step.before) :
      Run first (h ++ [step]) step.after

/-- The state of a relay that has just come up. -/
def Opening (s : Traffic) : Prop :=
  ∃ (suite : Suite) (passwords : PasswordScheme) (config : Config) (seed : Key) (store : Store)
    (e e' : Entropy),
    Store.initial passwords config.maxUsers config.adminPasswordBytes e = .ok (store, e') ∧
      Service.start suite passwords config seed store e' = (S, s.state) ∧ s.calls = .empty

variable {S} {first last : Traffic} {h : List (Step S)}

/-! ### Runs -/

/-- What holds at first and is kept by every step holds at last. What is kept may be about the steps
so far. -/
theorem Run.invariant {P : List (Step S) → Traffic → Prop} (hstart : P [] first)
    (hstep : ∀ (h : List (Step S)) (step : Step S), Run S first h step.before →
      P h step.before → P (h ++ [step]) step.after)
    (hrun : Run S first h last) : P h last := by
  induction hrun with
  | start => exact hstart
  | snoc hrun ih => exact hstep _ _ hrun ih

theorem Run.trans {middle : Traffic} {h₁ h₂ : List (Step S)} (h₁run : Run S first h₁ middle)
    (h₂run : Run S middle h₂ last) : Run S first (h₁ ++ h₂) last := by
  induction h₂run with
  | start =>
    rw [List.append_nil]
    exact h₁run
  | snoc _ ih =>
    rw [← List.append_assoc]
    exact ih.snoc

theorem run_nil_iff : Run S first [] last ↔ last = first := by
  constructor
  · intro hrun
    -- The steps are an index of `Run`: they need a name before the run is split into cases.
    generalize hnil : ([] : List (Step S)) = h at hrun
    cases hrun with
    | start => rfl
    | snoc => simp at hnil
  · rintro rfl
    exact .start

theorem run_snoc_iff {step : Step S} :
    Run S first (h ++ [step]) last ↔ Run S first h step.before ∧ last = step.after := by
  constructor
  · intro hrun
    generalize heq : h ++ [step] = h' at hrun
    cases hrun with
    | start => simp at heq
    | snoc hrun =>
      obtain ⟨rfl, hstep⟩ := List.append_inj' heq rfl
      obtain rfl := List.singleton_inj.1 hstep
      exact ⟨hrun, rfl⟩
  · rintro ⟨hrun, rfl⟩
    exact hrun.snoc

theorem run_singleton (step : Step S) : Run S step.before [step] step.after :=
  run_snoc_iff.2 ⟨.start, rfl⟩

/-- A run is cut in two anywhere. -/
theorem run_append_iff {h₁ h₂ : List (Step S)} :
    Run S first (h₁ ++ h₂) last ↔ ∃ middle, Run S first h₁ middle ∧ Run S middle h₂ last := by
  constructor
  · intro hrun
    -- A run grows at its end, so the induction takes the steps off there.
    induction h₂ using List.reverseRecOn generalizing last with
    | nil =>
      rw [List.append_nil] at hrun
      exact ⟨last, hrun, .start⟩
    | append_singleton h₂ step ih =>
      rw [← List.append_assoc] at hrun
      obtain ⟨hbefore, rfl⟩ := run_snoc_iff.1 hrun
      obtain ⟨middle, h₁run, h₂run⟩ := ih hbefore
      exact ⟨middle, h₁run, h₂run.snoc⟩
  · rintro ⟨middle, h₁run, h₂run⟩
    exact h₁run.trans h₂run

/-- What comes before and after a step of a run are runs. -/
theorem run_append_cons_iff {h₁ h₂ : List (Step S)} {step : Step S} :
    Run S first (h₁ ++ step :: h₂) last ↔
      Run S first h₁ step.before ∧ Run S step.after h₂ last := by
  rw [List.append_cons, run_append_iff]
  constructor
  · rintro ⟨middle, h₁run, h₂run⟩
    obtain ⟨hbefore, rfl⟩ := run_snoc_iff.1 h₁run
    exact ⟨hbefore, h₂run⟩
  · rintro ⟨h₁run, h₂run⟩
    exact ⟨step.after, h₁run.snoc, h₂run⟩

/-- What comes before a step of a run is a run. -/
theorem Run.before_of_mem (hrun : Run S first h last) {step : Step S} (hstep : step ∈ h) :
    ∃ h' : List (Step S), h' ⊆ h ∧ Run S first h' step.before := by
  obtain ⟨h', rest, rfl⟩ := List.append_of_mem hstep
  exact ⟨h', List.subset_append_left _ _, (run_append_cons_iff.1 hrun).1⟩

/-! ### What a step of routing comes to -/

namespace Step

variable {step : Step S} {conn : ConnId} {t : Moment}

theorem replies_of_receive {m : Message} (hevent : step.event = .receive conn t m) :
    step.replies = (S.begin step.before.state t conn m).replies := by
  simp [replies, repliesTo, turn?, hevent]

theorem replies_of_resume {call : Call} (hevent : step.event = .resume conn t)
    (hcall : step.before.calls.get? conn = some call) :
    step.replies = (S.resume step.before.state t conn call.pending).replies := by
  simp [replies, repliesTo, turn?, hevent, hcall]

theorem after_of_receive {m : Message} (hevent : step.event = .receive conn t m) :
    step.after = step.before.settle conn m (step.before.state.registry.user? conn) []
      (S.begin step.before.state t conn m) := by
  obtain ⟨s, event, s', hmoves⟩ := step
  dsimp only at hevent
  subst hevent
  cases hmoves
  rfl

theorem after_of_resume {call : Call} (hevent : step.event = .resume conn t)
    (hcall : step.before.calls.get? conn = some call) :
    step.after = step.before.settle conn call.message call.user call.replies
      (S.resume step.before.state t conn call.pending) := by
  obtain ⟨s, event, s', hmoves⟩ := step
  dsimp only at hevent hcall
  subst hevent
  cases hmoves with
  | resume _ hcall' =>
    rw [hcall] at hcall'
    cases hcall'
    rfl

end Step

/-! ### A relay that has just come up -/

/-- Nobody is connected, nothing waits, and the store is the one that was filled. -/
theorem Opening.eq (hopening : Opening S first) :
    ∃ (passwords : PasswordScheme) (store : Store) (e e' entropy : Entropy) (lifetime : Nat),
      Store.initial passwords S.config.maxUsers S.config.adminPasswordBytes e = .ok (store, e') ∧
        first = ⟨{ registry := { lifetime }, store, entropy }, .empty⟩ := by
  obtain ⟨suite, passwords, config, seed, store, e, e', hstore, hstart, hcalls⟩ := hopening
  obtain ⟨σ, calls⟩ := first
  simp only [Service.start, Prod.mk.injEq] at hstart
  obtain ⟨rfl, rfl⟩ := hstart
  exact ⟨passwords, store, e, e', _, _, hstore, congrArg _ hcalls⟩

theorem Opening.calls (hopening : Opening S first) : first.calls = .empty := by
  obtain ⟨_, _, _, _, _, _, _, rfl⟩ := hopening.eq
  rfl

theorem Opening.registry (hopening : Opening S first) :
    ∃ lifetime : Nat, first.state.registry = { lifetime } := by
  obtain ⟨_, _, _, _, _, lifetime, _, rfl⟩ := hopening.eq
  exact ⟨lifetime, rfl⟩

theorem Opening.outboxes (hopening : Opening S first) : first.state.outboxes = .empty := by
  obtain ⟨_, _, _, _, _, _, _, rfl⟩ := hopening.eq
  rfl

/-- The store holds the administrator and no message. -/
theorem Opening.store (hopening : Opening S first) :
    first.state.store.mailbox = {} ∧ 0 < S.config.maxUsers ∧
      first.state.store.directory.ids.capacity = S.config.maxUsers ∧
      first.state.store.directory.users = [⟨UserId.admin, Directory.adminName⟩] := by
  obtain ⟨_, _, _, _, _, _, hstore, rfl⟩ := hopening.eq
  obtain ⟨hpositive, hmailbox, _, -, hdirectory⟩ := Store.initial_eq_ok hstore
  obtain ⟨hcapacity, haccounts⟩ := Directory.initial_eq_ok hdirectory
  exact ⟨hmailbox, UInt32.pos_iff_ne_zero.2 hpositive, hcapacity,
    congrArg (List.map Account.user) haccounts⟩

/-! ### Routing in one go -/

theorem get?_calls_settle (s : Traffic) (conn other : ConnId) (m : Message) (user : Option User)
    (replies : List Message) (turn : Turn) :
    (s.settle conn m user replies turn).calls.get? other =
      if other = conn then
        match turn.next with
        | .finished _ => none
        | .waiting pending => some ⟨m, user, pending, replies ++ turn.replies⟩
      else s.calls.get? other := by
  unfold settle
  split
  · exact Table.get?_erase _ _ _
  · exact Table.get?_insert _ _ _ _

/-- The remaining steps of a message, taken one after the other, are a run. -/
theorem exists_run_complete (t : Moment) (conn : ConnId) (turn : Turn) (s : Traffic) (m : Message)
    (user : Option User) (earlier : List Message) :
    ∃ (h : List (Step S)) (last : Traffic), Run S (s.settle conn m user earlier turn) h last ∧
      last.state = (S.complete t conn turn).state ∧
      turn.replies ++ h.flatMap Step.replies = (S.complete t conn turn).replies ∧
      ∀ other, last.calls.get? other = if other = conn then none else s.calls.get? other := by
  -- The induction follows `complete`. It collects the replies in the turn, a run in its steps, so
  -- the traffic and the earlier replies differ from one step to the next.
  fun_induction Service.complete S t conn turn generalizing s earlier with
  | case1 turn outcome hnext =>
    refine ⟨[], _, .start, rfl, List.append_nil _, fun other => ?_⟩
    rw [get?_calls_settle, hnext]
  | case2 turn p hnext next _ ih =>
    -- The step is taken in the traffic that the turn before it has left.
    let waiting := s.settle conn m user earlier turn
    have hcall : waiting.calls.get? conn = some ⟨m, user, p, earlier ++ turn.replies⟩ := by
      rw [get?_calls_settle, if_pos rfl, hnext]
    let step : Step S := ⟨waiting, .resume conn t, _, .resume t hcall⟩
    obtain ⟨h, last, hrun, hstate, hreplies, hcalls⟩ := ih waiting earlier
    have hstep : step.after = waiting.settle conn m user earlier
        { next with replies := turn.replies ++ next.replies } := by
      show waiting.settle conn m user (earlier ++ turn.replies) next = _
      unfold settle
      simp only [List.append_assoc]
    refine ⟨[step] ++ h, last, ?_, hstate, ?_, fun other => ?_⟩
    · have hfirst : Run S waiting [step] step.after := run_singleton step
      rw [hstep] at hfirst
      exact hfirst.trans hrun
    · rw [← hreplies, List.flatMap_append, List.flatMap_singleton, ← List.append_assoc]
      have : step.replies = next.replies := by
        simp [Step.replies, repliesTo, turn?, step, hcall]
        rfl
      rw [this]
    · rw [hcalls, get?_calls_settle]
      split <;> rfl

/-- A message that is routed in one go is routed by a run: it leads to the same state with the same
replies, and nothing is left of it. -/
theorem exists_run_route (s : Traffic) (t : Moment) {conn : ConnId} (m : Message)
    (hidle : s.calls.get? conn = none) :
    ∃ (h : List (Step S)) (last : Traffic), Run S s h last ∧
      last.state = (S.route s.state t conn m).state ∧
      h.flatMap Step.replies = (S.route s.state t conn m).replies ∧
      ∀ other, last.calls.get? other = s.calls.get? other := by
  let step : Step S := ⟨s, .receive conn t m, _, .receive t m hidle⟩
  obtain ⟨h, last, hrun, hstate, hreplies, hcalls⟩ :=
    exists_run_complete t conn (S.begin s.state t conn m) s m (s.state.registry.user? conn) []
  refine ⟨[step] ++ h, last, ?_, hstate, ?_, fun other => ?_⟩
  · exact (run_singleton step).trans hrun
  · rw [List.flatMap_append, List.flatMap_singleton]
    exact hreplies
  · rw [hcalls]
    split
    · rename_i hother
      rw [hother, hidle]
    · rfl

end Traffic

end Relay
