import Relay.Proofs.Routing.Course

/-!
# `Relay.Proofs.Routing.Dialogue`: the messages of one connection, one after the other

`Service.Routes` says what routing a message may come to, whenever its steps are taken. To compare
two ways of going on, the times have to be the same in both, so here they are given: the clock of a
message says when each of its steps is taken. `Service.routeAt` then has one result.
`routes_iff_exists_clock` says that this is the same notion, and `routeAt_const` that it is
`Service.route` when all steps are taken at once.

`Service.dialogue` routes the messages of a connection one after the other.
-/

set_option autoImplicit false

namespace Relay

/-- A message, and when the steps are taken that route it. -/
structure TimedMessage where
  /-- When the steps are taken, in turn. -/
  clock : Nat → Moment
  /-- The message. -/
  message : Message

namespace Service

variable (S : Service)

/-- Takes the remaining steps, each at its own time. -/
def completeAt (clock : Nat → Moment) (conn : ConnId) (turn : Turn) : Routed :=
  match h : turn.next with
  | .finished outcome => ⟨turn.state, turn.replies, outcome⟩
  | .waiting p =>
    let next := S.resume turn.state (clock 0) conn p
    have : next.next.rank < turn.next.rank := by
      rw [h]
      exact S.rank_resume_lt turn.state (clock 0) conn p
    completeAt (fun k => clock (k + 1)) conn { next with replies := turn.replies ++ next.replies }
termination_by turn.next.rank

/-- Routes a message, taking each step at its own time. -/
def routeAt (σ : State) (conn : ConnId) (m : TimedMessage) : Routed :=
  S.completeAt (fun k => m.clock (k + 1)) conn (S.begin σ (m.clock 0) conn m.message)

/-- Routes the messages of a connection one after the other. -/
def dialogue (conn : ConnId) : State → List TimedMessage → List Routed
  | _, [] => []
  | σ, m :: rest =>
    let r := S.routeAt σ conn m
    r :: dialogue conn r.state rest

variable {S} {σ : State} {conn : ConnId} {m : Message} {turn : Turn} {r : Routed}

/-- When routing has finished, no step remains. -/
theorem completeAt_of_finished {outcome : Outcome} (h : turn.next = .finished outcome)
    (clock : Nat → Moment) :
    S.completeAt clock conn turn = ⟨turn.state, turn.replies, outcome⟩ := by
  unfold completeAt
  split
  · rename_i hnext
    rw [h] at hnext
    cases hnext
    rfl
  · rename_i hnext
    rw [h] at hnext
    cases hnext

/-- As long as routing waits, a step remains. -/
theorem completeAt_of_waiting {p : Pending} (h : turn.next = .waiting p) (clock : Nat → Moment) :
    S.completeAt clock conn turn = S.completeAt (fun k => clock (k + 1)) conn
      { S.resume turn.state (clock 0) conn p with
        replies := turn.replies ++ (S.resume turn.state (clock 0) conn p).replies } := by
  conv => lhs; unfold completeAt
  split
  · rename_i hnext
    rw [h] at hnext
    cases hnext
  · rename_i hnext
    rw [h] at hnext
    cases hnext
    rfl

/-- Steps that are taken at any times are taken. -/
theorem completes_completeAt (clock : Nat → Moment) (conn : ConnId) (turn : Turn) :
    S.Completes conn turn (S.completeAt clock conn turn) := by
  fun_induction Service.completeAt S clock conn turn with
  | case1 clock turn outcome hnext => exact .finished hnext
  | case2 clock turn p hnext next _ ih => exact .resumed (clock 0) hnext ih

/-- Whenever the remaining steps are taken, a clock tells it. -/
theorem Completes.exists_clock (h : S.Completes conn turn r) :
    ∃ clock : Nat → Moment, S.completeAt clock conn turn = r := by
  induction h with
  | finished hnext => exact ⟨fun _ => ⟨0, .none⟩, completeAt_of_finished hnext _⟩
  | resumed t hnext _ ih =>
    obtain ⟨clock, rfl⟩ := ih
    -- One more time comes first.
    let later : Nat → Moment := fun k => Nat.casesOn k t clock
    exact ⟨later, completeAt_of_waiting hnext later⟩

/-- A message may come to exactly what it comes to at some times. -/
theorem routes_iff_exists_clock :
    S.Routes σ conn m r ↔ ∃ clock : Nat → Moment, S.routeAt σ conn ⟨clock, m⟩ = r := by
  constructor
  · rintro ⟨t, hcompletes⟩
    obtain ⟨clock, hclock⟩ := hcompletes.exists_clock
    let all : Nat → Moment := fun k => Nat.casesOn k t clock
    exact ⟨all, hclock⟩
  · rintro ⟨clock, rfl⟩
    exact ⟨clock 0, S.completes_completeAt _ conn _⟩

/-- Steps that are all taken at one time. -/
theorem completeAt_const (t : Moment) (conn : ConnId) (turn : Turn) :
    S.completeAt (fun _ => t) conn turn = S.complete t conn turn := by
  fun_induction Service.complete S t conn turn with
  | case1 turn outcome hnext => exact completeAt_of_finished hnext _
  | case2 turn p hnext next _ ih => exact (completeAt_of_waiting hnext _).trans ih

/-- Routing in one go is routing at one time. -/
theorem routeAt_const (σ : State) (conn : ConnId) (t : Moment) (m : Message) :
    S.routeAt σ conn ⟨fun _ => t, m⟩ = S.route σ t conn m :=
  completeAt_const t conn _

end Service

end Relay
