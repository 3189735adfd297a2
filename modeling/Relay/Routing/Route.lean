import Relay.Routing.Step

/-!
# `Relay.Routing.Route`: routing a message in one go

`Service.route` takes all the steps of a message one after the other, as they are taken when no
other connection comes in between. There are at most four, because every step comes closer to the
end (`Service.rank_resume_lt`).
-/

set_option autoImplicit false

namespace Relay

/-- What routing a message comes to. -/
structure Routed where
  /-- The state afterwards. -/
  state : State
  /-- The replies for the caller. -/
  replies : List Message
  /-- What becomes of the connection. -/
  outcome : Outcome

namespace Service

variable (S : Service)

/-- Every step comes closer to the end. -/
theorem rank_resume_lt (σ : State) (t : Moment) (conn : ConnId) (p : Pending) :
    (S.resume σ t conn p).next.rank < p.rank := by
  cases p <;> simp only [resume, refuseRegistration, denyAccess, Turn.interrupt, Turn.answer,
    Turn.wait] <;> (repeat' split) <;> simp [Progress.rank, Pending.rank]

/-- Takes the remaining steps. -/
def complete (t : Moment) (conn : ConnId) (turn : Turn) : Routed :=
  match h : turn.next with
  | .finished outcome => ⟨turn.state, turn.replies, outcome⟩
  | .waiting p =>
    let next := S.resume turn.state t conn p
    have : next.next.rank < turn.next.rank := by
      rw [h]
      exact S.rank_resume_lt turn.state t conn p
    complete t conn { next with replies := turn.replies ++ next.replies }
termination_by turn.next.rank

/-- When routing has finished, no step remains. -/
theorem complete_of_finished {t : Moment} {conn : ConnId} {turn : Turn} {outcome : Outcome}
    (h : turn.next = .finished outcome) :
    S.complete t conn turn = ⟨turn.state, turn.replies, outcome⟩ := by
  unfold complete
  split
  · rename_i hnext
    rw [h] at hnext
    cases hnext
    rfl
  · rename_i hnext
    rw [h] at hnext
    cases hnext

/-- As long as routing waits, a step remains. -/
theorem complete_of_waiting {t : Moment} {conn : ConnId} {turn : Turn} {p : Pending}
    (h : turn.next = .waiting p) :
    S.complete t conn turn = S.complete t conn
      { S.resume turn.state t conn p with
        replies := turn.replies ++ (S.resume turn.state t conn p).replies } := by
  conv => lhs; unfold complete
  split
  · rename_i hnext
    rw [h] at hnext
    cases hnext
  · rename_i hnext
    rw [h] at hnext
    cases hnext
    rfl

theorem complete_wait (σ : State) (t : Moment) (conn : ConnId) (p : Pending) :
    S.complete t conn (Turn.wait σ p) = S.complete t conn (S.resume σ t conn p) := by
  rw [S.complete_of_waiting rfl]
  rfl

/-- Routes a message that came in on a connection. -/
def route (σ : State) (t : Moment) (conn : ConnId) (m : Message) : Routed :=
  S.complete t conn (S.begin σ t conn m)

end Service

end Relay
