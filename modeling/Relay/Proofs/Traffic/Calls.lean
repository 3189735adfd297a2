import Relay.Proofs.Traffic.Sessions

/-!
# `Relay.Proofs.Traffic.Calls`: where the messages under way come from

A message that is being routed came in at an earlier step of the run, and it was let through then.
`Call.Genuine` says so of a call, with reference to the steps so far: either it is a log-in or a
registration, or it acts for a user who was authorized at the step at which it came in
(`Step.Accepts`). In both cases what routing waits for is part of what the message asks for, so that
the message of a step can be read off what the step waited for.

`Run.genuine` proves it of every call in every run. It rests on the sessions being in order, because
a preamble comes from nobody only as long as a fresh connection has no user.
-/

set_option autoImplicit false

namespace Relay

namespace Traffic

variable {S : Service} {first last s s' : Traffic} {h : List (Step S)}

/-- A message comes in on a connection and is authorized for the user who is on it. -/
def Step.Accepts (step : Step S) (conn : ConnId) (m : Message) (user : User) : Prop :=
  ∃ t : Moment, step.event = .receive conn t m ∧
    S.Authorized step.before.state conn m user

/-- A call whose message came in on a connection, and was let through, in one of the steps. -/
inductive Genuine (h : List (Step S)) (conn : ConnId) (call : Call) : Prop where
  | preamble (huser : call.user = none) (hserves : call.pending.Serves call.message none)
      (hreplies : call.replies = [])
  | session {user : User} {step : Step S} (huser : call.user = some user)
      (hserves : call.pending.Serves call.message (some user))
      (hreplies : call.replies = [] ∨ ∃ ids : List UInt64, call.pending = .consumption ids)
      (hstep : step ∈ h) (haccepts : step.Accepts conn call.message user)

namespace Genuine

variable {conn : ConnId} {call : Call}

theorem serves (hcall : Genuine h conn call) : call.pending.Serves call.message call.user := by
  cases hcall with
  | preamble huser hserves =>
    rw [huser]
    exact hserves
  | session huser hserves =>
    rw [huser]
    exact hserves

theorem serves_of_pending (hcall : Genuine h conn call) {p : Pending} (hpending : call.pending = p) :
    p.Serves call.message call.user := by
  rw [← hpending]
  exact hcall.serves

/-- A message that acts for a user was authorized for the user when it came in. -/
theorem accepted (hcall : Genuine h conn call) {user : User} (huser : call.user = some user) :
    ∃ step ∈ h, step.Accepts conn call.message user := by
  cases hcall with
  | preamble hnobody =>
    rw [hnobody] at huser
    cases huser
  | session hsome _ _ hstep haccepts =>
    rw [hsome] at huser
    cases huser
    exact ⟨_, hstep, haccepts⟩

/-- Only a fetch that found messages has replied before it is through. -/
theorem no_replies (hcall : Genuine h conn call)
    (hpending : ∀ ids : List UInt64, call.pending ≠ .consumption ids) : call.replies = [] := by
  cases hcall with
  | preamble _ _ hreplies => exact hreplies
  | session _ _ hreplies =>
    rcases hreplies with hnil | ⟨ids, hids⟩
    · exact hnil
    · exact absurd hids (hpending ids)

/-- A call stays genuine as the run goes on. -/
theorem mono (hcall : Genuine h conn call) {h' : List (Step S)} (hsub : h ⊆ h') :
    Genuine h' conn call := by
  cases hcall with
  | preamble huser hserves hreplies => exact .preamble huser hserves hreplies
  | session huser hserves hreplies hstep haccepts =>
    exact .session huser hserves hreplies (hsub hstep) haccepts

/-- What is waited for after an answer of the store is as genuine as what was waited for before. -/
theorem resume (hcall : Genuine h conn call) {σ : State} {t : Moment} {turn : Turn} {p : Pending}
    (hturn : S.Resumption σ t conn call.pending turn) (hnext : turn.next = .waiting p) :
    Genuine h conn ⟨call.message, call.user, p, call.replies ++ turn.replies⟩ := by
  obtain ⟨hserves, hreplies⟩ := hturn.serves hcall.serves hnext
  cases hcall with
  | preamble huser _ hnone =>
    refine .preamble huser (huser ▸ hserves) ?_
    rcases hreplies with hnil | ⟨ids, rfl⟩
    · rw [hnone, hnil, List.append_nil]
    · -- Only a message that acts for a user can wait for messages to be removed.
      rw [huser] at hserves
      cases hserves
  | session huser _ hnone hstep haccepts =>
    refine .session huser (huser ▸ hserves) ?_ hstep haccepts
    rcases hreplies with hnil | hconsumption
    · left
      rcases hnone with hnone | ⟨ids, hids⟩
      · rw [hnone, hnil, List.append_nil]
      · rw [hids] at hturn
        rw [hturn.next_of_consumption.2] at hnext
        cases hnext
    · exact .inr hconsumption

end Genuine

/-- A call was there before a step, or the step is one of routing on its connection and has gone on
to wait. -/
theorem Moves.call_cases {event : Event} (hmoves : Moves S s event s') {conn : ConnId} {call : Call}
    (hcall : s'.calls.get? conn = some call) :
    s.calls.get? conn = some call ∨
      (∃ (t : Moment) (m : Message) (p : Pending), event = .receive conn t m ∧
        s.calls.get? conn = none ∧ (S.begin s.state t conn m).next = .waiting p ∧
        call = ⟨m, s.state.registry.user? conn, p, (S.begin s.state t conn m).replies⟩) ∨
      ∃ (t : Moment) (earlier : Call) (p : Pending), event = .resume conn t ∧
        s.calls.get? conn = some earlier ∧
        (S.resume s.state t conn earlier.pending).next = .waiting p ∧
        call = ⟨earlier.message, earlier.user, p,
          earlier.replies ++ (S.resume s.state t conn earlier.pending).replies⟩ := by
  cases hmoves with
  | @receive other t m hidle =>
    rw [get?_calls_settle] at hcall
    split at hcall
    · rename_i hconn
      subst hconn
      split at hcall
      · cases hcall
      · rename_i p hnext
        cases hcall
        exact .inr (.inl ⟨t, m, p, rfl, hidle, hnext, rfl⟩)
    · exact .inl hcall
  | @resume other t earlier hearlier =>
    rw [get?_calls_settle] at hcall
    split at hcall
    · rename_i hconn
      subst hconn
      split at hcall
      · cases hcall
      · rename_i p hnext
        cases hcall
        exact .inr (.inr ⟨t, earlier, p, rfl, hearlier, hnext, rfl⟩)
    · exact .inl hcall
  | abort other =>
    rw [Table.get?_erase] at hcall
    split at hcall
    · cases hcall
    · exact .inl hcall
  | _ => exact .inl hcall

/-- Every call in every run is genuine. -/
theorem Run.genuine (hrun : Run S first h last) (hopening : Opening S first) {conn : ConnId}
    {call : Call} (hcall : last.calls.get? conn = some call) : Genuine h conn call := by
  revert conn call
  -- The invariant is about all connections at once, because a step of one leaves the calls of the
  -- others in place while the steps so far get longer.
  refine hrun.invariant
    (P := fun h s => ∀ {conn : ConnId} {call : Call}, s.calls.get? conn = some call →
      Genuine h conn call) ?_ ?_
  · intro conn call hcall
    rw [hopening.calls] at hcall
    cases hcall
  · intro h step hrun ih conn call hcall
    have hsub : h ⊆ h ++ [step] := List.subset_append_left _ _
    rcases step.moves.call_cases hcall with
      hold | ⟨t, m, p, hevent, hidle, hnext, rfl⟩ | ⟨t, earlier, p, -, hearlier, hnext, rfl⟩
    · exact (ih hold).mono hsub
    · obtain ⟨hnil, -, ⟨hopens, hserves⟩ | ⟨user, hauth, hserves⟩⟩ :=
        (S.beginning_begin step.before.state t conn m).serves hnext
      · -- A preamble comes first on its connection, where nobody is yet.
        refine .preamble ?_ hserves hnil
        exact (hrun.sound hopening.sound).nobody hopens.phase
      · exact .session hauth.bound hserves (.inl hnil)
          (List.mem_append_right _ List.mem_cons_self) ⟨t, hevent, hauth⟩
    · exact ((ih hearlier).mono hsub).resume
        (S.resumption_resume step.before.state t conn earlier.pending) hnext

end Traffic

end Relay
