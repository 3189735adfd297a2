import Relay.Proofs.Traffic.Outcome
import Relay.Proofs.Traffic.Store

/-!
# `Relay.Proofs.Traffic.Shutdown`: after shutdown has begun

The mark of shutdown is set by a request of the administrator or from outside
(`Step.shuttingDown_cases`), and no step takes it back (`Run.shuttingDown`). Once it is set, a
message may still be looked at, because the mark is checked after the preamble and the token are. So
the refusal has to be read off all branches: `Service.begin_of_shuttingDown` does this once, and
`Service.TurnedAway` says what the refusal leaves as it was.

A message that is turned away takes its connection with it. Hence it is the last one of the
connection (`Run.pairwise_not_receives`), and `turned_away_from_shutdown` puts both together.
-/

set_option autoImplicit false

namespace Relay

namespace Service

variable {S : Service} {σ : State} {t : Moment} {conn : ConnId} {m : Message} {r : Routed}

/-- A message is turned away: its connection is removed, and the caller is told why. Nothing is
drawn, so no token is minted. -/
structure TurnedAway (S : Service) (σ : State) (conn : ConnId) (r : Routed) : Prop where
  outcome : r.outcome = .finishWithError
  store : r.state.store = σ.store
  outboxes : r.state.outboxes = σ.outboxes
  shuttingDown : r.state.shuttingDown = σ.shuttingDown
  entropy : r.state.entropy = σ.entropy
  /-- The connection is no longer registered. -/
  removed : r.state.registry.get? conn = none
  /-- Every other connection is as before. -/
  others : ∀ other, other ≠ conn → σ.registry.SameAt r.state.registry other
  /-- Nobody is on a connection who was not on it before. -/
  users : ∀ (other : ConnId) (user : User),
    r.state.registry.user? other = some user → σ.registry.user? other = some user
  /-- The caller is sent one reply at most. -/
  replies : r.replies = [] ∨ ∃ reply : Message, r.replies = [reply] ∧
    (reply.flag = .error ∨ reply.flag = .unauthenticated) ∧ reply.FromRelay S.relayToken

/-- A message that comes in when the relay is shutting down is refused, whichever check it has
passed before. -/
theorem begin_of_shuttingDown (hdown : σ.shuttingDown = true) :
    S.begin σ t conn m =
        ⟨σ.count (.dispatched (.ofFlag m.flag)), [], .finished .finishWithError⟩ ∨
      ∃ reply : Message, (reply.flag = .error ∨ reply.flag = .unauthenticated) ∧
        reply.FromRelay S.relayToken ∧
        S.begin σ t conn m =
          Turn.interrupt (σ.count (.dispatched (.ofFlag m.flag))) conn reply := by
  have error (recipient : UserId) :
      (S.errorReply t m.flag recipient).FromRelay S.relayToken := ⟨rfl, rfl⟩
  simp only [begin, State.registry_count]
  split
  · exact .inl rfl
  · split
    · split
      · -- The connection has moved on before the mark is seen, and is removed all the same.
        have hclosed := Turn.interrupt_advance (σ.count (.dispatched (.ofFlag m.flag))) conn
          .secureEstablished (S.errorReply t m.flag m.sender)
        refine .inr ⟨_, .inl rfl, error m.sender, ?_⟩
        simpa [perform, hdown] using hclosed
      · exact .inr ⟨_, .inl rfl, error _, rfl⟩
    · split
      · exact .inr ⟨_, .inl rfl, error _, rfl⟩
      · split
        · refine .inr ⟨_, .inl rfl, error m.sender, ?_⟩
          simp [perform, hdown]
        · exact .inr ⟨_, .inr rfl, ⟨rfl, rfl⟩, rfl⟩

/-- However a message is routed that comes in when the relay is shutting down, it is turned away. -/
theorem turnedAway_of_routes (hdown : σ.shuttingDown = true) (hσ : σ.registry.Consistent)
    (hroutes : S.Routes σ conn m r) : S.TurnedAway σ conn r := by
  have hending := ending_of_routes hroutes
  obtain ⟨t, hcompletes⟩ := hroutes
  have hothers (other : ConnId) (hne : other ≠ conn) := hending.sameAt hσ hne
  -- Both endings close the connection, so what they leave of the registry is known already.
  have hregistry (hclosed : r.outcome = .finishWithError) :
      r.state.registry.get? conn = none ∧ ∀ (other : ConnId) (user : User),
        r.state.registry.user? other = some user → σ.registry.user? other = some user := by
    have hgone := hending.get?_of_closes (by rw [hclosed]; rfl)
    refine ⟨hgone, fun other user huser => ?_⟩
    by_cases hother : other = conn
    · simp [hother, Registry.user?, hgone] at huser
    · rw [Registry.user?, (hothers other hother).entry] at huser
      exact huser
  rcases S.begin_of_shuttingDown hdown with hbegin | ⟨reply, hflag, hrelay, hbegin⟩
  · rw [hbegin] at hcompletes
    obtain rfl := hcompletes.of_finished rfl
    exact ⟨rfl, rfl, rfl, rfl, rfl, (hregistry rfl).1, hothers, (hregistry rfl).2, .inl rfl⟩
  · rw [hbegin] at hcompletes
    obtain rfl := hcompletes.of_finished rfl
    exact ⟨rfl, rfl, rfl, rfl, rfl, (hregistry rfl).1, hothers, (hregistry rfl).2,
      .inr ⟨reply, rfl, hflag, hrelay⟩⟩

end Service

namespace Traffic

variable {S : Service} {first last s s' : Traffic} {h h₁ h₂ : List (Step S)} {event : Event}
  {conn : ConnId}

/-! ### The mark of shutdown -/

/-- The mark stays as it is, or it is set: from outside or by a request of the administrator, for
which all messages are to be removed next. -/
theorem Step.shuttingDown_cases (step : Step S) :
    step.after.state.shuttingDown = step.before.state.shuttingDown ∨
      step.after.state.shuttingDown = true ∧
        (step.event = .stop ∨
          ∃ (conn : ConnId) (t : Moment) (call : Call) (user : User),
            step.Resumes conn t call ∧ call.pending = .stopper user ∧
              user.id = UserId.admin) := by
  obtain ⟨s, event, s', hmoves⟩ := step
  cases hmoves with
  | connect hopen =>
    obtain ⟨_, _, -, -, rfl⟩ := State.connect_eq_ok hopen
    exact .inl rfl
  | @receive conn t m => exact .inl (S.beginning_begin s.state t conn m).shuttingDown_eq
  | @resume conn t call hcall =>
    rcases (S.resumption_resume s.state t conn call.pending).shuttingDown_cases with
      ⟨hsame, -⟩ | ⟨user, hpending, hadmin, hset, -⟩
    · exact .inl hsame
    · exact .inr ⟨hset, .inr ⟨conn, t, call, user, ⟨rfl, hcall⟩, hpending, hadmin⟩⟩
  | stop => exact .inr ⟨rfl, .inl rfl⟩
  | _ => exact .inl rfl

theorem Step.shuttingDown (step : Step S) (hdown : step.before.state.shuttingDown = true) :
    step.after.state.shuttingDown = true := by
  rcases step.shuttingDown_cases with hsame | ⟨hset, -⟩
  · rw [hsame]
    exact hdown
  · exact hset

/-- Once the relay is shutting down, it keeps shutting down. -/
theorem Run.shuttingDown (hrun : Run S s h last) (hdown : s.state.shuttingDown = true) :
    last.state.shuttingDown = true := by
  induction hrun with
  | start => exact hdown
  | snoc _ ih => exact Step.shuttingDown _ ih

/-- The relay stops: routing a message has come to its end, and its outcome says so. -/
def Step.Stops (step : Step S) : Prop :=
  ∃ turn : Turn, step.before.turn? S step.event = some turn ∧ turn.next = .finished .shutdown

/-- The relay stops when all messages were to be removed, whether they were or not. -/
theorem Step.stops_iff {step : Step S} :
    step.Stops ↔ ∃ (conn : ConnId) (t : Moment) (call : Call),
      step.Resumes conn t call ∧ call.pending = .clearance := by
  constructor
  · rintro ⟨turn, hturn, hnext⟩
    cases hevent : step.event with
    | receive conn t m =>
      rw [hevent] at hturn
      obtain rfl := Option.some.inj hturn
      exact absurd hnext (S.beginning_begin step.before.state t conn m).next_ne_shutdown
    | resume conn t =>
      obtain ⟨call, hresumes⟩ := step.resumes_of_event hevent
      simp only [turn?, hevent, hresumes.call, Option.map_some] at hturn
      obtain rfl := Option.some.inj hturn
      have hresumption := S.resumption_resume step.before.state t conn call.pending
      exact ⟨conn, t, call, hresumes, hresumption.next_eq_shutdown_iff.1 hnext⟩
    | _ =>
      rw [hevent] at hturn
      cases hturn
  · rintro ⟨conn, t, call, hresumes, hpending⟩
    refine ⟨S.resume step.before.state t conn call.pending, ?_, ?_⟩
    · simp only [turn?, hresumes.event, hresumes.call, Option.map_some]
    · exact (S.resumption_resume step.before.state t conn _).next_eq_shutdown_iff.2 hpending

/-! ### What comes in after that -/

/-- A message comes in on a connection. -/
def Step.Receives (step : Step S) (conn : ConnId) : Prop :=
  ∃ (t : Moment) (m : Message), step.event = .receive conn t m

/-- A message that comes in when the relay is shutting down is through at once: the step is all that
is done for it. -/
theorem Step.routes_of_shuttingDown {step : Step S} {t : Moment} {m : Message}
    (hevent : step.event = .receive conn t m) (hdown : step.before.state.shuttingDown = true) :
    S.Routes step.before.state conn m ⟨step.after.state, step.replies, .finishWithError⟩ ∧
      ∀ other, step.after.calls.get? other = step.before.calls.get? other := by
  have hreplies := step.replies_of_receive hevent
  have hfinished : (S.begin step.before.state t conn m).next = .finished .finishWithError := by
    rcases S.begin_of_shuttingDown hdown with hbegin | ⟨reply, -, -, hbegin⟩
    · rw [hbegin]
    · rw [hbegin]
      rfl
  obtain ⟨s, event, s', hmoves⟩ := step
  dsimp only at hevent hfinished hreplies ⊢
  subst hevent
  cases hmoves with
  | receive _ _ hidle =>
    refine ⟨⟨t, ?_⟩, fun other => ?_⟩
    · rw [hreplies]
      exact .finished hfinished
    · rw [get?_calls_settle, hfinished]
      split
      · rename_i hother
        rw [hother, hidle]
      · rfl

/-- In the life of a connection, one message at most comes in after shutdown has begun. -/
theorem Run.pairwise_not_receives {life : List (Step S)} (hrun : Run S s life last)
    (hs : Sound s) (hdown : s.state.shuttingDown = true) (hlives : Lives conn life) :
    life.Pairwise fun x y => ¬ (x.Receives conn ∧ y.Receives conn) := by
  induction hrun with
  | start => exact List.Pairwise.nil
  | @snoc life step hrun ih =>
    have hearlier : Lives conn life := fun x hx => hlives x (List.mem_append_left _ hx)
    refine List.pairwise_append.2 ⟨ih hearlier, List.pairwise_singleton _ _, ?_⟩
    rintro x hx y hy ⟨⟨t, m, hevent⟩, -⟩
    obtain rfl := List.mem_singleton.1 hy
    obtain ⟨a, b, rfl⟩ := List.append_of_mem hx
    obtain ⟨hbefore, hbetween⟩ := run_append_cons_iff.1 hrun
    -- The first of the two took the connection with it, but the connection still lives.
    have hgone := (Service.turnedAway_of_routes (hbefore.shuttingDown hdown)
      (hbefore.sound hs).consistent
      (Step.routes_of_shuttingDown hevent (hbefore.shuttingDown hdown)).1).removed
    have hlivesBetween : Lives conn b := fun z hz => hearlier z (by simp [hz])
    have hregistered := hlivesBetween.contains_first hbetween (hlives y (by simp))
    obtain ⟨c, hc⟩ := (Table.contains_iff _ _).1 hregistered
    rw [Registry.get?, hc] at hgone
    cases hgone

/-- What may be relied on when shutdown has begun some steps ago. -/
structure ShutOff (S : Service) (since : List (Step S)) (s : Traffic) : Prop where
  /-- It is not taken back. -/
  stays : s.state.shuttingDown = true
  /-- Whatever comes in now is turned away. -/
  closed : ∀ (conn : ConnId) (t : Moment) (m : Message),
    S.TurnedAway s.state conn (S.route s.state t conn m)
  /-- So it is if every step of it is taken at a time of its own. -/
  closedStepwise : ∀ (conn : ConnId) (m : Message) (r : Routed),
    S.Routes s.state conn m r → S.TurnedAway s.state conn r
  /-- Whatever has come in since then was turned away at once, between the steps of the messages
  that were under way. -/
  steps : ∀ step ∈ since, ∀ (conn : ConnId) (t : Moment) (m : Message),
    step.event = .receive conn t m →
      S.TurnedAway step.before.state conn ⟨step.after.state, step.replies, .finishWithError⟩ ∧
        ∀ other, step.after.calls.get? other = step.before.calls.get? other
  /-- In the life of a connection, it was one message at most. -/
  once : ∀ conn : ConnId, Lives conn since →
    since.Pairwise fun x y => ¬ (x.Receives conn ∧ y.Receives conn)

/-- After any run that has come to a shutdown, however it goes on, every message that comes in is
turned away. -/
theorem turned_away_from_shutdown (hopening : Opening S first) (h₁run : Run S first h₁ s)
    (hdown : s.state.shuttingDown = true) (h₂run : Run S s h₂ last) : ShutOff S h₂ last := by
  have hs := h₁run.sound hopening.sound
  have hclosed (conn : ConnId) (m : Message) (r : Routed) (hroutes : S.Routes last.state conn m r) :
      S.TurnedAway last.state conn r :=
    Service.turnedAway_of_routes (h₂run.shuttingDown hdown) (h₂run.sound hs).consistent hroutes
  constructor
  · exact h₂run.shuttingDown hdown
  · intro conn t m
    exact hclosed conn m _ (S.routes_route last.state t conn m)
  · exact hclosed
  · intro step hstep conn t m hevent
    obtain ⟨h', -, hbefore⟩ := h₂run.before_of_mem hstep
    have hstill := hbefore.shuttingDown hdown
    obtain ⟨hroutes, hcalls⟩ := step.routes_of_shuttingDown hevent hstill
    exact ⟨Service.turnedAway_of_routes hstill (hbefore.sound hs).consistent hroutes, hcalls⟩
  · intro conn hlives
    exact h₂run.pairwise_not_receives hs hdown hlives

/-- The administrator shuts the relay down. Before the messages are removed, a guest who is logged
in writes once more, and is turned away. -/
theorem turned_away_from_shutdown_guest :
    ∃ (h₁ h₂ : List (Step Sample.relay)) (s last : Traffic),
      h₁.map Step.event = Sample.conversation.take 11 ++
        [.receive 5 ⟨9, .none⟩ (Sample.request .shutdown 5 Sample.admin UserId.toRelay []),
          .resume 5 ⟨10, .none⟩] ∧
      h₂.map Step.event =
        [.receive 6 ⟨11, .none⟩ (Sample.request .proceed 6 Sample.guest UserId.admin [1])] ∧
      Opening Sample.relay Sample.first ∧ Run Sample.relay Sample.first h₁ s ∧
      s.state.shuttingDown = true ∧ Run Sample.relay s h₂ last ∧ Lives 6 h₂ ∧
      s.state.registry.user? 6 = some Sample.guest ∧
      last.state.registry.get? 6 = none ∧ ShutOff Sample.relay h₂ last := by
  let earlier : List Event := Sample.conversation.take 11 ++
    [.receive 5 ⟨9, .none⟩ (Sample.request .shutdown 5 Sample.admin UserId.toRelay []),
      .resume 5 ⟨10, .none⟩]
  let m := Sample.request .proceed 6 Sample.guest UserId.admin [1]
  let events : List Event := earlier ++ [.receive 6 ⟨11, .none⟩ m]
  have hsome : (Sample.first.follow? Sample.relay events).isSome := by decide +kernel
  obtain ⟨⟨h, last⟩, hfollow⟩ := Option.isSome_iff_exists.1 hsome
  have hrun := (run_of_follow? hfollow).1
  obtain ⟨h₁, step, rfl, hevent, hbefore, rfl⟩ := snoc_of_follow? hfollow
  have hearlier := (run_of_follow? hbefore).2
  have hcheck := check_of_follow? hbefore (fun s =>
    s.state.shuttingDown && s.state.registry.user? 6 = some Sample.guest) (by decide +kernel)
  simp only [Bool.and_eq_true, decide_eq_true_eq] at hcheck
  obtain ⟨hdown, huser⟩ := hcheck
  obtain ⟨h₁run, -⟩ := run_snoc_iff.1 hrun
  have hshut := turned_away_from_shutdown Sample.opening h₁run hdown (run_singleton step)
  obtain ⟨c, hc, -⟩ := (Registry.user?_eq_some_iff _ _ _).1 huser
  have hlives : Lives 6 [step] := by
    intro x hx
    rw [List.mem_singleton.1 hx]
    exact (Table.contains_iff _ _).2 ⟨c, hc⟩
  have hgone := (hshut.steps step List.mem_cons_self 6 _ m hevent).1.removed
  exact ⟨h₁, [step], step.before, step.after, hearlier, by simp [hevent, m], Sample.opening, h₁run,
    hdown, run_singleton step, hlives, huser, hgone, hshut⟩

end Traffic

end Relay
