import Relay.Proofs.Traffic.Store

/-!
# `Relay.Proofs.Traffic.Admission`: traffic in which users are also entered past routing

A registration is checked at one step and entered into the directory at another, and anything may
happen in between. The store may also be asked past routing to enter a user. `Admission.Event` has
both kinds of steps, and `Admission.Run` lets them follow on one another in any order
(`exists_run_traffic`, `exists_run_addUser`).

`Step.directoryEffect` says what a step does to the directory, and `Step.Resumes.counts`, `hashes`
and `enters` say of each of the three steps of a registration whether it goes on or is refused.
-/

set_option autoImplicit false

namespace Relay

/-- The directory with one more user, unless the user is refused. -/
def Directory.enter (d : Directory) (name : Username) (record : String) : Directory :=
  match d.enrol name record with
  | .error _ => d
  | .ok (_, e) => e

namespace Admission

/-! ### Steps and runs -/

/-- What happens next. -/
inductive Event where
  /-- Something happens in traffic. -/
  | traffic (event : Traffic.Event)
  /-- The store is asked past routing to enter a user, whose password it has hashed. -/
  | enter (name : Username) (record : String)

variable (S : Service)

/-- What an event leads to. -/
inductive Moves (s : Traffic) : Event → Traffic → Prop where
  | traffic {event : Traffic.Event} {s' : Traffic} (hmoves : Traffic.Moves S s event s') :
      Moves s (.traffic event) s'
  | enter (name : Username) (record : String) :
      Moves s (.enter name record)
        { s with state.store.directory := s.state.store.directory.enter name record }

/-- An event, what it led from and what it led to. -/
structure Step where
  /-- What was there before. -/
  before : Traffic
  /-- What happened. -/
  event : Event
  /-- What came of it. -/
  after : Traffic
  /-- It could happen. -/
  moves : Moves S before event after

/-- Steps that follow on one another, from the first state to the last. -/
inductive Run (first : Traffic) : List (Step S) → Traffic → Prop where
  | start : Run first [] first
  | snoc {h : List (Step S)} {step : Step S} (hrun : Run first h step.before) :
      Run first (h ++ [step]) step.after

variable {S} {first s : Traffic} {h : List (Step S)} {step : Step S} {conn : ConnId} {t : Moment}
  {call : Call}

namespace Step

/-- The replies that a step adds. -/
def replies (step : Step S) : List Message :=
  match step.event with
  | .traffic event => step.before.repliesTo S event
  | .enter .. => []

/-- The store answers for the message that is under way on a connection. -/
structure Resumes (step : Step S) (conn : ConnId) (t : Moment) (call : Call) : Prop where
  event : step.event = .traffic (.resume conn t)
  call : step.before.calls.get? conn = some call

/-- A registration is accepted. -/
def Registers (step : Step S) : Prop := ∃ reply ∈ step.replies, reply.flag = .registered

/-- A message goes on to wait for something else. -/
def Awaits (step : Step S) (conn : ConnId) (call : Call) (p : Pending) : Prop :=
  step.after.calls.get? conn = some { call with pending := p }

/-- The ids with which registrations are replied to. -/
def granted (step : Step S) : List UserId :=
  (step.replies.filter fun reply => reply.flag = .registered).map Message.recipient

end Step

/-! ### What a step does -/

/-- A user is entered past routing, or not, and nothing else happens. -/
theorem enter_cases (d : Directory) (name : Username) (record : String) :
    (∃ user, d.enrol name record = .ok (user, d.enter name record)) ∨
      (d.enter name record = d ∧ ∀ user e, d.enrol name record ≠ .ok (user, e)) := by
  unfold Directory.enter
  cases d.enrol name record with
  | error => exact .inr ⟨rfl, nofun⟩
  | ok enrolled => exact .inl ⟨enrolled.1, rfl⟩

namespace Step

theorem Resumes.after (hresumes : step.Resumes conn t call) :
    step.after = step.before.settle conn call.message call.user call.replies
      (S.resume step.before.state t conn call.pending) := by
  -- In traffic a step is one of `Traffic`, of which this is known.
  obtain ⟨s, event, s', hmoves⟩ := step
  obtain ⟨hevent, hcall⟩ := hresumes
  dsimp only at hevent hcall
  subst hevent
  cases hmoves with
  | traffic hmoves =>
    let inner : Traffic.Step S := ⟨s, _, s', hmoves⟩
    exact inner.after_of_resume rfl hcall

theorem Resumes.replies (hresumes : step.Resumes conn t call) :
    step.replies = (S.resume step.before.state t conn call.pending).replies := by
  simp only [Step.replies, hresumes.event, Traffic.repliesTo, Traffic.turn?, hresumes.call]
  rfl

/-- What a step does to the directory. -/
inductive DirectoryEffect (step : Step S) : Prop where
  /-- Nothing, and no registration is replied to. -/
  | same (hsame : step.after.state.store.directory = step.before.state.store.directory)
      (hnone : ∀ reply ∈ step.replies, reply.flag ≠ .registered)
  /-- A registration is accepted. -/
  | registered {conn : ConnId} {t : Moment} {call : Call} {name : Username} {record : String}
      {user : User} (hresumes : step.Resumes conn t call)
      (hpending : call.pending = .enrolment name record)
      (henrol : step.before.state.store.directory.enrol name record =
        .ok (user, step.after.state.store.directory))
      (hreplies : step.replies = [S.message t .registered user.id])
  /-- A user is entered past routing. -/
  | entered {name : Username} {record : String} {user : User}
      (hevent : step.event = .enter name record)
      (henrol : step.before.state.store.directory.enrol name record =
        .ok (user, step.after.state.store.directory))
      (hreplies : step.replies = [])

/-- Nothing else touches the directory. -/
theorem directoryEffect (step : Step S) : step.DirectoryEffect := by
  -- In traffic the reply to a registration tells; past routing there is none.
  obtain ⟨s, event, s', hmoves⟩ := step
  cases hmoves with
  | traffic hmoves =>
    rcases Traffic.Step.directory_cases ⟨s, _, s', hmoves⟩ with
      ⟨hsame, hnone⟩ | ⟨conn, t, call, name, record, user, hresumes, hpending, henrol, hreplies⟩
    · exact .same hsame hnone
    · exact .registered ⟨congrArg Event.traffic hresumes.event, hresumes.call⟩ hpending henrol
        hreplies
  | enter name record =>
    rcases enter_cases s.state.store.directory name record with ⟨user, henrol⟩ | ⟨hsame, -⟩
    · exact .entered rfl henrol rfl
    · exact .same hsame (List.forall_mem_nil _)

theorem granted_of_forall (hnone : ∀ reply ∈ step.replies, reply.flag ≠ .registered) :
    step.granted = [] := by
  rw [granted, Traffic.Step.filter_registered_eq_nil hnone, List.map_nil]

/-- A message that waits after a step waited for the same before it, or it has come in or gone on to
wait for this in the step. -/
theorem call_cases (hcall : step.after.calls.get? conn = some call) :
    (step.before.calls.get? conn = some call ∧
        ∀ (t : Moment) (m : Message), step.event ≠ .traffic (.receive conn t m)) ∨
      (∃ user : Option User, call.pending.Serves call.message user ∧ call.pending.isFirst) ∨
      ∃ (t : Moment) (earlier : Call), step.Resumes conn t earlier ∧
        (S.resume step.before.state t conn earlier.pending).next = .waiting call.pending ∧
        call.message = earlier.message := by
  obtain ⟨s, event, s', hmoves⟩ := step
  cases hmoves with
  | enter => exact .inl ⟨hcall, nofun⟩
  | traffic hmoves =>
    rcases hmoves.call_cases hcall with
      hold | ⟨t, m, p, rfl, hidle, hnext, rfl⟩ | ⟨t, earlier, p, rfl, hearlier, hnext, rfl⟩
    · -- Where a message is under way, no other comes in.
      refine .inl ⟨hold, fun t m hevent => ?_⟩
      cases hevent
      cases hmoves with
      | receive _ _ hidle =>
        rw [hidle] at hold
        cases hold
    · obtain ⟨-, hfirst, ⟨-, hserves⟩ | ⟨user, -, hserves⟩⟩ :=
        (S.beginning_begin s.state t conn m).serves hnext
      · exact .inr (.inl ⟨none, hserves, hfirst⟩)
      · exact .inr (.inl ⟨some user, hserves, hfirst⟩)
    · exact .inr (.inr ⟨t, earlier, ⟨rfl, hearlier⟩, hnext, rfl⟩)

end Step

/-! ### How a registration ends -/

namespace Step

/-- A registration is refused, and its connection is removed. -/
structure Refuses (step : Step S) (conn : ConnId) (t : Moment) : Prop where
  replies : step.replies = [S.errorReply t .register UserId.toAnonymous]
  finished : step.after.calls.get? conn = none
  closed : step.after.state.registry.get? conn = none

variable {σ : State}

theorem Resumes.awaits {p : Pending} (hresumes : step.Resumes conn t call)
    (hwaits : S.resume step.before.state t conn call.pending = Turn.wait σ p) :
    step.Awaits conn call p := by
  rw [Awaits, hresumes.after, hwaits, Traffic.get?_calls_settle, if_pos rfl]
  simp only [Turn.wait, List.append_nil]

theorem Resumes.refuses (hresumes : step.Resumes conn t call)
    (hrefused : S.resume step.before.state t conn call.pending = S.refuseRegistration σ t conn) :
    step.Refuses conn t := by
  refine ⟨?_, ?_, ?_⟩
  · rw [hresumes.replies, hrefused]
    rfl
  · rw [hresumes.after, hrefused, Traffic.get?_calls_settle, if_pos rfl]
    rfl
  · rw [hresumes.after, hrefused]
    simp [Traffic.settle, Service.refuseRegistration, Turn.interrupt, Registry.get?_delete]

theorem Refuses.not_awaits {p : Pending} (hrefuses : step.Refuses conn t) :
    ¬ step.Awaits conn call p := by
  intro hawaits
  cases hrefuses.finished.symm.trans hawaits

/-- A registration that asks for the number of users goes on if there is a seat. -/
theorem Resumes.counts (hresumes : step.Resumes conn t call) {body : Bytes}
    (hpending : call.pending = .seats body) :
    (S.HasSeat step.before.state t body ∧
        ∃ (name : Username) (password : Password), step.Awaits conn call (.hashing name password)) ∨
      (¬ S.HasSeat step.before.state t body ∧ step.Refuses conn t) := by
  rcases S.resume_seats step.before.state t conn body with
    ⟨hseat, name, password, -, hwaits⟩ | ⟨hnot, hrefused⟩
  · exact .inl ⟨hseat, name, password, hresumes.awaits (hpending ▸ hwaits)⟩
  · exact .inr ⟨hnot, hresumes.refuses (hpending ▸ hrefused)⟩

/-- A registration whose password can be hashed goes on. -/
theorem Resumes.hashes (hresumes : step.Resumes conn t call) {name : Username} {password : Password}
    (hpending : call.pending = .hashing name password) :
    (∃ record, t.outage .addUser = none ∧
        S.passwords.hash (step.before.state.entropy.draw saltSize).1 password.bytes = .ok record ∧
        step.Awaits conn call (.enrolment name record)) ∨
      ((t.outage .addUser = none → ∃ reason,
          S.passwords.hash (step.before.state.entropy.draw saltSize).1 password.bytes =
            .error reason) ∧
        step.Refuses conn t) := by
  rcases S.resume_hashing step.before.state t conn name password with
    ⟨record, hstore, hhash, hwaits⟩ | ⟨hnot, entropy, hrefused⟩
  · exact .inl ⟨record, hstore, hhash, hresumes.awaits (hpending ▸ hwaits)⟩
  · exact .inr ⟨hnot, hresumes.refuses (hpending ▸ hrefused)⟩

/-- A registration that has got to the directory is accepted or refused. -/
theorem Resumes.enters (hresumes : step.Resumes conn t call) {name : Username} {record : String}
    (hpending : call.pending = .enrolment name record) :
    (step.Registers ∧ ∃ (user : User) (e : Directory),
        step.before.state.store.directory.enrol name record = .ok (user, e)) ∨
      (step.Refuses conn t ∧ ∀ (user : User) (e : Directory),
        step.before.state.store.directory.enrol name record ≠ .ok (user, e)) := by
  rcases S.resume_enrolment step.before.state t conn name record with
    ⟨user, directory, henrol, haccepted⟩ | ⟨⟨e, hfails⟩, hrefused⟩
  · refine .inl ⟨⟨S.message t .registered user.id, ?_, rfl⟩, user, directory, henrol⟩
    rw [hresumes.replies, hpending, haccepted]
    exact List.mem_singleton_self _
  · refine .inr ⟨hresumes.refuses (hpending ▸ hrefused), fun user directory henrol => ?_⟩
    rw [hfails] at henrol
    cases henrol

/-- A step that accepts a registration enters its user into the directory. -/
theorem Registers.enrols (hregisters : step.Registers) :
    ∃ (conn : ConnId) (t : Moment) (call : Call) (name : Username) (record : String) (user : User),
      step.Resumes conn t call ∧ call.pending = .enrolment name record ∧
        step.before.state.store.directory.enrol name record =
          .ok (user, step.after.state.store.directory) ∧
        step.replies = [S.message t .registered user.id] := by
  obtain ⟨reply, hreply, hflag⟩ := hregisters
  cases step.directoryEffect with
  | same _ hnone => exact absurd hflag (hnone reply hreply)
  | registered hresumes hpending henrol hreplies =>
    exact ⟨_, _, _, _, _, _, hresumes, hpending, henrol, hreplies⟩
  | entered _ _ hreplies =>
    rw [hreplies] at hreply
    cases hreply

theorem Resumes.unique {other : ConnId} {t' : Moment} {call' : Call}
    (hresumes : step.Resumes conn t call) (hresumes' : step.Resumes other t' call') :
    conn = other ∧ t = t' ∧ call = call' := by
  cases hresumes.event.symm.trans hresumes'.event
  cases hresumes.call.symm.trans hresumes'.call
  exact ⟨rfl, rfl, rfl⟩

end Step

/-! ### What comes to such a run -/

theorem Run.trans {middle last : Traffic} {h₁ h₂ : List (Step S)} (h₁run : Run S first h₁ middle)
    (h₂run : Run S middle h₂ last) : Run S first (h₁ ++ h₂) last := by
  induction h₂run with
  | start =>
    rw [List.append_nil]
    exact h₁run
  | snoc _ ih =>
    rw [← List.append_assoc]
    exact ih.snoc

/-- Traffic alone is a run. -/
theorem exists_run_traffic {h : List (Traffic.Step S)} (hrun : Traffic.Run S first h s) :
    ∃ h' : List (Step S), Run S first h' s ∧
      h'.map Step.event = h.map fun step => .traffic step.event := by
  induction hrun with
  | start => exact ⟨[], .start, rfl⟩
  | @snoc h step hrun ih =>
    obtain ⟨h', hrun', hevents⟩ := ih
    let next : Step S := ⟨step.before, .traffic step.event, step.after, .traffic step.moves⟩
    have hnext : Run S first (h' ++ [next]) next.after := .snoc hrun'
    refine ⟨h' ++ [next], hnext, ?_⟩
    rw [List.map_append, List.map_append, hevents]
    rfl

/-- To register a user directly is a run: a salt is drawn, and if the password can be hashed, the
user is entered or refused. -/
theorem exists_run_addUser (s : Traffic) (name : Username) (password : Password)
    {result : Except StoreError (User × Store)} {e : Entropy}
    (hadd : Store.addUser S.passwords s.state.store name password s.state.entropy = (result, e)) :
    ∃ h : List (Step S), Run S s h
      { s with state := { s.state with
        entropy := e
        store := match result with
          | .error _ => s.state.store
          | .ok (_, store) => store } } := by
  let drawn : Traffic :=
    { s with state := { s.state with entropy := (s.state.entropy.draw saltSize).2 } }
  let draw : Step S := ⟨s, .traffic (.draw saltSize), drawn, .traffic (.draw saltSize)⟩
  -- The salt is drawn in any case. Who is refused leaves the store as it was.
  have hdraw : Run S s ([] ++ [draw]) draw.after := .snoc .start
  unfold Store.addUser Store.hashPassword at hadd
  cases hhash : S.passwords.hash (s.state.entropy.draw saltSize).1 password.bytes with
  | error reason =>
    simp only [hhash, Prod.mk.injEq] at hadd
    obtain ⟨rfl, rfl⟩ := hadd
    exact ⟨_, hdraw⟩
  | ok record =>
    simp only [hhash] at hadd
    cases henrol : s.state.store.directory.enrol name record with
    | error error =>
      simp only [henrol, Prod.mk.injEq] at hadd
      obtain ⟨rfl, rfl⟩ := hadd
      exact ⟨_, hdraw⟩
    | ok enrolled =>
      simp only [henrol, Prod.mk.injEq] at hadd
      obtain ⟨rfl, rfl⟩ := hadd
      let entry : Step S := ⟨drawn, .enter name record, _, .enter name record⟩
      have hafter : s.state.store.directory.enter name record = enrolled.2 := by
        rw [Directory.enter, henrol]
      have hentry : Run S s ([] ++ [draw] ++ [entry]) entry.after := .snoc hdraw
      simp only [entry, drawn, hafter] at hentry
      exact ⟨_, hentry⟩

end Admission

end Relay
