import Mathlib.Data.List.Infix
import Relay.Proofs.Routing.Registration
import Relay.Proofs.Traffic.Calls

/-!
# `Relay.Proofs.Traffic.Store`: what steps do to the store and to the queues

A user is entered into the directory by the step that replies to a registration, and by no other
(`Step.directory_cases`). Few steps touch the mailbox: one that keeps a message (`Step.Keeps`), one that removes messages that
were fetched (`Step.Consumes`) and one that removes all (`Step.Clears`). `Step.mailboxEffect` says
that no other does. What gets into a queue is said by `Step.queue_cases`.

Two facts about runs follow. The ids of users lie below the number of users that the settings allow
(`Run.id_lt`), and whoever a message was accepted from stays registered (`Step.Accepts.registered`).
-/

set_option autoImplicit false

namespace Relay

theorem Config.maxUsers_le {config : Config} (h : config.validate = .ok ()) :
    config.maxUsers ≤ UserId.limit := by
  have hbound : (decide (config.maxUsers > UserId.limit), .maxUsersTooLarge) ∈ config.violations := by
    simp [violations]
  exact Nat.le_of_not_lt (of_decide_eq_false (eq_false_of_mem_violations h hbound))

/-- What is left in a queue after it was changed on its own. -/
theorem State.waiting_modify (σ : State) (conn other : ConnId) (f : Outbox → Outbox)
    (g : List Message → List Message) (hf : ∀ box : Outbox, (f box).waiting = g box.waiting)
    (hg : g [] = []) :
    { σ with outboxes := σ.outboxes.modify conn f }.waiting other =
      if other = conn then g (σ.waiting other) else σ.waiting other := by
  simp only [waiting, Table.get?_modify]
  by_cases hconn : other = conn
  · subst hconn
    rw [if_pos rfl, if_pos rfl]
    cases σ.outboxes.get? other with
    | none => exact hg.symm
    | some box => exact hf box
  · rw [if_neg hconn, if_neg hconn]

namespace Traffic

variable {S : Service} {first last s s' : Traffic} {h : List (Step S)} {step : Step S}
  {conn : ConnId} {t : Moment} {call : Call}

/-! ### What steps do -/

namespace Step

/-- The store answers for the message that is under way on a connection. -/
structure Resumes (step : Step S) (conn : ConnId) (t : Moment) (call : Call) : Prop where
  event : step.event = .resume conn t
  call : step.before.calls.get? conn = some call

/-- A message is kept. -/
def Keeps (step : Step S) (conn : ConnId) (m : Message) : Prop :=
  ∃ (t : Moment) (call : Call), step.Resumes conn t call ∧ call.pending = .keeping m ∧
    t.outage .addMessage = none

/-- Messages that were fetched are removed. -/
def Consumes (step : Step S) (conn : ConnId) (ids : List UInt64) : Prop :=
  ∃ (t : Moment) (call : Call), step.Resumes conn t call ∧ call.pending = .consumption ids ∧
    t.outage .deleteMessages = none

/-- All messages are removed. -/
def Clears (step : Step S) : Prop :=
  ∃ (conn : ConnId) (t : Moment) (call : Call), step.Resumes conn t call ∧
    call.pending = .clearance ∧ t.outage .deleteAllMessages = none

/-- Only the administrator's request to shut down removes all messages. -/
theorem Clears.shutdown (hclears : step.Clears) (hrun : Run S first h step.before)
    (hopening : Opening S first) :
    ∃ (conn : ConnId) (t : Moment) (call : Call) (admin : User), step.Resumes conn t call ∧
      call.message.flag = .shutdown ∧ call.user = some admin ∧ admin.id = UserId.admin := by
  obtain ⟨conn, t, call, hresumes, hpending, -⟩ := hclears
  have hserves := (hrun.genuine hopening hresumes.call).serves_of_pending hpending
  obtain ⟨hflag, admin, huser, hadmin⟩ := hserves.of_clearance
  exact ⟨conn, t, call, admin, hresumes, hflag, huser, hadmin⟩

/-- The number under which a message is kept, and what is kept of it. -/
def stored (step : Step S) (m : Message) : StoredMessage :=
  ⟨step.before.state.store.mailbox.nextId, m.timestamp, m.sender, m.recipient, m.body⟩

theorem resumes_of_event (step : Step S) (hevent : step.event = .resume conn t) :
    ∃ call : Call, step.Resumes conn t call := by
  obtain ⟨s, event, s', hmoves⟩ := step
  dsimp only at hevent
  subst hevent
  cases hmoves with
  | resume _ hcall => exact ⟨_, rfl, hcall⟩

/-- A step goes on with one message only. -/
theorem Resumes.unique {other : ConnId} {t' : Moment} {call' : Call}
    (hstep : step.Resumes conn t call) (hstep' : step.Resumes other t' call') :
    conn = other ∧ t = t' ∧ call = call' := by
  have hevent := hstep.event.symm.trans hstep'.event
  cases hevent
  have hcall := hstep.call.symm.trans hstep'.call
  cases hcall
  exact ⟨rfl, rfl, rfl⟩

theorem Resumes.after (hstep : step.Resumes conn t call) :
    step.after = step.before.settle conn call.message call.user call.replies
      (S.resume step.before.state t conn call.pending) :=
  step.after_of_resume hstep.event hstep.call

theorem Resumes.replies (hstep : step.Resumes conn t call) :
    step.replies = (S.resume step.before.state t conn call.pending).replies :=
  step.replies_of_resume hstep.event hstep.call

/-- No reply to a registration is among replies of other kinds. -/
theorem filter_registered_eq_nil {replies : List Message}
    (hnone : ∀ reply ∈ replies, reply.flag ≠ .registered) :
    replies.filter (fun reply => reply.flag = .registered) = [] := by
  rw [List.filter_eq_nil_iff]
  intro reply hreply
  simpa using hnone reply hreply

/-- The directory stays as it is, and no registration is replied to, or a user is entered under the id
of the reply. -/
theorem directory_cases (step : Step S) :
    (step.after.state.store.directory = step.before.state.store.directory ∧
        ∀ reply ∈ step.replies, reply.flag ≠ .registered) ∨
      ∃ (conn : ConnId) (t : Moment) (call : Call) (name : Username) (record : String)
        (user : User), step.Resumes conn t call ∧ call.pending = .enrolment name record ∧
          step.before.state.store.directory.enrol name record =
            .ok (user, step.after.state.store.directory) ∧
          step.replies = [S.message t .registered user.id] := by
  obtain ⟨s, event, s', hmoves⟩ := step
  cases hmoves with
  | @resume conn t call hcall =>
    have hresumes : Resumes (S := S) ⟨s, .resume conn t, _, .resume t hcall⟩ conn t call :=
      ⟨rfl, hcall⟩
    rcases (S.resumption_resume s.state t conn call.pending).enrol_cases with
      ⟨hsame, hnone⟩ | ⟨name, record, user, hpending, henrol, hreplies⟩
    · exact .inl ⟨hsame, hresumes.replies ▸ hnone⟩
    · exact .inr ⟨conn, t, call, name, record, user, hresumes, hpending, henrol,
        hresumes.replies.trans hreplies⟩
  | @receive conn t m =>
    have hbegins := S.beginning_begin s.state t conn m
    exact .inl ⟨congrArg Store.directory hbegins.store_eq, fun _ => hbegins.flag_ne_registered⟩
  | connect hopen =>
    obtain ⟨_, _, -, -, rfl⟩ := State.connect_eq_ok hopen
    exact .inl ⟨rfl, List.forall_mem_nil _⟩
  | _ => exact .inl ⟨rfl, List.forall_mem_nil _⟩

/-- What is kept in a step: nothing, or one message. -/
def kept (step : Step S) : List StoredMessage :=
  match step.event with
  | .resume conn t =>
    match (step.before.calls.get? conn).map Call.pending with
    | some (.keeping m) => if t.outage .addMessage = none then [step.stored m] else []
    | _ => []
  | _ => []

theorem Keeps.kept {m : Message} (hkeeps : step.Keeps conn m) : step.kept = [step.stored m] := by
  obtain ⟨t, call, hresumes, hpending, hstore⟩ := hkeeps
  simp only [Step.kept, hresumes.event, hresumes.call, Option.map_some, hpending, hstore, if_true]

/-- What a step does to the mailbox: nothing, or one of the three. -/
inductive MailboxEffect (step : Step S) : Prop where
  | same (hkept : step.kept = [])
      (hmailbox : step.after.state.store.mailbox = step.before.state.store.mailbox)
  | added {conn : ConnId} {m : Message} (hkeeps : step.Keeps conn m)
      (hmailbox : step.after.state.store.mailbox = (step.before.state.store.mailbox.add
        m.timestamp m.sender m.recipient m.body).2)
  | removed {conn : ConnId} {ids : List UInt64} (hkept : step.kept = [])
      (hconsumes : step.Consumes conn ids)
      (hmailbox : step.after.state.store.mailbox = step.before.state.store.mailbox.delete ids)
  | cleared (hkept : step.kept = []) (hclears : step.Clears)
      (hmailbox : step.after.state.store.mailbox = step.before.state.store.mailbox.clear)

/-- Nothing else changes the mailbox. -/
theorem mailboxEffect (step : Step S) : step.MailboxEffect := by
  -- Only an answer of the store touches the mailbox, and `mailbox_cases` knows how.
  obtain ⟨s, event, s', hmoves⟩ := step
  cases hmoves with
  | connect hopen =>
    obtain ⟨_, _, -, -, rfl⟩ := State.connect_eq_ok hopen
    exact .same rfl rfl
  | @receive conn t m =>
    exact .same rfl (congrArg Store.mailbox (S.beginning_begin s.state t conn m).store_eq)
  | @resume conn t call hcall =>
    have hresumes : Resumes (S := S) ⟨s, .resume conn t, _, .resume t hcall⟩ conn t call :=
      ⟨rfl, hcall⟩
    rcases (S.resumption_resume s.state t conn call.pending).mailbox_cases with
      ⟨hsame, hfails⟩ | ⟨m, hpending, hstore, hadd⟩ | ⟨ids, hpending, hstore, hdelete⟩ |
        ⟨hpending, hstore, hclear⟩
    · refine .same ?_ hsame
      simp only [kept, hcall, Option.map_some]
      split
      · rename_i hkeeping
        exact if_neg (hfails _ (Option.some.inj hkeeping))
      · rfl
    · exact .added ⟨t, call, hresumes, hpending, hstore⟩ hadd
    · refine .removed ?_ ⟨t, call, hresumes, hpending, hstore⟩ hdelete
      simp only [kept, hcall, Option.map_some, hpending]
    · refine .cleared ?_ ⟨conn, t, call, hresumes, hpending, hstore⟩ hclear
      simp only [kept, hcall, Option.map_some, hpending]
  | disconnect => exact .same rfl rfl
  | abort => exact .same rfl rfl
  | collect => exact .same rfl rfl
  | close => exact .same rfl rfl
  | draw => exact .same rfl rfl
  | stop => exact .same rfl rfl

theorem Keeps.mailbox {m : Message} (hkeeps : step.Keeps conn m) :
    step.after.state.store.mailbox.messages =
      step.before.state.store.mailbox.messages ++ [step.stored m] := by
  -- What the step keeps tells which of the four effects it has.
  have hone := hkeeps.kept
  cases step.mailboxEffect with
  | same hkept => simp [hkept] at hone
  | added hkeeps' hmailbox =>
    rw [hkeeps'.kept] at hone
    rw [hmailbox, Mailbox.messages_add, ← List.singleton_inj.1 hone]
    rfl
  | removed hkept => simp [hkept] at hone
  | cleared hkept => simp [hkept] at hone

/-- A queue loses messages only at its front, and only an answer of the store adds some. -/
theorem suffix_waiting (step : Step S) (other : ConnId)
    (hevent : ∀ (conn : ConnId) (t : Moment), step.event ≠ .resume conn t) :
    step.after.state.waiting other <:+ step.before.state.waiting other := by
  obtain ⟨s, event, s', hmoves⟩ := step
  cases hmoves with
  | @connect conn _ _ _ hopen =>
    obtain ⟨box, _, hempty, -, rfl⟩ := State.connect_eq_ok hopen
    simp only [State.waiting, Table.get?_insert]
    by_cases hconn : other = conn
    · rw [if_pos hconn]
      exact hempty ▸ List.nil_suffix
    · rw [if_neg hconn]
  | @receive conn t m =>
    have houtboxes := (S.beginning_begin s.state t conn m).outboxes_eq
    show (S.begin s.state t conn m).state.waiting other <:+ _
    unfold State.waiting
    rw [houtboxes]
  | resume t => exact absurd rfl (hevent _ t)
  | collect conn =>
    show State.waiting { s.state with outboxes := _ } other <:+ _
    rw [State.waiting_modify s.state conn other Outbox.dropNext List.tail (fun _ => rfl) rfl]
    split
    · exact List.tail_suffix _
    · exact List.suffix_refl _
  | close conn =>
    show State.waiting { s.state with outboxes := _ } other <:+ _
    rw [State.waiting_modify s.state conn other Outbox.close (fun _ => []) (fun _ => rfl) rfl]
    split
    · exact List.nil_suffix
    · exact List.suffix_refl _
  | disconnect => exact List.suffix_refl _
  | abort => exact List.suffix_refl _
  | draw => exact List.suffix_refl _
  | stop => exact List.suffix_refl _

/-- A queue loses messages only at its front. Every message that is added to it is relayed to a user
who is on the connection of the queue, or it is a copy of an announcement of the administrator. -/
theorem queue_cases (step : Step S) (other : ConnId) :
    ∃ kept added : List Message,
      kept <:+ step.before.state.waiting other ∧
      step.after.state.waiting other = kept ++ added ∧
      ∀ m ∈ added, ∃ (conn : ConnId) (t : Moment) (call : Call), step.Resumes conn t call ∧
        (((call.pending = .recipient m ∨ call.pending = .keeping m) ∧
            step.before.state.registry.sessions.get? m.recipient = some other) ∨
          ∃ (author : User) (asked : Message) (user : UserId),
            call.pending = .announcer author asked ∧ author.id = UserId.admin ∧
              step.before.state.registry.sessions.get? user = some other ∧
              m = { S.message t .broadcast user with body := asked.body }) := by
  -- An answer of the store adds to queues and takes nothing out; every other event is the other way
  -- round.
  by_cases hevent : ∃ (conn : ConnId) (t : Moment), step.event = .resume conn t
  · obtain ⟨conn, t, hevent⟩ := hevent
    obtain ⟨call, hresumes⟩ := step.resumes_of_event hevent
    obtain ⟨added, hwaiting, hadded⟩ :=
      (S.resumption_resume step.before.state t conn call.pending).queue_cases other
    refine ⟨_, added, List.suffix_refl _, ?_, fun m hm => ⟨conn, t, call, hresumes, hadded m hm⟩⟩
    rw [hresumes.after]
    exact hwaiting
  · refine ⟨_, [], step.suffix_waiting other fun conn t h => hevent ⟨conn, t, h⟩,
      (List.append_nil _).symm, List.forall_mem_nil _⟩

end Step

/-! ### Users -/

/-- Every id of a user comes from the pool. -/
theorem Run.id_lt (hrun : Run S first h last) (hopening : Opening S first) {user : User}
    (huser : user ∈ last.state.store.directory.users) : user.id < S.config.maxUsers := by
  have hpool := hrun.invariant
    (P := fun _ s => s.state.store.directory.ids.capacity = S.config.maxUsers ∧
      ∀ user ∈ s.state.store.directory.users, user.id < S.config.maxUsers) ?_ ?_
  · exact hpool.2 user huser
  · obtain ⟨-, hpositive, hcapacity, husers⟩ := hopening.store
    refine ⟨hcapacity, fun user huser => ?_⟩
    rw [husers, List.mem_singleton] at huser
    rw [huser]
    exact hpositive
  · rintro h step - ⟨hcapacity, hbelow⟩
    rcases step.moves.directory_cases with hsame | ⟨name, record, user, henrol⟩
    · rw [hsame]
      exact ⟨hcapacity, hbelow⟩
    · obtain ⟨htake, hmem⟩ := Directory.enrol_eq_ok henrol
      obtain ⟨hlt, hkept⟩ := IdPool.take?_eq_some htake
      refine ⟨hkept.trans hcapacity, fun other hother => ?_⟩
      rcases (hmem other).1 hother with rfl | hold
      · rw [← hcapacity]
        exact hlt
      · exact hbelow other hold

/-- Whoever a message was accepted from is registered from then on. -/
theorem Step.Accepts.registered {m : Message} {user : User} (haccepts : step.Accepts conn m user)
    (hrun : Run S first h last) (hopening : Opening S first) (hstep : step ∈ h) :
    user ∈ last.state.store.directory.users := by
  obtain ⟨t, -, hauth⟩ := haccepts
  obtain ⟨h₁, h₂, rfl⟩ := List.append_of_mem hstep
  obtain ⟨hbefore, hafter⟩ := run_append_cons_iff.1 hrun
  have huser := (hbefore.sound hopening.sound).registered conn user hauth.bound
  exact hafter.mem_users (step.moves.mem_users huser)

end Traffic

end Relay
