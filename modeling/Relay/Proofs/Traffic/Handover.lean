import Relay.Proofs.Link.Welcome
import Relay.Proofs.Traffic.Execution
import Relay.Proofs.Traffic.Provenance

/-!
# `Relay.Proofs.Traffic.Handover`: what becomes of a relayed message

A relayed message is dealt with in one step, the last of its routing. It is handed over as it is to
the queue of its recipient and, if it is to be kept, it is kept (`Service.HandsOver`); no earlier
step does anything for it. What enters the queue of a user from an author is therefore, in the same
order, a part of what was accepted from the author for the user (`Run.sublist_accepted`), and what
is missing is missing because the user was on no connection or the queue did not take it.

Whether the recipient is registered is asked in one step and matters in the next. That makes no
difference, because nobody is ever removed from the directory (`Run.contains_of_keeping`).
-/

set_option autoImplicit false

namespace Relay

/-- A relayed message waits for its recipient or, if it asks for it, to be kept. -/
theorem Pending.Serves.of_isRelayed {m : Message} {user : Option User} {p : Pending}
    (h : p.Serves m user) (hflag : m.flag.isRelayed) :
    (p = .recipient m ∨ p = .keeping m ∧ m.flag = .proceed) ∧ m.recipient ≠ m.sender := by
  cases h with
  | recipient _ _ hother => exact ⟨.inl rfl, hother⟩
  | keeping hproceed _ hother => exact ⟨.inr ⟨rfl, hproceed⟩, hother⟩
  | _ hother =>
    rw [hother] at hflag
    cases hflag

namespace Service

variable {S : Service} {σ : State} {t : Moment} {conn : ConnId} {m : Message} {p : Pending}
  {turn : Turn}

/-- What a step comes to in which a relayed message is dealt with. -/
structure HandsOver (S : Service) (σ : State) (t : Moment) (m : Message) (turn : Turn) :
    Prop where
  /-- Nobody comes or goes. -/
  registry : turn.state.registry = σ.registry
  directory : turn.state.store.directory = σ.store.directory
  shuttingDown : turn.state.shuttingDown = σ.shuttingDown
  /-- The message comes last in the queue of its recipient, if the recipient is registered and on a
  connection whose queue takes it. Nothing is added to any other queue. -/
  queues : ∀ other : ConnId, turn.state.waiting other = σ.waiting other ++
    if σ.store.directory.contains m.recipient ∧ σ.registry.session? m.recipient = some other ∧
      σ.delivery other = .queued then [m] else []
  /-- What is kept: one more message, which says when, from whom, to whom and what, if it asks for it
  and the recipient is registered and the store does not fail. Otherwise it is what it was. -/
  mailbox : turn.state.store.mailbox.messages = σ.store.mailbox.messages ++
    if σ.store.directory.contains m.recipient ∧ m.flag = .proceed ∧ t.outage .addMessage = none
    then [{ id := σ.store.mailbox.nextId, timestamp := m.timestamp, author := m.sender,
            recipient := m.recipient, body := m.body }] else []
  /-- Its number is not given out again. -/
  numbering : turn.state.store.mailbox.nextId =
    if σ.store.directory.contains m.recipient ∧ m.flag = .proceed ∧ t.outage .addMessage = none
    then σ.store.mailbox.nextId + 1 else σ.store.mailbox.nextId
  /-- There is no reply, unless the recipient is unknown. -/
  replies : turn.replies =
    if σ.store.directory.contains m.recipient then [] else [S.errorReply t m.flag m.sender]

/-- A relayed message that comes in waits for its recipient and has done nothing yet, or it is
refused. -/
theorem Beginning.of_isRelayed (h : S.Beginning σ t conn m turn) (hflag : m.flag.isRelayed) :
    turn = Turn.wait (σ.count (.dispatched (.ofFlag m.flag))) (.recipient m) ∨
      turn.next = .finished .finishWithError := by
  have other {flag : Flag} (hother : m.flag = flag) (hnot : flag.isRelayed = false) : False := by
    rw [hother, hnot] at hflag
    cases hflag
  cases h with
  | unregistered => exact .inr rfl
  | refuse => exact .inr rfl
  | preamble _ hserves =>
    rcases (hserves.of_isRelayed hflag).1 with rfl | ⟨rfl, -⟩ <;> cases hserves
  | finish _ hfinish => exact (other hfinish rfl).elim
  | early _ hfetch => exact (other hfetch rfl).elim
  | session _ hserves hfirst =>
    rcases (hserves.of_isRelayed hflag).1 with rfl | ⟨rfl, -⟩
    · exact .inl rfl
    · cases hfirst

/-- When the recipient was looked up, the message waits to be kept and nothing was done for it yet,
or it has been dealt with. -/
theorem Resumption.of_recipient (h : S.Resumption σ t conn (.recipient m) turn) :
    (turn = Turn.wait σ (.keeping m) ∧ σ.store.directory.contains m.recipient ∧
        m.flag = .proceed) ∨
      ∃ outcome : Outcome, turn.next = .finished outcome := by
  cases h with
  | toKeep huser hproceed => exact .inl ⟨rfl, huser, hproceed⟩
  | refuse => exact .inr ⟨_, rfl⟩
  | unknownRecipient => exact .inr ⟨_, rfl⟩
  | signal => exact .inr ⟨_, rfl⟩

/-- A message that is to be kept has a recipient. -/
theorem Resumption.of_next_keeping (h : S.Resumption σ t conn p turn)
    (hnext : turn.next = .waiting (.keeping m)) : σ.store.directory.contains m.recipient := by
  cases h with
  | toKeep huser =>
    cases hnext
    exact huser
  | _ => cases hnext

/-- The last step of a relayed message hands it over. -/
theorem Resumption.handsOver (h : S.Resumption σ t conn p turn)
    (hp : p = .recipient m ∨ p = .keeping m ∧ m.flag = .proceed)
    (hknown : p = .keeping m → σ.store.directory.contains m.recipient)
    (hstay : turn.next = .finished .stay) : S.HandsOver σ t m turn := by
  rcases hp with rfl | ⟨rfl, hproceed⟩
  · cases h with
    | refuse => cases hstay
    | toKeep => cases hstay
    | unknownRecipient hnobody =>
      constructor <;> simp [Turn.answer, hnobody]
    | signal huser hother =>
      constructor <;> simp [Turn.answer, huser, hother, waiting_deliver_eq]
  · have huser := hknown rfl
    cases h with
    | refuse => cases hstay
    | keep hstore =>
      constructor
      case queues =>
        intro other
        simp only [Turn.answer, huser, true_and]
        exact waiting_deliver_eq _ m other
      all_goals simp [Turn.answer, huser, hproceed, hstore]
    | notKeep hstore =>
      constructor <;> simp [Turn.answer, huser, hstore, waiting_deliver_eq]

/-- A relayed message that is routed in one go and after which its connection stays is handed over.
Before, it is only counted. -/
theorem handsOver_route (hflag : m.flag.isRelayed)
    (hstay : (S.route σ t conn m).outcome = .stay) :
    S.HandsOver (σ.count (.dispatched (.ofFlag m.flag))) t m
      ⟨(S.route σ t conn m).state, (S.route σ t conn m).replies, .finished .stay⟩ := by
  let served := σ.count (.dispatched (.ofFlag m.flag))
  rcases (S.beginning_begin σ t conn m).of_isRelayed hflag with hwait | hrefused
  · have hrecipient := S.resumption_resume served t conn (.recipient m)
    have hroute : S.route σ t conn m =
        S.complete t conn (S.resume served t conn (.recipient m)) := by
      rw [route, hwait, S.complete_wait]
    rcases hrecipient.of_recipient with ⟨hkeep, huser, hproceed⟩ | ⟨outcome, hnext⟩
    · have hkeeping := S.resumption_resume served t conn (.keeping m)
      have hnext := hkeeping.next_of_keeping
      rw [hkeep, S.complete_wait, S.complete_of_finished hnext] at hroute
      have hover := hkeeping.handsOver (.inr ⟨rfl, hproceed⟩) (fun _ => huser) hnext
      rw [hroute]
      exact ⟨hover.registry, hover.directory, hover.shuttingDown, hover.queues, hover.mailbox,
        hover.numbering, hover.replies⟩
    · rw [S.complete_of_finished hnext] at hroute
      rw [hroute] at hstay ⊢
      have hstay : outcome = .stay := hstay
      have hover := hrecipient.handsOver (.inl rfl) nofun (hstay ▸ hnext)
      exact ⟨hover.registry, hover.directory, hover.shuttingDown, hover.queues, hover.mailbox,
        hover.numbering, hover.replies⟩
  · rw [route, S.complete_of_finished hrefused] at hstay
    cases hstay

/-- Only the last step of a message places it in a queue. -/
theorem Resumption.finished_of_placed (h : S.Resumption σ t conn p turn)
    (hp : p = .recipient m ∨ p = .keeping m) {other : ConnId}
    (hplaced : σ.placed turn.state other ≠ []) : turn.next = .finished .stay := by
  rcases hp with rfl | rfl
  · cases h with
    | refuse => exact absurd (State.placed_of_outboxes rfl other) hplaced
    | toKeep => exact absurd (State.placed_of_outboxes rfl other) hplaced
    | unknownRecipient => rfl
    | signal => rfl
  · exact h.next_of_keeping

end Service

namespace Traffic

variable {S : Service} {first last : Traffic} {h : List (Step S)} {step : Step S}
  {conn : ConnId} {t : Moment} {call : Call} {m : Message} {author : User}

/-! ### What is accepted and what enters a queue -/

namespace Step

/-- The relayed message that has been dealt with in a step while its connection stays, and its
author. -/
def relayed? (step : Step S) : Option (User × Message) :=
  match step.event with
  | .resume conn t =>
    match step.before.calls.get? conn with
    | some call =>
      if call.message.flag.isRelayed ∧
          (S.resume step.before.state t conn call.pending).next = .finished .stay then
        call.user.map fun author => (author, call.message)
      else none
    | none => none
  | _ => none

/-- What a step places in the queue of a connection. -/
def placed (step : Step S) (conn : ConnId) : List Message :=
  step.before.state.placed step.after.state conn

/-- The relayed message that is accepted in a step, if it is from an author and for a recipient. -/
def acceptedFrom (step : Step S) (author recipient : UserId) : List Message :=
  match step.relayed? with
  | some (user, m) => if user.id = author ∧ m.recipient = recipient then [m] else []
  | none => []

/-- The relayed messages of an author that enter the queue of a recipient in a step. -/
def enteringFrom (step : Step S) (author recipient : UserId) : List Message :=
  match step.before.state.registry.session? recipient with
  | some conn => (step.placed conn).filter fun m => m.flag.isRelayed && m.sender = author
  | none => []

theorem relayed?_eq_some_iff :
    step.relayed? = some (author, m) ↔
      ∃ (conn : ConnId) (t : Moment) (call : Call), step.Resumes conn t call ∧
        call.message = m ∧ call.user = some author ∧ m.flag.isRelayed ∧
        (S.resume step.before.state t conn call.pending).next = .finished .stay := by
  constructor
  · intro hrelayed
    unfold relayed? at hrelayed
    split at hrelayed
    · rename_i conn t hevent
      split at hrelayed
      · rename_i call hcall
        split at hrelayed
        · rename_i haccepted
          obtain ⟨user, huser, heq⟩ := Option.map_eq_some_iff.1 hrelayed
          cases heq
          exact ⟨conn, t, call, ⟨hevent, hcall⟩, rfl, huser, haccepted⟩
        · cases hrelayed
      · cases hrelayed
    · cases hrelayed
  · rintro ⟨conn, t, call, hresumes, rfl, huser, haccepted⟩
    simp only [relayed?, hresumes.event, hresumes.call, huser, if_pos haccepted, Option.map_some]

theorem Resumes.placed (hresumes : step.Resumes conn t call) (other : ConnId) :
    step.placed other =
      step.before.state.placed (S.resume step.before.state t conn call.pending).state other := by
  rw [Step.placed, hresumes.after]
  rfl

/-- Only an answer of the store places messages in queues. -/
theorem placed_eq_nil (hevent : ∀ (conn : ConnId) (t : Moment), step.event ≠ .resume conn t)
    (other : ConnId) : step.placed other = [] :=
  State.placed_of_suffix (step.suffix_waiting other hevent)

/-- A queue loses messages at its front only, and what is placed comes last. -/
theorem waiting_eq (step : Step S) (other : ConnId) :
    ∃ kept : List Message, kept <:+ step.before.state.waiting other ∧
      step.after.state.waiting other = kept ++ step.placed other := by
  by_cases hevent : ∃ (conn : ConnId) (t : Moment), step.event = .resume conn t
  · obtain ⟨conn, t, hevent⟩ := hevent
    obtain ⟨call, hresumes⟩ := step.resumes_of_event hevent
    obtain ⟨added, hwaiting, -⟩ :=
      (S.resumption_resume step.before.state t conn call.pending).queue_cases other
    refine ⟨_, List.suffix_refl _, ?_⟩
    rw [hresumes.placed, State.placed_of_append hwaiting, hresumes.after]
    exact hwaiting
  · have hother (conn : ConnId) (t : Moment) : step.event ≠ .resume conn t :=
      fun h => hevent ⟨conn, t, h⟩
    refine ⟨_, step.suffix_waiting other hother, ?_⟩
    rw [placed_eq_nil hother, List.append_nil]

/-- What is placed in a queue under a flag of relayed messages is what is accepted in the step. -/
theorem relayed?_of_placed (hrun : Run S first h step.before) (hopening : Opening S first)
    {other : ConnId} (hplaced : m ∈ step.placed other) (hflag : m.flag.isRelayed) :
    step.before.state.registry.session? m.recipient = some other ∧
      ∃ author : User, step.relayed? = some (author, m) := by
  have hconsistent := (hrun.sound hopening.sound).consistent
  obtain ⟨conn, t, hevent⟩ : ∃ (conn : ConnId) (t : Moment), step.event = .resume conn t := by
    by_contra hnone
    rw [placed_eq_nil fun conn t h => hnone ⟨conn, t, h⟩] at hplaced
    cases hplaced
  obtain ⟨call, hresumes⟩ := step.resumes_of_event hevent
  have hresumption := S.resumption_resume step.before.state t conn call.pending
  have hgenuine := hrun.genuine hopening hresumes.call
  obtain ⟨added, hwaiting, hadded⟩ := hresumption.queue_cases other
  rw [hresumes.placed] at hplaced
  rcases hadded m (State.placed_of_append hwaiting ▸ hplaced) with
    ⟨hpending, hsession⟩ | ⟨_, _, _, -, -, -, rfl⟩
  · have hbound := (hconsistent.indexed _ _).1 hsession
    refine ⟨(Registry.session?_eq_some_iff hconsistent _ _).2 hbound, ?_⟩
    -- It is the message of the call, and somebody sent it.
    obtain ⟨hmessage, author, hauthor⟩ :
        call.message = m ∧ ∃ author : User, call.user = some author := by
      rcases hpending with hpending | hpending
      · obtain ⟨hmessage, -, hauthor⟩ := (hgenuine.serves_of_pending hpending).of_recipient
        exact ⟨hmessage, hauthor⟩
      · obtain ⟨hmessage, -, -, hauthor⟩ := (hgenuine.serves_of_pending hpending).of_keeping
        exact ⟨hmessage, hauthor⟩
    exact ⟨author, relayed?_eq_some_iff.2 ⟨conn, t, call, hresumes, hmessage, hauthor, hflag,
      hresumption.finished_of_placed hpending (List.ne_nil_of_mem hplaced)⟩⟩
  · -- An announcement is not relayed.
    cases hflag

end Step

/-- The relayed messages that were accepted from an author for a recipient, in order. -/
def accepted (h : List (Step S)) (author recipient : UserId) : List Message :=
  h.flatMap fun step => step.acceptedFrom author recipient

/-- The relayed messages of an author that entered the queue of a recipient, in order. -/
def entered (h : List (Step S)) (author recipient : UserId) : List Message :=
  h.flatMap fun step => step.enteringFrom author recipient

/-! ### What is relied on -/

/-- The recipient of a message that is to be kept is registered. -/
theorem Run.contains_of_keeping (hrun : Run S first h last) (hopening : Opening S first)
    (hcall : last.calls.get? conn = some call) (hpending : call.pending = .keeping m) :
    last.state.store.directory.contains m.recipient := by
  revert conn call
  refine hrun.invariant
    (P := fun _ s => ∀ {conn : ConnId} {call : Call}, s.calls.get? conn = some call →
      call.pending = .keeping m → s.state.store.directory.contains m.recipient) ?_ ?_
  · intro conn call hcall
    rw [hopening.calls] at hcall
    cases hcall
  · intro h step _ ih conn call hcall hpending
    -- Nobody is removed from the directory.
    have grown (hbefore : step.before.state.store.directory.contains m.recipient) :
        step.after.state.store.directory.contains m.recipient := by
      obtain ⟨user, huser, hid⟩ := (Directory.contains_iff _ _).1 hbefore
      exact (Directory.contains_iff _ _).2 ⟨user, step.moves.mem_users huser, hid⟩
    rcases step.moves.call_cases hcall with
      hold | ⟨t, received, p, -, -, hnext, rfl⟩ | ⟨t, earlier, p, -, hearlier, hnext, rfl⟩
    · exact grown (ih hold hpending)
    · obtain ⟨-, hfirst, -⟩ := (S.beginning_begin step.before.state t conn received).serves hnext
      rw [show p = .keeping m from hpending] at hfirst
      cases hfirst
    · rw [show p = .keeping m from hpending] at hnext
      exact grown ((S.resumption_resume step.before.state t conn
        earlier.pending).of_next_keeping hnext)

/-- Whoever is on a connection is registered. -/
theorem Sound.contains_of_session? {s : Traffic} (hs : s.Sound) {id : UserId}
    (hsession : s.state.registry.session? id = some conn) :
    s.state.store.directory.contains id := by
  obtain ⟨user, huser, hid⟩ := (Registry.session?_eq_some_iff hs.consistent _ _).1 hsession
  exact (Directory.contains_iff _ _).2 ⟨user, hs.registered conn user huser, hid⟩

/-- What may be relied on about a relayed message that is accepted in a step, after some others. -/
structure Relayed (h : List (Step S)) (step : Step S) (author : User) (m : Message) : Prop where
  /-- It came in on a connection of its author, and there it is dealt with, once and for all. -/
  handsOver : ∃ (conn : ConnId) (t : Moment) (call : Call), step.Resumes conn t call ∧
    call.message = m ∧ (∃ earlier ∈ h, earlier.Accepts conn m author) ∧ call.replies = [] ∧
    S.HandsOver step.before.state t m ⟨step.after.state, step.replies, .finished .stay⟩ ∧
    step.after.calls.get? conn = none
  /-- It comes last in the queue of its recipient, unless the recipient is on no connection or the
  queue is full or closed. Every other queue stays as it is. -/
  queues : ∀ other : ConnId, step.after.state.waiting other = step.before.state.waiting other ++
    if step.before.state.registry.session? m.recipient = some other ∧
      step.before.state.delivery other = .queued then [m] else []
  /-- The queue of its author is one of these. -/
  sender : ∀ (other : ConnId) (user : User), step.before.state.registry.user? other = some user →
    user.id = author.id → step.after.state.waiting other = step.before.state.waiting other

theorem Step.relayed (hrun : Run S first h step.before) (hopening : Opening S first)
    (hrelayed : step.relayed? = some (author, m)) : Relayed h step author m := by
  obtain ⟨conn, t, call, hresumes, rfl, huser, hflag, hstay⟩ := relayed?_eq_some_iff.1 hrelayed
  have hsound := hrun.sound hopening.sound
  have hgenuine := hrun.genuine hopening hresumes.call
  obtain ⟨hpending, hother⟩ := hgenuine.serves.of_isRelayed hflag
  obtain ⟨earlier, hearlier, haccepts⟩ := hgenuine.accepted huser
  have hsender : call.message.sender = author.id := by
    obtain ⟨_, -, hauth⟩ := haccepts
    exact hauth.sender
  have hover : S.HandsOver step.before.state t call.message
      ⟨step.after.state, step.replies, .finished .stay⟩ := by
    have hturn := (S.resumption_resume step.before.state t conn call.pending).handsOver hpending
      (hrun.contains_of_keeping hopening hresumes.call) hstay
    rw [hresumes.after, hresumes.replies]
    exact ⟨hturn.registry, hturn.directory, hturn.shuttingDown, hturn.queues, hturn.mailbox,
      hturn.numbering, hturn.replies⟩
  have hnone : call.replies = [] := by
    refine hgenuine.no_replies fun ids hids => ?_
    rcases hpending with hpending | ⟨hpending, -⟩
    · rw [hids] at hpending
      cases hpending
    · rw [hids] at hpending
      cases hpending
  have hqueues (other : ConnId) : step.after.state.waiting other =
      step.before.state.waiting other ++
        if step.before.state.registry.session? call.message.recipient = some other ∧
          step.before.state.delivery other = .queued then [call.message] else [] := by
    have hqueue := hover.queues other
    by_cases hsession : step.before.state.registry.session? call.message.recipient = some other
    · have hregistered := hsound.contains_of_session? hsession
      simp only [hregistered, true_and] at hqueue
      exact hqueue
    · rw [if_neg fun h => hsession h.2.1] at hqueue
      rw [if_neg fun h => hsession h.1]
      exact hqueue
  have hidle : step.after.calls.get? conn = none := by
    rw [hresumes.after, get?_calls_settle, if_pos rfl, hstay]
  refine ⟨⟨conn, t, call, hresumes, rfl, ⟨earlier, hearlier, haccepts⟩, hnone, hover, hidle⟩,
    hqueues, ?_⟩
  intro other user hbound hid
  -- The author is not the recipient, and there is one user on a connection.
  have helsewhere : step.before.state.registry.session? call.message.recipient ≠ some other := by
    intro hsession
    obtain ⟨recipient, hrecipient, hrid⟩ :=
      (Registry.session?_eq_some_iff hsound.consistent _ _).1 hsession
    rw [hbound] at hrecipient
    cases hrecipient
    exact hother (hrid.symm.trans (hid.trans hsender.symm))
  rw [hqueues other, if_neg fun h => helsewhere h.1, List.append_nil]

/-- What enters a queue in a step was accepted in it. -/
theorem Step.sublist_acceptedFrom (hrun : Run S first h step.before) (hopening : Opening S first)
    (author recipient : UserId) :
    (step.enteringFrom author recipient).Sublist (step.acceptedFrom author recipient) := by
  have hconsistent := (hrun.sound hopening.sound).consistent
  unfold enteringFrom
  split
  · rename_i conn hsession
    cases hrelayed : step.relayed? with
    | none =>
      have hnothing : (step.placed conn).filter (fun m => m.flag.isRelayed && m.sender = author) =
          [] := by
        refine List.filter_eq_nil_iff.2 fun m hm hboth => ?_
        rw [Bool.and_eq_true] at hboth
        obtain ⟨-, user, hsome⟩ := step.relayed?_of_placed hrun hopening hm hboth.1
        rw [hrelayed] at hsome
        cases hsome
      rw [hnothing]
      exact List.nil_sublist _
    | some relayed =>
      obtain ⟨user, m⟩ := relayed
      have hthis := step.relayed hrun hopening hrelayed
      obtain ⟨_, _, _, -, -, ⟨_, -, _, -, hauth⟩, -⟩ := hthis.handsOver
      rw [placed, State.placed_of_append (hthis.queues conn)]
      split
      · rename_i htakes
        have hrecipient : m.recipient = recipient :=
          Registry.eq_of_session? hconsistent htakes.1 hsession
        by_cases hauthor : user.id = author
        · rw [acceptedFrom, hrelayed]
          show (List.filter _ [m]).Sublist
            (if user.id = author ∧ m.recipient = recipient then _ else _)
          rw [if_pos ⟨hauthor, hrecipient⟩]
          exact List.filter_sublist
        · have hforeign : m.sender ≠ author := fun h => hauthor (hauth.sender.symm.trans h)
          rw [List.filter_eq_nil_iff.2 (by simp [hforeign])]
          exact List.nil_sublist _
      · exact List.nil_sublist _
  · exact List.nil_sublist _

/-- What entered the queue of a recipient from an author is a part of what was accepted from the
author for the recipient, in the same order. -/
theorem Run.sublist_accepted (hrun : Run S first h last) (hopening : Opening S first)
    (author recipient : UserId) :
    (entered h author recipient).Sublist (accepted h author recipient) := by
  refine hrun.invariant
    (P := fun h _ => (entered h author recipient).Sublist (accepted h author recipient)) ?_ ?_
  · exact List.Sublist.refl _
  · intro h step hrun ih
    rw [entered, accepted, List.flatMap_append, List.flatMap_append, List.flatMap_singleton,
      List.flatMap_singleton]
    exact ih.append (step.sublist_acceptedFrom hrun hopening author recipient)

/-- What may be relied on about relayed messages in a step, after some others. -/
structure Step.Faithful (h : List (Step S)) (step : Step S) : Prop where
  /-- Queues lose messages at their front only, and what is placed comes last. -/
  queues : ∀ conn : ConnId, ∃ kept : List Message, kept <:+ step.before.state.waiting conn ∧
    step.after.state.waiting conn = kept ++ step.placed conn
  /-- A message that is accepted is handed over and kept as it should be. -/
  relayed : ∀ (author : User) (m : Message), step.relayed? = some (author, m) →
    Relayed h step author m
  /-- No other relayed message gets into a queue. -/
  only : ∀ (conn : ConnId) (m : Message), m ∈ step.placed conn → m.flag.isRelayed →
    step.before.state.registry.session? m.recipient = some conn ∧
      ∃ author : User, step.relayed? = some (author, m)
  /-- Nothing is done for a message before: when it comes in, -/
  begins : ∀ (conn : ConnId) (t : Moment) (m : Message) (p : Pending),
    step.event = .receive conn t m → m.flag.isRelayed →
    (S.begin step.before.state t conn m).next = .waiting p →
      step.after.state = step.before.state.count (.dispatched (.ofFlag m.flag)) ∧
        step.replies = []
  /-- and as long as it waits. -/
  waits : ∀ (conn : ConnId) (t : Moment) (call : Call) (p : Pending),
    step.Resumes conn t call → call.message.flag.isRelayed →
    (S.resume step.before.state t conn call.pending).next = .waiting p →
      step.after.state = step.before.state ∧ step.replies = []

/-- In every run, what enters the queue of a user from an author is a part of the relayed messages
that were accepted from the author for the user, in the same order. A message that is accepted is
added to the queue of its recipient as it is, once, and to no other queue; it is missing there only
if the recipient is on no connection, or if the queue is full or closed. It is kept if and only if it
asks for it and the recipient is registered, unless the store fails. Nothing else changes, and there
is no reply unless the recipient is unknown. The same holds of a message that is routed in one go
after the run. -/
theorem relayed_faithfully (hopening : Opening S first) (hrun : Run S first h last) :
    (∀ author recipient : UserId,
      (entered h author recipient).Sublist (accepted h author recipient)) ∧
    (∀ (h₁ h₂ : List (Step S)) (step : Step S), h = h₁ ++ step :: h₂ → step.Faithful h₁) ∧
    ∀ (conn : ConnId) (t : Moment) (m : Message), m.flag.isRelayed →
      (S.route last.state t conn m).outcome = .stay →
        S.HandsOver (last.state.count (.dispatched (.ofFlag m.flag))) t m
          ⟨(S.route last.state t conn m).state, (S.route last.state t conn m).replies,
            .finished .stay⟩ := by
  refine ⟨hrun.sublist_accepted hopening, ?_, fun conn t m => Service.handsOver_route⟩
  rintro h₁ h₂ step rfl
  have hbefore := (run_append_cons_iff.1 hrun).1
  constructor
  case queues => exact step.waiting_eq
  case relayed => exact fun author m hrelayed => step.relayed hbefore hopening hrelayed
  case only => exact fun conn m hplaced => step.relayed?_of_placed hbefore hopening hplaced
  case begins =>
    intro conn t m p hevent hflag hnext
    rw [step.replies_of_receive hevent, step.after_of_receive hevent]
    rcases (S.beginning_begin step.before.state t conn m).of_isRelayed hflag with hwait | hrefused
    · rw [hwait]
      exact ⟨rfl, rfl⟩
    · rw [hrefused] at hnext
      cases hnext
  case waits =>
    intro conn t call p hresumes hflag hnext
    have hpending := ((hbefore.genuine hopening hresumes.call).serves.of_isRelayed hflag).1
    have hresumption := S.resumption_resume step.before.state t conn call.pending
    rw [hresumes.after, hresumes.replies]
    generalize call.pending = pending at hpending hresumption hnext
    rcases hpending with rfl | ⟨rfl, -⟩
    · rcases hresumption.of_recipient with ⟨hkeep, -⟩ | ⟨outcome, hfinished⟩
      · rw [hkeep]
        exact ⟨rfl, rfl⟩
      · rw [hfinished] at hnext
        cases hnext
    · rw [hresumption.next_of_keeping] at hnext
      cases hnext

/-- The administrator writes to the guest: the letter is accepted, enters the queue and is kept. -/
theorem relayed_faithfully_letter :
    ∃ (h : List (Step Sample.relay)) (last : Traffic) (m : Message),
      h.map Step.event = Sample.conversation.take 14 ∧ Opening Sample.relay Sample.first ∧
      Run Sample.relay Sample.first h last ∧
      m = Sample.request .proceed 5 Sample.admin Sample.guest.id [1, 2, 3] ∧
      accepted h Sample.admin.id Sample.guest.id = [m] ∧
      entered h Sample.admin.id Sample.guest.id = [m] ∧
      last.state.store.mailbox.messages =
        [⟨0, m.timestamp, Sample.admin.id, Sample.guest.id, [1, 2, 3]⟩] ∧
      (∀ author recipient : UserId,
        (entered h author recipient).Sublist (accepted h author recipient)) ∧
      ∀ (h₁ h₂ : List (Step Sample.relay)) (step : Step Sample.relay), h = h₁ ++ step :: h₂ →
        step.Faithful h₁ := by
  let m := Sample.request .proceed 5 Sample.admin Sample.guest.id [1, 2, 3]
  have hsome : (Sample.first.follow? Sample.relay (Sample.conversation.take 14)).isSome := by
    decide +kernel
  obtain ⟨⟨h, last⟩, hfollow⟩ := Option.isSome_iff_exists.1 hsome
  obtain ⟨hrun, hevents⟩ := run_of_follow? hfollow
  have hboth : (Sample.first.follow? Sample.relay (Sample.conversation.take 14)).any fun run =>
      accepted run.1 Sample.admin.id Sample.guest.id = [m] &&
        entered run.1 Sample.admin.id Sample.guest.id = [m] &&
        run.2.state.store.mailbox.messages =
          [⟨0, m.timestamp, Sample.admin.id, Sample.guest.id, [1, 2, 3]⟩] := by
    decide +kernel
  rw [hfollow] at hboth
  simp only [Option.any_some, Bool.and_eq_true, decide_eq_true_eq] at hboth
  obtain ⟨⟨haccepted, hentered⟩, hkept⟩ := hboth
  obtain ⟨hsublist, hfaithful, -⟩ := relayed_faithfully Sample.opening hrun
  exact ⟨h, last, m, hevents, Sample.opening, hrun, rfl, haccepted, hentered, hkept, hsublist,
    hfaithful⟩

end Traffic

end Relay
