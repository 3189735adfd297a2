import Relay.Proofs.Traffic.Store

/-!
# `Relay.Proofs.Traffic.Provenance`: nobody is impersonated

Every message that reaches a client is traced back through the run. Either the relay wrote it, under
its own name and token, or it says what an accepted message of a registered user said:
`QueueOrigin` has the two cases for a message that is put into a queue, and `ReplyOrigin` those for
a reply.

Replies to a fetch pass through the mailbox, so the invariant is about the mailbox: every message in
it was accepted from its author (`Run.stored`). Ids of users lie below the limit and are none of the
reserved ids (`IsUser`), so what the relay wrote is told from what a user wrote by the sender alone.
-/

set_option autoImplicit false

namespace Relay

namespace Traffic

variable {S : Service} {first last s : Traffic} {h : List (Step S)} {step : Step S}
  {conn : ConnId} {t : Moment} {call : Call}

/-! ### Users and what they have said -/

/-- The id of a registered user. It lies below the limit, so it is none of the reserved ids. -/
structure IsUser (s : Traffic) (id : UserId) : Prop where
  registered : s.state.store.directory.contains id
  below : id < UserId.limit
  ne_toAnonymous : id ≠ UserId.toAnonymous
  ne_toRelay : id ≠ UserId.toRelay
  ne_fromAnonymous : id ≠ UserId.fromAnonymous
  ne_fromRelay : id ≠ UserId.fromRelay

/-- A message was accepted from a user in one of the steps. -/
def Authored (h : List (Step S)) (m : Message) (author : User) : Prop :=
  ∃ step ∈ h, ∃ conn : ConnId, step.Accepts conn m author

theorem Authored.mono {m : Message} {author : User} (hauthored : Authored h m author)
    {h' : List (Step S)} (hsub : h ⊆ h') : Authored h' m author := by
  obtain ⟨step, hstep, conn, haccepts⟩ := hauthored
  exact ⟨step, hsub hstep, conn, haccepts⟩

theorem Authored.sender {m : Message} {author : User} (hauthored : Authored h m author) :
    m.sender = author.id := by
  obtain ⟨step, hstep, conn, t, hevent, hauth⟩ := hauthored
  exact hauth.sender

/-- Only registered users have said anything. -/
theorem Authored.isUser {m : Message} {author : User} (hauthored : Authored h m author)
    (hrun : Run S first h last) (hopening : Opening S first)
    (hvalid : S.config.validate = .ok ()) : IsUser last author.id := by
  obtain ⟨step, hstep, conn, haccepts⟩ := hauthored
  have huser := haccepts.registered hrun hopening hstep
  have hbelow : author.id < UserId.limit :=
    UInt32.lt_of_lt_of_le (hrun.id_lt hopening huser) (Config.maxUsers_le hvalid)
  have other {id : UserId} (hid : ¬ id < UserId.limit) : author.id ≠ id := by
    intro heq
    rw [heq] at hbelow
    exact hid hbelow
  exact {
    registered := (Directory.contains_iff _ _).2 ⟨author, huser, rfl⟩
    below := hbelow
    ne_toAnonymous := other (by decide)
    ne_toRelay := other (by decide)
    ne_fromAnonymous := other (by decide)
    ne_fromRelay := other (by decide) }

/-! ### What is kept -/

/-- A message that waits for its recipient or to be kept is the one that came in, and it was
accepted. -/
theorem Genuine.relayed (hcall : Genuine h conn call) {m : Message}
    (hpending : call.pending = .recipient m ∨ call.pending = .keeping m) :
    m.flag.isRelayed ∧ ∃ author : User, Authored h m author := by
  obtain ⟨rfl, hflag, author, hauthor⟩ : call.message = m ∧ call.message.flag.isRelayed ∧
      ∃ author : User, call.user = some author := by
    rcases hpending with hpending | hpending
    · exact (hcall.serves_of_pending hpending).of_recipient
    · obtain ⟨hmessage, hproceed, -, hauthor⟩ := (hcall.serves_of_pending hpending).of_keeping
      refine ⟨hmessage, ?_, hauthor⟩
      rw [hproceed]
      decide
  obtain ⟨step, hstep, haccepts⟩ := hcall.accepted hauthor
  exact ⟨hflag, author, step, hstep, conn, haccepts⟩

/-- What is kept of a message that was accepted from its author and was to be kept. -/
def StoredFrom (h : List (Step S)) (x : StoredMessage) : Prop :=
  ∃ (m : Message) (author : User), Authored h m author ∧ m.flag = .proceed ∧
    x.author = author.id ∧ x.recipient = m.recipient ∧ x.timestamp = m.timestamp ∧
    x.body = m.body

/-- Only what was accepted is kept. -/
theorem Step.Keeps.storedFrom {m : Message} (hkeeps : step.Keeps conn m)
    (hrun : Run S first h step.before) (hopening : Opening S first) :
    StoredFrom h (step.stored m) := by
  obtain ⟨t, call, hresumes, hpending, -⟩ := hkeeps
  have hgenuine := hrun.genuine hopening hresumes.call
  obtain ⟨-, author, hauthored⟩ := hgenuine.relayed (.inr hpending)
  obtain ⟨rfl, hflag, -⟩ := (hgenuine.serves_of_pending hpending).of_keeping
  exact ⟨_, author, hauthored, hflag, hauthored.sender, rfl, rfl, rfl⟩

/-- Whatever is in the mailbox was accepted from its author. -/
theorem Run.stored (hrun : Run S first h last) (hopening : Opening S first) {x : StoredMessage}
    (hx : x ∈ last.state.store.mailbox.messages) : StoredFrom h x := by
  revert x
  refine hrun.invariant
    (P := fun h s => ∀ {x : StoredMessage}, x ∈ s.state.store.mailbox.messages → StoredFrom h x)
    ?_ ?_
  · intro x hx
    rw [hopening.store.1] at hx
    cases hx
  · intro h step hrun ih x hx
    -- What came from an accepted message still does after one more step.
    have later {x : StoredMessage} (hx : StoredFrom h x) : StoredFrom (h ++ [step]) x := by
      obtain ⟨m, author, hauthored, hx⟩ := hx
      exact ⟨m, author, hauthored.mono (List.subset_append_left _ _), hx⟩
    cases step.mailboxEffect with
    | same _ hmailbox =>
      rw [hmailbox] at hx
      exact later (ih hx)
    | added hkeeps hmailbox =>
      rw [hmailbox, Mailbox.messages_add, List.mem_append, List.mem_singleton] at hx
      rcases hx with hold | rfl
      · exact later (ih hold)
      · exact later (hkeeps.storedFrom hrun hopening)
    | removed _ _ hmailbox =>
      rw [hmailbox, Mailbox.mem_messages_delete] at hx
      exact later (ih hx.1)
    | cleared _ _ hmailbox =>
      rw [hmailbox] at hx
      cases hx

/-! ### Where messages come from -/

/-- A fetch found nothing, and this is the empty marker that says so. -/
def Step.AnswersNothing (step : Step S) (reply : Message) : Prop :=
  ∃ (conn : ConnId) (t : Moment) (call : Call) (user : User) (request : FetchRequest),
    step.Resumes conn t call ∧ call.pending = .selection user request ∧
      step.before.state.store.mailbox.select (request.query user.id) = [] ∧
      reply = { S.message t .fetchMessages user.id with body := request.marker }

/-- Where a reply comes from. -/
inductive ReplyOrigin (h : List (Step S)) (step : Step S) (reply : Message) : Prop where
  /-- It is the relay's own. If it looks like a reply to a fetch, it is the empty marker. -/
  | own (hfrom : reply.FromRelay S.relayToken)
      (hmarker : reply.flag = .fetchMessages → step.AnswersNothing reply)
  /-- It answers a fetch that was accepted from a viewer, and says what a message said that was
  accepted from its author. The viewer wrote that message or is the one it was for. -/
  | fetched {conn : ConnId} {t : Moment} {call : Call} {viewer author : User} {m : Message}
      (hresumes : step.Resumes conn t call) (hviewer : call.user = some viewer)
      (hasked : ∃ earlier ∈ h, earlier.Accepts conn call.message viewer)
      (hflag : call.message.flag = .fetchMessages ∧ reply.flag = .fetchMessages)
      (htoken : reply.token = S.relayToken) (hrecipient : reply.recipient = viewer.id)
      (hauthored : Authored h m author) (hproceed : m.flag = .proceed)
      (hsender : reply.sender = author.id) (htimestamp : reply.timestamp = m.timestamp)
      (hbody : reply.body = m.body)
      (hparty : viewer.id = author.id ∨ viewer.id = m.recipient)
      (huser : IsUser step.before author.id)

/-- Where a message comes from that is added to the queue of a connection. -/
inductive QueueOrigin (h : List (Step S)) (step : Step S) (conn : ConnId) (m : Message) : Prop where
  /-- The relay wrote it: it is a copy of what the administrator announced. -/
  | announced {author : User} {asked : Message} (hfrom : m.FromRelay S.relayToken)
      (hflag : m.flag = .broadcast) (hasked : Authored h asked author)
      (hadmin : author.id = UserId.admin) (hbody : m.body = asked.body)
  /-- It was accepted from its sender as it is, and is for the user who is on the connection. -/
  | relayed {author recipient : User} (hflag : m.flag.isRelayed) (hauthored : Authored h m author)
      (hsender : m.sender = author.id)
      (hbound : step.before.state.registry.user? conn = some recipient)
      (hrecipient : m.recipient = recipient.id) (huser : IsUser step.before m.sender)

/-- What a fetch selects concerns the viewer. -/
theorem party_of_selects {request : FetchRequest} {viewer : UserId} {x : StoredMessage}
    (hselects : (request.query viewer).selects x) : viewer = x.author ∨ viewer = x.recipient := by
  unfold FetchRequest.query at hselects
  split at hselects
  · simp only [MailboxQuery.selects, Bool.and_eq_true, decide_eq_true_eq] at hselects
    exact .inr hselects.1.symm
  · simp only [MailboxQuery.selects, Bool.and_eq_true, Bool.or_eq_true, decide_eq_true_eq]
      at hselects
    obtain ⟨⟨hauthor, hrecipient | hviewer⟩, -⟩ := hselects
    · exact .inr hrecipient.symm
    · exact .inl (hviewer.symm.trans hauthor.symm)

/-- Every reply of every step has an origin. -/
theorem Step.replyOrigin (hrun : Run S first h step.before) (hopening : Opening S first)
    (hvalid : S.config.validate = .ok ()) {reply : Message} (hreply : reply ∈ step.replies) :
    ReplyOrigin h step reply := by
  cases hevent : step.event with
  | receive conn t m =>
    rw [step.replies_of_receive hevent] at hreply
    obtain ⟨hfrom, hflag⟩ := (S.beginning_begin step.before.state t conn m).fromRelay hreply
    exact .own hfrom fun h => absurd h hflag
  | resume conn t =>
    obtain ⟨call, hresumes⟩ := step.resumes_of_event hevent
    rw [hresumes.replies] at hreply
    rcases (S.resumption_resume step.before.state t conn call.pending).replies_cases hreply with
      ⟨hfrom, hflag⟩ | ⟨viewer, request, hpending, -, hfetched⟩
    · exact .own hfrom fun h => absurd h hflag
    · cases hfetched with
      | marker hnone =>
        refine .own ⟨rfl, rfl⟩ fun _ => ?_
        exact ⟨conn, t, call, viewer, request, hresumes, hpending, hnone, rfl⟩
      | message hmem =>
        obtain ⟨x, hx, hflag, htimestamp, hsender, hrecipient, htoken, hbody⟩ :=
          Service.mem_fetchedMessages hmem
        obtain ⟨hstored, hselects⟩ := (Mailbox.mem_select _ _ _).1 hx
        obtain ⟨m, author, hauthored, hproceed, hxauthor, hxrecipient, hxtimestamp, hxbody⟩ :=
          hrun.stored hopening hstored
        -- The fetch was accepted from the viewer.
        have hgenuine := hrun.genuine hopening hresumes.call
        obtain ⟨hviewer, hfetch, -⟩ := (hgenuine.serves_of_pending hpending).of_selection
        have hparty := party_of_selects hselects
        rw [hxauthor, hxrecipient] at hparty
        exact .fetched hresumes hviewer (hgenuine.accepted hviewer) ⟨hfetch, hflag⟩ htoken
          hrecipient hauthored hproceed (hsender.trans hxauthor) (htimestamp.trans hxtimestamp)
          (hbody.trans hxbody) hparty (hauthored.isUser hrun hopening hvalid)
  | connect => simp [replies, repliesTo, turn?, hevent] at hreply
  | disconnect => simp [replies, repliesTo, turn?, hevent] at hreply
  | abort => simp [replies, repliesTo, turn?, hevent] at hreply
  | collect => simp [replies, repliesTo, turn?, hevent] at hreply
  | close => simp [replies, repliesTo, turn?, hevent] at hreply
  | draw => simp [replies, repliesTo, turn?, hevent] at hreply
  | stop => simp [replies, repliesTo, turn?, hevent] at hreply

/-- Every message that a step adds to a queue has an origin. -/
theorem Step.exists_queueOrigin (hrun : Run S first h step.before) (hopening : Opening S first)
    (hvalid : S.config.validate = .ok ()) (other : ConnId) :
    ∃ kept added : List Message, kept <:+ step.before.state.waiting other ∧
      step.after.state.waiting other = kept ++ added ∧
      ∀ m ∈ added, QueueOrigin h step other m := by
  obtain ⟨kept, added, hkept, hwaiting, hadded⟩ := step.queue_cases other
  refine ⟨kept, added, hkept, hwaiting, fun m hm => ?_⟩
  obtain ⟨conn, t, call, hresumes, ⟨hpending, hsession⟩ |
    ⟨author, asked, user, hpending, hadmin, hsession, rfl⟩⟩ := hadded m hm
  · -- The queue belongs to the recipient, because the two tables of the registry agree.
    obtain ⟨hflag, author, hauthored⟩ := (hrun.genuine hopening hresumes.call).relayed hpending
    obtain ⟨recipient, hbound, hid⟩ :=
      ((hrun.sound hopening.sound).consistent.indexed m.recipient other).1 hsession
    refine .relayed hflag hauthored hauthored.sender hbound hid.symm ?_
    rw [hauthored.sender]
    exact hauthored.isUser hrun hopening hvalid
  · have hgenuine := hrun.genuine hopening hresumes.call
    obtain ⟨-, hauthor, rfl⟩ := (hgenuine.serves_of_pending hpending).of_announcer
    obtain ⟨earlier, hearlier, haccepts⟩ := hgenuine.accepted hauthor
    exact .announced ⟨rfl, rfl⟩ rfl ⟨earlier, hearlier, conn, haccepts⟩ hadmin rfl

/-- With settings that pass, in every run:

- every reply is the relay's own, or it answers a fetch and says what an accepted message of a
  registered user said, to a viewer who wrote that message or is the one it was for;
- every message that is added to a queue is the relay's own, or it was accepted as it is from the
  registered user it names as its sender, and is for the user who is on the connection of the queue;
- a reply to a fetch that names the relay as its sender is the empty marker. -/
theorem nobody_impersonated (hvalid : S.config.validate = .ok ()) (hopening : Opening S first)
    (hrun : Run S first h last) :
    ∀ (h₁ h₂ : List (Step S)) (step : Step S), h = h₁ ++ step :: h₂ →
      (∀ reply ∈ step.replies, ReplyOrigin h₁ step reply) ∧
      (∀ conn : ConnId, ∃ kept added : List Message,
        kept <:+ step.before.state.waiting conn ∧
        step.after.state.waiting conn = kept ++ added ∧
        ∀ m ∈ added, QueueOrigin h₁ step conn m) ∧
      (∀ reply ∈ step.replies, reply.flag = .fetchMessages →
        reply.sender = UserId.fromRelay → step.AnswersNothing reply) := by
  rintro h₁ h₂ step rfl
  have hbefore := (run_append_cons_iff.1 hrun).1
  refine ⟨?_, ?_, ?_⟩
  · intro reply hreply
    exact step.replyOrigin hbefore hopening hvalid hreply
  · intro conn
    exact step.exists_queueOrigin hbefore hopening hvalid conn
  · intro reply hreply hflag hsender
    cases step.replyOrigin hbefore hopening hvalid hreply with
    | own _ hmarker => exact hmarker hflag
    | fetched _ _ _ _ _ _ _ _ hauthor _ _ _ huser =>
      -- A user has no reserved id.
      exact absurd (hauthor.symm.trans hsender) huser.ne_fromRelay

/-- A guest fetches what the administrator wrote: the reply names the administrator. -/
theorem nobody_impersonated_conversation :
    ∃ (h h₁ h₂ : List (Step Sample.relay)) (step : Step Sample.relay) (last : Traffic)
      (reply : Message),
      Sample.relay.config.validate = .ok () ∧ Opening Sample.relay Sample.first ∧
      Run Sample.relay Sample.first h last ∧ h = h₁ ++ step :: h₂ ∧
      step.event = .resume 6 ⟨14, .none⟩ ∧ step.replies = [reply] ∧
      reply.sender = Sample.admin.id ∧ reply.body = [1, 2, 3] ∧
      ReplyOrigin h₁ step reply := by
  let events : List Event := Sample.conversation ++ .resume 6 ⟨14, .none⟩ :: []
  let reply : Message :=
    { flag := .fetchMessages, timestamp := 100, sender := Sample.admin.id,
      recipient := Sample.guest.id, token := Sample.relay.relayToken, body := [1, 2, 3] }
  have hsome : (Sample.first.follow? Sample.relay events).isSome := by decide +kernel
  obtain ⟨⟨h, last⟩, hfollow⟩ := Option.isSome_iff_exists.1 hsome
  obtain ⟨hrun, -⟩ := run_of_follow? hfollow
  obtain ⟨h₁, h₂, step, rfl, hevent, hbefore⟩ := split_of_follow? hfollow
  have hreplies := check_of_follow? hbefore (fun s =>
    s.repliesTo Sample.relay (.resume 6 ⟨14, .none⟩) = [reply]) (by decide +kernel)
  have hreplies : step.replies = [reply] := by
    rw [Step.replies, hevent]
    exact of_decide_eq_true hreplies
  have hvalid : Sample.relay.config.validate = .ok () := by decide +kernel
  obtain ⟨horigin, -⟩ := nobody_impersonated hvalid Sample.opening hrun h₁ h₂ step rfl
  exact ⟨_, h₁, h₂, step, last, reply, hvalid, Sample.opening, hrun, rfl, hevent, hreplies, rfl,
    rfl, horigin reply (by rw [hreplies]; exact List.mem_singleton_self reply)⟩

end Traffic

end Relay
