import Relay.Proofs.Routing.Size
import Relay.Proofs.Server.Course
import Relay.Proofs.Server.Custody
import Relay.Proofs.Traffic.Fetch

/-!
# `Relay.Proofs.Server.Sendable`: all that a relay emits can be sent

A body that comes in through `Message.unpack` fits into a message, and what fits can be sent
(`Message.Sendable.of_fits`). `Server.Fits` says of a running relay that all bodies fit wherever they
may be kept: in the store, in a queue, with a message that waits for the store, or in a reply that
was not handed over yet. Every event keeps it (`Fits.of_course`), so it holds in every run.

What may be relied on is `Server.Emits`: whatever a step of routing replies or puts into a queue can
be sent, in every state and at every moment, the messages of a reply are numbered in their order, and
the writer of a session has nothing to stop for but the end of its stream's counter.

An index and a count have 32 bits, while nothing limits what is kept for a user. So the count of a
reply starts again from zero if a fetch finds as many messages as there are numbers
(`Reply.Numbered.exists_index_eq_count`). `Sample.Stocked` leads there, letter by letter.
-/

set_option autoImplicit false

namespace Relay

/-! ### A session -/

/-- All that a reader has in hand fits. As long as a message is being routed, its reply is there as a
whole. -/
structure ReaderStage.Fits (r : ReaderStage) : Prop where
  replies : ∀ reply ∈ r.replies, reply.fits
  pending : ∀ p replies since, r = .routing p replies since →
    p.fits ∧ Reply.Fits replies ∧ p.Follows replies

namespace ReaderStage.Fits

variable {r : ReaderStage} {turn : Turn} {replies : List Message}

theorem of_isAwaiting (h : r.isAwaiting) : r.Fits := by
  cases r with
  | awaiting => exact ⟨nofun, nofun⟩
  | routing | replying | ended => cases h

theorem of_hasEnded (h : r.hasEnded) : r.Fits := by
  cases r with
  | ended => exact ⟨nofun, nofun⟩
  | routing | replying | awaiting => cases h

theorem replying (h : ∀ reply ∈ replies, reply.fits) (outcome : Outcome) (since : Nat) :
    (ReaderStage.replying replies outcome since).Fits := ⟨h, nofun⟩

theorem ofTurn (h : turn.Fits replies) (since : Nat) :
    (ReaderStage.ofTurn turn replies since).Fits := by
  unfold ReaderStage.ofTurn
  split
  · exact .replying h.reply.fits _ since
  · rename_i hnext
    refine ⟨h.reply.fits, fun q _ _ heq => ?_⟩
    cases heq
    obtain ⟨hq, hfollows⟩ := h.next _ hnext
    exact ⟨hq, h.reply, hfollows⟩

end ReaderStage.Fits

/-- What was unpacked fits. -/
theorem Message.fits_of_unpack {text : Bytes} {m : Message} (h : Message.unpack text = .ok m) :
    m.fits := decide_eq_true (length_body_of_unpack h)

/-- What fits can be unpacked. -/
theorem Message.exists_unpack {m : Message} (h : m.fits) : ∃ text, unpack text = .ok m :=
  ⟨_, unpack_of_pack ((m.pack_eq_ok_iff _).2 ⟨of_decide_eq_true h, rfl⟩)⟩

namespace State.Fits

variable {σ τ : State}

theorem of_drains (h : σ.Fits) (hdrains : σ.Drains τ) : τ.Fits :=
  ⟨hdrains.store ▸ h.stored, fun conn m hm => h.queued conn m ((hdrains.queues conn).subset hm),
    hdrains.store ▸ h.directory⟩

theorem enqueue (h : σ.Fits) (conn : ConnId) {m : Message} (hm : m.fits) :
    (σ.enqueue conn m).Fits := by
  refine ⟨h.stored, fun other m' hm' => ?_, h.directory⟩
  rw [waiting_enqueue] at hm'
  split at hm'
  · rcases List.mem_append.1 hm' with hold | hnew
    · exact h.queued other m' hold
    · obtain rfl := List.mem_singleton.1 hnew
      exact hm
  · exact h.queued other m' hm'

end State.Fits

/-- A step of a session on which all fits leaves it so. -/
theorem Link.Course.fits {S : Service} {now : Nat} {l l' : Link} {σ σ' : State}
    (h : Link.Course S now l σ l' σ') (hσ : σ.Fits) (hl : l.reader.Fits) :
    σ'.Fits ∧ l'.reader.Fits := by
  cases h with
  | stays hreader hshared => exact ⟨hσ.of_same hshared.store hshared.outboxes, hreader ▸ hl⟩
  | waits _ hreader hshared =>
    exact ⟨hσ.of_same hshared.store hshared.outboxes, .of_isAwaiting hreader⟩
  | ends hreader hshared =>
    exact ⟨hσ.of_same hshared.store hshared.outboxes, .of_hasEnded hreader⟩
  | malformed t _ hreader hstate =>
    rw [hstate, hreader]
    exact ⟨hσ.of_same rfl rfl, .replying (S.fits_malformedReply t).fits _ _⟩
  | begins t _ hunpack hreader hstate =>
    have hturn := (S.beginning_begin σ t l.id _).fits hσ (Message.fits_of_unpack hunpack)
    rw [hstate, hreader]
    exact ⟨hturn.state, .ofTurn hturn now⟩
  | resumes t hbefore hreader hstate =>
    obtain ⟨hp, hreplies, hfollows⟩ := hl.pending _ _ _ hbefore
    have hturn := (S.resumption_resume σ t l.id _).fits hσ hp hreplies hfollows
    rw [hstate, hreader]
    exact ⟨hturn.state, .ofTurn hturn _⟩
  | replies hbefore _ hreader hstate =>
    rw [hbefore] at hl
    obtain ⟨hm, hrest⟩ := List.forall_mem_cons.1 hl.replies
    rw [hstate, hreader]
    exact ⟨hσ.enqueue l.id hm, .replying hrest _ _⟩
  | takes hreader hdrains => exact ⟨hσ.of_drains hdrains, hreader ▸ hl⟩

/-! ### A relay -/

/-- Wherever a relay keeps a body, it fits. -/
structure Server.Fits (s : Server) : Prop where
  shared : s.shared.Fits
  links : ∀ l ∈ s.links, l.reader.Fits

namespace Server.Fits

variable {s s' : Server}

theorem of_sameLinks (h : s.Fits) (hlinks : s.SameLinks s') : ∀ l ∈ s'.links, l.reader.Fits := by
  intro k hk
  obtain ⟨l, hl, hsame⟩ := hlinks k hk
  rw [hsame.reader]
  exact h.links l hl

theorem of_course (h : s.Fits) (hcourse : s.Course s') : s'.Fits := by
  cases hcourse with
  | keeps hlinks hshared =>
    exact ⟨h.shared.of_same hshared.store hshared.outboxes, h.of_sameLinks hlinks⟩
  | @greets l _ hlinks hreader _ _ hempty _ _ houtboxes hstore =>
    refine ⟨⟨hstore ▸ h.shared.stored, fun conn m hm => ?_, hstore ▸ h.shared.directory⟩,
      fun k hk => ?_⟩
    · simp only [State.waiting, houtboxes, Table.get?_insert] at hm
      by_cases hconn : conn = l.id
      · rw [if_pos hconn] at hm
        dsimp only at hm
        rw [hempty] at hm
        cases hm
      · rw [if_neg hconn] at hm
        exact h.shared.queued conn m hm
    · rcases hlinks k hk with rfl | hold
      · exact .of_isAwaiting hreader
      · exact h.links k hold
  | steps hlink _ hlinks _ hstep =>
    obtain ⟨hshared, hnext⟩ := hstep.fits h.shared (h.links _ hlink)
    refine ⟨hshared, fun k hk => ?_⟩
    rcases hlinks k hk with rfl | hold
    · exact hnext
    · exact h.links k hold
  | unregisters id hlinks _ houtboxes hstore =>
    exact ⟨h.shared.of_same hstore houtboxes, h.of_sameLinks hlinks⟩
  | releases id hlinks _ houtboxes hstore =>
    refine ⟨⟨hstore ▸ h.shared.stored, fun conn m hm => ?_, hstore ▸ h.shared.directory⟩,
      h.of_sameLinks hlinks⟩
    simp only [State.waiting, houtboxes, Table.get?_erase] at hm
    by_cases hconn : conn = id
    · rw [if_pos hconn] at hm
      cases hm
    · rw [if_neg hconn] at hm
      exact h.shared.queued conn m hm

theorem of_run? {events : List Event} (h : s.Fits) (hrun : s.run? events = some s') : s'.Fits :=
  invariant_of_run? (fun hstep hs => hs.of_course (course_of_step? hstep).2) h hrun

/-- A relay starts with the administrator as the only user, and without a message. -/
theorem start {passwords : PasswordScheme} {maxUsers : UInt32} {adminPassword : Bytes}
    {e e' : Entropy} {store : Store}
    (hstore : Store.initial passwords maxUsers adminPassword e = .ok (store, e')) (suite : Suite)
    (config : Config) (seed : Key) : (Server.start suite passwords config seed store e').Fits := by
  obtain ⟨-, hmailbox, -⟩ := Store.initial_eq_ok hstore
  have hlinks : (Server.start suite passwords config seed store e').links = [] := rfl
  refine ⟨⟨fun kept hkept => ?_, fun conn m hm => ?_, Store.inOrder_initial hstore⟩, ?_⟩
  · change kept ∈ store.mailbox.messages at hkept
    rw [hmailbox] at hkept
    cases hkept
  · change m ∈ [] at hm
    cases hm
  · rw [hlinks]
    exact List.forall_mem_nil _

end Server.Fits

/-! ### What may be relied on -/

/-- The messages of a reply can be sent, and say where in the reply they stand. -/
structure Reply.Sendable (messages : List Message) : Prop where
  sendable : ∀ m ∈ messages, m.Sendable
  /-- Each has its place for its index, and the length of the reply for its count. -/
  numbered : Reply.Numbered messages
  /-- There are numbers for all, unless a fetch finds more messages than there are numbers. -/
  index_lt_count : ∀ m ∈ messages, m.index < m.count ∨
    m.flag = .fetchMessages ∧ UInt32.size ≤ messages.length

theorem Reply.Fits.sendable {messages : List Message} (h : Reply.Fits messages) :
    Reply.Sendable messages := by
  refine ⟨fun m hm => .of_fits (h.fits m hm), h.numbered, fun m hm => ?_⟩
  rcases Nat.lt_or_ge messages.length UInt32.size with hfew | hmany
  · exact .inl (h.numbered.index_lt_count hfew hm)
  · rcases h.few with hfew | hfetch
    · exact absurd hfew (Nat.not_lt.2 hmany)
    · exact .inr ⟨hfetch m hm, hmany⟩

/-- Whatever a step of routing emits can be sent: the reply that it goes on with, and what it puts
into queues. -/
structure Turn.Sendable (replies : List Message) (turn : Turn) : Prop where
  reply : Reply.Sendable (replies ++ turn.replies)
  queued : ∀ conn, ∀ m ∈ turn.state.waiting conn, m.Sendable

theorem Turn.Fits.sendable {replies : List Message} {turn : Turn} (h : turn.Fits replies) :
    turn.Sendable replies :=
  ⟨h.reply.sendable, fun conn m hm => .of_fits (h.state.queued conn m hm)⟩

/-- What the writer of a session has come to after it has taken a message out of the queue. -/
inductive Link.Collected (l l' : Link) : Prop where
  /-- It writes a frame that is accepted. -/
  | writes (frame : Bytes) (deadline : Nat) (hwriter : l'.writer = .length frame deadline)
      (hpositive : 1 ≤ frame.length) (hsize : frame.length ≤ maxFrameSize)
  /-- It has stopped, because its stream is at its end. -/
  | exhausted (hwriter : l'.writer = .ended) (hcounter : ¬ l.encoder.counter.toNat < streamLimit)

/-- All that a relay emits can be sent. -/
structure Server.Emits (s : Server) : Prop where
  /-- Also what it emits when a message comes in, on whatever connection. -/
  begins : ∀ (t : Moment) (conn : ConnId) (text : Bytes) (m : Message),
    Message.unpack text = .ok m → (s.host.service.begin s.shared t conn m).Sendable []
  /-- Also what it emits when the store answers. -/
  resumes : ∀ l ∈ s.links, ∀ p replies since, l.reader = .routing p replies since →
    ∀ t : Moment, (s.host.service.resume s.shared t l.id p).Sendable replies
  /-- Also what it replies to a text that is no message. -/
  malformed : ∀ t : Moment, Reply.Sendable [s.host.service.malformedReply t]
  /-- All replies that were not handed over yet. -/
  replies : ∀ l ∈ s.links, ∀ reply ∈ l.reader.replies, reply.Sendable
  /-- All that waits in a queue. -/
  queued : ∀ conn, ∀ m ∈ s.shared.waiting conn, m.Sendable
  /-- A writer that takes a message out of its queue goes on to write it. -/
  collects : ∀ l ∈ s.links, ∀ (l' : Link) (σ : State),
    l.collect? s.host.service s.now s.shared = some (l', σ) → l.Collected l'
  /-- It is never the message that a writer stops for. -/
  unstopped : ∀ l ∈ s.links, ∀ m ∈ s.shared.waiting l.id, ∀ e : CodecError,
    l.encoder.sealMessage m ≠ .error (.frame e)

namespace Server

variable {s : Server} {l l' : Link} {σ : State}

theorem Fits.collected (h : s.Fits)
    (hcollect : l.collect? s.host.service s.now s.shared = some (l', σ)) : l.Collected l' := by
  unfold Link.collect? at hcollect
  split at hcollect
  · rename_i m _ hnext
    have hm : m.fits := by
      refine h.shared.queued l.id m ?_
      obtain ⟨box, hbox, hhead⟩ := Option.bind_eq_some_iff.1 hnext
      rw [State.waiting, hbox]
      exact List.mem_of_mem_head? hhead
    dsimp only at hcollect
    split at hcollect
    · rename_i hseal
      cases hcollect
      exact .exhausted rfl (Message.error_of_fits hm hseal).2
    · rename_i frame encoder hseal
      cases hcollect
      obtain ⟨hpositive, hsize⟩ := (Message.Sendable.of_fits hm).framed _ _ _ hseal
      exact .writes frame _ rfl hpositive hsize
  · cases hcollect

theorem Fits.emits (h : s.Fits) : s.Emits where
  begins t conn _ m hunpack :=
    ((s.host.service.beginning_begin s.shared t conn m).fits h.shared
      (Message.fits_of_unpack hunpack)).sendable
  resumes l hl p _ _ hrouting t := by
    obtain ⟨hp, hreplies, hfollows⟩ := (h.links l hl).pending _ _ _ hrouting
    have hresumption := s.host.service.resumption_resume s.shared t l.id p
    exact (hresumption.fits h.shared hp hreplies hfollows).sendable
  malformed t := (s.host.service.fits_malformedReply t).sendable
  replies l hl reply hreply := .of_fits ((h.links l hl).replies reply hreply)
  queued conn m hm := .of_fits (h.shared.queued conn m hm)
  collects _ _ _ _ hcollect := h.collected hcollect
  unstopped l _ m hm e herror := by
    obtain ⟨hcrypto, -⟩ := Message.error_of_fits (h.shared.queued l.id m hm) herror
    cases hcrypto

end Server

/-- In every state that a relay comes to, whatever its clients send and in whatever order things
happen, all that it emits can be sent. -/
theorem emitted_sendable {suite : Suite} {passwords : PasswordScheme} {config : Config} {seed : Key}
    {e e' : Entropy} {store : Store} {events : List Event} {s : Server}
    (hstore : Store.initial passwords config.maxUsers config.adminPasswordBytes e = .ok (store, e'))
    (hrun : (Server.start suite passwords config seed store e').run? events = some s) : s.Emits :=
  ((Server.Fits.start hstore suite config seed).of_run? hrun).emits

/-- The administrator logs in, and a client without a session asks for the users. The reply to the
one waits in its queue, that to the other was not handed over yet. -/
theorem emitted_sendable_waiting :
    ∃ s : Server,
      Sample.server.run? ([.begin, .check] ++ Sample.greeting 0 ++ Sample.greeting 1 ++
        Sample.sends 0 (Sample.preamble .logIn Sample.admin) ++
        [Sample.onLink 0 (.resume ⟨3, .none⟩), Sample.onLink 0 .reply] ++
        Sample.sends 1 (Sample.request .fetchUsers 1 Sample.guest UserId.toRelay [])) = some s ∧
      (s.shared.waiting 0).map Message.flag = [.loggedIn] ∧
      s.links.map (fun l => l.reader.replies.map Message.flag) = [[], [.error]] ∧
      s.Emits := by
  let events := [.begin, .check] ++ Sample.greeting 0 ++ Sample.greeting 1 ++
    Sample.sends 0 (Sample.preamble .logIn Sample.admin) ++
    [Sample.onLink 0 (.resume ⟨3, .none⟩), Sample.onLink 0 .reply] ++
    Sample.sends 1 (Sample.request .fetchUsers 1 Sample.guest UserId.toRelay [])
  have hevents : (Sample.server.run? events).any fun s =>
      (s.shared.waiting 0).map Message.flag = [.loggedIn] ∧
        s.links.map (fun l => l.reader.replies.map Message.flag) = [[], [.error]] := by
    decide +kernel
  obtain ⟨s, hrun, hchecks⟩ := (Option.any_eq_true _ _).1 hevents
  obtain ⟨hqueue, hreplies⟩ := of_decide_eq_true hchecks
  exact ⟨s, hrun, hqueue, hreplies, emitted_sendable Sample.initial_eq hrun⟩

/-! ### A fetch of more messages than there are numbers -/

namespace Sample

open Traffic

/-- What the administrator writes to the guest, again and again. -/
def letter : Message := request .proceed 5 admin guest.id [1, 2, 3]

/-- A request of the administrator for all that it wrote. -/
def review : Message :=
  request .fetchMessages 5 admin UserId.toRelay (1 :: (word64 0 ++ (word32 admin.id ++ [])))

/-- The letter is written once. -/
def writes : List Traffic.Event :=
  [.receive 5 ⟨9, .none⟩ letter, .resume 5 ⟨10, .none⟩, .resume 5 ⟨11, .none⟩]

/-- All that was written is asked for. -/
def reviews : List Traffic.Event :=
  [.receive 5 ⟨12, .none⟩ review, .resume 5 ⟨13, .none⟩, .resume 5 ⟨14, .none⟩]

/-- The administrator is on a connection, nothing is being routed on it, and as many letters of the
administrator are kept as given, and nothing else. -/
structure Stocked (n : Nat) (s : Traffic) : Prop where
  consistent : s.state.registry.Consistent
  bound : s.state.registry.user? 5 = some admin
  up : s.state.shuttingDown = false
  author : s.state.store.directory.contains admin.id
  recipient : s.state.store.directory.contains guest.id
  idle : s.calls.get? 5 = none
  number : s.state.store.mailbox.messages.length = n
  written : ∀ x ∈ s.state.store.mailbox.messages, x.author = admin.id ∧ 0 < x.timestamp

namespace Stocked

variable {n : Nat} {s : Traffic}

theorem authorized {m : Message} (h : Stocked n s)
    (hoperation : (Operation.ofFlag m.flag).isPreamble = false)
    (htoken : m.token = token 5 admin) (hsender : m.sender = admin.id) :
    relay.Authorized s.state 5 m admin where
  operation := hoperation
  bound := h.bound
  sender := hsender
  token := by
    rw [htoken]
    decide +kernel
  known := by
    rw [hsender]
    decide
  foreign := by
    rw [hsender]
    decide

/-- A letter that is delivered after it was kept is one more. -/
theorem kept (h : Stocked n s) {last : Traffic} (hidle : last.calls.get? 5 = none)
    (hstate : last.state = Service.deliver { s.state.count (.dispatched .proceed) with
      store.mailbox := (s.state.store.mailbox.add 100 admin.id guest.id [1, 2, 3]).2 } letter) :
    Stocked (n + 1) last := by
  have hmessages : last.state.store.mailbox.messages = s.state.store.mailbox.messages ++
      [⟨s.state.store.mailbox.nextId, 100, admin.id, guest.id, [1, 2, 3]⟩] := by
    rw [hstate, Service.store_deliver, Mailbox.messages_add]
  constructor
  case consistent =>
    rw [hstate, Service.registry_deliver]
    exact h.consistent
  case bound =>
    rw [hstate, Service.registry_deliver]
    exact h.bound
  case up =>
    rw [hstate, Service.shuttingDown_deliver]
    exact h.up
  case author =>
    rw [hstate, Service.store_deliver]
    exact h.author
  case recipient =>
    rw [hstate, Service.store_deliver]
    exact h.recipient
  case idle => exact hidle
  case number => rw [hmessages, List.length_append, h.number, List.length_singleton]
  case written =>
    intro x hx
    rw [hmessages] at hx
    rcases List.mem_append.1 hx with hold | hnew
    · exact h.written x hold
    · rw [List.mem_singleton.1 hnew]
      exact ⟨rfl, show (0 : UInt64) < 100 by decide⟩

/-- One more letter is written. -/
theorem exists_leads_writes (h : Stocked n s) :
    ∃ last, Leads relay s writes last ∧ Stocked (n + 1) last := by
  let σ := s.state.count (.dispatched .proceed)
  let τ := { σ with store.mailbox := (σ.store.mailbox.add 100 admin.id guest.id [1, 2, 3]).2 }
  have hbegin : relay.begin s.state ⟨9, .none⟩ 5 letter = Turn.wait σ (.recipient letter) := by
    rw [relay.begin_of_authorized (h.authorized rfl rfl rfl) h.consistent]
    unfold Service.perform
    rw [if_neg (by simp [h.up, show (Operation.ofFlag letter.flag).isForRelay = false from rfl])]
    exact if_neg (by decide)
  have hlook : relay.resume σ ⟨10, .none⟩ 5 (.recipient letter) = Turn.wait σ (.keeping letter) := by
    have hknown : σ.store.directory.contains letter.recipient := h.recipient
    simp only [Service.resume, Outage.attempt, hknown, Outage.none]
    exact if_pos rfl
  -- The letter comes in, its recipient is looked up, and it is kept.
  let s₁ := s.settle 5 letter (some admin) [] (Turn.wait σ (.recipient letter))
  let s₂ := s₁.settle 5 letter (some admin) [] (Turn.wait σ (.keeping letter))
  let s₃ := s₂.settle 5 letter (some admin) [] (Turn.answer (Service.deliver τ letter) [])
  have hfirst : s.next? relay (.receive 5 ⟨9, .none⟩ letter) = some s₁ := by
    simp only [next?, h.idle, h.bound, hbegin, s₁]
  have hsecond : s₁.next? relay (.resume 5 ⟨10, .none⟩) = some s₂ :=
    next?_resume_wait s letter (some admin) hlook
  have hthird : s₂.next? relay (.resume 5 ⟨11, .none⟩) = some s₃ :=
    next?_resume_wait s₁ letter (some admin) rfl
  have hidle : s₃.calls.get? 5 = none := by simp [s₃, get?_calls_settle, Turn.answer]
  exact ⟨s₃, .cons hfirst (.cons hsecond (.cons hthird (.nil s₃))), h.kept hidle rfl⟩

/-- As many letters are written as one likes. -/
theorem exists_leads_replicate (h : Stocked n s) (more : Nat) :
    ∃ last, Leads relay s (List.replicate more writes).flatten last ∧ Stocked (n + more) last := by
  induction more generalizing n s with
  | zero => exact ⟨s, .nil s, h⟩
  | succ more ih =>
    obtain ⟨next, hwrites, hnext⟩ := h.exists_leads_writes
    obtain ⟨last, hrest, hlast⟩ := ih hnext
    refine ⟨last, ?_, ?_⟩
    · rw [List.replicate_succ, List.flatten_cons]
      exact hwrites.append hrest
    · rwa [Nat.add_right_comm] at hlast

/-- Whoever wrote the letters gets all of them listed. -/
theorem exists_leads_reviews (h : Stocked (n + 1) s) :
    ∃ (last : Traffic) (call : Call), Leads relay s reviews last ∧
      last.calls.get? 5 = some call ∧ call.replies.length = n + 1 ∧
      Reply.Numbered call.replies := by
  let request : FetchRequest := ⟨1, 0, admin.id⟩
  let σ := s.state.count (.dispatched .fetchMessages)
  let found := σ.store.mailbox.select (request.query admin.id)
  have hreads : FetchRequest.Reads admin.id review.body request := .fromUser 0 admin.id []
  have hlength : found.length = n + 1 := by
    have hall : ∀ x ∈ σ.store.mailbox.messages, (request.query admin.id).selects x := by
      intro x hx
      obtain ⟨hauthor, hlate⟩ := h.written x hx
      rw [request.selects_query, FetchRequest.wants]
      simp [request, hauthor, hlate]
    rw [← h.number]
    show ((σ.store.mailbox.messages.filter _).mergeSort _).length = _
    rw [List.length_mergeSort, List.filter_eq_self.2 hall]
    rfl
  have hsome : found ≠ [] := List.ne_nil_of_length_eq_add_one hlength
  have hbegin : relay.begin s.state ⟨12, .none⟩ 5 review = Turn.wait σ (.target admin request) := by
    rw [relay.begin_fetchMessages (h.authorized rfl rfl rfl) h.consistent h.up rfl rfl]
    exact relay.beginFetch_of_parse? hreads.parse?_eq (by decide)
  let s₁ := s.settle 5 review (some admin) [] (Turn.wait σ (.target admin request))
  let s₂ := s₁.settle 5 review (some admin) [] (Turn.wait σ (.selection admin request))
  let s₃ := s₂.settle 5 review (some admin) [] ⟨σ, relay.fetchedMessages admin.id found,
    .waiting (.consumption (Service.consumed admin.id found))⟩
  have hfirst : s.next? relay (.receive 5 ⟨12, .none⟩ review) = some s₁ := by
    simp only [next?, h.idle, h.bound, hbegin, s₁]
  have hsecond : s₁.next? relay (.resume 5 ⟨13, .none⟩) = some s₂ :=
    next?_resume_wait s review (some admin) (Service.resume_target_of_contains rfl h.author)
  have hthird : s₂.next? relay (.resume 5 ⟨14, .none⟩) = some s₃ :=
    next?_resume_wait s₁ review (some admin) (Service.resume_selection rfl hsome)
  let call : Call := ⟨review, some admin, .consumption (Service.consumed admin.id found),
    relay.fetchedMessages admin.id found⟩
  refine ⟨s₃, call, .cons hfirst (.cons hsecond (.cons hthird (.nil s₃))), ?_, ?_, ?_⟩
  · simp only [s₃, get?_calls_settle, if_pos]
    rfl
  · show (found.mapIdx _).length = n + 1
    rw [List.length_mapIdx, hlength]
  · exact .mapIdx fun _ _ => ⟨rfl, rfl⟩

end Stocked

end Sample

open Traffic

/-- The administrator writes a letter as many times as there are numbers, and asks for all of them.
By then the count of the reply has started again from zero, and an index is not below it. -/
theorem index_reaches_count :
    ∃ (h : List (Step Sample.relay)) (last : Traffic) (call : Call),
      h.map Step.event = Sample.conversation.take 8 ++
        (List.replicate UInt32.size Sample.writes).flatten ++ Sample.reviews ∧
      Opening Sample.relay Sample.first ∧ Run Sample.relay Sample.first h last ∧
      (∀ (conn : ConnId) (t : Moment) (m : Message),
        .receive conn t m ∈ h.map Step.event → ∃ text, Message.unpack text = .ok m) ∧
      last.calls.get? 5 = some call ∧ call.replies.length = UInt32.size ∧
      ∃ m ∈ call.replies, ¬ m.index < m.count := by
  have hsome : (Sample.first.follow? Sample.relay (Sample.conversation.take 8)).any fun run =>
      run.2.state.registry.user? 5 = some Sample.admin && !run.2.state.shuttingDown &&
        run.2.state.store.directory.contains Sample.admin.id &&
        run.2.state.store.directory.contains Sample.guest.id &&
        run.2.calls.get? 5 = none && run.2.state.store.mailbox.messages = [] := by
    decide +kernel
  obtain ⟨⟨h, s⟩, hfollow, hchecks⟩ := (Option.any_eq_true _ _).1 hsome
  obtain ⟨hrun, hevents⟩ := run_of_follow? hfollow
  simp only [Bool.and_eq_true, Bool.not_eq_true', decide_eq_true_eq] at hchecks
  obtain ⟨⟨⟨⟨⟨hbound, hup⟩, hauthor⟩, hrecipient⟩, hidle⟩, hnone⟩ := hchecks
  have hstocked : Sample.Stocked 0 s :=
    { consistent := (hrun.sound Sample.opening.sound).consistent
      bound := hbound
      up := hup
      author := hauthor
      recipient := hrecipient
      idle := hidle
      number := by rw [hnone]; rfl
      written := by rw [hnone]; exact nofun }
  obtain ⟨full, hwrites, hfull⟩ := hstocked.exists_leads_replicate UInt32.size
  have hfull : Sample.Stocked (UInt32.size - 1 + 1) full := by simpa using hfull
  obtain ⟨last, call, hreviews, hcall, hlength, hnumbered⟩ := hfull.exists_leads_reviews
  obtain ⟨steps, hsteps, hall⟩ := (Leads.append ⟨h, hrun, hevents⟩ hwrites).append hreviews
  obtain ⟨m, hm, hsame⟩ := hnumbered.exists_index_eq_count (Nat.le_of_eq hlength.symm)
  refine ⟨steps, last, call, hall, Sample.opening, hsteps, ?_, hcall, hlength, m, hm, ?_⟩
  · intro conn t m hreceived
    rw [hall] at hreceived
    -- Four different messages come in.
    have hm : m ∈ [Sample.preamble .logIn Sample.admin, Sample.preamble .register Sample.guest,
        Sample.letter, Sample.review] := by
      simp only [List.mem_append, List.mem_flatten, List.mem_replicate] at hreceived
      rcases hreceived with (hbegun | ⟨round, ⟨-, rfl⟩, hwritten⟩) | hreviewed
      · simp [Sample.conversation] at hbegun
        rcases hbegun with ⟨-, -, rfl⟩ | ⟨-, -, rfl⟩ <;> simp
      · simp [Sample.writes] at hwritten
        simp [hwritten]
      · simp [Sample.reviews] at hreviewed
        simp [hreviewed]
    have hfits : ∀ m ∈ [Sample.preamble .logIn Sample.admin,
        Sample.preamble .register Sample.guest, Sample.letter, Sample.review], m.fits := by
      decide +kernel
    exact Message.exists_unpack (hfits m hm)
  · rw [hsame]
    exact UInt32.lt_irrefl _

end Relay
