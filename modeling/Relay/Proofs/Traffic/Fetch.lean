import Relay.Proofs.Routing.Privacy
import Relay.Proofs.Routing.Size
import Relay.Proofs.Store.History
import Relay.Proofs.Traffic.Execution
import Relay.Proofs.Traffic.Store

/-!
# `Relay.Proofs.Traffic.Fetch`: what a request for messages gets

A request for messages is a body of one of two forms (`FetchRequest.Reads`). It names a watermark,
and the messages that are wanted are the later ones that the requester received, or those of an
author that concern the requester (`FetchRequest.wants`). `Service.AnswersFetch` says what the
request comes to: it is malformed and closes its connection, or it is refused with an error and
nothing else, or it is answered with all wanted messages in the order of their timestamps, of which
those for the requester are removed. `Service.fetch_answered` proves it after any history of the
mailbox and for steps that are taken at any times. Every mailbox that a relay comes to has such a
history (`Traffic.Run.exists_history`).
-/

set_option autoImplicit false

namespace Relay

namespace FetchRequest

/-! ### What a body asks for -/

/-- A body begins with its mode and is long enough for it. -/
def IsBody (body : Bytes) : Prop :=
  body.head? = some 0 ∧ 9 ≤ body.length ∨ body.head? = some 1 ∧ 13 ≤ body.length

/-- The request that a body of a requester makes. What follows is ignored. -/
inductive Reads (requester : UserId) : Bytes → FetchRequest → Prop where
  /-- The messages for the requester. -/
  | toMe (after : UInt64) (rest : Bytes) :
      Reads requester (0 :: (word64 after ++ rest)) ⟨0, after, requester⟩
  /-- The messages of an author. -/
  | fromUser (after : UInt64) (author : UserId) (rest : Bytes) :
      Reads requester (1 :: (word64 after ++ (word32 author ++ rest))) ⟨1, after, author⟩

variable {requester : UserId} {body : Bytes} {r : FetchRequest}

/-- What begins with enough bytes begins with a number of 64 bits. -/
theorem exists_eq_word64_append (bytes : Bytes) (h : 8 ≤ bytes.length) :
    ∃ (after : UInt64) (rest : Bytes), bytes = word64 after ++ rest := by
  have hlength : (bytes.take 8).length = 8 := by rw [List.length_take, Nat.min_eq_left h]
  refine ⟨ofWord64 (bytes.take 8), bytes.drop 8, ?_⟩
  rw [word64_ofWord64 hlength, List.take_append_drop]

theorem exists_eq_word32_append (bytes : Bytes) (h : 4 ≤ bytes.length) :
    ∃ (author : UInt32) (rest : Bytes), bytes = word32 author ++ rest := by
  have hlength : (bytes.take 4).length = 4 := by rw [List.length_take, Nat.min_eq_left h]
  refine ⟨ofWord32 (bytes.take 4), bytes.drop 4, ?_⟩
  rw [word32_ofWord32 hlength, List.take_append_drop]

/-- A body that is long enough for its mode makes a request. -/
theorem isBody_iff (requester : UserId) (body : Bytes) :
    IsBody body ↔ ∃ r : FetchRequest, Reads requester body r := by
  constructor
  · intro h
    cases body with
    | nil => simp [IsBody] at h
    | cons mode rest =>
      simp only [IsBody, List.head?_cons, Option.some.injEq, List.length_cons] at h
      rcases h with ⟨rfl, hlong⟩ | ⟨rfl, hlong⟩
      · obtain ⟨after, rest, rfl⟩ := exists_eq_word64_append rest (Nat.le_of_succ_le_succ hlong)
        exact ⟨_, .toMe after rest⟩
      · obtain ⟨after, rest, rfl⟩ := exists_eq_word64_append rest (by omega)
        rw [List.length_append, length_word64] at hlong
        obtain ⟨author, rest, rfl⟩ := exists_eq_word32_append rest (by omega)
        exact ⟨_, .fromUser after author rest⟩
  · rintro ⟨r, hreads⟩
    cases hreads with
    | toMe => exact .inl ⟨rfl, by simp⟩
    | fromUser => exact .inr ⟨rfl, by simp; omega⟩

/-- A body that makes a request is read as this request. -/
theorem Reads.parse?_eq (h : Reads requester body r) : parse? requester body = some r := by
  cases h with
  | toMe after rest =>
    have hlong : ¬ (word64 after ++ rest).length < 8 := by simp
    have htake : (word64 after ++ rest).take 8 = word64 after := List.take_left' (length_word64 _)
    rw [parse?, if_pos (show (0 : UInt8) = FetchRequest.toMe from rfl), if_neg hlong, htake,
      ofWord64_word64]
  | fromUser after author rest =>
    have hlong : ¬ (word64 after ++ (word32 author ++ rest)).length < 12 := by simp; omega
    have htake : (word64 after ++ (word32 author ++ rest)).take 8 = word64 after :=
      List.take_left' (length_word64 _)
    have hdrop : (word64 after ++ (word32 author ++ rest)).drop 8 = word32 author ++ rest :=
      List.drop_left' (length_word64 _)
    have hauthor : (word32 author ++ rest).take 4 = word32 author :=
      List.take_left' (length_word32 _)
    rw [parse?, if_neg (by decide), if_pos (show (1 : UInt8) = FetchRequest.fromUser from rfl),
      if_neg hlong, htake, hdrop, hauthor, ofWord64_word64, ofWord32_word32]

/-- Every other body is rejected. -/
theorem parse?_eq_none (requester : UserId) (h : ¬ IsBody body) : parse? requester body = none := by
  cases body with
  | nil => rfl
  | cons mode rest =>
    simp only [IsBody, List.head?_cons, Option.some.injEq, List.length_cons, not_or, not_and] at h
    rw [parse?]
    split
    · rename_i hmode
      exact if_pos (by have := h.1 hmode; omega)
    · split
      · rename_i hmode
        exact if_pos (by have := h.2 hmode; omega)
      · rfl

/-- Whether a request asks for a message: the message is later than the watermark and for the
requester or, where an author is asked for, of the author, who is the requester or wrote it to the
requester. -/
def wants (r : FetchRequest) (requester : UserId) (x : StoredMessage) : Bool :=
  r.after < x.timestamp &&
    if r.mode = 0 then x.recipient = requester
    else x.author = r.target && (requester = r.target || requester = x.recipient)

/-- What is selected for a request is what it asks for. -/
theorem selects_query (r : FetchRequest) (requester : UserId) (x : StoredMessage) :
    (r.query requester).selects x = r.wants requester x := by
  rw [Bool.eq_iff_iff]
  unfold query wants
  show MailboxQuery.selects (if r.mode = 0 then _ else _) x = true ↔ _
  split
  · simp [MailboxQuery.selects, and_comm]
  · simp only [MailboxQuery.selects, Bool.and_eq_true, Bool.or_eq_true, decide_eq_true_eq]
    rw [and_comm, or_comm, eq_comm (a := x.recipient), eq_comm (a := r.target)]

end FetchRequest

namespace Service

variable {S : Service} {σ : State} {conn : ConnId} {user : User} {m : TimedMessage}
  {t : Moment} {request : FetchRequest} {ops : List MailboxOp}

/-- What a request for messages comes to. -/
structure AnswersFetch (S : Service) (σ : State) (conn : ConnId) (user : User) (m : TimedMessage)
    (ops : List MailboxOp) (r : Routed) : Prop where
  /-- A body that is no request closes the connection. -/
  malformed : ¬ FetchRequest.IsBody m.message.body →
    r = ⟨(σ.count (.dispatched .fetchMessages)).purge conn,
      [S.errorReply (m.clock 0) .fetchMessages user.id], .finishWithError⟩
  wellFormed : FetchRequest.IsBody m.message.body →
    ∃ request : FetchRequest, FetchRequest.Reads user.id m.message.body request
  /-- A watermark that is not in the past and a user who is not registered are refused. -/
  refused : ∀ request : FetchRequest, FetchRequest.Reads user.id m.message.body request →
    (m.clock 0).now ≤ request.after ∨ σ.store.directory.contains request.target = false →
      ∃ k : Nat, r = ⟨σ.count (.dispatched .fetchMessages),
        [S.errorReply (m.clock k) .fetchMessages user.id], .stay⟩
  /-- If nothing is there, the reply says so and repeats the request. -/
  nothing : ∀ request : FetchRequest, FetchRequest.Reads user.id m.message.body request →
    request.after < (m.clock 0).now → σ.store.directory.contains request.target →
    (MailboxOp.surviving 0 ops).filter (request.wants user.id) = [] →
      ∃ marker : Message, r = ⟨σ.count (.dispatched .fetchMessages), [marker], .stay⟩ ∧
        marker.flag = .fetchMessages ∧ marker.FromRelay S.relayToken ∧
        marker.recipient = user.id ∧ marker.index = 0 ∧ marker.count = 1 ∧
        marker.body = request.mode :: word64 request.after ++ word32 request.target ∧
        marker.body.length = 13
  /-- Otherwise there is one reply for each message that is there, in the order of their timestamps,
  and those for the requester are removed. -/
  found : ∀ request : FetchRequest, FetchRequest.Reads user.id m.message.body request →
    request.after < (m.clock 0).now → σ.store.directory.contains request.target →
    (MailboxOp.surviving 0 ops).filter (request.wants user.id) ≠ [] →
      ∃ (found : List StoredMessage) (mailbox : Mailbox),
        Mailbox.ByTimestamp found ((MailboxOp.surviving 0 ops).filter (request.wants user.id)) ∧
        r.replies.length = found.length ∧
        (∀ (i : Nat) (x : StoredMessage), found[i]? = some x → r.replies[i]? = some {
          flag := .fetchMessages, timestamp := x.timestamp, sender := x.author,
          recipient := user.id, token := S.relayToken, body := x.body,
          index := UInt32.ofNat i, count := UInt32.ofNat found.length }) ∧
        r.outcome = .stay ∧
        r.state = { σ.count (.dispatched .fetchMessages) with store.mailbox := mailbox } ∧
        (MailboxOp.additions ops ≤ UInt64.size → mailbox.messages =
          (MailboxOp.surviving 0 ops).filter fun x =>
            !(request.wants user.id x && x.recipient = user.id))

/-- A request for messages is looked at. -/
theorem begin_fetchMessages {asked : Message} (hauth : S.Authorized σ conn asked user)
    (hσ : σ.registry.Consistent) (hup : σ.shuttingDown = false)
    (hflag : asked.flag = .fetchMessages) (hrecipient : asked.recipient = UserId.toRelay)
    (t : Moment) :
    S.begin σ t conn asked =
      S.beginFetch (σ.count (.dispatched .fetchMessages)) t conn user asked := by
  have hop : Operation.ofFlag asked.flag = .fetchMessages := by rw [hflag]; rfl
  rw [S.begin_of_authorized hauth hσ]
  simp [perform, hop, hup, hrecipient]

/-- A step that waits is followed by what the store answers. -/
theorem completeAt_wait (clock : Nat → Moment) {p : Pending} {next : Turn}
    (hnext : S.resume σ (clock 0) conn p = next) :
    S.completeAt clock conn (Turn.wait σ p) = S.completeAt (fun k => clock (k + 1)) conn next := by
  rw [completeAt_of_waiting rfl]
  subst hnext
  rfl

/-- A body that is no request is all that is looked at. -/
theorem beginFetch_of_not_isBody {asked : Message} (hbody : ¬ FetchRequest.IsBody asked.body) :
    S.beginFetch σ t conn user asked =
      Turn.interrupt σ conn (S.errorReply t asked.flag asked.sender) := by
  simp only [beginFetch, FetchRequest.parse?_eq_none user.id hbody]

/-- A watermark that is not in the past is refused at once. -/
theorem beginFetch_of_le {asked : Message}
    (hparse : FetchRequest.parse? user.id asked.body = some request)
    (hlate : t.now ≤ request.after) :
    S.beginFetch σ t conn user asked =
      Turn.answer σ [S.errorReply t asked.flag user.id] := by
  simp only [beginFetch, hparse]
  exact if_pos hlate

/-- A request is made of its body and of the clock. -/
theorem beginFetch_of_parse? {asked : Message}
    (hparse : FetchRequest.parse? user.id asked.body = some request)
    (hpast : request.after < t.now) :
    S.beginFetch σ t conn user asked = Turn.wait σ (.target user request) := by
  simp only [beginFetch, hparse]
  exact if_neg (UInt64.not_le.2 hpast)

theorem resume_target_of_contains (hstore : t.outage .userExists = none)
    (htarget : σ.store.directory.contains request.target) :
    S.resume σ t conn (.target user request) = Turn.wait σ (.selection user request) := by
  simp only [resume, Outage.attempt, hstore, htarget]

theorem resume_target_of_unknown (σ : State) (conn : ConnId) (user : User)
    (hstore : t.outage .userExists = none)
    (hunknown : σ.store.directory.contains request.target = false) :
    S.resume σ t conn (.target user request) =
      Turn.answer σ [S.errorReply t .fetchMessages user.id] := by
  simp only [resume, Outage.attempt, hstore, hunknown]

theorem resume_selection_of_nil (conn : ConnId) (hstore : t.outage .messages = none)
    (hnone : σ.store.mailbox.select (request.query user.id) = []) :
    S.resume σ t conn (.selection user request) =
      Turn.answer σ [{ S.message t .fetchMessages user.id with body := request.marker }] := by
  simp only [resume, Outage.attempt, hstore, hnone]

theorem resume_consumption {ids : List UInt64} (hstore : t.outage .deleteMessages = none) :
    S.resume σ t conn (.consumption ids) =
      Turn.answer { σ with store.mailbox := σ.store.mailbox.delete ids } [] := by
  simp only [resume, hstore]

/-- What is selected is what the request asks for. -/
theorem select_query (hmailbox : σ.store.mailbox = Mailbox.after ops) (request : FetchRequest)
    (user : User) :
    Mailbox.ByTimestamp (σ.store.mailbox.select (request.query user.id))
      ((MailboxOp.surviving 0 ops).filter (request.wants user.id)) := by
  have hselects : (request.query user.id).selects = request.wants user.id :=
    funext (request.selects_query user.id)
  rw [← hselects, ← Mailbox.messages_after, ← hmailbox]
  exact Mailbox.byTimestamp_select _ _

/-- A request whose watermark is in the past looks for the user it is about. -/
theorem routeAt_of_past (hbegin : S.begin σ (m.clock 0) conn m.message =
      S.beginFetch (σ.count (.dispatched .fetchMessages)) (m.clock 0) conn user m.message)
    (hreads : FetchRequest.Reads user.id m.message.body request)
    (hpast : request.after < (m.clock 0).now) :
    S.routeAt σ conn m = S.completeAt (fun k => m.clock (k + 1)) conn
      (Turn.wait (σ.count (.dispatched .fetchMessages)) (.target user request)) := by
  rw [routeAt, hbegin, S.beginFetch_of_parse? hreads.parse?_eq hpast]

/-- If there is this user, it looks for messages. -/
theorem routeAt_of_contains (hbegin : S.begin σ (m.clock 0) conn m.message =
      S.beginFetch (σ.count (.dispatched .fetchMessages)) (m.clock 0) conn user m.message)
    (hreads : FetchRequest.Reads user.id m.message.body request)
    (hpast : request.after < (m.clock 0).now)
    (hstore : (m.clock 1).outage .userExists = none)
    (htarget : σ.store.directory.contains request.target) :
    S.routeAt σ conn m = S.completeAt (fun k => m.clock (k + 2)) conn
      (Turn.wait (σ.count (.dispatched .fetchMessages)) (.selection user request)) := by
  rw [S.routeAt_of_past hbegin hreads hpast]
  exact S.completeAt_wait (fun k => m.clock (k + 1)) (S.resume_target_of_contains hstore htarget)

/-- Messages that are found are handed over, and those for the requester are removed. -/
theorem routeAt_of_found (hrouted : S.routeAt σ conn m =
      S.completeAt (fun k => m.clock (k + 2)) conn
        (Turn.wait (σ.count (.dispatched .fetchMessages)) (.selection user request)))
    (hstore : ∀ (k : Nat) (op : StoreOp), (m.clock k).outage op = none)
    (hsome : σ.store.mailbox.select (request.query user.id) ≠ []) :
    S.routeAt σ conn m =
      ⟨{ σ.count (.dispatched .fetchMessages) with
          store.mailbox := σ.store.mailbox.delete
            (consumed user.id (σ.store.mailbox.select (request.query user.id))) },
        S.fetchedMessages user.id (σ.store.mailbox.select (request.query user.id)), .stay⟩ := by
  have hselect : (σ.count (.dispatched .fetchMessages)).store.mailbox.select
      (request.query user.id) ≠ [] := hsome
  rw [hrouted, S.completeAt_wait _ (S.resume_selection (hstore 2 .messages) hselect),
    completeAt_of_waiting rfl, S.resume_consumption (hstore 3 .deleteMessages),
    completeAt_of_finished rfl]
  exact congrArg (Routed.mk _ · _) (List.append_nil _)

/-- What is left is what was not handed over to the requester. -/
theorem messages_delete_consumed (hmailbox : σ.store.mailbox = Mailbox.after ops)
    (hfew : MailboxOp.additions ops ≤ UInt64.size) (request : FetchRequest) (user : User) :
    (σ.store.mailbox.delete
        (consumed user.id (σ.store.mailbox.select (request.query user.id)))).messages =
      (MailboxOp.surviving 0 ops).filter fun x =>
        !(request.wants user.id x && x.recipient = user.id) := by
  have hroom : σ.store.mailbox.HasRoom 0 := hmailbox ▸ Mailbox.hasRoom_after hfew
  have hselects : (request.query user.id).selects = request.wants user.id :=
    funext (request.selects_query user.id)
  have hremoved := Mailbox.messages_delete_select hroom (request.query user.id)
    fun x => x.recipient = user.id
  rw [hselects] at hremoved
  rw [← Mailbox.messages_after, ← hmailbox]
  exact hremoved

/-- After any history of the mailbox, a request for messages that is let through is answered as it
should be, whenever its steps are taken. -/
theorem fetch_answered (hauth : S.Authorized σ conn m.message user)
    (hσ : σ.registry.Consistent) (hup : σ.shuttingDown = false)
    (hflag : m.message.flag = .fetchMessages) (hrecipient : m.message.recipient = UserId.toRelay)
    (hstore : ∀ k : Nat, (m.clock k).outage = Outage.none)
    (hmailbox : σ.store.mailbox = Mailbox.after ops) :
    S.AnswersFetch σ conn user m ops (S.routeAt σ conn m) := by
  have hbegin := S.begin_fetchMessages hauth hσ hup hflag hrecipient (m.clock 0)
  have hanswers (k : Nat) (op : StoreOp) : (m.clock k).outage op = none := by
    rw [hstore]
    rfl
  constructor
  case malformed =>
    intro hbody
    rw [routeAt, hbegin, S.beginFetch_of_not_isBody hbody, hflag, hauth.sender]
    exact completeAt_of_finished rfl _
  case wellFormed => exact (FetchRequest.isBody_iff user.id _).1
  case refused =>
    intro request hreads hrefused
    by_cases hpast : request.after < (m.clock 0).now
    · -- The watermark is in the past, so it is the user who is asked for.
      have hunknown := hrefused.resolve_left (UInt64.not_le.2 hpast)
      have hresume := S.resume_target_of_unknown (σ.count (.dispatched .fetchMessages)) conn user
        (hanswers 1 .userExists) hunknown
      refine ⟨1, ?_⟩
      rw [S.routeAt_of_past hbegin hreads hpast, S.completeAt_wait _ hresume]
      exact completeAt_of_finished rfl _
    · refine ⟨0, ?_⟩
      rw [routeAt, hbegin, S.beginFetch_of_le hreads.parse?_eq (UInt64.not_lt.1 hpast), hflag]
      exact completeAt_of_finished rfl _
  case nothing =>
    intro request hreads hpast htarget hnone
    have hselect : σ.store.mailbox.select (request.query user.id) = [] := by
      have hperm := (select_query hmailbox request user).perm
      rw [hnone] at hperm
      exact hperm.eq_nil
    have hresume := S.resume_selection_of_nil (σ := σ.count (.dispatched .fetchMessages)) conn
      (hanswers 2 .messages) hselect
    refine ⟨{ S.message (m.clock 2) .fetchMessages user.id with body := request.marker }, ?_, rfl,
      ⟨rfl, rfl⟩, rfl, rfl, rfl, rfl, length_marker request⟩
    rw [S.routeAt_of_contains hbegin hreads hpast (hanswers 1 .userExists) htarget,
      S.completeAt_wait _ hresume]
    exact completeAt_of_finished rfl _
  case found =>
    intro request hreads hpast htarget hsome
    have hfound := select_query hmailbox request user
    have hselect : σ.store.mailbox.select (request.query user.id) ≠ [] := by
      intro hnil
      have hperm := hfound.perm
      rw [hnil] at hperm
      exact hsome hperm.nil_eq.symm
    have hrouted :=
      S.routeAt_of_contains hbegin hreads hpast (hanswers 1 .userExists) htarget
    rw [S.routeAt_of_found hrouted hanswers hselect]
    refine ⟨_, _, hfound, ?_, ?_, rfl, rfl, fun hfew => ?_⟩
    · exact List.length_mapIdx
    · intro i x hx
      rw [fetchedMessages, List.getElem?_mapIdx, hx]
      rfl
    · exact messages_delete_consumed hmailbox hfew request user

/-- A history with two messages for the guest, one of which is removed, and one of the guest. -/
def letters : List MailboxOp :=
  [.add 7 Sample.admin.id Sample.guest.id [1], .add 5 Sample.guest.id Sample.admin.id [2],
    .delete [0], .add 6 Sample.admin.id Sample.guest.id [3]]

/-- The guest gets the message that is left, and what the guest wrote stays. -/
theorem fetch_answered_letters :
    ∃ (σ : State) (m : TimedMessage),
      σ.registry.Consistent ∧ σ.store.mailbox = Mailbox.after letters ∧
      m.message = Sample.fetch 6 Sample.guest ∧
      Sample.relay.Authorized σ 6 m.message Sample.guest ∧
      (Sample.relay.routeAt σ 6 m).replies.map Message.body = [[3]] ∧
      (Sample.relay.routeAt σ 6 m).state.store.mailbox.messages =
        [⟨1, 5, Sample.guest.id, Sample.admin.id, [2]⟩] ∧
      Sample.relay.AnswersFetch σ 6 Sample.guest m letters (Sample.relay.routeAt σ 6 m) := by
  let m : TimedMessage := ⟨fun k => ⟨30 + UInt64.ofNat k, .none⟩, Sample.fetch 6 Sample.guest⟩
  let withLetters (σ : State) : State := { σ with store.mailbox := Mailbox.after letters }
  have hsome : (Sample.first.follow? Sample.relay (Sample.conversation.take 11)).isSome := by
    decide +kernel
  obtain ⟨⟨h, last⟩, hfollow⟩ := Option.isSome_iff_exists.1 hsome
  have hsound := (Traffic.run_of_follow? hfollow).1.sound Sample.opening.sound
  have hlast := of_decide_eq_true <| Traffic.check_of_follow? hfollow (fun s =>
    s.state.registry.user? 6 = some Sample.guest ∧ s.state.shuttingDown = false ∧
      (Sample.relay.routeAt (withLetters s.state) 6 m).replies.map Message.body =
        [[3]] ∧
      (Sample.relay.routeAt (withLetters s.state) 6 m).state.store.mailbox.messages =
        [⟨1, 5, Sample.guest.id, Sample.admin.id, [2]⟩]) (by decide +kernel)
  obtain ⟨hguest, hup, hbodies, hleft⟩ := hlast
  have hauth : Sample.relay.Authorized (withLetters last.state) 6 m.message Sample.guest :=
    ⟨rfl, hguest, rfl, by decide +kernel, by decide, by decide⟩
  exact ⟨withLetters last.state, m, hsound.consistent, rfl, rfl, hauth, hbodies, hleft,
    fetch_answered hauth hsound.consistent hup rfl rfl (fun _ => rfl) rfl⟩

end Service

/-- Whatever state a relay has come to, its mailbox has such a history. -/
theorem Traffic.Run.exists_history {S : Service} {first last : Traffic} {h : List (Step S)}
    (hrun : Run S first h last) (hopening : Opening S first) :
    ∃ ops : List MailboxOp, last.state.store.mailbox = Mailbox.after ops := by
  refine hrun.invariant
    (P := fun _ s => ∃ ops : List MailboxOp, s.state.store.mailbox = Mailbox.after ops) ?_ ?_
  · exact ⟨[], hopening.store.1⟩
  · rintro h step - ⟨ops, hops⟩
    have next (op : MailboxOp)
        (hmailbox : step.after.state.store.mailbox = step.before.state.store.mailbox.apply op) :
        ∃ ops : List MailboxOp, step.after.state.store.mailbox = Mailbox.after ops := by
      refine ⟨ops ++ [op], ?_⟩
      rw [Mailbox.after_concat, hmailbox, hops]
    cases step.mailboxEffect with
    | same _ hmailbox => exact ⟨ops, hmailbox.trans hops⟩
    | @added _ m _ hmailbox => exact next (.add m.timestamp m.sender m.recipient m.body) hmailbox
    | @removed _ ids _ _ hmailbox => exact next (.delete ids) hmailbox
    | cleared _ _ hmailbox => exact next .clear hmailbox

end Relay
