import Relay.Proofs.Traffic.Custody
import Relay.Proofs.Traffic.Fetch
import Relay.Proofs.Traffic.Handover
import Relay.Proofs.Traffic.Privileges
import Relay.Proofs.Traffic.Provenance

/-!
# `Relay.Proofs.Traffic.Retrieval`: whether what is kept can be fetched

A message is kept under the timestamp that its author gave it, whatever that is, and a request asks
for what is later than a watermark. The lowest watermark is zero, so a message with a timestamp above
zero can be had with a request for everything later than zero (`Service.Fetches`), and one with the
timestamp zero cannot be had at all: it is kept, no request finds it (`Step.after_lt_of_reads`), and
it stays until all messages are removed.

So it does not hold that nothing is kept that its recipient can never fetch
(`kept_out_of_reach`). What holds is `retrievable_of_admits`.
-/

set_option autoImplicit false

namespace Relay

/-! ### Fetching everything -/

namespace Service

variable (S : Service)

/-- A request of a user for all messages for the user. -/
def fetchAll (conn : ConnId) (user : User) (nonce : Nonce) : Message where
  flag := .fetchMessages
  timestamp := 0
  sender := user.id
  recipient := UserId.toRelay
  token := S.tokens.layOut nonce conn user.id
  body := FetchRequest.toMe :: word64 0

/-- On a connection a request of a user for everything is let through, whichever token the user got
there, and a message is among the replies, if the clock is above zero and the store answers. -/
def Fetches (σ : State) (conn : ConnId) (user : User) (x : StoredMessage) : Prop :=
  ∀ (nonce : Nonce) (clock : Nat → Moment), 0 < (clock 0).now →
    (∀ (k : Nat) (op : StoreOp), (clock k).outage op = none) →
      S.Authorized σ conn (S.fetchAll conn user nonce) user ∧
        (S.routeAt σ conn ⟨clock, S.fetchAll conn user nonce⟩).outcome = .stay ∧
        ∃ reply ∈ (S.routeAt σ conn ⟨clock, S.fetchAll conn user nonce⟩).replies,
          S.HandsBack user x reply

variable {S} {σ : State} {conn : ConnId} {user : User} {x : StoredMessage}

/-- What is found is handed back. -/
theorem exists_handsBack {found : List StoredMessage} (hx : x ∈ found) :
    ∃ reply ∈ S.fetchedMessages user.id found, S.HandsBack user x reply := by
  obtain ⟨i, hi, rfl⟩ := List.getElem_of_mem hx
  exact ⟨_, List.mem_mapIdx.2 ⟨i, hi, rfl⟩, rfl, rfl, rfl, rfl, rfl, rfl⟩

/-- A request for everything asks for what is later than zero. -/
theorem reads_fetchAll (user : User) :
    FetchRequest.Reads user.id (FetchRequest.toMe :: word64 0) ⟨0, 0, user.id⟩ := by
  have hreads : FetchRequest.Reads user.id (0 :: (word64 0 ++ [])) ⟨0, 0, user.id⟩ := .toMe 0 []
  rwa [List.append_nil] at hreads

/-- The recipient of a message that is kept fetches it with a request for everything, if it has a
timestamp above zero. -/
theorem fetches_of_stored (hinverts : S.tokens.aead.Inverts) (hσ : σ.registry.Consistent)
    (hup : σ.shuttingDown = false) (hknown : σ.store.directory.contains user.id)
    (hbelow : user.id < UserId.limit) (huser : σ.registry.user? conn = some user)
    (hx : x ∈ σ.store.mailbox.messages) (hrecipient : user.id = x.recipient)
    (htimestamp : x.timestamp ≠ 0) : S.Fetches σ conn user x := by
  intro nonce clock hnow hstore
  have hother {id : UserId} (hid : ¬ id < UserId.limit) : user.id ≠ id :=
    fun heq => hid (heq ▸ hbelow)
  have hauth : S.Authorized σ conn (S.fetchAll conn user nonce) user :=
    ⟨rfl, huser, rfl, TokenCipher.open?_layOut hinverts nonce, hother (by decide),
      hother (by decide)⟩
  let m : TimedMessage := ⟨clock, S.fetchAll conn user nonce⟩
  let request : FetchRequest := ⟨0, 0, user.id⟩
  have hbegin := S.begin_fetchMessages hauth hσ hup rfl rfl (clock 0)
  have hselected : x ∈ σ.store.mailbox.select (request.query user.id) := by
    rw [Mailbox.mem_select, FetchRequest.selects_query]
    have hlater : 0 < x.timestamp := UInt64.pos_iff_ne_zero.2 htimestamp
    exact ⟨hx, by simp [FetchRequest.wants, request, hlater, hrecipient]⟩
  have hrouted := S.routeAt_of_contains (m := m) hbegin (reads_fetchAll user) hnow
    (hstore 1 .userExists) hknown
  rw [S.routeAt_of_found hrouted hstore (List.ne_nil_of_mem hselected)]
  exact ⟨hauth, rfl, exists_handsBack hselected⟩

/-- A log-in of a user. -/
def logIn (name : Username) (password : Password) : Message where
  flag := .logIn
  timestamp := 0
  sender := UserId.fromAnonymous
  recipient := UserId.toRelay
  token := .empty
  body := name.bytes ++ password.bytes

/-- Who gives the right credentials on a fresh connection is logged in, if a token can be sealed, and
nothing changes in the store. -/
theorem exists_route_logIn {name : Username} {password : Password} {t : Moment}
    (hσ : σ.registry.Consistent) (hphase : σ.registry.phase? conn = some .connected)
    (hup : σ.shuttingDown = false) (hfree : σ.registry.sessions.get? user.id = none)
    (hfind : σ.store.directory.findUser? S.passwords name password = some user)
    (hstore : t.outage .findUser = none) (hseals : S.tokens.Seals) :
    (S.route σ t conn (logIn name password)).outcome = .stay ∧
      (S.route σ t conn (logIn name password)).state.registry.user? conn = some user ∧
      (S.route σ t conn (logIn name password)).state.registry.Consistent ∧
      (S.route σ t conn (logIn name password)).state.store = σ.store ∧
      (S.route σ t conn (logIn name password)).state.shuttingDown = false := by
  have hopens : Opens σ conn (logIn name password) := ⟨rfl, hphase, rfl, rfl, rfl⟩
  obtain ⟨registry, hbind⟩ := hopens.exists_bind hσ hfree
  let opened : State := { σ.count (.dispatched .logIn) with
    registry := σ.registry.advance conn .secureEstablished }
  have hresume := resume_credentials (S := S) (σ := opened) hstore hfind hbind
    (TokenCipher.mint_of_seals hseals _)
  have hroute := route_of_wait
    (begin_logIn (S := S) (t := t) hopens rfl (credentials?_append name password) hup)
    (congrArg Turn.next hresume)
  have hending := (ending_of_routes (S.routes_route σ t conn (logIn name password))).consistent hσ
  rw [hresume] at hroute
  rw [hroute] at hending ⊢
  refine ⟨rfl, ?_, hending, rfl, hup⟩
  show (registry.advance conn .loggedIn).user? conn = some user
  rw [Registry.user?_logIn hbind, if_pos rfl]

end Service

namespace Traffic

variable {S : Service} {first last : Traffic} {h h₁ h₂ : List (Step S)} {step keep : Step S}
  {conn : ConnId} {t : Moment} {m : Message} {x : StoredMessage}

/-! ### Being kept -/

/-- A relayed message is accepted in a step: routing is through with it, its connection stays, and
no error was replied. -/
def Step.Admits (step : Step S) (conn : ConnId) (t : Moment) (m : Message) : Prop :=
  ∃ call : Call, step.Resumes conn t call ∧ call.message = m ∧
    (S.resume step.before.state t conn call.pending).next = .finished .stay ∧
    ∀ reply ∈ call.replies ++ step.replies, reply.flag ≠ .error

/-- A message that is to be kept is accepted in the step in which it is kept, if the store can keep
it. -/
theorem Step.Admits.keeps (hadmits : step.Admits conn t m) (hrun : Run S first h step.before)
    (hopening : Opening S first) (hflag : m.flag = .proceed)
    (hstore : t.outage .addMessage = none) : step.Keeps conn m := by
  obtain ⟨call, hresumes, rfl, hnext, hreplies⟩ := hadmits
  have hrelayed : call.message.flag.isRelayed := by
    rw [hflag]
    decide
  have hgenuine := hrun.genuine hopening hresumes.call
  obtain ⟨hpending | ⟨hpending, -⟩, -⟩ := hgenuine.serves.of_isRelayed hrelayed
  · -- As long as it waits for its recipient, it is refused or goes on.
    have hturn := S.resumption_resume step.before.state t conn call.pending
    rw [hresumes.replies] at hreplies
    generalize S.resume step.before.state t conn call.pending = turn at hturn hnext hreplies
    rw [hpending] at hturn
    cases hturn with
    | refuse => cases hnext
    | toKeep => cases hnext
    | signal _ hother => exact absurd hflag hother
    | unknownRecipient =>
      exact absurd rfl (hreplies _ (List.mem_append_right _ List.mem_cons_self))
  · exact ⟨t, call, hresumes, hpending, hstore⟩

/-- Whatever a request finds is later than its watermark. -/
theorem Step.after_lt_of_reads {viewer : User} {request : FetchRequest}
    {found : List StoredMessage} (hreads : step.Reads conn viewer request found) (hx : x ∈ found) :
    request.after < x.timestamp := by
  obtain ⟨t, call, -, -, -, rfl⟩ := hreads
  rw [Mailbox.mem_select, FetchRequest.selects_query, FetchRequest.wants] at hx
  simp only [Bool.and_eq_true, decide_eq_true_eq] at hx
  exact hx.2.1

/-- No request finds a message with the timestamp zero. -/
theorem Step.notMem_of_reads {viewer : User} {request : FetchRequest} {found : List StoredMessage}
    (hzero : x.timestamp = 0) (hreads : step.Reads conn viewer request found) : x ∉ found := by
  intro hx
  have hlater := Step.after_lt_of_reads hreads hx
  rw [hzero] at hlater
  exact UInt64.not_lt_zero hlater

/-! ### Being fetched -/

/-- The recipient of a message can fetch it: at once where the recipient is logged in, and
otherwise after logging in on any connection that comes up. -/
structure Retrievable (S : Service) (σ : State) (x : StoredMessage) : Prop where
  known : σ.store.directory.contains x.recipient
  here : ∀ (conn : ConnId) (user : User), σ.registry.user? conn = some user →
    user.id = x.recipient → S.Fetches σ conn user x
  away : ∀ (user : User) (name : Username) (password : Password), user.id = x.recipient →
    σ.registry.sessions.get? user.id = none →
    σ.store.directory.findUser? S.passwords name password = some user →
    ∀ (conn : ConnId) (capacity now : Nat) (t : Moment), σ.registry.contains conn = false →
      0 < capacity → capacity ≤ Outbox.capacityLimit → t.outage .findUser = none →
      S.tokens.Seals →
        ∃ τ : State, σ.connect conn capacity now = .ok τ ∧
          (S.route τ t conn (Service.logIn name password)).outcome = .stay ∧
          (S.route τ t conn (Service.logIn name password)).state.registry.user? conn = some user ∧
          S.Fetches (S.route τ t conn (Service.logIn name password)).state conn user x

/-- In whatever state a relay has come to, as long as requests are served, a message that is in the
mailbox can be fetched, if it has a timestamp above zero and a recipient who is registered. -/
theorem Run.retrievable (hrun : Run S first h last) (hopening : Opening S first)
    (hinverts : S.tokens.aead.Inverts) (hvalid : S.config.validate = .ok ())
    (hup : last.state.shuttingDown = false)
    (hknown : last.state.store.directory.contains x.recipient)
    (hx : x ∈ last.state.store.mailbox.messages) (htimestamp : x.timestamp ≠ 0) :
    Retrievable S last.state x := by
  have hsound := hrun.sound hopening.sound
  -- The ids of users are none of the reserved ones.
  have hbelow {user : User} (huser : user ∈ last.state.store.directory.users) :
      user.id < UserId.limit :=
    UInt32.lt_of_lt_of_le (hrun.id_lt hopening huser) (Config.maxUsers_le hvalid)
  refine ⟨hknown, ?_, ?_⟩
  · intro conn user huser hrecipient
    exact S.fetches_of_stored hinverts hsound.consistent hup (hrecipient ▸ hknown)
      (hbelow (hsound.registered conn user huser)) huser hx hrecipient htimestamp
  · intro user name password hrecipient hfree hfind conn capacity now t hconn hroom hlimit hstore
      hseals
    obtain ⟨τ, hconnect⟩ := State.exists_connect hconn hroom hlimit now
    obtain ⟨box, registry, -, hadd, rfl⟩ := State.connect_eq_ok hconnect
    have hphase : registry.phase? conn = some .connected := by
      rw [Registry.phase?_add hadd, if_pos rfl]
    have hfree' : registry.sessions.get? user.id = none := by
      rw [Registry.sessions_add hadd]
      exact hfree
    let connected : State := { last.state with
      registry, outboxes := last.state.outboxes.insert conn box }
    obtain ⟨houtcome, hbound, hconsistent, hsame, hstill⟩ :=
      Service.exists_route_logIn (S := S) (σ := connected) (t := t)
        (Registry.consistent_add hsound.consistent hadd) hphase hup hfree' hfind hstore hseals
    refine ⟨_, hconnect, houtcome, hbound, ?_⟩
    have huser : user ∈ last.state.store.directory.users := by
      obtain ⟨account, hmem, rfl, -⟩ := Directory.exists_account_of_findUser? hfind
      exact List.mem_map_of_mem hmem
    refine S.fetches_of_stored hinverts hconsistent hstill ?_ (hbelow huser) hbound ?_ hrecipient
      htimestamp
    · rw [hsame]
      exact hrecipient ▸ hknown
    · rw [hsame]
      exact hx

/-- The recipient of a message that was kept is registered ever since. -/
theorem contains_of_keeps (hkeeps : keep.Keeps conn m)
    (hrun : Run S first (h₁ ++ keep :: h₂) last) (hopening : Opening S first) :
    last.state.store.directory.contains m.recipient := by
  obtain ⟨hbefore, hafter⟩ := run_append_cons_iff.1 hrun
  obtain ⟨t, call, hresumes, hpending, -⟩ := hkeeps
  have hthen := hbefore.contains_of_keeping hopening hresumes.call hpending
  obtain ⟨user, huser, hid⟩ := (Directory.contains_iff _ _).1 hthen
  exact (Directory.contains_iff _ _).2
    ⟨user, hafter.mem_users (keep.moves.mem_users huser), hid⟩

/-- A message that is accepted and is to be kept is kept, if the store can keep it. If it has a
timestamp above zero, its recipient can fetch it for as long as it is kept and requests are served.
If it has the timestamp zero, nobody's request finds it, and it stays until all messages are
removed. -/
theorem retrievable_of_admits (hopening : Opening S first) (hinverts : S.tokens.aead.Inverts)
    (hvalid : S.config.validate = .ok ()) (hrun : Run S first (h₁ ++ keep :: h₂) last)
    (hadmits : keep.Admits conn t m) (hflag : m.flag = .proceed)
    (hstore : t.outage .addMessage = none) :
    keep.stored m ∈ keep.after.state.store.mailbox.messages ∧
      (m.timestamp ≠ 0 → keep.stored m ∈ last.state.store.mailbox.messages →
        last.state.shuttingDown = false → Retrievable S last.state (keep.stored m)) ∧
      (m.timestamp = 0 →
        (∀ step ∈ h₂, ∀ (other : ConnId) (viewer : User) (request : FetchRequest)
          (found : List StoredMessage), step.Reads other viewer request found →
            keep.stored m ∉ found) ∧
        ((keptBy (h₁ ++ keep :: h₂)).length ≤ UInt64.size →
          keep.stored m ∈ last.state.store.mailbox.messages ∨ ∃ step ∈ h₂, step.Clears)) := by
  have hkeeps := hadmits.keeps (run_append_cons_iff.1 hrun).1 hopening hflag hstore
  refine ⟨?_, ?_, ?_⟩
  · rw [hkeeps.mailbox]
    exact List.mem_append_right _ List.mem_cons_self
  · intro htimestamp hx hup
    exact hrun.retrievable hopening hinverts hvalid hup (contains_of_keeps hkeeps hrun hopening) hx
      htimestamp
  · intro hzero
    refine ⟨fun step _ other viewer request found => Step.notMem_of_reads hzero, fun hfew => ?_⟩
    rcases retained_of_keeps hkeeps hopening hrun hfew with hthere | ⟨read, -, hselects⟩ | hclears
    · exact .inl hthere
    · -- A request that asks for it would have a watermark below zero.
      obtain ⟨other, viewer, request, found, hreads, -, hx, -⟩ := hselects
      exact absurd hx (Step.notMem_of_reads hzero hreads)
    · exact .inr hclears

/-- A letter of the administrator to the guest with the latest timestamp there is: it is kept, and
the guest gets it. -/
theorem retrievable_of_admits_latest :
    ∃ (h : List (Step Sample.relay)) (keep : Step Sample.relay) (m : Message),
      (h ++ [keep]).map Step.event = Sample.conversation.take 11 ++
        [.receive 5 ⟨9, .none⟩ m, .resume 5 ⟨10, .none⟩, .resume 5 ⟨11, .none⟩] ∧
      Opening Sample.relay Sample.first ∧
      Run Sample.relay Sample.first (h ++ [keep]) keep.after ∧
      m.timestamp = 18446744073709551615 ∧ m.flag = .proceed ∧
      keep.Admits 5 ⟨11, .none⟩ m ∧
      keep.stored m ∈ keep.after.state.store.mailbox.messages ∧
      (Sample.relay.route keep.after.state ⟨12, .none⟩ 6 (Sample.relay.fetchAll 6 Sample.guest
        (.zero nonceSize))).replies.map Message.body = [[1, 2, 3]] ∧
      keep.after.state.registry.user? 6 = some Sample.guest ∧
      Sample.relay.Fetches keep.after.state 6 Sample.guest (keep.stored m) := by
  let m : Message := { Sample.request .proceed 5 Sample.admin Sample.guest.id [1, 2, 3] with
    timestamp := 18446744073709551615 }
  let earlier : List Event := Sample.conversation.take 11 ++
    [.receive 5 ⟨9, .none⟩ m, .resume 5 ⟨10, .none⟩]
  have hsome : (Sample.first.follow? Sample.relay (earlier ++ [.resume 5 ⟨11, .none⟩])).isSome := by
    decide +kernel
  obtain ⟨⟨h, last⟩, hfollow⟩ := Option.isSome_iff_exists.1 hsome
  obtain ⟨hrun, hevents⟩ := run_of_follow? hfollow
  have hlast := check_of_follow? hfollow (fun s =>
    s.state.registry.user? 6 = some Sample.guest && !s.state.shuttingDown &&
      (Sample.relay.route s.state ⟨12, .none⟩ 6 (Sample.relay.fetchAll 6 Sample.guest
        (.zero nonceSize))).replies.map Message.body = [[1, 2, 3]]) (by decide +kernel)
  obtain ⟨h₁, keep, rfl, hevent, hbefore, rfl⟩ := snoc_of_follow? hfollow
  have hcall := of_decide_eq_true (check_of_follow? hbefore (fun s =>
    s.calls.get? 5 = some ⟨m, some Sample.admin, .keeping m, []⟩) (by decide +kernel))
  simp only [Bool.and_eq_true, decide_eq_true_eq, Bool.not_eq_true'] at hlast
  obtain ⟨⟨hguest, hup⟩, hbodies⟩ := hlast
  have hresumes : keep.Resumes 5 ⟨11, .none⟩ ⟨m, some Sample.admin, .keeping m, []⟩ :=
    ⟨hevent, hcall⟩
  have hadmits : keep.Admits 5 ⟨11, .none⟩ m := by
    refine ⟨_, hresumes, rfl, rfl, ?_⟩
    rw [hresumes.replies]
    exact List.forall_mem_nil _
  obtain ⟨hstored, hfetched, -⟩ := retrievable_of_admits Sample.opening Sample.inverts_aead
    (by decide +kernel) hrun hadmits rfl rfl
  exact ⟨h₁, keep, m, hevents, Sample.opening, hrun, rfl, rfl, hadmits, hstored, hbodies, hguest,
    (hfetched (by decide) hstored hup).here 6 Sample.guest hguest rfl⟩

/-- The administrator's letter to the guest has the timestamp zero. It is accepted and kept. The
guest is logged in and asks for everything later than zero, and gets nothing; whatever happens from
then on, no request of the guest finds the letter. -/
theorem kept_out_of_reach :
    ∃ (h : List (Step Sample.relay)) (keep : Step Sample.relay) (m marker : Message),
      (h ++ [keep]).map Step.event = Sample.conversation.take 11 ++
        [.receive 5 ⟨9, .none⟩ m, .resume 5 ⟨10, .none⟩, .resume 5 ⟨11, .none⟩] ∧
      Opening Sample.relay Sample.first ∧
      Run Sample.relay Sample.first (h ++ [keep]) keep.after ∧
      m.timestamp = 0 ∧ m.flag = .proceed ∧ keep.Admits 5 ⟨11, .none⟩ m ∧
      keep.after.state.store.mailbox.messages = [keep.stored m] ∧
      keep.after.state.shuttingDown = false ∧
      keep.after.state.registry.user? 6 = some Sample.guest ∧ Sample.guest.id = m.recipient ∧
      (Sample.relay.route keep.after.state ⟨12, .none⟩ 6 (Sample.fetch 6 Sample.guest)).replies =
        [marker] ∧
      marker.sender = UserId.fromRelay ∧
      ∀ (later : List (Step Sample.relay)) (last : Traffic),
        Run Sample.relay keep.after later last → ∀ step ∈ later, ¬ step.Returns (keep.stored m) := by
  let m : Message := { Sample.request .proceed 5 Sample.admin Sample.guest.id [1, 2, 3] with
    timestamp := 0 }
  let marker : Message := { Sample.relay.message ⟨12, .none⟩ .fetchMessages Sample.guest.id with
    body := FetchRequest.toMe :: (word64 0 ++ word32 Sample.guest.id) }
  let earlier : List Event := Sample.conversation.take 11 ++
    [.receive 5 ⟨9, .none⟩ m, .resume 5 ⟨10, .none⟩]
  have hsome : (Sample.first.follow? Sample.relay (earlier ++ [.resume 5 ⟨11, .none⟩])).isSome := by
    decide +kernel
  obtain ⟨⟨h, last⟩, hfollow⟩ := Option.isSome_iff_exists.1 hsome
  obtain ⟨hrun, hevents⟩ := run_of_follow? hfollow
  have hlast := check_of_follow? hfollow (fun s =>
    s.state.registry.user? 6 = some Sample.guest && !s.state.shuttingDown &&
      s.state.store.mailbox.messages = [⟨0, 0, Sample.admin.id, Sample.guest.id, [1, 2, 3]⟩] &&
      (Sample.relay.route s.state ⟨12, .none⟩ 6 (Sample.fetch 6 Sample.guest)).replies = [marker])
    (by decide +kernel)
  obtain ⟨h₁, keep, rfl, hevent, hbefore, rfl⟩ := snoc_of_follow? hfollow
  have hcall := of_decide_eq_true (check_of_follow? hbefore (fun s =>
    s.calls.get? 5 = some ⟨m, some Sample.admin, .keeping m, []⟩) (by decide +kernel))
  have hnext := of_decide_eq_true (check_of_follow? hbefore (fun s =>
    s.state.store.mailbox.nextId = 0) (by decide +kernel))
  simp only [Bool.and_eq_true, decide_eq_true_eq, Bool.not_eq_true'] at hlast
  obtain ⟨⟨⟨hguest, hup⟩, hmessages⟩, hreplies⟩ := hlast
  have hresumes : keep.Resumes 5 ⟨11, .none⟩ ⟨m, some Sample.admin, .keeping m, []⟩ :=
    ⟨hevent, hcall⟩
  have hadmits : keep.Admits 5 ⟨11, .none⟩ m := by
    refine ⟨_, hresumes, rfl, rfl, ?_⟩
    rw [hresumes.replies]
    exact List.forall_mem_nil _
  have hstored : keep.after.state.store.mailbox.messages = [keep.stored m] := by
    rw [hmessages, Step.stored, hnext]
    rfl
  refine ⟨h₁, keep, m, marker, hevents, Sample.opening, hrun, rfl, rfl, hadmits, hstored, hup,
    hguest, rfl, hreplies, rfl, ?_⟩
  rintro later last - step - ⟨other, viewer, request, found, hreads, -, hx⟩
  exact Step.notMem_of_reads rfl hreads hx

end Traffic

end Relay
