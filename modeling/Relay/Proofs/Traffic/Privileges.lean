import Relay.Proofs.Traffic.Credentials
import Relay.Proofs.Traffic.Mailbox
import Relay.Proofs.Traffic.Shutdown

/-!
# `Relay.Proofs.Traffic.Privileges`: what only the administrator brings about

Some effects are reserved: that the relay shuts down, that all messages are removed, and that an
announcement gets into a queue. `Step.ForAdmin` says of a step that it goes on with a request that
was accepted from the administrator, and each of these effects comes from such a step only.

The administrator is known by the id. It is never given to anybody else, because the first account
stays where it is however many users register (`Run.accounts`). So whoever is bound under it gave
the name and the password of that account (`Run.logsIn_of_admin`). Everybody else who asks for what
is reserved is denied it (`Service.denied_of_ne_admin`).
-/

set_option autoImplicit false

namespace Relay

namespace Service

variable {S : Service} {σ : State} {t : Moment} {conn : ConnId} {m : Message} {r : Routed}
  {user : User}

/-! ### Who is denied -/

theorem isAdmin_eq_false (hother : user.id ≠ UserId.admin) (t : Moment) :
    isAdmin t user = false := by
  rw [Bool.eq_false_iff]
  exact fun hadmin => hother (isAdmin_eq_true hadmin)

/-- The first step of a request that only the administrator may make. -/
theorem exists_wait_of_reserved (hauth : S.Authorized σ conn m user) (hσ : σ.registry.Consistent)
    (hup : σ.shuttingDown = false) (hrecipient : m.recipient = UserId.toRelay)
    (hflag : m.flag = .broadcast ∨ m.flag = .shutdown) :
    ∃ p : Pending, (p = .announcer user m ∨ p = .stopper user) ∧ ∀ t : Moment,
      S.begin σ t conn m = Turn.wait (σ.count (.dispatched (.ofFlag m.flag))) p := by
  rcases hflag with hflag | hflag
  · have hop : Operation.ofFlag m.flag = .broadcast := by rw [hflag]; rfl
    refine ⟨.announcer user m, .inl rfl, fun t => ?_⟩
    rw [S.begin_of_authorized hauth hσ]
    simp [perform, hop, hup, hrecipient]
  · have hop : Operation.ofFlag m.flag = .shutdown := by rw [hflag]; rfl
    refine ⟨.stopper user, .inr rfl, fun t => ?_⟩
    rw [S.begin_of_authorized hauth hσ]
    simp [perform, hop, hup, hrecipient]

/-- Whoever is not the administrator is refused when the store answers. -/
theorem resume_of_reserved {p : Pending} (hp : p = .announcer user m ∨ p = .stopper user)
    (hother : user.id ≠ UserId.admin) (σ : State) (t : Moment) (conn : ConnId) :
    S.resume σ t conn p = S.denyAccess σ t conn user := by
  rcases hp with rfl | rfl <;> simp [resume, isAdmin_eq_false hother]

/-- What a request comes to that is denied: the connection is removed, and nothing else changes. -/
def deniedRequest (S : Service) (σ : State) (t : Moment) (conn : ConnId) (m : Message)
    (user : User) : Routed where
  state := (σ.count (.dispatched (.ofFlag m.flag))).purge conn
  replies := [S.message t .accessDenied user.id]
  outcome := .finishWithError

/-- What may be relied on about a request of somebody else for what is reserved: it is denied, at
once or step by step. -/
structure Denied (S : Service) (σ : State) (conn : ConnId) (m : Message) (user : User) : Prop where
  atOnce : ∀ t : Moment, S.route σ t conn m = S.deniedRequest σ t conn m user
  stepwise : ∀ r : Routed, S.Routes σ conn m r →
    ∃ t : Moment, r = S.deniedRequest σ t conn m user

/-- Whoever is not the administrator is denied what only the administrator may do. -/
theorem denied_of_ne_admin (hauth : S.Authorized σ conn m user) (hσ : σ.registry.Consistent)
    (hother : user.id ≠ UserId.admin) (hup : σ.shuttingDown = false)
    (hrecipient : m.recipient = UserId.toRelay)
    (hflag : m.flag = .broadcast ∨ m.flag = .shutdown) : S.Denied σ conn m user := by
  obtain ⟨p, hp, hbegin⟩ := exists_wait_of_reserved hauth hσ hup hrecipient hflag
  constructor
  · intro t
    have hresume := S.resume_of_reserved hp hother (σ.count (.dispatched (.ofFlag m.flag))) t conn
    rw [route_of_wait (hbegin t) (by rw [hresume]; rfl), hresume]
    rfl
  · rintro r ⟨t, hcompletes⟩
    rw [hbegin] at hcompletes
    cases hcompletes with
    | finished hnext => cases hnext
    | resumed t' hnext hrest =>
      obtain rfl := Progress.waiting.inj hnext
      rw [S.resume_of_reserved hp hother] at hrest
      exact ⟨t', hrest.of_finished rfl⟩

end Service

namespace Traffic

variable {S : Service} {first last s : Traffic} {h h₁ h₂ : List (Step S)} {step : Step S}
  {conn : ConnId} {t : Moment} {call : Call}

/-! ### For whom a step is taken -/

/-- A step goes on with a request that was accepted from the administrator earlier. As long as
connections are removed only when no message is under way on them, the administrator is still on the
connection. -/
def Step.ForAdmin (h : List (Step S)) (step : Step S) (flag : Flag) : Prop :=
  ∃ (conn : ConnId) (t : Moment) (call : Call) (admin : User),
    step.Resumes conn t call ∧ call.message.flag = flag ∧ admin.id = UserId.admin ∧
      (∃ accepted ∈ h, accepted.Accepts conn call.message admin) ∧
      (Orderly h → step.before.state.registry.user? conn = some admin)

/-- A request that is served for the administrator was accepted from the administrator. -/
theorem Step.Resumes.forAdmin (hresumes : step.Resumes conn t call)
    (hrun : Run S first h step.before) (hopening : Opening S first) {admin : User}
    (huser : call.user = some admin) (hadmin : admin.id = UserId.admin) :
    step.ForAdmin h call.message.flag := by
  refine ⟨conn, t, call, admin, hresumes, rfl, hadmin,
    (hrun.genuine hopening hresumes.call).accepted huser, fun horderly => ?_⟩
  rw [hrun.user?_of_call hopening horderly hresumes.call, huser]

/-- Shutdown begins for the administrator, or it is requested from outside. -/
theorem Step.forAdmin_of_shuttingDown (hrun : Run S first h step.before)
    (hopening : Opening S first) (hup : step.before.state.shuttingDown = false)
    (hdown : step.after.state.shuttingDown = true) (hevent : step.event ≠ .stop) :
    step.ForAdmin h .shutdown := by
  rcases step.shuttingDown_cases with
    hsame | ⟨-, hstop | ⟨conn, t, call, user, hresumes, hpending, hadmin⟩⟩
  · rw [hsame, hup] at hdown
    cases hdown
  · exact absurd hstop hevent
  · obtain ⟨hflag, huser⟩ :=
      ((hrun.genuine hopening hresumes.call).serves_of_pending hpending).of_stopper
    exact hflag ▸ hresumes.forAdmin hrun hopening huser hadmin

/-- All messages are to be removed for the administrator only. -/
theorem Step.Resumes.forAdmin_of_clearance (hresumes : step.Resumes conn t call)
    (hpending : call.pending = .clearance) (hrun : Run S first h step.before)
    (hopening : Opening S first) : step.ForAdmin h .shutdown := by
  obtain ⟨hflag, admin, huser, hadmin⟩ :=
    ((hrun.genuine hopening hresumes.call).serves_of_pending hpending).of_clearance
  exact hflag ▸ hresumes.forAdmin hrun hopening huser hadmin

/-- An announcement gets into a queue for the administrator only. What is relayed under the flag of
its sender is no announcement. -/
theorem Step.forAdmin_of_announcement (hrun : Run S first h step.before)
    (hopening : Opening S first) {other : ConnId} {m : Message} (hflag : m.flag = .broadcast)
    (hmore : (step.before.state.waiting other).count m <
      (step.after.state.waiting other).count m) : step.ForAdmin h .broadcast := by
  obtain ⟨kept, added, hkept, hwaiting, hadded⟩ := step.queue_cases other
  have hmem : m ∈ added := by
    have hfew := hkept.sublist.count_le m
    rw [hwaiting, List.count_append] at hmore
    exact List.count_pos_iff.1 (by omega)
  obtain ⟨conn, t, call, hresumes, ⟨hpending, -⟩ | ⟨author, asked, user, hpending, hadmin, -⟩⟩ :=
    hadded m hmem
  · -- No flag under which messages are relayed is that of an announcement.
    have hgenuine := hrun.genuine hopening hresumes.call
    have hrelayed : m.flag.isRelayed := by
      rcases hpending with hpending | hpending
      · obtain ⟨rfl, hrelayed, -⟩ := (hgenuine.serves_of_pending hpending).of_recipient
        exact hrelayed
      · obtain ⟨rfl, hproceed, -⟩ := (hgenuine.serves_of_pending hpending).of_keeping
        rw [hproceed]
        decide
    rw [hflag] at hrelayed
    exact absurd hrelayed (by decide)
  · have hserves := (hrun.genuine hopening hresumes.call).serves_of_pending hpending
    obtain ⟨hasked, huser, rfl⟩ := hserves.of_announcer
    exact hasked ▸ hresumes.forAdmin hrun hopening huser hadmin

/-! ### Who the administrator is -/

/-- The directory is in order, and the accounts that were there at first are still the first. -/
theorem Run.accounts (hrun : Run S first h last) (hopening : Opening S first) :
    last.state.store.directory.InOrder ∧
      first.state.store.directory.accounts <+: last.state.store.directory.accounts := by
  induction hrun with
  | start =>
    obtain ⟨_, _, _, _, _, _, hstore, rfl⟩ := hopening.eq
    exact ⟨Store.inOrder_initial hstore, List.prefix_refl _⟩
  | @snoc h step _ ih =>
    obtain ⟨hinOrder, hprefix⟩ := ih
    rcases step.moves.directory_cases with hsame | ⟨name, record, user, henrol⟩
    · rw [hsame]
      exact ⟨hinOrder, hprefix⟩
    · obtain ⟨-, -, -, haccounts, -⟩ := hinOrder.enrol_eq henrol
      refine ⟨hinOrder.of_enrol henrol, hprefix.trans ?_⟩
      rw [haccounts]
      exact List.prefix_append _ _

/-- A log-in of the administrator: the name is the administrator's, and the password fits a
record. -/
def Step.LogsInAdmin (step : Step S) (conn : ConnId) (record : String) : Prop :=
  ∃ (t : Moment) (call : Call) (password : Password), step.Resumes conn t call ∧
    call.message.flag = .logIn ∧
    credentials? call.message.body = some (Directory.adminName, password) ∧
    S.passwords.verify password.bytes record

/-- Whoever is bound under the id of the administrator has given the administrator's name, and a
password that fits the record of the account that was there at first. -/
theorem Step.logsIn_of_admin (hrun : Run S first h step.before) (hopening : Opening S first)
    {record : String} (hfirst : first.state.store.directory.accounts =
      [⟨⟨UserId.admin, Directory.adminName⟩, record⟩])
    {user : User} (hadmin : user.id = UserId.admin)
    (hbefore : step.before.state.registry.user? conn ≠ some user)
    (hafter : step.after.state.registry.user? conn = some user) :
    step.LogsInAdmin conn record := by
  rcases step.moves.user?_cases hafter with
    hold | ⟨t, call, name, password, hevent, hcall, hpending, hfind⟩
  · exact absurd hold hbefore
  · obtain ⟨hinOrder, hprefix⟩ := hrun.accounts hopening
    obtain ⟨account, hmem, rfl, hname, hverify⟩ := Directory.exists_account_of_findUser? hfind
    -- The account with the id of the administrator is the first.
    have hthere : (⟨⟨UserId.admin, Directory.adminName⟩, record⟩ : Account) ∈
        step.before.state.store.directory.accounts := by
      apply hprefix.subset
      rw [hfirst]
      exact List.mem_cons_self
    obtain rfl := hinOrder.eq_of_id hmem hthere hadmin
    obtain ⟨hflag, hbody⟩ :=
      ((hrun.genuine hopening hcall).serves_of_pending hpending).of_credentials
    rw [← hname] at hbody
    exact ⟨t, call, password, ⟨hevent, hcall⟩, hflag, hbody, hverify⟩

/-! ### What is reserved -/

/-- What may be relied on about a step after some others: whatever is reserved is done for the
administrator, and the administrator has given the password that the record was made of. -/
structure Reserved (S : Service) (record : String) (h : List (Step S)) (step : Step S) : Prop where
  /-- Shutdown begins. -/
  marked : step.before.state.shuttingDown = false → step.after.state.shuttingDown = true →
    step.event ≠ .stop → step.ForAdmin h .shutdown
  /-- The store is told to remove all messages, whether it does or not. -/
  cleared : ∀ (conn : ConnId) (t : Moment) (call : Call), step.Resumes conn t call →
    call.pending = .clearance → step.ForAdmin h .shutdown
  /-- The relay stops. -/
  stopped : step.Stops → step.ForAdmin h .shutdown
  /-- An announcement gets into a queue. -/
  announced : ∀ (other : ConnId) (m : Message), m.flag = .broadcast →
    (step.before.state.waiting other).count m < (step.after.state.waiting other).count m →
      step.ForAdmin h .broadcast
  /-- Somebody is bound to a connection under the id of the administrator. -/
  bound : ∀ (conn : ConnId) (user : User), user.id = UserId.admin →
    step.before.state.registry.user? conn ≠ some user →
      step.after.state.registry.user? conn = some user → step.LogsInAdmin conn record

/-- In every run, whatever is reserved for the administrator is done in steps that go on with a
request that was accepted from the administrator. Nobody is bound under the id of the administrator
without the name and the password of the administrator, whoever has registered meanwhile. Everybody
else who asks for a broadcast or a shutdown is denied it, and nothing changes but the connection. -/
theorem reserved_for_admin (hopening : Opening S first) (hrun : Run S first h last) :
    (∃ (salt : Salt) (record : String),
      S.passwords.hash salt (Octets.padded passwordSize S.config.adminPasswordBytes).bytes =
          .ok record ∧
        ∀ (h₁ h₂ : List (Step S)) (step : Step S), h = h₁ ++ step :: h₂ →
          Reserved S record h₁ step) ∧
    ∀ (conn : ConnId) (m : Message) (user : User), S.Authorized last.state conn m user →
      user.id ≠ UserId.admin → m.flag = .broadcast ∨ m.flag = .shutdown →
      m.recipient = UserId.toRelay → last.state.shuttingDown = false →
        S.Denied last.state conn m user := by
  constructor
  · obtain ⟨salt, record, hrecord, haccounts⟩ := hopening.admin
    refine ⟨salt, record, hrecord, ?_⟩
    rintro h₁ h₂ step rfl
    have hbefore := (run_append_cons_iff.1 hrun).1
    constructor
    · intro hup hdown hevent
      exact step.forAdmin_of_shuttingDown hbefore hopening hup hdown hevent
    · intro conn t call hresumes hpending
      exact hresumes.forAdmin_of_clearance hpending hbefore hopening
    · intro hstops
      obtain ⟨conn, t, call, hresumes, hpending⟩ := Step.stops_iff.1 hstops
      exact hresumes.forAdmin_of_clearance hpending hbefore hopening
    · intro other m hflag hmore
      exact step.forAdmin_of_announcement hbefore hopening hflag hmore
    · intro conn user hadmin hnot hbound
      exact step.logsIn_of_admin hbefore hopening haccounts hadmin hnot hbound
  · intro conn m user hauth hother hflag hrecipient hup
    have hconsistent := (hrun.sound hopening.sound).consistent
    exact Service.denied_of_ne_admin hauth hconsistent hother hup hrecipient hflag

/-- The administrator and a guest are logged in. An announcement of the administrator gets into the
queue of the guest, and the guest is denied a shutdown. -/
theorem reserved_for_admin_announcement :
    ∃ (h : List (Step Sample.relay)) (step : Step Sample.relay) (copy : Message),
      (h ++ [step]).map Step.event = Sample.conversation.take 11 ++
        [.receive 5 ⟨9, .none⟩ (Sample.request .broadcast 5 Sample.admin UserId.toRelay [7]),
          .resume 5 ⟨10, .none⟩] ∧
      Opening Sample.relay Sample.first ∧
      Run Sample.relay Sample.first (h ++ [step]) step.after ∧
      step.before.state.waiting 6 = [] ∧ step.after.state.waiting 6 = [copy] ∧
      copy.flag = .broadcast ∧ step.ForAdmin h .broadcast ∧
      Sample.relay.Denied step.after.state 6
        (Sample.request .shutdown 6 Sample.guest UserId.toRelay []) Sample.guest := by
  let earlier : List Event := Sample.conversation.take 11 ++
    [.receive 5 ⟨9, .none⟩ (Sample.request .broadcast 5 Sample.admin UserId.toRelay [7])]
  let m := Sample.request .shutdown 6 Sample.guest UserId.toRelay []
  let copy : Message := { Sample.relay.message ⟨10, .none⟩ .broadcast Sample.guest.id with
    body := [7] }
  have hsome : (Sample.first.follow? Sample.relay (earlier ++ [.resume 5 ⟨10, .none⟩])).isSome := by
    decide +kernel
  obtain ⟨⟨h, last⟩, hfollow⟩ := Option.isSome_iff_exists.1 hsome
  obtain ⟨hrun, hevents⟩ := run_of_follow? hfollow
  have hlast := check_of_follow? hfollow (fun s => s.state.waiting 6 = [copy] &&
    s.state.registry.user? 6 = some Sample.guest && !s.state.shuttingDown) (by decide +kernel)
  obtain ⟨h₁, step, rfl, hevent, hbefore, rfl⟩ := snoc_of_follow? hfollow
  have hnothing := of_decide_eq_true
    (check_of_follow? hbefore (fun s => s.state.waiting 6 = []) (by decide +kernel))
  simp only [Bool.and_eq_true, decide_eq_true_eq, Bool.not_eq_true'] at hlast
  obtain ⟨⟨hcopy, hguest⟩, hup⟩ := hlast
  have hauth : Sample.relay.Authorized step.after.state 6 m Sample.guest :=
    ⟨rfl, hguest, rfl, by decide +kernel, by decide, by decide⟩
  obtain ⟨⟨_, _, -, hreserved⟩, hdenied⟩ := reserved_for_admin Sample.opening hrun
  have hmore : (step.before.state.waiting 6).count copy <
      (step.after.state.waiting 6).count copy := by
    rw [hnothing, hcopy]
    simp
  exact ⟨h₁, step, copy, hevents, Sample.opening, hrun, hnothing, hcopy, rfl,
    (hreserved h₁ [] step rfl).announced 6 copy rfl hmore,
    hdenied 6 m Sample.guest hauth (by decide) (.inr rfl) rfl hup⟩

end Traffic

end Relay
