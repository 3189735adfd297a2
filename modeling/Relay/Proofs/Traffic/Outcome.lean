import Relay.Proofs.Routing.Course
import Relay.Proofs.Traffic.Authorization

/-!
# `Relay.Proofs.Traffic.Outcome`: the outcome and the registry agree

A worker goes by the outcome of a message alone: it reads on if the connection stays and gives up if
it does not. `Service.Ending` says what routing comes to, and from it follows what the worker relies
on. Everything is about one connection (`Registry.SameAt` for the others), a refusal leaves what the
connections share as it was (`refused_without_trace`), and a connection is registered afterwards
exactly if it stays (`registered_iff_stays`). A log-in binds the user before its token is sealed. If
sealing fails, the connection is removed, and the user with it.

A user whose connection was closed is free to come back. The credentials of a user who is on a
connection are right for as long as the relay runs (`Admitted`), since no account is ever changed,
and whoever is on no connection can be bound to a fresh one (`canLogIn_of_free`).
-/

set_option autoImplicit false

namespace Relay

/-- Two registries hold the same about a connection: its entry, and who is indexed under it. -/
structure Registry.SameAt (r s : Registry) (conn : ConnId) : Prop where
  entry : s.get? conn = r.get? conn
  indexed : ∀ user : UserId, s.sessions.get? user = some conn ↔ r.sessions.get? user = some conn

namespace Service

variable {S : Service} {σ : State} {t : Moment} {conn other : ConnId} {m : Message} {r : Routed}

/-! ### What an ending does to the registry -/

theorem Ending.get?_of_ne (h : S.Ending σ conn m r) (hne : other ≠ conn) :
    r.state.registry.get? other = σ.registry.get? other := by
  cases h with
  | unregistered _ _ hregistry => rw [hregistry]
  | refused _ _ hregistry => rw [hregistry, Registry.get?_delete, if_neg hne]
  | closed _ hregistry => rw [hregistry, Registry.get?_delete, if_neg hne]
  | loggedIn _ _ _ hbind hregistry =>
    rw [hregistry, Registry.get?_logIn hbind, if_neg hne, Registry.get?_advance,
      if_neg (hne ·.1)]
  | answered _ _ hregistry => rw [hregistry]

theorem Ending.consistent (h : S.Ending σ conn m r) (hσ : σ.registry.Consistent) :
    r.state.registry.Consistent := by
  cases h with
  | unregistered _ _ hregistry => exact hregistry ▸ hσ
  | refused _ _ hregistry => exact hregistry ▸ Registry.consistent_delete hσ conn
  | closed _ hregistry => exact hregistry ▸ Registry.consistent_delete hσ conn
  | loggedIn _ hopens _ hbind hregistry =>
    rw [hregistry]
    exact Registry.consistent_logIn (Registry.consistent_establish hσ hopens.phase) hbind
  | answered _ _ hregistry => exact hregistry ▸ hσ

theorem Ending.sameAt (h : S.Ending σ conn m r) (hσ : σ.registry.Consistent) (hne : other ≠ conn) :
    σ.registry.SameAt r.state.registry other := by
  have hentry := h.get?_of_ne hne
  refine ⟨hentry, hσ.sessions_iff (h.consistent hσ) ?_⟩
  rw [Registry.user?, Registry.user?, hentry]

theorem Ending.get?_of_closes (h : S.Ending σ conn m r) (hcloses : r.outcome.closes) :
    r.state.registry.get? conn = none := by
  cases h with
  | unregistered hgone _ hregistry => rw [hregistry, hgone]
  | refused _ _ hregistry => rw [hregistry, Registry.get?_delete, if_pos rfl]
  | closed _ hregistry => rw [hregistry, Registry.get?_delete, if_pos rfl]
  | loggedIn houtcome =>
    rw [houtcome] at hcloses
    cases hcloses
  | answered houtcome =>
    rw [houtcome] at hcloses
    cases hcloses

/-- A connection that stays has a user, and it did not ask for a registration. -/
theorem Ending.of_stay (h : S.Ending σ conn m r) (hstay : r.outcome = .stay) :
    m.flag ≠ .register ∧ ∃ user : User, r.state.registry.user? conn = some user := by
  cases h with
  | unregistered _ houtcome =>
    rw [houtcome] at hstay
    cases hstay
  | refused _ houtcome =>
    rw [houtcome] at hstay
    cases hstay
  | closed houtcome =>
    rw [hstay] at houtcome
    simp at houtcome
  | @loggedIn user bound _ _ hflag hbind hregistry =>
    refine ⟨by rw [hflag]; decide, user, ?_⟩
    rw [hregistry, Registry.user?_logIn hbind, if_pos rfl]
  | @answered user _ hauth hregistry =>
    refine ⟨fun hflag => ?_, user, hregistry ▸ hauth.bound⟩
    have := hauth.operation
    rw [hflag] at this
    cases this

/-! ### Logging in -/

/-- A user can log in: there are credentials of the user, and with any of them a log-in that comes
first on its connection succeeds, if the store can be asked and the token can be sealed. -/
structure CanLogIn (S : Service) (σ : State) (user : User) : Prop where
  credentials : ∃ (name : Username) (password : Password),
    σ.store.directory.findUser? S.passwords name password = some user
  succeeds : ∀ (name : Username) (password : Password),
    σ.store.directory.findUser? S.passwords name password = some user →
      ∀ (conn : ConnId) (t : Moment) (m : Message), Opens σ conn m → m.flag = .logIn →
        m.body = name.bytes ++ password.bytes → t.outage .findUser = none → S.tokens.Seals →
          (S.route σ t conn m).outcome = .stay ∧
            (S.route σ t conn m).state.registry.user? conn = some user ∧
            (S.route σ t conn m).state.registry.phase? conn = some .loggedIn

/-- A log-in that comes first on its connection is looked at. -/
theorem begin_eq_beginLogIn (hopens : Opens σ conn m) (hflag : m.flag = .logIn)
    (hup : σ.shuttingDown = false) :
    S.begin σ t conn m =
      S.beginLogIn { σ.count (.dispatched .logIn) with
        registry := σ.registry.advance conn .secureEstablished } t conn m := by
  have hop : Operation.ofFlag m.flag = .logIn := by rw [hflag]; rfl
  rw [S.begin_of_opens hopens, hop]
  simp [perform, hop, hup, hopens.recipient]

/-- A log-in that comes first on its connection goes on to the store. -/
theorem begin_logIn {name : Username} {password : Password} (hopens : Opens σ conn m)
    (hflag : m.flag = .logIn) (hbody : credentials? m.body = some (name, password))
    (hup : σ.shuttingDown = false) :
    S.begin σ t conn m =
      Turn.wait { σ.count (.dispatched .logIn) with
        registry := σ.registry.advance conn .secureEstablished } (.credentials name password) := by
  rw [begin_eq_beginLogIn hopens hflag hup]
  simp only [beginLogIn, hbody]

/-- A message that waits for the store once is through when the store has answered. -/
theorem route_of_wait {τ : State} {p : Pending} {outcome : Outcome}
    (hbegin : S.begin σ t conn m = Turn.wait τ p)
    (hnext : (S.resume τ t conn p).next = .finished outcome) :
    S.route σ t conn m =
      ⟨(S.resume τ t conn p).state, (S.resume τ t conn p).replies, outcome⟩ := by
  rw [route, hbegin, S.complete_wait]
  exact S.complete_of_finished hnext

/-- Who gives the right credentials and can be bound is logged in, if a token can be sealed. -/
theorem route_logIn {name : Username} {password : Password} {user : User} {registry : Registry}
    (hopens : Opens σ conn m) (hflag : m.flag = .logIn)
    (hbody : credentials? m.body = some (name, password)) (hup : σ.shuttingDown = false)
    (hstore : t.outage .findUser = none)
    (hfind : σ.store.directory.findUser? S.passwords name password = some user)
    (hbind : (σ.registry.advance conn .secureEstablished).bind conn user = .ok registry)
    (hseals : S.tokens.Seals) :
    (S.route σ t conn m).outcome = .stay ∧
      (S.route σ t conn m).state.registry = registry.advance conn .loggedIn ∧
      ∃ nonce, (S.route σ t conn m).replies =
        [{ S.message t .loggedIn user.id with
          body := (S.tokens.layOut nonce conn user.id).bytes }] := by
  let opened : State := { σ.count (.dispatched .logIn) with
    registry := σ.registry.advance conn .secureEstablished }
  have hresume := resume_credentials (S := S) (σ := opened) hstore hfind hbind
    (TokenCipher.mint_of_seals hseals _)
  rw [route_of_wait (begin_logIn hopens hflag hbody hup) (congrArg Turn.next hresume), hresume]
  exact ⟨rfl, rfl, _, rfl⟩

/-- A user who is on no connection can be bound to a connection on which a first message has just
been let through. -/
theorem Opens.exists_bind (hopens : Opens σ conn m) (hσ : σ.registry.Consistent) {user : User}
    (hfree : σ.registry.sessions.get? user.id = none) :
    ∃ registry, (σ.registry.advance conn .secureEstablished).bind conn user = .ok registry := by
  -- A fresh connection has no user, and it has none either once its first message is let through.
  obtain ⟨c, hc, hconnected⟩ := (Registry.phase?_eq_some_iff _ _ _).1 hopens.phase
  have hnobody : c.user = none := by
    have hbound := hσ.bound_iff conn c hc
    rw [hconnected] at hbound
    exact Option.not_isSome_iff_eq_none.1 fun h => nomatch hbound.1 h
  have hmay : σ.registry.mayAdvance conn .secureEstablished := by
    simp [Registry.mayAdvance, hopens.phase, Phase.rank]
  have hget : (σ.registry.advance conn .secureEstablished).get? conn =
      some { c with phase := .secureEstablished } := by
    rw [Registry.get?_advance, if_pos ⟨rfl, hmay⟩, hc]
    rfl
  rw [← Registry.sessions_advance σ.registry conn .secureEstablished] at hfree
  exact Registry.exists_bind hfree hget hnobody

/-- Who has credentials and is on no connection can log in. -/
theorem canLogIn_of_free {user : User} (hσ : σ.registry.Consistent) (hup : σ.shuttingDown = false)
    (hfree : σ.registry.sessions.get? user.id = none)
    (hcredentials : ∃ (name : Username) (password : Password),
      σ.store.directory.findUser? S.passwords name password = some user) :
    S.CanLogIn σ user := by
  refine ⟨hcredentials, fun name password hfind conn t m hopens hflag hbody hstore hseals => ?_⟩
  obtain ⟨registry, hbind⟩ := hopens.exists_bind hσ hfree
  obtain ⟨houtcome, hregistry, -⟩ := route_logIn hopens hflag
    (hbody ▸ credentials?_append name password) hup hstore hfind hbind hseals
  rw [hregistry, Registry.user?_logIn hbind, Registry.phase?_logIn hbind, if_pos rfl, if_pos rfl]
  exact ⟨houtcome, rfl, rfl⟩

/-- Who is on a connection when a message has come in was on it before. -/
theorem Beginning.user?_of_user? {turn : Turn} (h : S.Beginning σ t conn m turn) {user : User}
    (huser : turn.state.registry.user? other = some user) :
    σ.registry.user? other = some user := by
  cases h with
  | unregistered => exact huser
  | refuse => exact Registry.user?_of_delete huser
  | preamble => exact (Registry.user?_advance _ _ _ _).symm.trans huser
  | finish => exact Registry.user?_of_delete huser
  | early => exact huser
  | session => exact huser

/-- Who is on a connection after the store has answered was on it, or has just given the right
credentials. -/
theorem Resumption.user?_cases {p : Pending} {turn : Turn} (h : S.Resumption σ t conn p turn)
    {user : User} (huser : turn.state.registry.user? other = some user) :
    σ.registry.user? other = some user ∨
      other = conn ∧ ∃ (name : Username) (password : Password), p = .credentials name password ∧
        σ.store.directory.findUser? S.passwords name password = some user := by
  have removed (hremoved : turn.state.registry = σ.registry.delete conn) :
      σ.registry.user? other = some user := Registry.user?_of_delete (hremoved ▸ huser)
  have kept (hkept : turn.state.registry = σ.registry) : σ.registry.user? other = some user :=
    hkept ▸ huser
  cases h with
  | refuse => exact .inl (removed rfl)
  | logIn _ hfind hbind =>
    change Registry.user? (Registry.advance _ conn .loggedIn) other = some user at huser
    rw [Registry.user?_logIn hbind] at huser
    split at huser
    · rename_i hother
      cases huser
      exact .inr ⟨hother, _, _, rfl, hfind⟩
    · exact .inl huser
  | enrol => exact .inl (removed rfl)
  | clear => exact .inl (removed rfl)
  | notClear => exact .inl (removed rfl)
  | signal => exact .inl (kept (registry_deliver _ _))
  | keep => exact .inl (kept (registry_deliver _ _))
  | notKeep => exact .inl (kept (registry_deliver _ _))
  | announce => exact .inl (kept (S.registry_announce _ _ _ _))
  | _ => exact .inl (kept rfl)

/-- Credentials that are right stay right while a message is routed. -/
theorem Completes.findUser? {turn : Turn} (h : S.Completes conn turn r) {name : Username}
    {password : Password} {user : User}
    (hfind : turn.state.store.directory.findUser? S.passwords name password = some user) :
    r.state.store.directory.findUser? S.passwords name password = some user := by
  induction h with
  | finished => exact hfind
  | @resumed turn p _ t _ _ ih =>
    exact ih (Directory.findUser?_of_grown
      (S.resumption_resume turn.state t conn p).directory_cases hfind)

theorem Routes.findUser? (h : S.Routes σ conn m r) {name : Username} {password : Password}
    {user : User} (hfind : σ.store.directory.findUser? S.passwords name password = some user) :
    r.state.store.directory.findUser? S.passwords name password = some user := by
  obtain ⟨t, hcompletes⟩ := h
  refine hcompletes.findUser? ?_
  rw [(S.beginning_begin σ t conn m).store_eq]
  exact hfind

end Service

namespace Traffic

variable {S : Service} {first s s' : Traffic} {h : List (Step S)} {event : Event}

/-! ### Who is on a connection has credentials -/

/-- Whoever is on a connection has credentials that are right. -/
def Admitted (S : Service) (s : Traffic) : Prop :=
  ∀ (conn : ConnId) (user : User), s.state.registry.user? conn = some user →
    ∃ (name : Username) (password : Password),
      s.state.store.directory.findUser? S.passwords name password = some user

theorem Moves.findUser? (hmoves : Moves S s event s') {name : Username} {password : Password}
    {user : User}
    (hfind : s.state.store.directory.findUser? S.passwords name password = some user) :
    s'.state.store.directory.findUser? S.passwords name password = some user :=
  Directory.findUser?_of_grown hmoves.directory_cases hfind

/-- Who is on a connection after an event was on it, or has just given the right credentials. -/
theorem Moves.user?_cases (hmoves : Moves S s event s') {conn : ConnId} {user : User}
    (huser : s'.state.registry.user? conn = some user) :
    s.state.registry.user? conn = some user ∨
      ∃ (t : Moment) (call : Call) (name : Username) (password : Password),
        event = .resume conn t ∧ s.calls.get? conn = some call ∧
          call.pending = .credentials name password ∧
          s.state.store.directory.findUser? S.passwords name password = some user := by
  cases hmoves with
  | connect hopen =>
    obtain ⟨box, registry, -, hadd, rfl⟩ := State.connect_eq_ok hopen
    exact .inl ((Registry.user?_add hadd conn).symm.trans huser)
  | disconnect => exact .inl (Registry.user?_of_delete huser)
  | @receive other t m =>
    exact .inl ((S.beginning_begin s.state t other m).user?_of_user? huser)
  | @resume other t call hcall =>
    rcases (S.resumption_resume s.state t other call.pending).user?_cases huser with
      hold | ⟨rfl, name, password, hpending, hfind⟩
    · exact .inl hold
    · exact .inr ⟨t, call, name, password, rfl, hcall, hpending, hfind⟩
  | abort => exact .inl (Registry.user?_of_delete huser)
  | collect => exact .inl huser
  | close => exact .inl huser
  | draw => exact .inl huser
  | stop => exact .inl huser

theorem Run.admitted (hrun : Run S first h s) (hopening : Opening S first) : Admitted S s := by
  refine hrun.invariant (P := fun _ s => Admitted S s) ?_ ?_
  · intro conn user huser
    obtain ⟨lifetime, hregistry⟩ := hopening.registry
    simp [hregistry, Registry.user?, Registry.get?] at huser
  · -- Credentials that were right before the step are still right after it.
    intro _ step _ hbefore conn user huser
    have hfind : ∃ (name : Username) (password : Password),
        step.before.state.store.directory.findUser? S.passwords name password = some user := by
      rcases step.moves.user?_cases huser with
        hold | ⟨-, -, name, password, -, -, -, hfind⟩
      · exact hbefore conn user hold
      · exact ⟨name, password, hfind⟩
    obtain ⟨name, password, hfind⟩ := hfind
    exact ⟨name, password, step.moves.findUser? hfind⟩

/-! ### What the outcome tells -/

variable {conn : ConnId} {m : Message} {r : Routed}

theorem Sound.free_of_closes (hs : Sound s) (hending : S.Ending s.state conn m r) {user : User}
    (huser : s.state.registry.user? conn = some user) (hcloses : r.outcome.closes) :
    r.state.registry.sessions.get? user.id = none := by
  rw [Option.eq_none_iff_forall_ne_some]
  intro other hindexed
  obtain ⟨u, hu, hid⟩ := ((hending.consistent hs.consistent).indexed user.id other).1 hindexed
  have hgone := hending.get?_of_closes hcloses
  have hne : other ≠ conn := by
    rintro rfl
    simp [Registry.user?, hgone] at hu
  -- On another connection the user would have been before, besides this one.
  rw [Registry.user?, hending.get?_of_ne hne] at hu
  exact hne (hs.conn_unique hu huser hid)

/-- A message that is refused leaves what the connections share and every other connection as they
were. The connection is removed, and told why if it was registered. -/
theorem Run.of_finishWithError (hrun : Run S first h s) (hopening : Opening S first)
    (hroutes : S.Routes s.state conn m r) (houtcome : r.outcome = .finishWithError) :
    s.state.SameShared r.state ∧
      (∀ other, other ≠ conn → s.state.registry.SameAt r.state.registry other) ∧
      r.state.registry.get? conn = none ∧
      (if s.state.registry.contains conn then ∃ reply, r.replies = [reply]
        else r.replies = []) := by
  have hs := hrun.sound hopening.sound
  have hending := Service.ending_of_routes hroutes
  have hgone := hending.get?_of_closes (by rw [houtcome]; rfl)
  have hothers (other : ConnId) (hne : other ≠ conn) := hending.sameAt hs.consistent hne
  cases hending with
  | unregistered hunregistered _ _ hsame hreplies =>
    refine ⟨hsame, hothers, hgone, ?_⟩
    have hfree : s.state.registry.contains conn = false :=
      Option.isSome_eq_false_iff.2 (Option.isNone_iff_eq_none.2 hunregistered)
    rw [hfree, if_neg Bool.false_ne_true]
    exact hreplies
  | refused hlive _ _ hsame hreplies =>
    refine ⟨hsame, hothers, hgone, ?_⟩
    rw [if_pos hlive]
    exact ⟨_, hreplies⟩
  | closed hclosed =>
    rw [houtcome] at hclosed
    simp at hclosed
  | loggedIn hstay =>
    rw [houtcome] at hstay
    cases hstay
  | answered hstay =>
    rw [houtcome] at hstay
    cases hstay

/-- After any run, let a message be routed, whatever parts of the store fail on the way, and whether
or not a token can be sealed. If it is refused and its connection closed, the store, the mark of
shutdown and every queue are as before, and so is every other connection. The connection itself is no
longer registered, and the caller is sent exactly one reply, or none if the connection was not
registered. If the connection stays and an error is among the replies, it is the only one, and the
registry is as before as well. -/
theorem refused_without_trace (hopening : Opening S first) (hrun : Run S first h s)
    (hroutes : S.Routes s.state conn m r) :
    (r.outcome = .finishWithError →
      s.state.SameShared r.state ∧
        (∀ other, other ≠ conn → s.state.registry.SameAt r.state.registry other) ∧
        r.state.registry.get? conn = none ∧
        (if s.state.registry.contains conn then ∃ reply, r.replies = [reply]
          else r.replies = [])) ∧
      (r.outcome = .stay → ∀ reply ∈ r.replies, reply.flag = .error →
        r.replies = [reply] ∧ r.state.registry = s.state.registry ∧
          s.state.SameShared r.state) := by
  refine ⟨hrun.of_finishWithError hopening hroutes, ?_⟩
  have hending := Service.ending_of_routes hroutes
  -- A log-in is answered without an error, so that only another answer is left.
  intro hstay reply hreply herror
  cases hending with
  | unregistered _ houtcome =>
    rw [hstay] at houtcome
    cases houtcome
  | refused _ houtcome =>
    rw [hstay] at houtcome
    cases houtcome
  | closed houtcome =>
    rw [hstay] at houtcome
    simp at houtcome
  | loggedIn _ _ _ _ _ hreplies => exact absurd herror (hreplies reply hreply)
  | answered _ _ hregistry hreplies =>
    obtain ⟨honly, hsame⟩ := hreplies reply hreply herror
    exact ⟨honly, hregistry, hsame⟩

/-- The administrator gives the right credentials and is bound, but no token can be sealed: the
log-in is refused, and the administrator is as free as before. -/
theorem refused_without_trace_unsealed :
    ∃ (h : List (Step Sample.mute)) (s : Traffic),
      h.map Step.event = [.connect 5 8 0] ∧ Opening Sample.mute Sample.first ∧
      Run Sample.mute Sample.first h s ∧
      s.state.store.directory.findUser? Sample.passwords Sample.admin.name Sample.admin.name =
        some Sample.admin ∧
      ((s.state.registry.advance 5 .secureEstablished).bind 5 Sample.admin).toBool ∧
      ∃ r : Routed,
        Sample.mute.Routes s.state 5 (Sample.preamble .logIn Sample.admin) r ∧
        r.outcome = .finishWithError ∧ r.replies.map Message.flag = [.error] ∧
        r.state.registry.sessions.get? UserId.admin = none ∧ s.state.SameShared r.state ∧
        r.state.registry.get? 5 = none ∧ ∃ reply, r.replies = [reply] := by
  let m := Sample.preamble .logIn Sample.admin
  have hsome : (Sample.first.follow? Sample.mute [.connect 5 8 0]).isSome := by decide +kernel
  obtain ⟨⟨h, s⟩, hfollow⟩ := Option.isSome_iff_exists.1 hsome
  obtain ⟨hrun, hevents⟩ := run_of_follow? hfollow
  have hlast := check_of_follow? hfollow (fun s =>
    let r := Sample.mute.route s.state ⟨1, .none⟩ 5 m
    s.state.store.directory.findUser? Sample.passwords Sample.admin.name Sample.admin.name =
        some Sample.admin &&
      ((s.state.registry.advance 5 .secureEstablished).bind 5 Sample.admin).toBool &&
      s.state.registry.contains 5 && r.outcome = .finishWithError &&
      r.replies.map Message.flag = [.error] &&
      r.state.registry.sessions.get? UserId.admin = none) (by decide +kernel)
  simp only [Bool.and_eq_true, decide_eq_true_eq] at hlast
  obtain ⟨⟨⟨⟨⟨hfind, hbind⟩, hlive⟩, houtcome⟩, hflags⟩, hfree⟩ := hlast
  have hroutes := Sample.mute.routes_route s.state ⟨1, .none⟩ 5 m
  obtain ⟨hsame, -, hgone, hreplies⟩ :=
    (refused_without_trace Sample.opening_mute hrun hroutes).1 houtcome
  rw [if_pos hlive] at hreplies
  exact ⟨h, s, hevents, Sample.opening_mute, hrun, hfind, hbind, _, hroutes, houtcome, hflags, hfree,
    hsame, hgone, hreplies⟩

/-- What may be relied on when a message of a connection has been routed. -/
structure Agrees (S : Service) (σ : State) (conn : ConnId) (m : Message) (r : Routed) : Prop where
  /-- The connection is registered exactly if it stays. -/
  registered : r.state.registry.contains conn ↔ r.outcome = .stay
  /-- If it stays, somebody is logged in on it. -/
  loggedIn : r.outcome = .stay → r.state.registry.phase? conn = some .loggedIn ∧
    ∃ user : User, r.state.registry.user? conn = some user
  /-- If it is closed, nobody is indexed under it. -/
  closed : r.outcome.closes → r.state.registry.get? conn = none ∧
    ∀ user : UserId, r.state.registry.sessions.get? user ≠ some conn
  /-- No connection stays after a registration. -/
  reconnects : m.flag = .register → r.outcome ≠ .stay
  /-- Every other connection is as before. -/
  others : ∀ other, other ≠ conn → σ.registry.SameAt r.state.registry other
  /-- Whoever was on a connection that is closed can log in again, now and on any connection that
  comes up, unless the relay is shutting down. -/
  comesBack : ∀ user : User, σ.registry.user? conn = some user → r.outcome.closes →
    r.state.shuttingDown = false →
      S.CanLogIn r.state user ∧
        ∀ (other : ConnId) (capacity now : Nat), r.state.registry.contains other = false →
          0 < capacity → capacity ≤ Outbox.capacityLimit →
            ∃ τ : State, r.state.connect other capacity now = .ok τ ∧
              τ.registry.phase? other = some .connected ∧ S.CanLogIn τ user

/-- After any run, however a message is routed, its outcome and the registry agree. -/
theorem registered_iff_stays (hopening : Opening S first) (hrun : Run S first h s)
    (hroutes : S.Routes s.state conn m r) : Agrees S s.state conn m r := by
  have hs := hrun.sound hopening.sound
  have hending := Service.ending_of_routes hroutes
  have hconsistent := hending.consistent hs.consistent
  have hstays (hstay : r.outcome = .stay) : r.state.registry.phase? conn = some .loggedIn ∧
      ∃ user : User, r.state.registry.user? conn = some user := by
    obtain ⟨-, user, huser⟩ := hending.of_stay hstay
    obtain ⟨c, hc, hu⟩ := (Registry.user?_eq_some_iff _ _ _).1 huser
    have hphase := (hconsistent.bound_iff conn c hc).1 (by simp [hu])
    exact ⟨(Registry.phase?_eq_some_iff _ _ _).2 ⟨c, hc, hphase⟩, user, huser⟩
  constructor
  · constructor
    · intro hlive
      by_contra hleaves
      have hgone := hending.get?_of_closes (by simpa [Outcome.closes] using hleaves)
      obtain ⟨c, hc⟩ := (Table.contains_iff _ _).1 hlive
      rw [Registry.get?, hc] at hgone
      cases hgone
    · intro hstay
      exact Service.contains_of_phase? (hstays hstay).1
  · exact hstays
  · intro hcloses
    have hgone := hending.get?_of_closes hcloses
    refine ⟨hgone, fun user hindexed => ?_⟩
    obtain ⟨u, hu, -⟩ := (hconsistent.indexed user conn).1 hindexed
    simp [Registry.user?, hgone] at hu
  · intro hflag hstay
    exact (hending.of_stay hstay).1 hflag
  · intro other hne
    exact hending.sameAt hs.consistent hne
  · -- The user is on no connection now, and the credentials are still right.
    intro user huser hcloses hup
    have hfree := hs.free_of_closes hending huser hcloses
    obtain ⟨name, password, hfind⟩ := hrun.admitted hopening conn user huser
    have hfind := hroutes.findUser? hfind
    refine ⟨Service.canLogIn_of_free hconsistent hup hfree ⟨name, password, hfind⟩, ?_⟩
    intro other capacity now hother hroom hlimit
    obtain ⟨τ, hconnect⟩ := State.exists_connect hother hroom hlimit now
    obtain ⟨box, registry, -, hadd, rfl⟩ := State.connect_eq_ok hconnect
    refine ⟨_, hconnect, ?_, ?_⟩
    · show registry.phase? other = some .connected
      rw [Registry.phase?_add hadd, if_pos rfl]
    · refine Service.canLogIn_of_free (Registry.consistent_add hconsistent hadd) hup ?_
        ⟨name, password, hfind⟩
      show registry.sessions.get? user.id = none
      rw [Registry.sessions_add hadd]
      exact hfree

/-- The administrator says farewell on one connection and logs in on another. -/
theorem registered_iff_stays_farewell :
    ∃ (h : List (Step Sample.relay)) (s : Traffic),
      h.map Step.event =
        [.connect 5 8 0, .receive 5 ⟨1, .none⟩ (Sample.preamble .logIn Sample.admin),
          .resume 5 ⟨2, .none⟩] ∧
      Opening Sample.relay Sample.first ∧ Run Sample.relay Sample.first h s ∧
      ∃ r : Routed,
        Sample.relay.Routes s.state 5
          (Sample.request .finish 5 Sample.admin UserId.toRelay []) r ∧
        r.outcome = .finish ∧ r.state.registry.contains 5 = false ∧
        ∃ τ : State, r.state.connect 7 8 0 = .ok τ ∧
          (Sample.relay.route τ ⟨4, .none⟩ 7
            (Sample.preamble .logIn Sample.admin)).state.registry.user? 7 =
              some Sample.admin := by
  let events : List Event :=
    [.connect 5 8 0, .receive 5 ⟨1, .none⟩ (Sample.preamble .logIn Sample.admin),
      .resume 5 ⟨2, .none⟩]
  let farewell := Sample.request .finish 5 Sample.admin UserId.toRelay []
  have hsome : (Sample.first.follow? Sample.relay events).isSome := by decide +kernel
  obtain ⟨⟨h, s⟩, hfollow⟩ := Option.isSome_iff_exists.1 hsome
  obtain ⟨hrun, hevents⟩ := run_of_follow? hfollow
  let r := Sample.relay.route s.state ⟨3, .none⟩ 5 farewell
  have hlast := check_of_follow? hfollow (fun s =>
    let r := Sample.relay.route s.state ⟨3, .none⟩ 5 farewell
    s.state.registry.user? 5 = some Sample.admin && r.outcome = .finish &&
      !r.state.shuttingDown && !r.state.registry.contains 5 && !r.state.registry.contains 7 &&
      r.state.store.directory.findUser? Sample.relay.passwords Sample.admin.name
        Sample.admin.name = some Sample.admin) (by decide +kernel)
  simp only [Bool.and_eq_true, decide_eq_true_eq, Bool.not_eq_true'] at hlast
  obtain ⟨⟨⟨⟨⟨huser, houtcome⟩, hup⟩, hgone⟩, hfree⟩, hfind⟩ := hlast
  have hroutes := Sample.relay.routes_route s.state ⟨3, .none⟩ 5 farewell
  have hcloses : r.outcome.closes := by rw [houtcome]; rfl
  obtain ⟨-, hconnects⟩ :=
    (registered_iff_stays Sample.opening hrun hroutes).comesBack Sample.admin huser hcloses hup
  obtain ⟨τ, hconnect, hphase, hlogIn⟩ := hconnects 7 8 0 hfree (by decide) (by decide)
  obtain ⟨box, registry, -, -, rfl⟩ := State.connect_eq_ok hconnect
  have hopens : Service.Opens _ 7 (Sample.preamble .logIn Sample.admin) :=
    ⟨rfl, hphase, rfl, rfl, rfl⟩
  obtain ⟨-, hback, -⟩ := hlogIn.succeeds Sample.admin.name Sample.admin.name hfind 7
    ⟨4, .none⟩ _ hopens rfl rfl rfl Sample.seals_tokens
  exact ⟨h, s, hevents, Sample.opening, hrun, r, hroutes, houtcome, hgone, _, hconnect, hback⟩

end Traffic

end Relay
