import Relay.Proofs.Session.Token
import Relay.Proofs.Traffic.Calls

/-!
# `Relay.Proofs.Traffic.Authorization`: nothing is done for a message that is not authorized

A message that is neither a log-in nor a registration has an effect only if it comes from the user
of its connection and carries a token for both. `Beginning.refused_or_authorized` says it of the
step that the message begins with, which is the one that decides.

Where the token comes from is a matter of the whole run. `Step.Mints` is the log of what the relay
has sealed, and `Unforged` says of a token that it is opened only if its seal is in that log. Then
the token was the answer to a log-in of the same user on a connection of the same id
(`Step.LogsIn`).
-/

set_option autoImplicit false

namespace Relay

namespace Service

variable {S : Service} {σ : State} {t : Moment} {conn : ConnId} {m : Message} {turn : Turn}

/-- A message that is no preamble is authorized, or it is refused: then nothing changes but the
registry and what is counted. -/
theorem Beginning.refused_or_authorized (h : S.Beginning σ t conn m turn)
    (hsession : (Operation.ofFlag m.flag).isPreamble = false) :
    (∃ user : User, S.Authorized σ conn m user) ∨
      (turn.next = .finished .finishWithError ∧ turn.state.store = σ.store ∧
        turn.state.shuttingDown = σ.shuttingDown ∧ turn.state.outboxes = σ.outboxes) := by
  cases h with
  | unregistered => exact .inr ⟨rfl, rfl, rfl, rfl⟩
  | refuse => exact .inr ⟨rfl, rfl, rfl, rfl⟩
  | preamble hopens =>
    have := hopens.operation
    rw [hsession] at this
    cases this
  | finish hauth => exact .inl ⟨_, hauth⟩
  | early hauth => exact .inl ⟨_, hauth⟩
  | session hauth => exact .inl ⟨_, hauth⟩

/-- A user who gives the right credentials and can be bound gets a token in reply, if it can be
sealed. -/
theorem resume_credentials {name : Username} {password : Password} {user : User}
    {registry : Registry} {token : Token} (hstore : t.outage .findUser = none)
    (hfind : σ.store.directory.findUser? S.passwords name password = some user)
    (hbind : σ.registry.bind conn user = .ok registry)
    (hmint : S.tokens.mint (σ.entropy.draw nonceSize).1 conn user.id = some token) :
    S.resume σ t conn (.credentials name password) =
      Turn.answer
        { σ with
          registry := registry.advance conn .loggedIn
          entropy := (σ.entropy.draw nonceSize).2 }
        [{ S.message t .loggedIn user.id with body := token.bytes }] := by
  simp only [resume, Outage.attempt, hstore, hfind, hbind, hmint]

end Service

namespace Traffic

variable {S : Service} {first last s : Traffic} {h : List (Step S)}

/-! ### What the relay seals -/

/-- A token is sealed for a user on a connection, under a nonce: the user has just been bound, and
sealing does not fail. -/
def Step.Mints (step : Step S) (nonce : Nonce) (conn : ConnId) (user : UserId) : Prop :=
  ∃ (t : Moment) (call : Call) (name : Username) (password : Password) (who : User)
    (registry : Registry),
    step.event = .resume conn t ∧ step.before.calls.get? conn = some call ∧
      call.pending = .credentials name password ∧ t.outage .findUser = none ∧
      step.before.state.store.directory.findUser? S.passwords name password = some who ∧
      step.before.state.registry.bind conn who = .ok registry ∧ who.id = user ∧
      nonce = (step.before.state.entropy.draw nonceSize).1 ∧
      S.tokens.mint nonce conn user = some (S.tokens.layOut nonce conn user)

/-- If the sealed part of a token is authentic, the relay has sealed it in one of the steps. -/
def Unforged (h : List (Step S)) (token : Token) : Prop :=
  ∀ text : Bytes, S.tokens.aead.decrypt? S.tokens.key token.nonce token.sealed = some text →
    ∃ step ∈ h, ∃ (conn : ConnId) (user : UserId), step.Mints token.nonce conn user ∧
      token.sealed = S.tokens.aead.encrypt S.tokens.key token.nonce (packIds conn user)

/-- A log-in is answered: the credentials that came in are those of the user, who is bound, and the
reply carries the token. -/
def Step.LogsIn (step : Step S) (conn : ConnId) (user : UserId) (token : Token) : Prop :=
  ∃ (t : Moment) (call : Call) (name : Username) (password : Password) (who : User)
    (reply : Message),
    step.event = .resume conn t ∧ step.before.calls.get? conn = some call ∧
      call.message.flag = .logIn ∧ credentials? call.message.body = some (name, password) ∧
      step.before.state.store.directory.findUser? S.passwords name password = some who ∧
      who.id = user ∧ step.after.state.registry.user? conn = some who ∧
      step.replies = [reply] ∧ reply.flag = .loggedIn ∧ reply.recipient = user ∧
      reply.body = token.bytes

/-- A token is sealed only in answer to a log-in, and the reply carries it. -/
theorem Step.Mints.logsIn {step : Step S} {nonce : Nonce} {conn : ConnId} {user : UserId}
    (hmints : step.Mints nonce conn user) (hrun : Run S first h step.before)
    (hopening : Opening S first) : step.LogsIn conn user (S.tokens.layOut nonce conn user) := by
  obtain ⟨t, call, name, password, who, registry, hevent, hcall, hpending, hstore, hfind, hbind,
    rfl, rfl, hmint⟩ := hmints
  have hserves := (hrun.genuine hopening hcall).serves_of_pending hpending
  have hturn : S.resume step.before.state t conn (.credentials name password) = _ :=
    Service.resume_credentials hstore hfind hbind hmint
  have hreplies := step.replies_of_resume hevent hcall
  have hafter := step.after_of_resume hevent hcall
  rw [hpending, hturn] at hreplies hafter
  obtain ⟨hflag, hbody⟩ := hserves.of_credentials
  refine ⟨t, call, name, password, who, _, hevent, hcall, hflag, hbody, hfind, rfl, ?_,
    hreplies, rfl, rfl, rfl⟩
  rw [hafter]
  show (registry.advance conn .loggedIn).user? conn = some who
  rw [Registry.user?_logIn hbind, if_pos rfl]

/-- If the relay sealed what a token opens to, the token is the one that a log-in was answered
with. -/
theorem exists_logsIn (hopening : Opening S first) (hrun : Run S first h s) {token : Token}
    {conn : ConnId} {user : UserId} (hopen : S.tokens.open? token = some (conn, user))
    (hinverts : S.tokens.aead.Inverts) (hunforged : Unforged h token) :
    ∃ step ∈ h, step.LogsIn conn user token := by
  obtain ⟨hzeros, ids, hids, -, -⟩ := TokenCipher.open?_eq_some hopen
  obtain ⟨step, hstep, conn', user', hmints, hsealed⟩ := hunforged ids hids
  have htoken := TokenCipher.eq_layOut_of_sealed hzeros hsealed
  -- It was laid out for the ids that it opens to.
  have hsame : (conn', user') = (conn, user) := by
    rw [htoken, TokenCipher.open?_layOut hinverts] at hopen
    exact Option.some.inj hopen
  cases hsame
  obtain ⟨h', -, hbefore⟩ := hrun.before_of_mem hstep
  have hlogsIn := hmints.logsIn hbefore hopening
  rw [← htoken] at hlogsIn
  exact ⟨step, hstep, hlogsIn⟩

/-! ### Effects -/

/-- After any run, let a message be routed that is neither a log-in nor a registration. If it has
any effect, that is, unless it is refused and leaves the store, the queues and the mark of shutdown
as they are, then a user is logged in on its connection, the message comes from that user, and its
token opens to the connection and the user.

If authentic seals are the relay's own, the token is moreover the one with which an earlier log-in
of the user was answered on a connection of that id; a token that was minted for another connection
or another user has no effect. -/
theorem authorized_of_effect (hopening : Opening S first) (hrun : Run S first h s) {t : Moment}
    {conn : ConnId} {m : Message} (hlogIn : m.flag ≠ .logIn) (hregister : m.flag ≠ .register)
    (heffect : (S.route s.state t conn m).outcome ≠ .finishWithError ∨
      (S.route s.state t conn m).state.store ≠ s.state.store ∨
      (S.route s.state t conn m).state.shuttingDown ≠ s.state.shuttingDown ∨
      (S.route s.state t conn m).state.outboxes ≠ s.state.outboxes) :
    ∃ user : User,
      s.state.registry.phase? conn = some .loggedIn ∧
      s.state.registry.user? conn = some user ∧
      m.sender = user.id ∧
      S.tokens.open? m.token = some (conn, user.id) ∧
      (S.tokens.aead.Inverts → Unforged h m.token →
        ∃ step ∈ h, step.LogsIn conn user.id m.token) ∧
      (S.tokens.aead.Inverts → ∀ (nonce : Nonce) (other : ConnId) (author : UserId),
        S.tokens.mint nonce other author = some m.token → other = conn ∧ author = user.id) := by
  have hsession : (Operation.ofFlag m.flag).isPreamble = false := by
    rw [Bool.eq_false_iff, Ne, Operation.isPreamble_ofFlag]
    exact fun h => h.elim hlogIn hregister
  rcases (S.beginning_begin s.state t conn m).refused_or_authorized hsession with
    ⟨user, hauth⟩ | ⟨hnext, hstore, hshuttingDown, houtboxes⟩
  · refine ⟨user, ?_, hauth.bound, hauth.sender, hauth.token, ?_, ?_⟩
    · -- The token is checked for a user who is bound, which nobody is before logging in.
      obtain ⟨c, hc, huser⟩ := (Registry.user?_eq_some_iff _ _ _).1 hauth.bound
      have hsound := hrun.sound hopening.sound
      have hphase := (hsound.consistent.bound_iff conn c hc).1 (by simp [huser])
      exact (Registry.phase?_eq_some_iff _ _ _).2 ⟨c, hc, hphase⟩
    · intro hinverts hunforged
      exact exists_logsIn hopening hrun hauth.token hinverts hunforged
    · intro hinverts nonce other author hmint
      have hopen := hauth.token
      rw [TokenCipher.open?_of_mint hinverts hmint] at hopen
      cases hopen
      exact ⟨rfl, rfl⟩
  · -- A refusal ends routing at once, and it has none of the four effects.
    have hroute : S.complete t conn (S.begin s.state t conn m) = _ :=
      S.complete_of_finished hnext
    rw [Service.route, hroute] at heffect
    rcases heffect with houtcome | hchange | hchange | hchange
    · exact absurd rfl houtcome
    · exact absurd hstore hchange
    · exact absurd hshuttingDown hchange
    · exact absurd houtboxes hchange

/-- The administrator logs in and says farewell with the token of the log-in. -/
theorem authorized_of_effect_farewell :
    ∃ (h : List (Step Sample.relay)) (s : Traffic),
      h.map Step.event =
        [.connect 5 8 0, .receive 5 ⟨1, .none⟩ (Sample.preamble .logIn Sample.admin),
          .resume 5 ⟨2, .none⟩] ∧
      Opening Sample.relay Sample.first ∧ Run Sample.relay Sample.first h s ∧
      Sample.relay.tokens.aead.Inverts ∧ Unforged h (Sample.token 5 Sample.admin) ∧
      (Sample.relay.route s.state ⟨3, .none⟩ 5
        (Sample.request .finish 5 Sample.admin UserId.toRelay [])).outcome = .finish ∧
      ∃ user : User, s.state.registry.user? 5 = some user ∧
        ∃ step ∈ h, step.LogsIn 5 user.id (Sample.token 5 Sample.admin) := by
  let earlier : List Event :=
    [.connect 5 8 0, .receive 5 ⟨1, .none⟩ (Sample.preamble .logIn Sample.admin)]
  let events : List Event := earlier ++ .resume 5 ⟨2, .none⟩ :: []
  let farewell := Sample.request .finish 5 Sample.admin UserId.toRelay []
  have hsome : (Sample.first.follow? Sample.relay events).isSome := by decide +kernel
  obtain ⟨⟨h, s⟩, hfollow⟩ := Option.isSome_iff_exists.1 hsome
  obtain ⟨hrun, hevents⟩ := run_of_follow? hfollow
  obtain ⟨h₁, h₂, step, rfl, hevent, hbefore⟩ := split_of_follow? hfollow
  -- The last step mints the token.
  have hstep := check_of_follow? hbefore (fun s =>
    s.calls.get? 5 = some ⟨Sample.preamble .logIn Sample.admin, none,
        .credentials Sample.admin.name Sample.admin.name, []⟩ &&
      s.state.store.directory.findUser? Sample.relay.passwords Sample.admin.name
        Sample.admin.name = some Sample.admin &&
      (s.state.registry.bind 5 Sample.admin).toBool &&
      (s.state.entropy.draw nonceSize).1 = .zero nonceSize) (by decide +kernel)
  simp only [Bool.and_eq_true, decide_eq_true_eq] at hstep
  obtain ⟨⟨⟨hcall, hfind⟩, hbind⟩, hnonce⟩ := hstep
  have hmints : step.Mints (.zero nonceSize) 5 UserId.admin := by
    cases hregistry : step.before.state.registry.bind 5 Sample.admin with
    | error =>
      rw [hregistry] at hbind
      cases hbind
    | ok registry =>
      exact ⟨_, _, _, _, Sample.admin, registry, hevent, hcall, rfl, rfl, hfind, hregistry, rfl,
        hnonce.symm, rfl⟩
  have hunforged : Unforged (h₁ ++ step :: h₂) (Sample.token 5 Sample.admin) := by
    intro text _
    rw [Sample.token, TokenCipher.nonce_layOut, TokenCipher.sealed_layOut]
    exact ⟨step, by simp, 5, UserId.admin, hmints, rfl⟩
  -- The farewell is routed in one step.
  have hnext := check_of_follow? hfollow (fun s =>
    (Sample.relay.begin s.state ⟨3, .none⟩ 5 farewell).next = .finished .finish)
    (by decide +kernel)
  have houtcome : (Sample.relay.route s.state ⟨3, .none⟩ 5 farewell).outcome = .finish := by
    rw [Service.route, Sample.relay.complete_of_finished (of_decide_eq_true hnext)]
  have heffect : (Sample.relay.route s.state ⟨3, .none⟩ 5 farewell).outcome ≠
      .finishWithError := by
    rw [houtcome]
    decide
  have hinverts : Sample.relay.tokens.aead.Inverts := Sample.inverts_aead
  obtain ⟨user, -, huser, -, -, hlogsIn, -⟩ :=
    authorized_of_effect Sample.opening hrun (m := farewell) (by decide) (by decide)
      (.inl heffect)
  exact ⟨_, s, hevents, Sample.opening, hrun, hinverts, hunforged, houtcome, user, huser,
    hlogsIn hinverts hunforged⟩

end Traffic

end Relay
