import Relay.Proofs.Traffic.Outcome

/-!
# `Relay.Proofs.Traffic.Replay`: the token of a session that is over

A token seals the id of a connection and of a user, and nothing that would tell one session from the
next. The ids of connections are given out again, the lowest free one first, so a later session of
the same user may well be on a connection of the same id. The token of the earlier session then opens
to the very ids that the relay compares it with.

`replayed_without_effect` says that this is the only way in which such a token is of any use. Unless
the user has logged in again on a connection of the same id, and the message comes from there, a
message that carries the token is refused, and all that comes of it is that its connection is
removed. The decision falls in the first step of the message, so that it does not matter what other
connections do meanwhile.

`replayed_after_return` is a run in which the user has logged in again, and the token of the earlier
session is as good as the one of the later. The ids of its connections come from a pool (`leases?`),
and its tokens have different nonces.
-/

set_option autoImplicit false

namespace Relay

namespace Traffic

variable {S : Service} {first last s closed : Traffic} {h later since : List (Step S)}
  {step login : Step S} {conn presenter : ConnId} {user : UserId} {token : Token} {m : Message}
  {r : Routed}

/-! ### Logging in and being on a connection -/

/-- If credentials were waited for and somebody is on the connection afterwards, a token was sealed
for that user. -/
theorem Step.mints_of_credentials {t : Moment} {call : Call} {name : Username}
    {password : Password} {who : User} (hevent : step.event = .resume conn t)
    (hcall : step.before.calls.get? conn = some call)
    (hpending : call.pending = .credentials name password)
    (hafter : step.after.state.registry.user? conn = some who) :
    ∃ nonce : Nonce, step.Mints nonce conn who.id := by
  have hresumption := S.resumption_resume step.before.state t conn call.pending
  rw [step.after_of_resume hevent hcall] at hafter
  rw [hpending] at hresumption hafter
  -- The step is taken apart with its result, which only the cases tell.
  generalize hturn : S.resume step.before.state t conn (.credentials name password) = turn
    at hresumption hafter
  cases hresumption with
  | refuse =>
    have hgone : (step.before.state.registry.delete conn).user? conn = some who := hafter
    rw [Registry.user?_delete, if_pos rfl] at hgone
    cases hgone
  | @logIn _ _ found registry sealed hstore hfind hbind hmint =>
    have hbound : (registry.advance conn .loggedIn).user? conn = some who := hafter
    rw [Registry.user?_logIn hbind, if_pos rfl, Option.some.injEq] at hbound
    subst hbound
    obtain ⟨-, rfl⟩ := TokenCipher.mint_eq_some_iff.1 hmint
    exact ⟨_, t, call, name, password, found, registry, hevent, hcall, hpending, hstore, hfind,
      hbind, rfl, rfl, hmint⟩

/-- Who came onto a connection in the course of a run has logged in in it. -/
theorem Run.exists_logsIn_of_user? (hopening : Opening S first) (hrun : Run S first h closed)
    (hsince : Run S closed since s) {who : User}
    (hnobody : closed.state.registry.user? conn = none)
    (huser : s.state.registry.user? conn = some who) :
    ∃ step ∈ since, ∃ fresh : Token, step.LogsIn conn who.id fresh := by
  refine hsince.invariant (P := fun since s => s.state.registry.user? conn = some who →
    ∃ step ∈ since, ∃ fresh : Token, step.LogsIn conn who.id fresh) ?_ ?_ huser
  · intro huser
    rw [hnobody] at huser
    cases huser
  · -- The user was there before the last step, or has logged in by it.
    intro since step hbefore ih hafter
    by_cases hthere : step.before.state.registry.user? conn = some who
    · obtain ⟨earlier, hmem, hlogsIn⟩ := ih hthere
      exact ⟨earlier, List.mem_append_left _ hmem, hlogsIn⟩
    · rcases step.moves.user?_cases hafter with
        hold | ⟨t, call, name, password, hevent, hcall, hpending, -⟩
      · exact absurd hold hthere
      · obtain ⟨nonce, hmints⟩ := step.mints_of_credentials hevent hcall hpending hafter
        exact ⟨step, List.mem_append_right _ (List.mem_singleton_self _), _,
          hmints.logsIn (hrun.trans hbefore) hopening⟩

/-- The token in the answer to a log-in was minted for the connection and the user. -/
theorem Step.LogsIn.minted (hlogin : login.LogsIn conn user token) (hopening : Opening S first)
    (hrun : Run S first h login.before) :
    ∃ nonce : Nonce, token = S.tokens.layOut nonce conn user := by
  obtain ⟨t, call, -, -, who, reply, hevent, hcall, hflag, -, -, rfl, hwho, hreplies, -, -,
    hbody⟩ := hlogin
  have hserves := (hrun.genuine hopening hcall).serves
  obtain ⟨name, password, hpending⟩ := hserves.of_logIn hflag
  obtain ⟨nonce, hmints⟩ := login.mints_of_credentials hevent hcall hpending hwho
  -- The token that was minted stands in the same reply.
  obtain ⟨-, -, -, -, -, answer, -, -, -, -, -, -, -, hanswer, -, -, hminted⟩ :=
    hmints.logsIn hrun hopening
  rw [hreplies, List.singleton_inj] at hanswer
  refine ⟨nonce, Octets.ext ?_⟩
  rw [← hbody, ← hminted, hanswer]

/-! ### Presenting the token of a session that is over -/

/-- A message is refused, and all that comes of it is that its connection is removed. -/
structure Rejects (s : Traffic) (presenter : ConnId) (r : Routed) : Prop where
  /-- The caller is told to close the connection. -/
  outcome : r.outcome = .finishWithError
  /-- The store, the mark of shutdown and every queue are as before. -/
  shared : s.state.SameShared r.state
  /-- So is what the registry holds of any other connection. -/
  others : ∀ other, other ≠ presenter → s.state.registry.SameAt r.state.registry other
  /-- The connection itself is no longer registered. -/
  gone : r.state.registry.get? presenter = none
  /-- There is one reply, the error, and none if the connection was not registered. -/
  replies : if s.state.registry.contains presenter then ∃ reply, r.replies = [reply]
    else r.replies = []

/-- A message with a token that is not empty is refused, or it is authorized. -/
theorem rejects_or_authorized (hopening : Opening S first) (hrun : Run S first h s)
    (hroutes : S.Routes s.state presenter m r) (htoken : m.token ≠ Token.empty) :
    Rejects s presenter r ∨ ∃ who : User, S.Authorized s.state presenter m who := by
  obtain ⟨t, hcompletes⟩ := hroutes
  have hbeginning := S.beginning_begin s.state t presenter m
  have hrefused (houtcome : r.outcome = .finishWithError) : Rejects s presenter r := by
    obtain ⟨hshared, hothers, hgone, hreplies⟩ :=
      hrun.of_finishWithError hopening ⟨t, hcompletes⟩ houtcome
    exact ⟨houtcome, hshared, hothers, hgone, hreplies⟩
  generalize S.begin s.state t presenter m = turn at hbeginning hcompletes
  cases hbeginning with
  | unregistered =>
    rw [hcompletes.of_finished rfl] at hrefused ⊢
    exact .inl (hrefused rfl)
  | refuse =>
    rw [hcompletes.of_finished rfl] at hrefused ⊢
    exact .inl (hrefused rfl)
  | preamble hopens => exact absurd hopens.token htoken
  | finish hauth | early hauth | session hauth => exact .inr ⟨_, hauth⟩

/-- Let a token be the answer to a log-in, and let the connection be removed at some time
afterwards. From then on, a message that carries the token is refused without any other effect,
whatever connection it comes from and whoever is on it. The one exception is a message from that
user on a connection of the same id, on which the user has meanwhile logged in again. -/
theorem replayed_without_effect (hinverts : S.tokens.aead.Inverts) (hopening : Opening S first)
    (hrun : Run S first h login.before) (hlogin : login.LogsIn conn user token)
    (hsealed : token ≠ Token.empty) (hlater : Run S login.after later closed)
    (hclosed : closed.state.registry.contains conn = false) (hsince : Run S closed since s)
    (hm : m.token = token) (hroutes : S.Routes s.state presenter m r) :
    Rejects s presenter r ∨
      presenter = conn ∧ m.sender = user ∧
        (∃ who : User, s.state.registry.user? conn = some who ∧ who.id = user) ∧
        ∃ again ∈ since, ∃ fresh : Token, again.LogsIn conn user fresh := by
  have hended : Run S first (h ++ login :: later) closed :=
    run_append_cons_iff.2 ⟨hrun, hlater⟩
  rcases rejects_or_authorized hopening (hended.trans hsince) hroutes (hm ▸ hsealed) with
    hrejects | ⟨who, hauth⟩
  · exact .inl hrejects
  · -- The token opens to the ids of its own session, so they are those of the connection.
    obtain ⟨nonce, hminted⟩ := hlogin.minted hopening hrun
    have hopen := hauth.token
    rw [hm, hminted, TokenCipher.open?_layOut hinverts] at hopen
    cases hopen
    exact .inr ⟨rfl, hauth.sender, ⟨who, hauth.bound, rfl⟩,
      hended.exists_logsIn_of_user? hopening hsince (Registry.nobody_of_free hclosed) hauth.bound⟩

/-- What is left of a pool from which every connection takes its id when it is registered, and to
which the id goes back when it is removed; nothing if a connection has another id than the pool gave
out, or gives back one that was not taken. -/
def leases? (pool : IdPool) : List Event → Option IdPool
  | [] => some pool
  | .connect conn _ _ :: rest =>
    match pool.take? with
    | some (id, pool') => if id = conn then leases? pool' rest else none
    | none => none
  | .disconnect conn :: rest | .abort conn :: rest =>
    match pool.giveBack conn with
    | .ok pool' => leases? pool' rest
    | .error _ => none
  | _ :: rest => leases? pool rest

end Traffic

/-! ### A user who comes back -/

namespace Sample

/-- The bytes with which a relay comes up that draws two different nonces afterwards. -/
def tape : Entropy :=
  ⟨List.replicate (saltSize + keySize) 0 ++ List.replicate nonceSize 1 ++
    List.replicate nonceSize 2, 0⟩

/-- The relay when it has just come up on these bytes. -/
def dawn : Traffic where
  state := { first.state with entropy := (tape.draw (saltSize + keySize)).2 }

theorem opening_dawn : Traffic.Opening relay dawn :=
  ⟨suite, passwords, config, .zero keySize, opened.1, tape, (tape.draw saltSize).2,
    by decide +kernel, rfl, rfl⟩

/-- The token of the administrator's first session, on the first connection. -/
def firstToken : Token :=
  relay.tokens.layOut ⟨List.replicate nonceSize 1, List.length_replicate⟩ 0 UserId.admin

/-- The token of the second session, on a connection of the same id. -/
def secondToken : Token :=
  relay.tokens.layOut ⟨List.replicate nonceSize 2, List.length_replicate⟩ 0 UserId.admin

/-- A request for the users that carries the token of the first session. -/
def staleRequest : Message where
  flag := .fetchUsers
  timestamp := 100
  sender := UserId.admin
  recipient := UserId.toRelay
  token := firstToken

/-- Whether the administrator's log-in on the first connection is about to be answered, under a
nonce. -/
def awaitsLogIn (nonce : Nonce) (s : Traffic) : Bool :=
  s.calls.get? 0 = some ⟨preamble .logIn admin, none, .credentials admin.name admin.name, []⟩ &&
    s.state.store.directory.findUser? relay.passwords admin.name admin.name = some admin &&
    (s.state.registry.bind 0 admin).toBool && (s.state.entropy.draw nonceSize).1 = nonce

/-- The answer is the token under that nonce. -/
theorem logsIn_of_awaitsLogIn {h : List (Traffic.Step relay)} {step : Traffic.Step relay}
    {nonce : Nonce} {now : UInt64} (hrun : Traffic.Run relay dawn h step.before)
    (hevent : step.event = .resume 0 ⟨now, .none⟩) (hbefore : awaitsLogIn nonce step.before) :
    step.LogsIn 0 UserId.admin (relay.tokens.layOut nonce 0 UserId.admin) := by
  simp only [awaitsLogIn, Bool.and_eq_true, decide_eq_true_eq] at hbefore
  obtain ⟨⟨⟨hcall, hfind⟩, hbind⟩, hnonce⟩ := hbefore
  cases hregistry : step.before.state.registry.bind 0 admin with
  | error =>
    rw [hregistry] at hbind
    cases hbind
  | ok registry =>
    have hmints : step.Mints nonce 0 UserId.admin :=
      ⟨_, _, _, _, admin, registry, hevent, hcall, rfl, rfl, hfind, hregistry, rfl, hnonce.symm,
        rfl⟩
    exact hmints.logsIn hrun opening_dawn

/-- The administrator asks to be logged in on the first connection. -/
def arrival : List Traffic.Event :=
  [.connect 0 8 0, .receive 0 ⟨1, .none⟩ (preamble .logIn admin)]

/-- The administrator logs in, and the session ends; whatever follows, the token of the session is
known. -/
theorem exists_session {rest : List Traffic.Event} {h : List (Traffic.Step relay)} {s : Traffic}
    (hfollow : dawn.follow? relay (arrival ++ .resume 0 ⟨2, .none⟩ :: .disconnect 0 :: rest) =
      some (h, s)) :
    ∃ (earlier : List (Traffic.Step relay)) (login close : Traffic.Step relay)
      (since : List (Traffic.Step relay)),
      h = earlier ++ login :: close :: since ∧ Traffic.Run relay dawn earlier login.before ∧
        login.LogsIn 0 UserId.admin firstToken ∧
        Traffic.Run relay login.after [close] close.after ∧
        close.after.state.registry.contains 0 = false ∧
        Traffic.Run relay close.after since s ∧ since.map Traffic.Step.event = rest := by
  obtain ⟨hrun, hevents⟩ := Traffic.run_of_follow? hfollow
  obtain ⟨earlier, after, login, rfl, hevent, hbefore⟩ := Traffic.split_of_follow? hfollow
  obtain ⟨hearlier, hnames⟩ := Traffic.run_of_follow? hbefore
  obtain ⟨-, hafter⟩ := Traffic.run_append_cons_iff.1 hrun
  have hcheck := Traffic.check_of_follow? hbefore
    (awaitsLogIn ⟨List.replicate nonceSize 1, List.length_replicate⟩) (by decide +kernel)
  rw [List.map_append, List.map_cons, hnames] at hevents
  obtain ⟨close, since, rfl, hclose, hsince⟩ :=
    List.map_eq_cons_iff.1 (List.cons.inj (List.append_cancel_left hevents)).2
  have hcut : Traffic.Run relay login.after ([] ++ close :: since) s := hafter
  obtain ⟨hnone, hrest⟩ := Traffic.run_append_cons_iff.1 hcut
  refine ⟨earlier, login, close, since, rfl, hearlier, ?_, ?_, ?_, hrest, hsince⟩
  · exact logsIn_of_awaitsLogIn hearlier hevent hcheck
  · rw [← Traffic.run_nil_iff.1 hnone]
    exact Traffic.run_singleton close
  · obtain ⟨σ, event, σ', hmoves⟩ := close
    subst hclose
    cases hmoves with
    | disconnect =>
      show (σ.state.registry.delete 0).contains 0 = false
      rw [Registry.contains_delete, decide_eq_false (not_not_intro rfl), Bool.false_and]

end Sample

namespace Traffic

/-- The administrator has gone, and somebody presents the token of the session on the connection that
has its id now. -/
theorem replayed_without_effect_handover :
    ∃ (earlier : List (Step Sample.relay)) (login close : Step Sample.relay)
      (since : List (Step Sample.relay)) (s : Traffic),
      Sample.relay.tokens.aead.Inverts ∧ Opening Sample.relay Sample.dawn ∧
      Run Sample.relay Sample.dawn earlier login.before ∧
      login.LogsIn 0 UserId.admin Sample.firstToken ∧ Sample.firstToken ≠ Token.empty ∧
      Run Sample.relay login.after [close] close.after ∧
      close.after.state.registry.contains 0 = false ∧ Run Sample.relay close.after since s ∧
      since.map Step.event = [.connect 0 8 3] ∧ s.state.registry.contains 0 ∧
      Rejects s 0 (Sample.relay.route s.state ⟨4, .none⟩ 0 Sample.staleRequest) := by
  let rest : List Event := [.connect 0 8 3]
  have hsome : (Sample.dawn.follow? Sample.relay
      (Sample.arrival ++ .resume 0 ⟨2, .none⟩ :: .disconnect 0 :: rest)).isSome := by
    decide +kernel
  obtain ⟨⟨h, s⟩, hfollow⟩ := Option.isSome_iff_exists.1 hsome
  obtain ⟨earlier, login, close, since, -, hearlier, hlogin, hclose, hclosed, hsince, hevents⟩ :=
    Sample.exists_session hfollow
  have hlast := check_of_follow? hfollow (fun s =>
    s.state.registry.contains 0 && s.state.registry.user? 0 = none) (by decide +kernel)
  simp only [Bool.and_eq_true, decide_eq_true_eq] at hlast
  obtain ⟨hlive, hnobody⟩ := hlast
  have hsealed : Sample.firstToken ≠ Token.empty := by decide +kernel
  have hroutes := Sample.relay.routes_route s.state ⟨4, .none⟩ 0 Sample.staleRequest
  refine ⟨earlier, login, close, since, s, Sample.inverts_aead, Sample.opening_dawn, hearlier,
    hlogin, hsealed, hclose, hclosed, hsince, hevents, hlive, ?_⟩
  rcases replayed_without_effect Sample.inverts_aead Sample.opening_dawn hearlier hlogin hsealed
    hclose hclosed hsince rfl hroutes with hrejects | ⟨-, -, ⟨who, huser, -⟩, -⟩
  · exact hrejects
  · rw [hnobody] at huser
    cases huser

/-- The administrator logs in, goes and logs in again. Both connections take their ids from a pool,
the second one after the first one has given its id back, and the two tokens have different nonces.
A request that carries the token of the first session is answered with the list of users, and its
connection stays. -/
theorem replayed_after_return :
    ∃ (earlier : List (Step Sample.relay)) (login close : Step Sample.relay)
      (between : List (Step Sample.relay)) (again : Step Sample.relay),
      Opening Sample.relay Sample.dawn ∧
      (leases? (.empty 4)
        ((earlier ++ login :: close :: (between ++ [again])).map Step.event)).isSome ∧
      Run Sample.relay Sample.dawn earlier login.before ∧
      login.LogsIn 0 UserId.admin Sample.firstToken ∧
      Run Sample.relay login.after [close] close.after ∧
      close.after.state.registry.contains 0 = false ∧
      Run Sample.relay close.after between again.before ∧
      again.LogsIn 0 UserId.admin Sample.secondToken ∧
      Sample.firstToken.nonce ≠ Sample.secondToken.nonce ∧
      Sample.staleRequest.token = Sample.firstToken ∧
      (Sample.relay.route again.after.state ⟨6, .none⟩ 0 Sample.staleRequest).outcome = .stay ∧
      ∃ page, (Sample.relay.route again.after.state ⟨6, .none⟩ 0 Sample.staleRequest).replies =
        [page] ∧ page.flag = .fetchUsers := by
  let between : List Event := [.connect 0 8 3, .receive 0 ⟨4, .none⟩
    (Sample.preamble .logIn Sample.admin)]
  let events : List Event :=
    Sample.arrival ++ .resume 0 ⟨2, .none⟩ :: .disconnect 0 :: (between ++ [.resume 0 ⟨5, .none⟩])
  have hsome : (Sample.dawn.follow? Sample.relay events).isSome := by decide +kernel
  obtain ⟨⟨h, s⟩, hfollow⟩ := Option.isSome_iff_exists.1 hsome
  obtain ⟨earlier, login, close, since, hsteps, hearlier, hlogin, hclose, hclosed, hsince,
    hevents⟩ := Sample.exists_session hfollow
  -- The second log-in is the last step.
  have hsnoc : Sample.dawn.follow? Sample.relay
      ((Sample.arrival ++ .resume 0 ⟨2, .none⟩ :: .disconnect 0 :: between) ++
        [.resume 0 ⟨5, .none⟩]) = some (h, s) := hfollow
  obtain ⟨soFar, again, hlast, hevent, hbefore, rfl⟩ := snoc_of_follow? hsnoc
  have hagain := check_of_follow? hbefore
    (Sample.awaitsLogIn ⟨List.replicate nonceSize 2, List.length_replicate⟩) (by decide +kernel)
  have hlogsIn := Sample.logsIn_of_awaitsLogIn (run_of_follow? hbefore).1 hevent hagain
  obtain ⟨meanwhile, tail, rfl, -, htail⟩ := List.map_eq_append_iff.1 hevents
  obtain ⟨final, rfl, -⟩ := List.map_eq_singleton_iff.1 htail
  obtain rfl : final = again := by
    rw [hlast] at hsteps
    have hends : soFar ++ [again] = (earlier ++ login :: close :: meanwhile) ++ [final] := by
      rw [hsteps, List.append_assoc]
      rfl
    exact (List.singleton_inj.1 (List.append_inj' hends rfl).2).symm
  obtain ⟨hmeanwhile, -⟩ := run_snoc_iff.1 hsince
  have hpool : (leases? (.empty 4) (h.map Step.event)).isSome := by
    rw [(run_of_follow? hfollow).2]
    decide +kernel
  have hanswer := check_of_follow? hfollow (fun s =>
    let r := Sample.relay.route s.state ⟨6, .none⟩ 0 Sample.staleRequest
    r.outcome = .stay && r.replies.map Message.flag = [.fetchUsers]) (by decide +kernel)
  simp only [Bool.and_eq_true, decide_eq_true_eq] at hanswer
  obtain ⟨houtcome, hflags⟩ := hanswer
  obtain ⟨page, hpage, hflag⟩ := List.map_eq_singleton_iff.1 hflags
  rw [hsteps] at hpool
  exact ⟨earlier, login, close, meanwhile, final, Sample.opening_dawn, hpool, hearlier, hlogin,
    hclose, hclosed, hmeanwhile, hlogsIn, by decide +kernel, rfl, houtcome, page, hpage, hflag⟩

end Traffic

end Relay
