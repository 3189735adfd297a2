import Relay.Proofs.Traffic.Outcome
import Relay.Proofs.Traffic.Store

/-!
# `Relay.Proofs.Traffic.Credentials`: who can log in, and with which password

The directory keeps records of passwords and no passwords. `rollOf` keeps them: it is computed from
the settings and from the registrations that were replied to in a run, and from nothing else. A
directory agrees with a roll if it has an account for exactly the names on it, with a record of the
password (`Roll.Agrees`). Every run keeps the directory in agreement with its roll
(`Run.rollAgrees`).

A log-in is therefore accepted exactly if its name and its password are on the roll and the user is
on no connection (`accepted_iff_on_roll`), and who is on the roll stays on it.
-/

set_option autoImplicit false

namespace Relay

/-- The ids and the passwords of those who are registered, by name. -/
def Roll : Type := Bytes → Option (UserId × Bytes)

namespace Roll

/-- At first the administrator is on the roll, with the password of the settings. -/
def initial (config : Config) : Roll := fun name =>
  if name = Directory.adminName.bytes then
    some (UserId.admin, (Octets.padded passwordSize config.adminPasswordBytes).bytes)
  else none

/-- The roll with the name and the password of one more registration. -/
def enter (roll : Roll) (body : Bytes) (id : UserId) : Roll := fun name =>
  if name = body.take nameSize then some (id, (body.drop nameSize).take passwordSize)
  else roll name

/-- The directory has an account for exactly the names on the roll, with a record of the password. -/
structure Agrees (S : Service) (roll : Roll) (d : Directory) : Prop where
  absent : ∀ name : Username, d.findName? name = none → roll name.bytes = none
  present : ∀ (name : Username) (account : Account), d.findName? name = some account →
    ∃ (password : Password) (salt : Salt),
      roll name.bytes = some (account.user.id, password.bytes) ∧
        S.passwords.hash salt password.bytes = .ok account.record

variable {S : Service} {roll : Roll} {d e : Directory}

/-- With a scheme that tells passwords apart, the credentials that are right are those on the
roll. -/
theorem Agrees.findUser?_iff (hroll : roll.Agrees S d)
    (hverify : ∀ (salt : Salt) (password other : Password) (record : String),
      S.passwords.hash salt password.bytes = .ok record →
        (S.passwords.verify other.bytes record ↔ other = password))
    (name : Username) (password : Password) (id : UserId) :
    (∃ user, d.findUser? S.passwords name password = some user ∧ user.id = id) ↔
      roll name.bytes = some (id, password.bytes) := by
  unfold Directory.findUser?
  cases hfind : d.findName? name with
  | none =>
    rw [hroll.absent name hfind]
    simp
  | some account =>
    obtain ⟨kept, salt, hentry, hrecord⟩ := hroll.present name account hfind
    have hsame := hverify salt kept password account.record hrecord
    rw [hentry]
    simp only [Option.some.injEq, Prod.mk.injEq]
    constructor
    · rintro ⟨user, hsome, rfl⟩
      split at hsome
      · rename_i hright
        cases hsome
        exact ⟨rfl, congrArg Octets.bytes (hsame.1 hright).symm⟩
      · cases hsome
    · rintro ⟨rfl, hpassword⟩
      rw [if_pos (hsame.2 (Octets.ext hpassword.symm))]
      exact ⟨_, rfl, rfl⟩

/-- A user who is entered into the directory is entered on the roll. -/
theorem Agrees.enter (hroll : roll.Agrees S d) {name : Username} {password : Password}
    {record : String} {user : User} {salt : Salt} {body : Bytes}
    (henrol : d.enrol name record = .ok (user, e))
    (hbody : credentials? body = some (name, password))
    (hrecord : S.passwords.hash salt password.bytes = .ok record) :
    (roll.enter body user.id).Agrees S e := by
  obtain ⟨-, hname, hpassword⟩ := credentials?_eq_some_iff.1 hbody
  obtain ⟨-, hfinds⟩ := Directory.findName?_of_enrol henrol
  -- A name is the new one or was there before, in the directory as on the roll.
  constructor
  · intro other hnone
    rw [hfinds] at hnone
    split at hnone
    · cases hnone
    · rename_i hother
      rw [Roll.enter, if_neg fun hsame => hother (Octets.ext (hsame.trans hname.symm))]
      exact hroll.absent other hnone
  · intro other account hsome
    rw [hfinds] at hsome
    split at hsome
    · rename_i hsame
      cases hsome
      rw [hsame, Roll.enter, if_pos hname, ← hpassword]
      exact ⟨password, salt, rfl, hrecord⟩
    · rename_i hother
      rw [Roll.enter, if_neg fun hsame => hother (Octets.ext (hsame.trans hname.symm))]
      exact hroll.present other account hsome

end Roll

namespace Service

variable {S : Service} {σ : State} {t : Moment} {conn : ConnId} {m : Message}

/-- What a log-in comes to that comes first on its connection, if the store can be asked and tokens
can be sealed. -/
inductive LogInEnding (S : Service) (σ : State) (t : Moment) (conn : ConnId) (m : Message)
    (r : Routed) : Prop where
  /-- There is no password. -/
  | short (hbody : credentials? m.body = none) (houtcome : r.outcome = .finishWithError)
      (hreplies : r.replies = [S.errorReply t .logIn UserId.toAnonymous])
  /-- The credentials are wrong, or the user is on a connection. -/
  | rejected {name : Username} {password : Password}
      (hbody : credentials? m.body = some (name, password))
      (hnot : ∀ user, σ.store.directory.findUser? S.passwords name password = some user →
        σ.registry.sessions.get? user.id ≠ none)
      (houtcome : r.outcome = .finishWithError)
      (hreplies : r.replies = [S.unauthenticatedReply t])
  /-- The user is bound to the connection and gets a token. -/
  | accepted {name : Username} {password : Password} {user : User} {nonce : Nonce}
      (hbody : credentials? m.body = some (name, password))
      (hfind : σ.store.directory.findUser? S.passwords name password = some user)
      (hfree : σ.registry.sessions.get? user.id = none) (houtcome : r.outcome = .stay)
      (hreplies : r.replies = [{ S.message t .loggedIn user.id with
        body := (S.tokens.layOut nonce conn user.id).bytes }])

/-- A log-in comes to one of the endings. -/
theorem logInEnding_route (hσ : σ.registry.Consistent) (hopens : Opens σ conn m)
    (hflag : m.flag = .logIn) (hup : σ.shuttingDown = false) (hstore : t.outage .findUser = none)
    (hseals : S.tokens.Seals) : S.LogInEnding σ t conn m (S.route σ t conn m) := by
  let opened : State := { σ.count (.dispatched .logIn) with
    registry := σ.registry.advance conn .secureEstablished }
  cases hbody : credentials? m.body with
  | none =>
    have hbegin : S.begin σ t conn m =
        Turn.interrupt opened conn (S.errorReply t .logIn UserId.toAnonymous) := by
      rw [begin_eq_beginLogIn hopens hflag hup]
      simp only [beginLogIn, hbody, hflag, opened]
    rw [route, hbegin, S.complete_of_finished rfl]
    exact .short hbody rfl rfl
  | some credentials =>
    obtain ⟨name, password⟩ := credentials
    have hbegin := begin_logIn (S := S) (t := t) hopens hflag hbody hup
    -- Whoever cannot be bound is refused like somebody with a wrong password.
    have rejected (hrefused : S.resume opened t conn (.credentials name password) =
          Turn.interrupt opened conn (S.unauthenticatedReply t))
        (hnot : ∀ user, σ.store.directory.findUser? S.passwords name password = some user →
          σ.registry.sessions.get? user.id ≠ none) :
        S.LogInEnding σ t conn m (S.route σ t conn m) := by
      rw [route_of_wait hbegin (congrArg Turn.next hrefused), hrefused]
      exact .rejected hbody hnot rfl rfl
    cases hfind : σ.store.directory.findUser? S.passwords name password with
    | none =>
      refine rejected ?_ fun user hsome => ?_
      · simp only [resume, Outage.attempt, hstore, opened, State.store_count, hfind]
      · rw [hfind] at hsome
        cases hsome
    | some user =>
      cases hbind : (σ.registry.advance conn .secureEstablished).bind conn user with
      | error e =>
        refine rejected ?_ fun other hother hfree => ?_
        · simp only [resume, Outage.attempt, hstore, opened, State.store_count, hfind, hbind]
        · rw [hfind] at hother
          cases hother
          obtain ⟨registry, hbound⟩ := hopens.exists_bind hσ hfree
          rw [hbind] at hbound
          cases hbound
      | ok registry =>
        obtain ⟨houtcome, -, nonce, hreplies⟩ :=
          route_logIn hopens hflag hbody hup hstore hfind hbind hseals
        have hfree := (Registry.free_of_bind hbind).1
        rw [Registry.sessions_advance] at hfree
        exact .accepted hbody hfind hfree houtcome hreplies

end Service

namespace Traffic

variable {S : Service} {first last s : Traffic} {h : List (Step S)} {step : Step S} {conn : ConnId}
  {t : Moment} {m : Message} {call : Call}

/-! ### The roll of a run -/

/-- The registrations that a step replies to, each a body and the id in the reply. -/
def Step.registrations (step : Step S) : List (Bytes × UserId) :=
  match step.event with
  | .resume conn _ =>
    match step.before.calls.get? conn with
    | none => []
    | some call =>
      (step.replies.filter fun reply => reply.flag = .registered).map fun reply =>
        (call.message.body, reply.recipient)
  | _ => []

variable (S) in
/-- Who is on the roll after the steps of a run. -/
def rollOf (h : List (Step S)) : Roll :=
  (h.flatMap Step.registrations).foldl (fun roll r => roll.enter r.1 r.2) (.initial S.config)

theorem rollOf_snoc (h : List (Step S)) (step : Step S) :
    rollOf S (h ++ [step]) =
      step.registrations.foldl (fun roll r => roll.enter r.1 r.2) (rollOf S h) := by
  simp [rollOf]

theorem Step.registrations_of_forall (hnone : ∀ reply ∈ step.replies, reply.flag ≠ .registered) :
    step.registrations = [] := by
  unfold registrations
  split
  · split
    · rfl
    · rw [filter_registered_eq_nil hnone, List.map_nil]
  · rfl

theorem Step.Resumes.registrations {user : User} (hresumes : step.Resumes conn t call)
    (hreplies : step.replies = [S.message t .registered user.id]) :
    step.registrations = [(call.message.body, user.id)] := by
  simp only [Step.registrations, hresumes.event, hresumes.call, hreplies]
  rfl

/-- What a registration brings to the directory is a record of its password. -/
def Hashed (S : Service) (call : Call) : Prop :=
  ∀ (name : Username) (record : String), call.pending = .enrolment name record →
    ∃ (password : Password) (salt : Salt), credentials? call.message.body = some (name, password) ∧
      S.passwords.hash salt password.bytes = .ok record

/-- Registrations that wait for the directory have been hashed. -/
theorem Run.hashed (hrun : Run S first h s) (hopening : Opening S first)
    (hcall : s.calls.get? conn = some call) : Hashed S call := by
  -- Where the record comes from is known in the step that hashes the password.
  revert conn call
  refine hrun.invariant
    (P := fun _ s => ∀ {conn : ConnId} {call : Call}, s.calls.get? conn = some call →
      Hashed S call) ?_ ?_
  · intro conn call hcall
    rw [hopening.calls] at hcall
    cases hcall
  · intro h step hrun ih conn call hcall
    rcases step.moves.call_cases hcall with
      hold | ⟨t, m, p, -, -, hnext, rfl⟩ | ⟨t, earlier, p, -, hearlier, hnext, rfl⟩
    · exact ih hold
    · intro name record hpending
      obtain ⟨-, hfirst, -⟩ := (S.beginning_begin step.before.state t conn m).serves hnext
      dsimp only at hpending
      rw [hpending] at hfirst
      cases hfirst
    · intro name record hpending
      dsimp only at hpending
      rw [hpending] at hnext
      obtain ⟨password, salt, hhashing, hrecord⟩ := Service.of_next_enrolment hnext
      have hserves := (hrun.genuine hopening hearlier).serves_of_pending hhashing
      exact ⟨password, salt, hserves.of_hashing, hrecord⟩

/-- The administrator's account holds a record of the password of the settings. -/
theorem Opening.admin (hopening : Opening S first) :
    ∃ (salt : Salt) (record : String),
      S.passwords.hash salt (Octets.padded passwordSize S.config.adminPasswordBytes).bytes =
          .ok record ∧
        first.state.store.directory.accounts =
          [⟨⟨UserId.admin, Directory.adminName⟩, record⟩] := by
  obtain ⟨suite, passwords, config, seed, store, e, e', hstore, hstart, -⟩ := hopening
  simp only [Service.start, Prod.mk.injEq] at hstart
  obtain ⟨rfl, hstate⟩ := hstart
  rw [← hstate]
  obtain ⟨-, -, record, hrecord, hdirectory⟩ := Store.initial_eq_ok hstore
  exact ⟨_, record, hrecord, (Directory.initial_eq_ok hdirectory).2⟩

theorem Opening.rollAgrees (hopening : Opening S first) :
    (rollOf S []).Agrees S first.state.store.directory := by
  obtain ⟨salt, record, hrecord, haccounts⟩ := hopening.admin
  have hfind (name : Username) : first.state.store.directory.findName? name =
      if Directory.adminName = name then some ⟨⟨UserId.admin, Directory.adminName⟩, record⟩
      else none := by
    rw [Directory.findName?, haccounts, List.find?_singleton]
    simp only [decide_eq_true_eq]
  constructor
  · intro name hnone
    rw [hfind] at hnone
    split at hnone
    · cases hnone
    · rename_i hother
      exact if_neg fun hsame => hother (Octets.ext hsame.symm)
  · intro name account hsome
    rw [hfind] at hsome
    split at hsome
    · rename_i hsame
      cases hsome
      exact ⟨_, salt, if_pos (congrArg Octets.bytes hsame.symm), hrecord⟩
    · cases hsome

/-- Whatever a step does to the directory, its registrations do to the roll. -/
theorem rollAgrees_snoc (hrun : Run S first h step.before) (hopening : Opening S first)
    (hroll : (rollOf S h).Agrees S step.before.state.store.directory) :
    (rollOf S (h ++ [step])).Agrees S step.after.state.store.directory := by
  rw [rollOf_snoc]
  rcases step.directory_cases with
    ⟨hsame, hnone⟩ | ⟨conn, t, call, name, record, user, hresumes, hpending, henrol, hreplies⟩
  · rw [Step.registrations_of_forall hnone, hsame]
    exact hroll
  · obtain ⟨password, salt, hbody, hrecord⟩ :=
      hrun.hashed hopening hresumes.call name record hpending
    rw [hresumes.registrations hreplies]
    exact hroll.enter henrol hbody hrecord

/-- Every run keeps the directory in agreement with the roll. -/
theorem Run.rollAgrees (hrun : Run S first h s) (hopening : Opening S first) :
    (rollOf S h).Agrees S s.state.store.directory :=
  hrun.invariant (P := fun h s => (rollOf S h).Agrees S s.state.store.directory) hopening.rollAgrees
    fun _ _ hrun hroll => rollAgrees_snoc hrun hopening hroll

/-! ### Logging in -/

/-- A log-in that comes first on its connection while the relay is up and the store can be asked. -/
structure AsksToLogIn (s : Traffic) (conn : ConnId) (t : Moment) (m : Message) : Prop where
  opens : Service.Opens s.state conn m
  flag : m.flag = .logIn
  up : s.state.shuttingDown = false
  store : t.outage .findUser = none

/-- A log-in is entitled to the session of a user: it gives the name and the password on the roll,
and the user is on no connection. -/
structure Entitled (h : List (Step S)) (s : Traffic) (m : Message) (id : UserId) : Prop where
  length : nameSize + passwordSize ≤ m.body.length
  enrolled : rollOf S h (m.body.take nameSize) =
    some (id, (m.body.drop nameSize).take passwordSize)
  away : ∀ (other : ConnId) (user : User), s.state.registry.user? other = some user → user.id ≠ id

/-- Who is on the roll stays on it. -/
theorem rollOf_persists (hroll : (rollOf S h).Agrees S step.before.state.store.directory)
    (hrun : Run S first h step.before) (hopening : Opening S first) {name : Bytes}
    {entry : UserId × Bytes} (hentry : rollOf S h name = some entry) :
    rollOf S (h ++ [step]) name = some entry := by
  rw [rollOf_snoc]
  rcases step.directory_cases with
    ⟨-, hnone⟩ | ⟨conn, t, call, other, record, user, hresumes, hpending, henrol, hreplies⟩
  · rw [Step.registrations_of_forall hnone]
    exact hentry
  · obtain ⟨password, salt, hbody, -⟩ := hrun.hashed hopening hresumes.call other record hpending
    obtain ⟨-, hname, -⟩ := credentials?_eq_some_iff.1 hbody
    rw [hresumes.registrations hreplies]
    -- Nobody is entered under a name that is on the roll.
    refine (if_neg fun hsame => ?_).trans hentry
    have habsent := hroll.absent other (Directory.findName?_of_enrol henrol).1
    rw [hname, ← hsame, hentry] at habsent
    cases habsent

theorem Run.roll_persists (hbefore : Run S first h s) (hopening : Opening S first)
    {later : List (Step S)} (hrun : Run S s later last) {name : Bytes} {entry : UserId × Bytes}
    (hentry : rollOf S h name = some entry) : rollOf S (h ++ later) name = some entry := by
  induction hrun with
  | start =>
    rw [List.append_nil]
    exact hentry
  | @snoc later step hrun ih =>
    have hall := hbefore.trans hrun
    rw [← List.append_assoc]
    exact rollOf_persists (hall.rollAgrees hopening) hall hopening ih

/-- No connection is indexed under an id exactly if no connection has a user with the id. -/
theorem Sound.free_iff (hs : Sound s) (id : UserId) :
    s.state.registry.sessions.get? id = none ↔
      ∀ (other : ConnId) (user : User), s.state.registry.user? other = some user → user.id ≠ id := by
  rw [Option.eq_none_iff_forall_ne_some]
  constructor
  · intro hfree other user huser hid
    exact hfree other ((hs.consistent.indexed id other).2 ⟨user, huser, hid⟩)
  · intro haway other hindexed
    obtain ⟨user, huser, hid⟩ := (hs.consistent.indexed id other).1 hindexed
    exact haway other user huser hid

/-- What may be relied on about log-ins in a state that a run has led to. -/
structure LogInsAnswered (S : Service) (h : List (Step S)) (s : Traffic) : Prop where
  /-- The administrator is on the roll, with the password of the settings. -/
  administrator : rollOf S h Directory.adminName.bytes =
    some (UserId.admin, (Octets.padded passwordSize S.config.adminPasswordBytes).bytes)
  /-- Who is registered next is on the roll, under the id of the reply. -/
  registers : ∀ (step : Step S) (conn : ConnId) (t : Moment) (call : Call) (reply : Message),
    step.before = s → step.Resumes conn t call → reply ∈ step.replies →
    reply.flag = .registered →
      rollOf S (h ++ [step]) (call.message.body.take nameSize) =
        some (reply.recipient, (call.message.body.drop nameSize).take passwordSize)
  /-- Who is on the roll stays on it, with the same id and the same password. -/
  persists : ∀ (later : List (Step S)) (last : Traffic) (name : Bytes) (entry : UserId × Bytes),
    Run S s later last → rollOf S h name = some entry → rollOf S (h ++ later) name = some entry
  /-- A log-in is accepted exactly if it is entitled to the session of a user. -/
  accepted_iff : ∀ (conn : ConnId) (t : Moment) (m : Message), AsksToLogIn s conn t m →
    ((S.route s.state t conn m).outcome = .stay ∧
        (∃ reply, (S.route s.state t conn m).replies = [reply] ∧ reply.flag = .loggedIn) ↔
      ∃ id, Entitled h s m id)
  /-- The reply is addressed to the user and carries a token of the session. -/
  accepts : ∀ (conn : ConnId) (t : Moment) (m : Message) (id : UserId), AsksToLogIn s conn t m →
    Entitled h s m id →
      ∃ (reply : Message) (token : Token), (S.route s.state t conn m).replies = [reply] ∧
        reply.flag = .loggedIn ∧ reply.recipient = id ∧ reply.body = token.bytes ∧
        S.tokens.open? token = some (conn, id)
  /-- Any other log-in is refused, and its connection is removed. -/
  refuses : ∀ (conn : ConnId) (t : Moment) (m : Message), AsksToLogIn s conn t m →
    (∀ id, ¬ Entitled h s m id) →
      (S.route s.state t conn m).outcome = .finishWithError ∧
        (S.route s.state t conn m).state.registry.get? conn = none ∧
        (S.route s.state t conn m).replies =
          [if m.body.length < nameSize + passwordSize then
              S.errorReply t .logIn UserId.toAnonymous
            else S.unauthenticatedReply t]

/-- Whoever is registered is on the roll. -/
theorem rollOf_of_registered (h : List (Step S)) (hresumes : step.Resumes conn t call)
    {reply : Message} (hreply : reply ∈ step.replies) (hflag : reply.flag = .registered) :
    rollOf S (h ++ [step]) (call.message.body.take nameSize) =
      some (reply.recipient, (call.message.body.drop nameSize).take passwordSize) := by
  rcases step.directory_cases with ⟨-, hnone⟩ | ⟨_, _, _, _, _, user, hresumes', -, -, hreplies⟩
  · exact absurd hflag (hnone reply hreply)
  · obtain ⟨rfl, rfl, rfl⟩ := hresumes.unique hresumes'
    rw [hreplies, List.mem_singleton] at hreply
    rw [rollOf_snoc, hresumes.registrations hreplies, hreply]
    exact if_pos rfl

/-- A log-in is accepted if it is entitled to a session, and refused if it is not. -/
theorem Run.logIn_cases (hrun : Run S first h s) (hopening : Opening S first)
    (hverify : ∀ (salt : Salt) (password other : Password) (record : String),
      S.passwords.hash salt password.bytes = .ok record →
        (S.passwords.verify other.bytes record ↔ other = password))
    (hseals : S.tokens.Seals) (hlogs : AsksToLogIn s conn t m) :
    (∃ (id : UserId) (nonce : Nonce), Entitled h s m id ∧
        (S.route s.state t conn m).outcome = .stay ∧
        (S.route s.state t conn m).replies =
          [{ S.message t .loggedIn id with body := (S.tokens.layOut nonce conn id).bytes }]) ∨
      ((∀ id, ¬ Entitled h s m id) ∧
        (S.route s.state t conn m).outcome = .finishWithError ∧
        (S.route s.state t conn m).replies =
          [if m.body.length < nameSize + passwordSize then
              S.errorReply t .logIn UserId.toAnonymous
            else S.unauthenticatedReply t]) := by
  have hs := hrun.sound hopening.sound
  have hcredentials (name : Username) (password : Password) (id : UserId) :=
    (hrun.rollAgrees hopening).findUser?_iff hverify name password id
  cases Service.logInEnding_route (S := S) hs.consistent hlogs.opens hlogs.flag hlogs.up
    hlogs.store hseals with
  | short hbody houtcome hreplies =>
    have hshort : m.body.length < nameSize + passwordSize := by
      refine Nat.lt_of_not_le fun hlength => ?_
      obtain ⟨name, password, hsome⟩ := exists_credentials hlength
      rw [hbody] at hsome
      cases hsome
    refine .inr ⟨fun id hentitled => ?_, houtcome, ?_⟩
    · exact Nat.not_le.2 hshort hentitled.length
    · rw [if_pos hshort]
      exact hreplies
  | rejected hbody hnot houtcome hreplies =>
    obtain ⟨hlength, hname, hpassword⟩ := credentials?_eq_some_iff.1 hbody
    refine .inr ⟨fun id hentitled => ?_, houtcome, ?_⟩
    · have henrolled := hentitled.enrolled
      rw [← hname, ← hpassword, ← hcredentials] at henrolled
      obtain ⟨user, hfind, rfl⟩ := henrolled
      exact hnot user hfind ((hs.free_iff user.id).2 hentitled.away)
    · rw [if_neg (Nat.not_lt.2 hlength)]
      exact hreplies
  | @accepted name password user nonce hbody hfind hfree houtcome hreplies =>
    obtain ⟨hlength, hname, hpassword⟩ := credentials?_eq_some_iff.1 hbody
    have henrolled := (hcredentials name password user.id).1 ⟨user, hfind, rfl⟩
    rw [hname, hpassword] at henrolled
    exact .inl ⟨user.id, nonce, ⟨hlength, henrolled, (hs.free_iff user.id).1 hfree⟩, houtcome,
      hreplies⟩

/-- A user has one id, so a log-in is entitled to one session. -/
theorem Entitled.unique {id id' : UserId} (hentitled : Entitled h s m id)
    (hentitled' : Entitled h s m id') : id = id' := by
  have henrolled := hentitled.enrolled.symm.trans hentitled'.enrolled
  simp only [Option.some.injEq, Prod.mk.injEq] at henrolled
  exact henrolled.1

/-- After any run, a log-in is accepted exactly if its name and its password are on the roll and the
user is on no connection. The scheme has to tell passwords apart, and tokens have to be sealed and
opened again. -/
theorem accepted_iff_on_roll (hopening : Opening S first) (hrun : Run S first h s)
    (hverify : ∀ (salt : Salt) (password other : Password) (record : String),
      S.passwords.hash salt password.bytes = .ok record →
        (S.passwords.verify other.bytes record ↔ other = password))
    (hseals : S.tokens.Seals) (hinverts : S.tokens.aead.Inverts) : LogInsAnswered S h s := by
  constructor
  · exact Run.roll_persists .start hopening hrun (if_pos rfl)
  · rintro step conn t call reply rfl hresumes hreply hflag
    exact rollOf_of_registered h hresumes hreply hflag
  · intro later last name entry hlater hentry
    exact hrun.roll_persists hopening hlater hentry
  · intro conn t m hlogs
    rcases hrun.logIn_cases hopening hverify hseals hlogs with
      ⟨id, nonce, hentitled, hstays, hreplies⟩ | ⟨hnot, houtcome, -⟩
    · exact iff_of_true ⟨hstays, _, hreplies, rfl⟩ ⟨id, hentitled⟩
    · refine iff_of_false ?_ fun ⟨id, hentitled⟩ => hnot id hentitled
      rintro ⟨hstays, -⟩
      rw [houtcome] at hstays
      cases hstays
  · intro conn t m id hlogs hentitled
    rcases hrun.logIn_cases hopening hverify hseals hlogs with
      ⟨id', nonce, hentitled', -, hreplies⟩ | ⟨hnot, -⟩
    · obtain rfl := hentitled'.unique hentitled
      exact ⟨_, _, hreplies, rfl, rfl, rfl, TokenCipher.open?_layOut hinverts nonce⟩
    · exact absurd hentitled (hnot id)
  · intro conn t m hlogs hnone
    rcases hrun.logIn_cases hopening hverify hseals hlogs with
      ⟨id, nonce, hentitled, -⟩ | ⟨-, houtcome, hreplies⟩
    · exact absurd hentitled (hnone id)
    · have hending := Service.ending_of_routes (S.routes_route s.state t conn m)
      refine ⟨houtcome, hending.get?_of_closes ?_, hreplies⟩
      rw [houtcome]
      rfl

/-- A guest has registered and comes back with the same password: the guest is logged in. -/
theorem accepted_iff_on_roll_guest :
    ∃ (h : List (Step Sample.relay)) (s : Traffic) (id : UserId),
      h.map Step.event = Sample.conversation.take 9 ∧
        Opening Sample.relay Sample.first ∧ Run Sample.relay Sample.first h s ∧
        (∀ (salt : Salt) (password other : Password) (record : String),
          Sample.passwords.hash salt password.bytes = .ok record →
            (Sample.passwords.verify other.bytes record ↔ other = password)) ∧
        Sample.relay.tokens.Seals ∧ Sample.relay.tokens.aead.Inverts ∧
        AsksToLogIn s 6 ⟨7, .none⟩ (Sample.preamble .logIn Sample.guest) ∧
        Entitled h s (Sample.preamble .logIn Sample.guest) id ∧
        LogInsAnswered Sample.relay h s := by
  let m := Sample.preamble .logIn Sample.guest
  have hsome : (Sample.first.follow? Sample.relay (Sample.conversation.take 9)).isSome := by
    decide +kernel
  obtain ⟨⟨h, s⟩, hfollow⟩ := Option.isSome_iff_exists.1 hsome
  obtain ⟨hrun, hevents⟩ := run_of_follow? hfollow
  have hlast := check_of_follow? hfollow (fun s =>
    s.state.registry.phase? 6 = some .connected && !s.state.shuttingDown &&
      (Sample.relay.route s.state ⟨7, .none⟩ 6 m).outcome = .stay &&
      (Sample.relay.route s.state ⟨7, .none⟩ 6 m).replies.map Message.flag = [.loggedIn])
    (by decide +kernel)
  simp only [Bool.and_eq_true, decide_eq_true_eq, Bool.not_eq_true'] at hlast
  obtain ⟨⟨⟨hphase, hup⟩, hstays⟩, hflags⟩ := hlast
  have hasks : AsksToLogIn s 6 ⟨7, .none⟩ m := ⟨⟨rfl, hphase, rfl, rfl, rfl⟩, rfl, hup, rfl⟩
  have hanswered := accepted_iff_on_roll Sample.opening hrun Sample.verify_passwords
    Sample.seals_tokens Sample.inverts_aead
  obtain ⟨reply, hreplies, hflag⟩ := List.map_eq_singleton_iff.1 hflags
  obtain ⟨id, hentitled⟩ :=
    (hanswered.accepted_iff 6 _ m hasks).1 ⟨hstays, reply, hreplies, hflag⟩
  exact ⟨h, s, id, hevents, Sample.opening, hrun, Sample.verify_passwords, Sample.seals_tokens,
    Sample.inverts_aead, hasks, hentitled, hanswered⟩

end Traffic

end Relay
