import Relay.Proofs.Routing.Effect
import Relay.Proofs.Store.Directory

/-!
# `Relay.Proofs.Routing.Registration`: the steps of a registration

A registration waits three times: for the number of users, for its password to be hashed, and for
the directory. Each time it goes on or is refused, and which of the two is said here exactly. It is
the last step alone that changes the directory, and the same step that replies to a registration
(`Service.Resumption.enrol_cases`).
-/

set_option autoImplicit false

namespace Relay

/-- What the body of a registration has to be like: long enough for a name and a password, and
neither of them almost blank. -/
structure FitForRegistration (body : Bytes) : Prop where
  length : nameSize + passwordSize ≤ body.length
  name : minCredentialSize ≤ nonBlank (body.take nameSize)
  password : minCredentialSize ≤ nonBlank ((body.drop nameSize).take passwordSize)

theorem Octets.ofBytes?_eq_some_iff {n : Nat} {bytes : Bytes} {field : Octets n} :
    Octets.ofBytes? n bytes = some field ↔ field.bytes = bytes := by
  constructor
  · intro h
    unfold ofBytes? at h
    split at h
    · cases h
      rfl
    · cases h
  · rintro rfl
    exact ofBytes?_bytes field

/-- A body that is long enough carries a name and a password, one after the other. -/
theorem credentials?_eq_some_iff {body : Bytes} {name : Username} {password : Password} :
    credentials? body = some (name, password) ↔
      nameSize + passwordSize ≤ body.length ∧ name.bytes = body.take nameSize ∧
        password.bytes = (body.drop nameSize).take passwordSize := by
  have hfields : credentials? body = some (name, password) ↔
      Octets.ofBytes? nameSize (body.take nameSize) = some name ∧
        Octets.ofBytes? passwordSize ((body.drop nameSize).take passwordSize) =
          some password := by
    unfold credentials?
    split
    · rename_i hname hpassword
      rw [hname, hpassword]
      simp only [Option.some.injEq, Prod.mk.injEq]
    · rename_i hnot
      simp only [reduceCtorEq, false_iff]
      exact fun h => hnot _ _ h.1 h.2
  rw [hfields, Octets.ofBytes?_eq_some_iff, Octets.ofBytes?_eq_some_iff]
  constructor
  · rintro ⟨hname, hpassword⟩
    have hsize := congrArg List.length hpassword
    rw [password.length_eq, List.length_take, List.length_drop] at hsize
    refine ⟨?_, hname, hpassword⟩
    simp only [passwordSize, nameSize] at hsize ⊢
    omega
  · rintro ⟨-, hname, hpassword⟩
    exact ⟨hname, hpassword⟩

theorem exists_credentials {body : Bytes} (hlength : nameSize + passwordSize ≤ body.length) :
    ∃ (name : Username) (password : Password), credentials? body = some (name, password) := by
  refine ⟨⟨body.take nameSize, ?_⟩, ⟨(body.drop nameSize).take passwordSize, ?_⟩,
    credentials?_eq_some_iff.2 ⟨hlength, rfl, rfl⟩⟩
  · rw [List.length_take]
    omega
  · rw [List.length_take, List.length_drop]
    omega

namespace Pending

/-- Whether a registration waits that was given a seat. -/
def isSeated : Pending → Bool
  | .hashing .. | .enrolment .. => true
  | _ => false

theorem Serves.of_hashing {m : Message} {user : Option User} {name : Username}
    {password : Password} (h : (Pending.hashing name password).Serves m user) :
    credentials? m.body = some (name, password) := by
  cases h with
  | hashing _ hbody => exact hbody

/-- A registration waits in one of three ways. -/
theorem Serves.of_register {p : Pending} {m : Message} {user : Option User} (h : p.Serves m user)
    (hflag : m.flag = .register) :
    p = .seats m.body ∨
      ∃ (name : Username) (password : Password), credentials? m.body = some (name, password) ∧
        (p = .hashing name password ∨ ∃ record, p = .enrolment name record) := by
  cases h with
  | seats => exact .inl rfl
  | hashing _ hbody => exact .inr ⟨_, _, hbody, .inl rfl⟩
  | enrolment _ hbody => exact .inr ⟨_, _, hbody, .inr ⟨_, rfl⟩⟩
  | recipient hother =>
    rw [hflag] at hother
    exact absurd hother (by decide)
  | credentials hother | keeping hother | announcer hother | listing hother | target hother
  | selection hother | consumption hother | stopper hother | clearance hother =>
    cases hother.symm.trans hflag

end Pending

namespace Service

variable {S : Service} {σ : State} {t : Moment} {conn : ConnId} {m : Message} {turn : Turn}

/-- A registration that comes first on its connection goes on to the store. -/
theorem begin_register (hopens : Opens σ conn m) (hflag : m.flag = .register)
    (hup : σ.shuttingDown = false) :
    S.begin σ t conn m =
      Turn.wait { σ.count (.dispatched .register) with
        registry := σ.registry.advance conn .secureEstablished } (.seats m.body) := by
  have hop : Operation.ofFlag m.flag = .register := by rw [hflag]; rfl
  rw [S.begin_of_opens hopens]
  simp [perform, hop, hup, hopens.recipient]

/-- What is checked of a registration before its password is hashed. -/
structure HasSeat (S : Service) (σ : State) (t : Moment) (body : Bytes) : Prop where
  store : t.outage .usersCount = none
  room : σ.store.directory.size < S.config.maxUsers
  fit : FitForRegistration body

/-- With a seat, a registration goes on to have its password hashed. Without, it is refused. -/
theorem resume_seats (S : Service) (σ : State) (t : Moment) (conn : ConnId) (body : Bytes) :
    (S.HasSeat σ t body ∧ ∃ (name : Username) (password : Password),
        credentials? body = some (name, password) ∧
        S.resume σ t conn (.seats body) = Turn.wait σ (.hashing name password)) ∨
      (¬ S.HasSeat σ t body ∧
        S.resume σ t conn (.seats body) = S.refuseRegistration σ t conn) := by
  simp only [resume]
  split
  · rename_i e hfails
    refine .inr ⟨fun hseat => ?_, rfl⟩
    simp [Outage.attempt, hseat.store] at hfails
  · rename_i count hanswers
    obtain ⟨hstore, rfl⟩ := Outage.attempt_ok_eq_ok hanswers
    split
    · rename_i hfull
      exact .inr ⟨fun hseat => UInt32.not_lt.2 hfull hseat.room, rfl⟩
    · rename_i hroom
      split
      · rename_i hnone
        refine .inr ⟨fun hseat => ?_, rfl⟩
        obtain ⟨name, password, hbody⟩ := exists_credentials hseat.fit.length
        rw [hbody] at hnone
        cases hnone
      · rename_i name password hbody
        obtain ⟨hlength, hname, hpassword⟩ := credentials?_eq_some_iff.1 hbody
        rw [hname, hpassword]
        split
        · rename_i hblank
          refine .inr ⟨fun hseat => ?_, rfl⟩
          have hname := hseat.fit.name
          have hpassword := hseat.fit.password
          simp only [Bool.or_eq_true, decide_eq_true_eq] at hblank
          omega
        · rename_i hfit
          simp only [Bool.or_eq_true, decide_eq_true_eq, not_or, Nat.not_lt] at hfit
          exact .inl ⟨⟨hstore, UInt32.not_le.1 hroom, hlength, hfit.1, hfit.2⟩, name, password,
            hbody, rfl⟩

/-- A password that can be hashed goes on to the directory. Otherwise the registration is refused. -/
theorem resume_hashing (S : Service) (σ : State) (t : Moment) (conn : ConnId) (name : Username)
    (password : Password) :
    (∃ record, t.outage .addUser = none ∧
        S.passwords.hash (σ.entropy.draw saltSize).1 password.bytes = .ok record ∧
        S.resume σ t conn (.hashing name password) =
          Turn.wait { σ with entropy := (σ.entropy.draw saltSize).2 } (.enrolment name record)) ∨
      ((t.outage .addUser = none → ∃ reason,
          S.passwords.hash (σ.entropy.draw saltSize).1 password.bytes = .error reason) ∧
        ∃ entropy, S.resume σ t conn (.hashing name password) =
          S.refuseRegistration { σ with entropy } t conn) := by
  simp only [resume, Store.hashPassword]
  cases hstore : t.outage .addUser with
  | some e =>
    refine .inr ⟨fun hnone => ?_, σ.entropy, rfl⟩
    cases hnone
  | none =>
    cases hhash : S.passwords.hash (σ.entropy.draw saltSize).1 password.bytes with
    | error reason => exact .inr ⟨fun _ => ⟨reason, rfl⟩, _, rfl⟩
    | ok record => exact .inl ⟨record, rfl, rfl, rfl⟩

/-- The directory takes a registration or refuses it. -/
theorem resume_enrolment (S : Service) (σ : State) (t : Moment) (conn : ConnId) (name : Username)
    (record : String) :
    (∃ (user : User) (directory : Directory),
        σ.store.directory.enrol name record = .ok (user, directory) ∧
        S.resume σ t conn (.enrolment name record) =
          ⟨{ σ with store.directory := directory }.purge conn, [S.message t .registered user.id],
            .finished .finishToReconnect⟩) ∨
      ((∃ e, σ.store.directory.enrol name record = .error e) ∧
        S.resume σ t conn (.enrolment name record) = S.refuseRegistration σ t conn) := by
  simp only [resume]
  cases σ.store.directory.enrol name record with
  | error e => exact .inr ⟨⟨e, rfl⟩, rfl⟩
  | ok enrolled => exact .inl ⟨enrolled.1, enrolled.2, rfl, rfl⟩

/-! ### No other step registers anybody -/

theorem Refusal.flag_ne_registered {reply : Message} (h : S.Refusal t reply) :
    reply.flag ≠ .registered := by
  cases h with
  | error => exact (by decide : Flag.error ≠ Flag.registered)
  | unauthenticated => exact (by decide : Flag.unauthenticated ≠ Flag.registered)
  | accessDenied => exact (by decide : Flag.accessDenied ≠ Flag.registered)

theorem Beginning.flag_ne_registered (h : S.Beginning σ t conn m turn) {reply : Message}
    (hreply : reply ∈ turn.replies) : reply.flag ≠ .registered := by
  cases h with
  | refuse _ hrefusal =>
    obtain rfl := List.mem_singleton.1 hreply
    exact hrefusal.flag_ne_registered
  | early =>
    obtain rfl := List.mem_singleton.1 hreply
    exact (by decide : Flag.error ≠ Flag.registered)
  | _ => cases hreply

/-- The directory changes in the step that replies to a registration, and in no other. -/
theorem Resumption.enrol_cases {p : Pending} (h : S.Resumption σ t conn p turn) :
    (turn.state.store.directory = σ.store.directory ∧
        ∀ reply ∈ turn.replies, reply.flag ≠ .registered) ∨
      ∃ (name : Username) (record : String) (user : User), p = .enrolment name record ∧
        σ.store.directory.enrol name record = .ok (user, turn.state.store.directory) ∧
        turn.replies = [S.message t .registered user.id] := by
  -- Whatever its recipient and its body are, a reply of another kind is not one of these.
  have other {flag : Flag} {recipient : UserId} {body : Bytes} (hflag : flag ≠ .registered) :
      ∀ reply ∈ [{ S.message t flag recipient with body }], reply.flag ≠ .registered := by
    intro reply hreply
    obtain rfl := List.mem_singleton.1 hreply
    exact hflag
  cases h with
  | enrol henrol => exact .inr ⟨_, _, _, rfl, henrol, rfl⟩
  | refuse _ _ hrefusal =>
    refine .inl ⟨rfl, fun reply hreply => ?_⟩
    obtain rfl := List.mem_singleton.1 hreply
    exact hrefusal.flag_ne_registered
  | logIn => exact .inl ⟨rfl, other (by decide)⟩
  | unknownRecipient => exact .inl ⟨rfl, other (by decide)⟩
  | unknownTarget => exact .inl ⟨rfl, other (by decide)⟩
  | nothing => exact .inl ⟨rfl, other (by decide)⟩
  | list =>
    refine .inl ⟨rfl, fun reply hreply => ?_⟩
    simp only [Turn.answer, directoryPages, List.mem_mapIdx] at hreply
    obtain ⟨index, hindex, rfl⟩ := hreply
    exact (by decide : Flag.fetchUsers ≠ Flag.registered)
  | select =>
    refine .inl ⟨rfl, fun reply hreply => ?_⟩
    obtain ⟨_, -, hflag, -⟩ := mem_fetchedMessages hreply
    rw [hflag]
    decide
  | signal => exact .inl ⟨congrArg Store.directory (store_deliver _ _), List.forall_mem_nil _⟩
  | keep =>
    refine .inl ⟨?_, List.forall_mem_nil _⟩
    simp only [Turn.answer, store_deliver]
  | notKeep => exact .inl ⟨congrArg Store.directory (store_deliver _ _), List.forall_mem_nil _⟩
  | announce =>
    exact .inl ⟨congrArg Store.directory (S.store_announce _ _ _ _), List.forall_mem_nil _⟩
  | _ => exact .inl ⟨rfl, List.forall_mem_nil _⟩

/-! ### Where a registration comes from that waits -/

/-- A registration waits for its password to be hashed if it has just been given a seat. -/
theorem of_next_hashing {p : Pending} {name : Username} {password : Password}
    (hnext : (S.resume σ t conn p).next = .waiting (.hashing name password)) :
    ∃ body, p = .seats body ∧ S.HasSeat σ t body := by
  have hresumes := S.resumption_resume σ t conn p
  generalize hturn : S.resume σ t conn p = turn at hresumes hnext
  cases hresumes with
  | @seat body =>
    refine ⟨body, rfl, ?_⟩
    rcases S.resume_seats σ t conn body with ⟨hseat, -⟩ | ⟨-, hrefused⟩
    · exact hseat
    · cases congrArg Turn.next (hrefused.symm.trans hturn)
  | _ => cases hnext

/-- A registration waits for the directory if its password has just been hashed. -/
theorem of_next_enrolment {p : Pending} {name : Username} {record : String}
    (hnext : (S.resume σ t conn p).next = .waiting (.enrolment name record)) :
    ∃ (password : Password) (salt : Salt), p = .hashing name password ∧
      S.passwords.hash salt password.bytes = .ok record := by
  have hresumes := S.resumption_resume σ t conn p
  generalize hturn : S.resume σ t conn p = turn at hresumes hnext
  cases hresumes with
  | @hash _ password =>
    cases hnext
    rcases S.resume_hashing σ t conn name password with ⟨_, -, hhash, hwaits⟩ | ⟨-, _, hrefused⟩
    · rw [hwaits] at hturn
      cases hturn
      exact ⟨password, _, rfl, hhash⟩
    · cases congrArg Turn.next (hrefused.symm.trans hturn)
  | _ => cases hnext

end Service

end Relay
