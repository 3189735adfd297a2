import Relay.Proofs.Traffic.Admission

/-!
# `Relay.Proofs.Traffic.Registration`: registrations that race for a name and for a seat

Several registrations may pass the check for the same seat, or ask for the same name, before any of
them gets to the directory. The directory stays in order all the same (`Admission.Orderly`, kept by
every step), because the last step asks again for the name and takes its id from the pool.

`directory_in_order` puts together what may be relied on (`Admission.Reliable`): the users are
numbered in the order in which they come, no reply to a registration has an id that an earlier one
had, and a registration is accepted exactly if it is `Acceptable` when it gets to the directory.
-/

set_option autoImplicit false

namespace Relay

namespace Admission

variable {S : Service} {first s : Traffic} {h : List (Step S)} {step : Step S} {conn : ConnId}
  {t : Moment} {call : Call}

/-- The ids with which registrations have been replied to. -/
def grantedIds (h : List (Step S)) : List UserId := h.flatMap Step.granted

/-- There were fewer users than allowed when the registration that is under way on a connection asked
for their number. No message has come in on the connection since, so it is still the same one. -/
def CountPassed (h : List (Step S)) (conn : ConnId) (m : Message) : Prop :=
  ∃ (h₁ h₂ : List (Step S)) (step : Step S) (t : Moment) (call : Call),
    h = h₁ ++ step :: h₂ ∧ step.Resumes conn t call ∧ call.message = m ∧
      call.pending = .seats m.body ∧ t.outage .usersCount = none ∧
      step.before.state.store.directory.users.length < S.config.maxUsers.toNat ∧
      ∀ later ∈ h₂, ∀ (t : Moment) (m : Message), later.event ≠ .traffic (.receive conn t m)

/-- What lets a registration through in the end. -/
structure Acceptable (h : List (Step S)) (s : Traffic) (conn : ConnId) (call : Call) : Prop where
  /-- It has got to the directory. -/
  reached : ∃ (name : Username) (record : String), call.pending = .enrolment name record
  /-- There were not too many users when it asked. -/
  counted : CountPassed h conn call.message
  /-- Its name and its password are there and not almost blank. -/
  fit : FitForRegistration call.message.body
  /-- Nobody has the name. -/
  unnamed : ∀ user ∈ s.state.store.directory.users,
    user.name.bytes ≠ call.message.body.take nameSize
  /-- An id is free. -/
  vacant : ∃ id < S.config.maxUsers, s.state.store.directory.ids.isTaken id = false

/-! ### The invariant -/

/-- The check of a registration stays behind it as long as no other message comes in on its
connection. -/
theorem CountPassed.snoc {m : Message} (hpassed : CountPassed h conn m)
    (hother : ∀ (t : Moment) (m : Message), step.event ≠ .traffic (.receive conn t m)) :
    CountPassed (h ++ [step]) conn m := by
  obtain ⟨h₁, h₂, check, t, call, rfl, hresumes, hmessage, hpending, hstore, hroom, hlater⟩ :=
    hpassed
  refine ⟨h₁, h₂ ++ [step], check, t, call, by simp, hresumes, hmessage, hpending, hstore, hroom, ?_⟩
  intro later hmem
  rcases List.mem_append.1 hmem with hmem | hmem
  · exact hlater later hmem
  · obtain rfl := List.mem_singleton.1 hmem
    exact hother

/-- The directory is in order, and so are the registrations under way. -/
structure Orderly (h : List (Step S)) (s : Traffic) : Prop where
  /-- The users are numbered in the order in which they came. -/
  inOrder : s.state.store.directory.InOrder
  /-- There is an id for every user whom the settings allow. -/
  capacity : s.state.store.directory.ids.capacity = S.config.maxUsers
  /-- Whoever was told an id is a user. -/
  granted : ∀ id ∈ grantedIds h, id.toNat < s.state.store.directory.users.length
  /-- No two were told the same id. -/
  distinct : (grantedIds h).Nodup
  /-- What is waited for is part of what a message asks for. -/
  serves : ∀ (conn : ConnId) (call : Call), s.calls.get? conn = some call →
    ∃ user : Option User, call.pending.Serves call.message user
  /-- Registrations that go on have been checked. -/
  checked : ∀ (conn : ConnId) (call : Call), s.calls.get? conn = some call →
    call.pending.isSeated → CountPassed h conn call.message ∧ FitForRegistration call.message.body

theorem grantedIds_snoc (h : List (Step S)) (step : Step S) :
    grantedIds (h ++ [step]) = grantedIds h ++ step.granted := by
  simp [grantedIds]

theorem orderly_opening (hopening : Traffic.Opening S first) : Orderly (S := S) [] first := by
  obtain ⟨-, -, hcapacity, -⟩ := hopening.store
  have hnone (conn : ConnId) : first.calls.get? conn = none := by rw [hopening.calls]; rfl
  refine ⟨?_, hcapacity, List.forall_mem_nil _, List.nodup_nil, ?_, ?_⟩
  · obtain ⟨_, _, _, _, _, _, hstore, rfl⟩ := hopening.eq
    exact Store.inOrder_initial hstore
  · intro conn call hcall
    cases (hnone conn).symm.trans hcall
  · intro conn call hcall
    cases (hnone conn).symm.trans hcall

/-- The directory stays in order, and only ids of new users are told. -/
theorem Orderly.directory_snoc (hs : Orderly h step.before) :
    step.after.state.store.directory.InOrder ∧
      step.after.state.store.directory.ids.capacity = S.config.maxUsers ∧
      (∀ id ∈ grantedIds (h ++ [step]),
        id.toNat < step.after.state.store.directory.users.length) ∧
      (grantedIds (h ++ [step])).Nodup := by
  -- A user who is entered gets the next number, which nobody was told before.
  have entered {name : Username} {record : String} {user : User}
      (henrol : step.before.state.store.directory.enrol name record =
        .ok (user, step.after.state.store.directory)) :
      step.after.state.store.directory.ids.capacity = S.config.maxUsers ∧
        user.id.toNat = step.before.state.store.directory.users.length ∧
        step.after.state.store.directory.users.length =
          step.before.state.store.directory.users.length + 1 := by
    obtain ⟨-, -, huser, -⟩ := hs.inOrder.enrol_eq henrol
    refine ⟨?_, ?_, ?_⟩
    · exact (IdPool.take?_eq_some (Directory.enrol_eq_ok henrol).1).2.trans hs.capacity
    · rw [huser, hs.inOrder.toNat_ofNat]
    · rw [hs.inOrder.users_of_enrol henrol, List.length_append, List.length_singleton]
  rw [grantedIds_snoc]
  cases step.directoryEffect with
  | same hsame hnone =>
    rw [hsame, Step.granted_of_forall hnone, List.append_nil]
    exact ⟨hs.inOrder, hs.capacity, hs.granted, hs.distinct⟩
  | @registered _ _ _ _ _ user _ _ henrol hreplies =>
    obtain ⟨hcapacity, hnumber, hlength⟩ := entered henrol
    have hgranted : step.granted = [user.id] := by
      rw [Step.granted, hreplies]
      rfl
    refine ⟨hs.inOrder.of_enrol henrol, hcapacity, ?_, ?_⟩
    · intro id hid
      rw [hlength]
      rcases List.mem_append.1 hid with hold | hnew
      · exact Nat.lt_succ_of_lt (hs.granted id hold)
      · rw [hgranted, List.mem_singleton] at hnew
        rw [hnew, hnumber]
        exact Nat.lt_succ_self _
    · rw [hgranted, List.nodup_append]
      refine ⟨hs.distinct, List.pairwise_singleton _ _, fun old hold new hnew hsame => ?_⟩
      obtain rfl := List.mem_singleton.1 hnew
      have hbelow := hs.granted old hold
      rw [hsame, hnumber] at hbelow
      exact Nat.lt_irrefl _ hbelow
  | entered _ henrol hreplies =>
    obtain ⟨hcapacity, -, hlength⟩ := entered henrol
    have hgranted : step.granted = [] := by
      rw [Step.granted, hreplies]
      rfl
    rw [hgranted, List.append_nil, hlength]
    exact ⟨hs.inOrder.of_enrol henrol, hcapacity, fun id hid => Nat.lt_succ_of_lt (hs.granted id hid),
      hs.distinct⟩

theorem Orderly.serves_snoc (hs : Orderly h step.before)
    (hcall : step.after.calls.get? conn = some call) :
    ∃ user : Option User, call.pending.Serves call.message user := by
  rcases step.call_cases hcall with ⟨hold, -⟩ | ⟨user, hserves, -⟩ | ⟨t, earlier, hresumes, hnext, hm⟩
  · exact hs.serves conn call hold
  · exact ⟨user, hserves⟩
  · obtain ⟨user, hserves⟩ := hs.serves conn earlier hresumes.call
    rw [hm]
    exact ⟨user, ((S.resumption_resume _ t conn _).serves hserves hnext).1⟩

/-- A registration that goes on has just been checked, or it was checked before. -/
theorem Orderly.checked_snoc (hs : Orderly h step.before)
    (hcall : step.after.calls.get? conn = some call) (hseated : call.pending.isSeated) :
    CountPassed (h ++ [step]) conn call.message ∧ FitForRegistration call.message.body := by
  rcases step.call_cases hcall with
    ⟨hold, hother⟩ | ⟨user, -, hfirst⟩ | ⟨t, earlier, hresumes, hnext, hmessage⟩
  · obtain ⟨hpassed, hfit⟩ := hs.checked conn call hold hseated
    exact ⟨hpassed.snoc hother, hfit⟩
  · -- What has just come in has no seat yet.
    cases hpending : call.pending <;> rw [hpending] at hfirst hseated <;> cases hfirst <;>
      cases hseated
  · rw [hmessage]
    cases hpending : call.pending with
    | hashing name password =>
      -- The check is this very step.
      rw [hpending] at hnext
      obtain ⟨body, hseats, hseat⟩ := Service.of_next_hashing hnext
      obtain ⟨user, hserves⟩ := hs.serves conn earlier hresumes.call
      rw [hseats] at hserves
      cases hserves with
      | seats =>
        have hroom := UInt32.lt_iff_toNat_lt.1 hseat.room
        rw [hs.inOrder.toNat_size] at hroom
        exact ⟨⟨h, [], step, t, earlier, rfl, hresumes, rfl, hseats, hseat.store, hroom,
          List.forall_mem_nil _⟩, hseat.fit⟩
    | enrolment name record =>
      -- The check was made before the password was hashed.
      rw [hpending] at hnext
      obtain ⟨password, -, hhashing, -⟩ := Service.of_next_enrolment hnext
      obtain ⟨hpassed, hfit⟩ := hs.checked conn earlier hresumes.call (by rw [hhashing]; rfl)
      refine ⟨hpassed.snoc fun t m hevent => ?_, hfit⟩
      cases hresumes.event.symm.trans hevent
    | _ =>
      rw [hpending] at hseated
      cases hseated

/-- Every run keeps the directory in order. -/
theorem Run.orderly (hrun : Run S first h s) (hopening : Traffic.Opening S first) : Orderly h s := by
  induction hrun with
  | start => exact orderly_opening hopening
  | snoc hrun ih =>
    obtain ⟨hinOrder, hcapacity, hgranted, hdistinct⟩ := ih.directory_snoc
    exact ⟨hinOrder, hcapacity, hgranted, hdistinct, fun _ _ => ih.serves_snoc,
      fun _ _ => ih.checked_snoc⟩

/-- When a new user can be entered into the directory. -/
theorem Orderly.exists_enrol_iff (hs : Orderly h s) {m : Message} {name : Username}
    {password : Password} (hbody : credentials? m.body = some (name, password)) (record : String) :
    (∃ (user : User) (e : Directory), s.state.store.directory.enrol name record = .ok (user, e)) ↔
      (∀ user ∈ s.state.store.directory.users, user.name.bytes ≠ m.body.take nameSize) ∧
        ∃ id < S.config.maxUsers, s.state.store.directory.ids.isTaken id = false := by
  obtain ⟨-, hname, -⟩ := credentials?_eq_some_iff.1 hbody
  rw [hs.inOrder.exists_enrol_iff, ← hs.inOrder.exists_free_iff, hs.capacity, ← hname]
  simp only [List.mem_map, not_exists, not_and]
  constructor
  · rintro ⟨hunnamed, hvacant⟩
    exact ⟨fun user hmem hsame => hunnamed user hmem (Octets.ext hsame), hvacant⟩
  · rintro ⟨hunnamed, hvacant⟩
    exact ⟨fun user hmem hsame => hunnamed user hmem (congrArg Octets.bytes hsame), hvacant⟩

/-- A registration is accepted exactly if everything speaks for it when it gets to the directory. -/
theorem Orderly.registers_iff (hs : Orderly h step.before) (hresumes : step.Resumes conn t call) :
    step.Registers ↔ Acceptable h step.before conn call := by
  obtain ⟨user, hserves⟩ := hs.serves conn call hresumes.call
  have hchecked := hs.checked conn call hresumes.call
  constructor
  · intro hregisters
    obtain ⟨_, _, _, name, record, _, hresumes', hpending, henrol, -⟩ := hregisters.enrols
    obtain ⟨rfl, rfl, rfl⟩ := hresumes.unique hresumes'
    obtain ⟨hpassed, hfit⟩ := hchecked (by rw [hpending]; rfl)
    rw [hpending] at hserves
    cases hserves with
    | enrolment _ hbody =>
      obtain ⟨hunnamed, hvacant⟩ := (hs.exists_enrol_iff hbody record).1 ⟨_, _, henrol⟩
      exact ⟨⟨name, record, hpending⟩, hpassed, hfit, hunnamed, hvacant⟩
  · rintro ⟨⟨name, record, hpending⟩, -, -, hunnamed, hvacant⟩
    rcases hresumes.enters hpending with ⟨hregisters, -⟩ | ⟨-, hrefused⟩
    · exact hregisters
    · rw [hpending] at hserves
      cases hserves with
      | enrolment _ hbody =>
        obtain ⟨_, _, henrol⟩ := (hs.exists_enrol_iff hbody record).2 ⟨hunnamed, hvacant⟩
        exact absurd henrol (hrefused _ _)

/-! ### What may be relied on -/

/-- What may be relied on about users and registrations in a state that a run has led to, whichever
step comes next. -/
structure Reliable (h : List (Step S)) (s : Traffic) : Prop where
  /-- The users are listed by their ids, which are the numbers from zero on. -/
  numbered : s.state.store.directory.users.map (fun user => user.id.toNat) =
    List.range s.state.store.directory.users.length
  /-- There are no more users than allowed. -/
  bounded : s.state.store.directory.users.length ≤ S.config.maxUsers.toNat
  /-- The ids that are taken are those of the users. -/
  taken : ∀ id : UserId, s.state.store.directory.ids.isTaken id ↔
    ∃ user ∈ s.state.store.directory.users, user.id = id
  /-- No two users have the same name. -/
  names : (s.state.store.directory.users.map User.name).Nodup
  /-- The first user is the administrator. -/
  admin : s.state.store.directory.users.head? = some ⟨UserId.admin, Directory.adminName⟩
  /-- No two registrations have been replied to with the same id. -/
  distinct : (grantedIds h).Nodup
  /-- A registration that is let through asks for the number of users. -/
  starts : ∀ (step : Step S) (conn : ConnId) (t : Moment) (m : Message), step.before = s →
    step.event = .traffic (.receive conn t m) → Service.Opens s.state conn m →
    m.flag = .register → s.state.shuttingDown = false →
      ∃ call : Call, step.after.calls.get? conn = some call ∧ call.message = m ∧
        call.pending = .seats m.body
  /-- It goes on to have its password hashed if there is room for a user and its body is fit. -/
  counts : ∀ (step : Step S) (conn : ConnId) (t : Moment) (call : Call) (body : Bytes),
    step.before = s → step.Resumes conn t call → call.pending = .seats body →
      ((∃ (name : Username) (password : Password), step.Awaits conn call (.hashing name password)) ↔
        t.outage .usersCount = none ∧
          s.state.store.directory.users.length < S.config.maxUsers.toNat ∧
          FitForRegistration call.message.body)
  /-- It goes on to the directory if its password can be hashed. -/
  hashes : ∀ (step : Step S) (conn : ConnId) (t : Moment) (call : Call) (name : Username)
    (password : Password), step.before = s → step.Resumes conn t call →
    call.pending = .hashing name password →
      ((∃ record, step.Awaits conn call (.enrolment name record)) ↔
        t.outage .addUser = none ∧ ∃ record,
          S.passwords.hash (s.state.entropy.draw saltSize).1 password.bytes = .ok record)
  /-- It is accepted exactly if everything speaks for it when it gets to the directory. -/
  accepts : ∀ (step : Step S) (conn : ConnId) (t : Moment) (call : Call), step.before = s →
    step.Resumes conn t call → call.message.flag = .register →
      (step.Registers ↔ Acceptable h s conn call)
  /-- If it neither goes on nor is accepted, it is refused. -/
  refuses : ∀ (step : Step S) (conn : ConnId) (t : Moment) (call : Call), step.before = s →
    step.Resumes conn t call → call.message.flag = .register → ¬ step.Registers →
    (∀ p : Pending, ¬ step.Awaits conn call p) → step.Refuses conn t
  /-- Only a registration is replied to as one. Its user is entered under its name and the next
  number, which is the id of the reply. -/
  enters : ∀ step : Step S, step.before = s → step.Registers →
    ∃ (conn : ConnId) (t : Moment) (call : Call) (user : User), step.Resumes conn t call ∧
      call.message.flag = .register ∧ step.replies = [S.message t .registered user.id] ∧
      user.id.toNat = s.state.store.directory.users.length ∧
      user.name.bytes = call.message.body.take nameSize ∧
      step.after.state.store.directory.users = s.state.store.directory.users ++ [user]
  /-- A user who is to be entered past routing is entered under the next number if nobody has the
  name and an id is free, and otherwise not at all. -/
  direct : ∀ (step : Step S) (name : Username) (record : String), step.before = s →
    step.event = .enter name record →
      if name ∉ s.state.store.directory.users.map User.name ∧
          s.state.store.directory.users.length < S.config.maxUsers.toNat then
        ∃ user : User, user.id.toNat = s.state.store.directory.users.length ∧ user.name = name ∧
          step.after.state.store.directory.users = s.state.store.directory.users ++ [user]
      else step.after.state.store.directory = s.state.store.directory
  /-- Nothing else changes the directory: a registration that is refused takes no id. -/
  rests : ∀ step : Step S, step.before = s → ¬ step.Registers →
    (∀ (name : Username) (record : String), step.event ≠ .enter name record) →
      step.after.state.store.directory = s.state.store.directory

theorem Step.starts (step : Step S) {m : Message}
    (hevent : step.event = .traffic (.receive conn t m))
    (hopens : Service.Opens step.before.state conn m) (hflag : m.flag = .register)
    (hup : step.before.state.shuttingDown = false) :
    ∃ call : Call, step.after.calls.get? conn = some call ∧ call.message = m ∧
      call.pending = .seats m.body := by
  obtain ⟨s, event, s', hmoves⟩ := step
  dsimp only at hevent hopens hup ⊢
  subst hevent
  cases hmoves with
  | traffic hmoves =>
    cases hmoves with
    | receive =>
      rw [Traffic.get?_calls_settle, if_pos rfl, Service.begin_register hopens hflag hup]
      exact ⟨_, rfl, rfl, rfl⟩

theorem Orderly.counts (hs : Orderly h step.before) (hresumes : step.Resumes conn t call)
    {body : Bytes} (hpending : call.pending = .seats body) :
    (∃ (name : Username) (password : Password), step.Awaits conn call (.hashing name password)) ↔
      t.outage .usersCount = none ∧
        step.before.state.store.directory.users.length < S.config.maxUsers.toNat ∧
        FitForRegistration call.message.body := by
  obtain ⟨user, hserves⟩ := hs.serves conn call hresumes.call
  rw [hpending] at hserves
  cases hserves with
  | seats =>
    rw [← hs.inOrder.toNat_size, ← UInt32.lt_iff_toNat_lt]
    rcases hresumes.counts hpending with ⟨hseat, hawaits⟩ | ⟨hnot, hrefuses⟩
    · exact iff_of_true hawaits ⟨hseat.store, hseat.room, hseat.fit⟩
    · refine iff_of_false ?_ fun ⟨hstore, hroom, hfit⟩ => hnot ⟨hstore, hroom, hfit⟩
      rintro ⟨name, password, hawaits⟩
      exact hrefuses.not_awaits hawaits

theorem Step.Resumes.exists_record_iff (hresumes : step.Resumes conn t call) {name : Username}
    {password : Password} (hpending : call.pending = .hashing name password) :
    (∃ record, step.Awaits conn call (.enrolment name record)) ↔
      t.outage .addUser = none ∧ ∃ record,
        S.passwords.hash (step.before.state.entropy.draw saltSize).1 password.bytes =
          .ok record := by
  rcases hresumes.hashes hpending with ⟨record, hstore, hhash, hawaits⟩ | ⟨hnot, hrefuses⟩
  · exact iff_of_true ⟨record, hawaits⟩ ⟨hstore, record, hhash⟩
  · refine iff_of_false ?_ ?_
    · rintro ⟨record, hawaits⟩
      exact hrefuses.not_awaits hawaits
    · rintro ⟨hstore, record, hhash⟩
      obtain ⟨reason, hfails⟩ := hnot hstore
      rw [hfails] at hhash
      cases hhash

/-- A registration for which the store has answered goes on, or it is accepted or refused. -/
theorem Orderly.refuses (hs : Orderly h step.before) (hresumes : step.Resumes conn t call)
    (hflag : call.message.flag = .register) (hnot : ¬ step.Registers)
    (hends : ∀ p : Pending, ¬ step.Awaits conn call p) : step.Refuses conn t := by
  obtain ⟨user, hserves⟩ := hs.serves conn call hresumes.call
  rcases hserves.of_register hflag with
    hseats | ⟨name, password, -, hhashing | ⟨record, henrolment⟩⟩
  · rcases hresumes.counts hseats with ⟨-, _, _, hawaits⟩ | ⟨-, hrefuses⟩
    · exact absurd hawaits (hends _)
    · exact hrefuses
  · rcases hresumes.hashes hhashing with ⟨_, -, -, hawaits⟩ | ⟨-, hrefuses⟩
    · exact absurd hawaits (hends _)
    · exact hrefuses
  · rcases hresumes.enters henrolment with ⟨hregisters, -⟩ | ⟨hrefuses, -⟩
    · exact absurd hregisters hnot
    · exact hrefuses

theorem Orderly.enters (hs : Orderly h step.before) (hregisters : step.Registers) :
    ∃ (conn : ConnId) (t : Moment) (call : Call) (user : User), step.Resumes conn t call ∧
      call.message.flag = .register ∧ step.replies = [S.message t .registered user.id] ∧
      user.id.toNat = step.before.state.store.directory.users.length ∧
      user.name.bytes = call.message.body.take nameSize ∧
      step.after.state.store.directory.users =
        step.before.state.store.directory.users ++ [user] := by
  obtain ⟨conn, t, call, name, record, user, hresumes, hpending, henrol, hreplies⟩ :=
    hregisters.enrols
  obtain ⟨-, -, huser, -⟩ := hs.inOrder.enrol_eq henrol
  obtain ⟨_, hserves⟩ := hs.serves conn call hresumes.call
  rw [hpending] at hserves
  cases hserves with
  | enrolment hflag hbody =>
    obtain ⟨-, hname, -⟩ := credentials?_eq_some_iff.1 hbody
    refine ⟨conn, t, call, user, hresumes, hflag, hreplies, ?_, ?_,
      hs.inOrder.users_of_enrol henrol⟩
    · rw [huser, hs.inOrder.toNat_ofNat]
    · rw [huser, ← hname]

theorem Orderly.direct (hs : Orderly h step.before) {name : Username} {record : String}
    (hevent : step.event = .enter name record) :
    if name ∉ step.before.state.store.directory.users.map User.name ∧
        step.before.state.store.directory.users.length < S.config.maxUsers.toNat then
      ∃ user : User, user.id.toNat = step.before.state.store.directory.users.length ∧
        user.name = name ∧
        step.after.state.store.directory.users =
          step.before.state.store.directory.users ++ [user]
    else step.after.state.store.directory = step.before.state.store.directory := by
  have hiff := hs.inOrder.exists_enrol_iff name record
  rw [hs.capacity] at hiff
  obtain ⟨s, event, s', hmoves⟩ := step
  dsimp only at hevent hs hiff ⊢
  subst hevent
  cases hmoves with
  | enter =>
    rcases enter_cases s.state.store.directory name record with ⟨user, henrol⟩ | ⟨hsame, hnot⟩
    · rw [if_pos (hiff.1 ⟨_, _, henrol⟩)]
      obtain ⟨-, -, huser, -⟩ := hs.inOrder.enrol_eq henrol
      refine ⟨user, ?_, ?_, hs.inOrder.users_of_enrol henrol⟩
      · rw [huser, hs.inOrder.toNat_ofNat]
      · rw [huser]
    · rw [if_neg fun hfit => ?_]
      · exact hsame
      · obtain ⟨user, e, henrol⟩ := hiff.2 hfit
        exact hnot user e henrol

theorem Step.rests (step : Step S) (hnot : ¬ step.Registers)
    (hother : ∀ (name : Username) (record : String), step.event ≠ .enter name record) :
    step.after.state.store.directory = step.before.state.store.directory := by
  cases step.directoryEffect with
  | same hsame => exact hsame
  | @registered _ t _ _ _ user _ _ _ hreplies =>
    refine absurd ⟨S.message t .registered user.id, ?_, rfl⟩ hnot
    rw [hreplies]
    exact List.mem_singleton_self _
  | entered hevent => exact absurd hevent (hother _ _)

/-- However registrations race with one another and with users who are entered past routing, the
directory stays in order, and it is said exactly which registrations are accepted. -/
theorem directory_in_order (hopening : Traffic.Opening S first) (hrun : Run S first h s) :
    Reliable h s := by
  have hs := hrun.orderly hopening
  constructor
  · exact hs.inOrder.numbered
  · exact hs.capacity ▸ hs.inOrder.length_le
  · exact hs.inOrder.isTaken_iff
  · exact hs.inOrder.names
  · exact hs.inOrder.admin
  · exact hs.distinct
  · rintro step conn t m rfl hevent hopens hflag hup
    exact step.starts hevent hopens hflag hup
  · rintro step conn t call body rfl hresumes hpending
    exact hs.counts hresumes hpending
  · rintro step conn t call name password rfl hresumes hpending
    exact hresumes.exists_record_iff hpending
  · rintro step conn t call rfl hresumes -
    exact hs.registers_iff hresumes
  · rintro step conn t call rfl hresumes hflag hnot hends
    exact hs.refuses hresumes hflag hnot hends
  · rintro step rfl hregisters
    exact hs.enters hregisters
  · rintro step name record rfl hevent
    exact hs.direct hevent
  · rintro step rfl hnot hother
    exact step.rests hnot hother

/-- Two registrations race for the same name, and another user is entered past routing while their
passwords are hashed: the one that gets to the directory first is accepted, the other one is
refused, and both users are numbered. -/
theorem directory_in_order_race :
    ∃ (h : List (Step Sample.relay)) (s : Traffic),
      Traffic.Opening Sample.relay Sample.first ∧ Run Sample.relay Sample.first h s ∧
        s.state.store.directory.users =
          [Sample.admin, ⟨1, .padded nameSize [0x61, 0x6e, 0x6e, 0x61]⟩,
            ⟨2, Sample.guest.name⟩] ∧
        Reliable h s := by
  let racing : List Traffic.Event :=
    [.connect 5 8 0, .connect 6 8 0,
      .receive 5 ⟨1, .none⟩ (Sample.preamble .register Sample.guest),
      .receive 6 ⟨2, .none⟩ (Sample.preamble .register Sample.guest),
      .resume 5 ⟨3, .none⟩, .resume 6 ⟨4, .none⟩, .resume 5 ⟨5, .none⟩, .resume 6 ⟨6, .none⟩]
  let anna : Username := .padded nameSize [0x61, 0x6e, 0x6e, 0x61]
  let admitted (s : Traffic) : Traffic :=
    { s with state.store.directory := s.state.store.directory.enter anna "" }
  let arriving : List Traffic.Event := [.resume 6 ⟨7, .none⟩, .resume 5 ⟨8, .none⟩]
  have hsome : (Sample.first.follow? Sample.relay racing).isSome := by decide +kernel
  obtain ⟨⟨h₁, s₁⟩, hfollow₁⟩ := Option.isSome_iff_exists.1 hsome
  have harrives := Traffic.check_of_follow? hfollow₁
    (fun s => ((admitted s).follow? Sample.relay arriving).any fun run =>
      run.2.state.store.directory.users = [Sample.admin, ⟨1, anna⟩, ⟨2, Sample.guest.name⟩])
    (by decide +kernel)
  obtain ⟨⟨h₂, s₂⟩, hfollow₂, husers⟩ := (Option.any_eq_true _ _).1 harrives
  obtain ⟨h₁', h₁run, -⟩ := exists_run_traffic (Traffic.run_of_follow? hfollow₁).1
  obtain ⟨h₂', h₂run, -⟩ := exists_run_traffic (Traffic.run_of_follow? hfollow₂).1
  let entry : Step Sample.relay := ⟨s₁, .enter anna "", admitted s₁, .enter anna ""⟩
  have hentry : Run Sample.relay Sample.first (h₁' ++ [entry]) entry.after := .snoc h₁run
  have hrun := hentry.trans h₂run
  exact ⟨_, s₂, Sample.opening, hrun, of_decide_eq_true husers,
    directory_in_order Sample.opening hrun⟩

end Admission

end Relay
