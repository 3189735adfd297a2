import Relay.Proofs.Traffic.Basic

/-!
# `Relay.Proofs.Traffic.Execution`: following events

`Moves` says what an event leads to. Here it is computed: `next?` is `none` where an event cannot
happen, and `next?_eq_some_iff` says that it agrees with `Moves`. `follow?` takes a list of events
one after the other, and what it gives is a run (`run_of_follow?`).

`Sample` is a small relay to follow events on. Its primitives are no cryptography, but they keep the
laws that are assumed of it: what was sealed is opened again, and a password fits the record that
was made of it.
-/

set_option autoImplicit false

namespace Relay

namespace Traffic

variable (S : Service)

/-- What an event leads to, if it can happen. -/
def next? (s : Traffic) : Event → Option Traffic
  | .connect conn capacity now =>
    match s.state.connect conn capacity now with
    | .error _ => none
    | .ok σ => some { s with state := σ }
  | .disconnect conn => some { s with state := s.state.purge conn }
  | .receive conn t m =>
    match s.calls.get? conn with
    | some _ => none
    | none =>
      some (s.settle conn m (s.state.registry.user? conn) [] (S.begin s.state t conn m))
  | .resume conn t =>
    match s.calls.get? conn with
    | none => none
    | some call =>
      some (s.settle conn call.message call.user call.replies
        (S.resume s.state t conn call.pending))
  | .abort conn => some { state := s.state.purge conn, calls := s.calls.erase conn }
  | .collect conn =>
    some { s with state.outboxes := s.state.outboxes.modify conn Outbox.dropNext }
  | .close conn => some { s with state.outboxes := s.state.outboxes.modify conn Outbox.close }
  | .draw size => some { s with state.entropy := (s.state.entropy.draw size).2 }
  | .stop => some { s with state := s.state.markShuttingDown }

variable {S}

/-- What is computed is what can happen. -/
theorem next?_eq_some_iff {s s' : Traffic} {event : Event} :
    s.next? S event = some s' ↔ Moves S s event s' := by
  constructor
  · intro h
    cases event with
    | connect conn capacity now =>
      simp only [next?] at h
      split at h
      · cases h
      · rename_i hopen
        cases h
        exact .connect hopen
    | receive conn t m =>
      simp only [next?] at h
      split at h
      · cases h
      · rename_i hidle
        cases h
        exact .receive t m hidle
    | resume conn t =>
      simp only [next?] at h
      split at h
      · cases h
      · rename_i hcall
        cases h
        exact .resume t hcall
    | disconnect conn =>
      cases h
      exact .disconnect conn
    | abort conn =>
      cases h
      exact .abort conn
    | collect conn =>
      cases h
      exact .collect conn
    | close conn =>
      cases h
      exact .close conn
    | draw size =>
      cases h
      exact .draw size
    | stop =>
      cases h
      exact .stop
  · intro h
    cases h with
    | connect hopen => simp only [next?, hopen]
    | receive t m hidle => simp only [next?, hidle]
    | resume t hcall => simp only [next?, hcall]
    | _ => rfl

variable (S)

/-- The steps that events lead to one after the other, if all of them can happen. -/
def follow? (s : Traffic) : List Event → Option (List (Step S) × Traffic)
  | [] => some ([], s)
  | event :: rest =>
    match hnext : s.next? S event with
    | none => none
    | some s' =>
      (follow? s' rest).map fun run =>
        (⟨s, event, s', next?_eq_some_iff.1 hnext⟩ :: run.1, run.2)

variable {S}

/-- Events that are followed make a run of just these events. -/
theorem run_of_follow? {s last : Traffic} {events : List Event} {h : List (Step S)}
    (hfollow : s.follow? S events = some (h, last)) :
    Run S s h last ∧ h.map Step.event = events := by
  induction events generalizing s h with
  | nil =>
    cases hfollow
    exact ⟨.start, rfl⟩
  | cons event rest ih =>
    simp only [follow?] at hfollow
    split at hfollow
    · cases hfollow
    · rename_i s' hnext
      obtain ⟨⟨h', last'⟩, hrest, heq⟩ := Option.map_eq_some_iff.1 hfollow
      cases heq
      obtain ⟨hrun, hevents⟩ := ih hrest
      let step : Step S := ⟨s, event, s', next?_eq_some_iff.1 hnext⟩
      refine ⟨?_, ?_⟩
      · exact (run_singleton step).trans hrun
      · rw [List.map_cons, hevents]

/-- What is checked of where events lead to holds there. -/
theorem check_of_follow? {s last : Traffic} {events : List Event} {h : List (Step S)}
    (hfollow : s.follow? S events = some (h, last)) (check : Traffic → Bool)
    (hcheck : (s.follow? S events).any fun run => check run.2) : check last := by
  rw [hfollow] at hcheck
  exact hcheck

/-- A step among those that were followed leads from where the events before it lead to. -/
theorem split_of_follow? {s last : Traffic} {earlier later : List Event} {event : Event}
    {h : List (Step S)} (hfollow : s.follow? S (earlier ++ event :: later) = some (h, last)) :
    ∃ (h₁ h₂ : List (Step S)) (step : Step S), h = h₁ ++ step :: h₂ ∧ step.event = event ∧
      s.follow? S earlier = some (h₁, step.before) := by
  induction earlier generalizing s h with
  | nil =>
    rw [List.nil_append] at hfollow
    simp only [follow?] at hfollow
    split at hfollow
    · cases hfollow
    · rename_i s' hnext
      obtain ⟨⟨h', last'⟩, -, heq⟩ := Option.map_eq_some_iff.1 hfollow
      cases heq
      exact ⟨[], h', ⟨s, event, s', next?_eq_some_iff.1 hnext⟩, rfl, rfl, rfl⟩
  | cons earliest earlier ih =>
    rw [List.cons_append] at hfollow
    simp only [follow?] at hfollow
    split at hfollow
    · cases hfollow
    · rename_i s' hnext
      obtain ⟨⟨h', last'⟩, hrest, heq⟩ := Option.map_eq_some_iff.1 hfollow
      cases heq
      obtain ⟨h₁, h₂, step, rfl, hevent, hbefore⟩ := ih hrest
      refine ⟨_ :: h₁, h₂, step, rfl, hevent, ?_⟩
      simp only [follow?]
      split
      · rename_i hnone
        rw [hnext] at hnone
        cases hnone
      · rename_i s'' hnext'
        rw [hnext] at hnext'
        cases hnext'
        rw [hbefore]
        rfl

/-- The last step of those that were followed leads from where the events before it lead to. -/
theorem snoc_of_follow? {s last : Traffic} {earlier : List Event} {event : Event}
    {h : List (Step S)} (hfollow : s.follow? S (earlier ++ [event]) = some (h, last)) :
    ∃ (h₁ : List (Step S)) (step : Step S), h = h₁ ++ [step] ∧ step.event = event ∧
      s.follow? S earlier = some (h₁, step.before) ∧ last = step.after := by
  obtain ⟨hrun, hevents⟩ := run_of_follow? hfollow
  obtain ⟨h₁, h₂, step, rfl, hevent, hbefore⟩ := split_of_follow? hfollow
  rw [List.map_append, List.map_cons, (run_of_follow? hbefore).2] at hevents
  obtain rfl : h₂ = [] :=
    List.map_eq_nil_iff.1 (List.cons.inj (List.append_cancel_left hevents)).2
  exact ⟨h₁, step, rfl, hevent, hbefore, run_nil_iff.1 (run_append_cons_iff.1 hrun).2⟩

variable (S)

/-- Events lead from one state to another. -/
def Leads (s : Traffic) (events : List Event) (last : Traffic) : Prop :=
  ∃ h : List (Step S), Run S s h last ∧ h.map Step.event = events

variable {S}

namespace Leads

variable {s s' last : Traffic} {event : Event} {events later : List Event}

theorem nil (s : Traffic) : Leads S s [] s := ⟨[], .start, rfl⟩

theorem cons (hnext : s.next? S event = some s') (h : Leads S s' events last) :
    Leads S s (event :: events) last := by
  obtain ⟨steps, hrun, rfl⟩ := h
  let step : Step S := ⟨s, event, s', next?_eq_some_iff.1 hnext⟩
  exact ⟨[step] ++ steps, (run_singleton step).trans hrun, rfl⟩

theorem append (h : Leads S s events s') (hlater : Leads S s' later last) :
    Leads S s (events ++ later) last := by
  obtain ⟨steps, hrun, rfl⟩ := h
  obtain ⟨more, hmore, rfl⟩ := hlater
  exact ⟨steps ++ more, hrun.trans hmore, List.map_append⟩

end Leads

/-- A message that waits for the store goes on with what the store answers. -/
theorem next?_resume_wait {σ : State} {t : Moment} {conn : ConnId} {p : Pending}
    {turn : Turn} (s : Traffic) (m : Message) (user : Option User)
    (hresume : S.resume σ t conn p = turn) :
    (s.settle conn m user [] (Turn.wait σ p)).next? S (.resume conn t) =
      some ((s.settle conn m user [] (Turn.wait σ p)).settle conn m user [] turn) := by
  have hcall : (s.settle conn m user [] (Turn.wait σ p)).calls.get? conn =
      some ⟨m, user, p, []⟩ := by
    simp [get?_calls_settle, Turn.wait]
  simp only [next?, hcall]
  rw [← hresume]
  rfl

end Traffic

/-! ### A small relay -/

namespace Sample

/-- Puts a part of the key behind a text in place of a tag. -/
def aead : Aead where
  encrypt key _ text := text ++ key.bytes.take sealOverhead
  decrypt? key _ sealed :=
    let text := sealed.take (sealed.length - sealOverhead)
    if sealed = text ++ key.bytes.take sealOverhead then some text else none
  length_encrypt key _ text := by simp [key.length_eq, keySize, sealOverhead]

theorem inverts_aead : aead.Inverts := by
  intro key nonce text
  have hsize : (key.bytes.take sealOverhead).length = sealOverhead := by
    simp [key.length_eq, keySize, sealOverhead]
  have htext : (text ++ key.bytes.take sealOverhead).take
      ((text ++ key.bytes.take sealOverhead).length - sealOverhead) = text := by
    apply List.take_left'
    rw [List.length_append, hsize, Nat.add_sub_cancel]
  simp only [aead]
  rw [htext, if_pos rfl]

/-- Primitives that can be evaluated. -/
def suite : Suite where
  aead
  agreement := ⟨id, fun _ key => some key⟩
  signatures := ⟨id, fun _ => true, fun seed _ => .padded signatureSize seed.bytes,
    fun _ _ _ => true⟩
  derive _ _ _ size := .zero size

/-- Keeps a password as it is. -/
def passwords : PasswordScheme where
  hash _ password := .ok (String.ofList (password.map fun b => Char.ofNat b.toNat))
  verify password record := record == String.ofList (password.map fun b => Char.ofNat b.toNat)

/-- A password fits the record of no other. -/
theorem verify_passwords (salt : Salt) (password other : Password) (record : String)
    (h : passwords.hash salt password.bytes = .ok record) :
    passwords.verify other.bytes record ↔ other = password := by
  have hnumber (b : UInt8) : (Char.ofNat b.toNat).toNat = b.toNat := by
    have hvalid : b.toNat.isValidChar := .inl (Nat.lt_trans b.toNat_lt (by decide))
    rw [Char.ofNat, dif_pos hvalid]
    rfl
  have hinj (b c : UInt8) (hsame : Char.ofNat b.toNat = Char.ofNat c.toNat) : b = c := by
    rw [← UInt8.toNat_inj, ← hnumber b, ← hnumber c, hsame]
  cases h
  simp only [passwords, beq_iff_eq, String.ofList_inj, List.map_inj_right hinj]
  exact ⟨fun hsame => Octets.ext hsame.symm, fun hsame => congrArg Octets.bytes hsame.symm⟩

/-- Room for a few users. -/
def config : Config := { maxUsers := 4 }

/-- The store that a relay with few users starts with, and the entropy that is left. -/
def opened : Store × Entropy :=
  match Store.initial passwords config.maxUsers config.adminPasswordBytes ⟨[], 0⟩ with
  | .ok opened => opened
  | .error _ => (⟨⟨[], .empty 0⟩, {}⟩, ⟨[], 0⟩)

/-- The unchanging part of the relay. -/
def relay : Service := (Service.start suite passwords config (.zero keySize) opened.1 opened.2).1

/-- The relay when it has just come up. -/
def first : Traffic where
  state := (Service.start suite passwords config (.zero keySize) opened.1 opened.2).2

theorem initial_eq :
    Store.initial passwords config.maxUsers config.adminPasswordBytes ⟨[], 0⟩ = .ok opened := by
  decide +kernel

theorem opening : Traffic.Opening relay first :=
  ⟨suite, passwords, config, .zero keySize, opened.1, ⟨[], 0⟩, opened.2, initial_eq, rfl, rfl⟩

theorem seals_tokens : relay.tokens.Seals := fun _ _ => rfl

/-- The same relay, with a cipher that fails whenever it is to seal a token. -/
def mute : Service :=
  (Service.start { suite with refuses := fun _ _ _ => true } passwords config (.zero keySize)
    opened.1 opened.2).1

theorem opening_mute : Traffic.Opening mute first :=
  ⟨_, passwords, config, .zero keySize, opened.1, ⟨[], 0⟩, opened.2, initial_eq, rfl, rfl⟩

/-- The administrator, whose password is the name. -/
def admin : User := ⟨UserId.admin, Directory.adminName⟩

/-- The first user who registers. -/
def guest : User := ⟨1, .padded nameSize [0x67, 0x75, 0x65, 0x73, 0x74]⟩

/-- A log-in or a registration of a user whose password is the name. -/
def preamble (flag : Flag) (user : User) : Message where
  flag
  timestamp := 0
  sender := UserId.fromAnonymous
  recipient := UserId.toRelay
  token := .empty
  body := user.name.bytes ++ user.name.bytes

/-- The token of a user on a connection. -/
def token (conn : ConnId) (user : User) : Token := relay.tokens.layOut (.zero nonceSize) conn user.id

/-- A request of a user on a connection. -/
def request (flag : Flag) (conn : ConnId) (user : User) (recipient : UserId) (body : Bytes) :
    Message where
  flag
  timestamp := 100
  sender := user.id
  recipient
  token := token conn user
  body

/-- A fetch of all messages for a user. -/
def fetch (conn : ConnId) (user : User) : Message :=
  request .fetchMessages conn user UserId.toRelay (FetchRequest.toMe :: word64 0)

/-- A guest registers, the administrator and the guest log in, the administrator writes to the
guest, and the guest asks for messages, which are looked for. -/
def conversation : List Traffic.Event :=
  [.connect 5 8 0, .receive 5 ⟨1, .none⟩ (preamble .logIn admin), .resume 5 ⟨2, .none⟩,
   .connect 6 8 0, .receive 6 ⟨3, .none⟩ (preamble .register guest), .resume 6 ⟨4, .none⟩,
   .resume 6 ⟨5, .none⟩, .resume 6 ⟨6, .none⟩,
   .connect 6 8 0, .receive 6 ⟨7, .none⟩ (preamble .logIn guest), .resume 6 ⟨8, .none⟩,
   .receive 5 ⟨9, .none⟩ (request .proceed 5 admin guest.id [1, 2, 3]), .resume 5 ⟨10, .none⟩,
   .resume 5 ⟨11, .none⟩,
   .receive 6 ⟨12, .none⟩ (fetch 6 guest), .resume 6 ⟨13, .none⟩]

end Sample

end Relay
